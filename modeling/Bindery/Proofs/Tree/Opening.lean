import Mathlib.Data.List.Basic
import Bindery.Proofs.Tree.Place

/-!
# Opening and writing files

`Opens` says what opening a file at a location does to a tree, and `Node.grown` what adding bytes
to a file does to a node.  No two files of a tree have the same serial number (`serialAt_unique`), so
that opening, appending and writing leave all other locations alone.
-/

namespace Bindery

namespace Tree

variable {T T' opened : Tree} {l k base : Location} {p : Path}

/-! ### Opening and appending -/

/-- Opening the file at a location leads to a serial number and a tree. -/
inductive Opens (T : Tree) (l : Location) (emptied : Bool) (mode : Nat) : Nat → Tree → Prop where
  /-- The file is there. -/
  | old {serial oldMode : Nat} {bytes : Bytes}
      (found : T.lookup l = some (.file serial oldMode bytes)) :
    Opens T l emptied mode serial
      (T.set l (.file serial oldMode (if emptied then [] else bytes)))
  /-- The file is created. -/
  | new (missing : T.lookup l = none) :
    Opens T l emptied mode T.nextSerial (T.addFile l mode [])

theorem openFile_eq_ok_iff {emptied : Bool} {mode serial : Nat} :
  T.openFile base p emptied mode = .ok (serial, opened)
    ↔ T.HasRoom base p ∧ T.Opens (p.place base).location emptied mode serial opened
  := by
  constructor
  · intro h
    unfold openFile at h
    split at h
    · cases h
    rename_i place hplace
    obtain rfl := eq_place_of_resolve hplace
    split at h
    · cases h
    · rename_i found
      split at h
      · cases h
      rename_i hslash
      cases h
      exact ⟨⟨hplace, eq_false_of_ne_true hslash⟩, .old found⟩
    · rename_i missing
      split at h
      · cases h
      rename_i hslash
      cases h
      exact ⟨⟨hplace, eq_false_of_ne_true hslash⟩, .new missing⟩
  · rintro ⟨⟨hplace, hslash⟩, hopens⟩
    unfold openFile
    rw [hplace]
    cases hopens with
    | old found => simp [found, hslash]
    | new missing => simp [missing, hslash]

theorem lookup_append (T : Tree) (serial : Nat) (bytes : Bytes) (k : Location) :
  (T.append serial bytes).lookup k = (T.lookup k).map (Node.grown serial bytes)
  := by
  by_cases hk : k = []
  · simp [lookup, hk, Node.grown]
  · rw [lookup, lookup, if_neg hk, if_neg hk, append, List.find?_map, Option.map_map,
      Option.map_map]
    rfl

/-! ### Serial numbers -/

/-- The serial number of the file at a location. -/
def serialAt (T : Tree) (l : Location) : Option Nat :=
  (T.lookup l).bind Node.serial?

theorem exists_file_of_serialAt {serial : Nat} (h : T.serialAt l = some serial) :
  ∃ mode bytes, T.lookup l = some (.file serial mode bytes)
  := by
  unfold serialAt at h
  cases hnode : T.lookup l with
  | none => simp [hnode] at h
  | some node =>
    cases node with
    | dir mode => simp [hnode, Node.serial?] at h
    | file s mode bytes =>
      simp [hnode, Node.serial?] at h
      subst h
      exact ⟨mode, bytes, rfl⟩

theorem isDirAt_nil (T : Tree) :
  T.isDirAt [] = true
  := by simp [isDirAt, lookup, Node.isDir]

theorem ne_nil_of_isDirAt (h : T.isDirAt l = false) :
  l ≠ []
  := by
  rintro rfl
  rw [isDirAt_nil] at h
  cases h

/-- No two files have the same serial number. -/
theorem serialAt_unique {serial : Nat} (hl : T.serialAt l = some serial)
    (hk : T.serialAt k = some serial) :
  l = k
  := by
  have hentry {l : Location} (h : T.serialAt l = some serial) :
      ∃ n, (l, n) ∈ T.nodes ∧ n.serial? = some serial := by
    obtain ⟨mode, bytes, hfile⟩ := exists_file_of_serialAt h
    have hnil : l ≠ [] := by
      rintro rfl
      rw [lookup, if_pos rfl] at hfile
      cases hfile
    exact ⟨_, exists_entry_of_lookup hnil hfile, rfl⟩
  obtain ⟨n, hn, hserial⟩ := hentry hl
  obtain ⟨n', hn', hserial'⟩ := hentry hk
  exact congrArg Prod.fst (T.numbered.unique hn hn' hserial hserial')

theorem serialAt_append (T : Tree) (serial : Nat) (bytes : Bytes) (l : Location) :
  (T.append serial bytes).serialAt l = T.serialAt l
  := by
  rw [serialAt, serialAt, lookup_append]
  cases T.lookup l with
  | none => rfl
  | some n => exact Node.serial?_grown serial bytes n

/-! ### Effects of opening -/

variable {emptied : Bool} {mode serial : Nat} {bytes : Bytes}

theorem Opens.isDirAt_eq_false (h : T.Opens l emptied mode serial opened) :
  T.isDirAt l = false
  := by
  cases h with
  | old found => simp [isDirAt, found, Node.isDir]
  | new missing => simp [isDirAt, missing]

theorem Opens.ne_nil (h : T.Opens l emptied mode serial opened) :
  l ≠ []
  := ne_nil_of_isDirAt h.isDirAt_eq_false

theorem exists_opens (h : T.isDirAt l = false) (emptied : Bool) (mode : Nat) :
  ∃ serial opened, T.Opens l emptied mode serial opened
  := by
  cases hnode : T.lookup l with
  | none => exact ⟨_, _, .new hnode⟩
  | some node =>
    cases node with
    | dir _ => simp [isDirAt, hnode, Node.isDir] at h
    | file => exact ⟨_, _, .old hnode⟩

/-- Opening a file leaves all other locations alone. -/
theorem Opens.lookup_of_ne (h : T.Opens l emptied mode serial opened) (hk : k ≠ l) :
  opened.lookup k = T.lookup k
  := by
  have hl := h.ne_nil
  cases h with
  | old found => rw [lookup_set hl (admits_of_lookup found _ _), if_neg hk]
  | new missing => rw [lookup_addFile hl, if_neg hk]

/-- A file that was opened is there, and holds what it held unless it was emptied. -/
theorem Opens.lookup_self (h : T.Opens l emptied mode serial opened) :
  ∃ mode, opened.lookup l = some (.file serial mode (if emptied then [] else T.contents l))
  := by
  have hl := h.ne_nil
  cases h with
  | old found =>
    rw [lookup_set hl (admits_of_lookup found _ _), if_pos rfl, contents, found]
    exact ⟨_, rfl⟩
  | new missing =>
    rw [lookup_addFile hl, if_pos rfl, contents, missing, ite_self]
    exact ⟨_, rfl⟩

theorem Opens.lookup_kept (h : T.Opens l false mode serial opened) :
  ∃ mode, opened.lookup l = some (.file serial mode (T.contents l))
  := h.lookup_self

theorem Opens.serialAt_self (h : T.Opens l emptied mode serial opened) :
  opened.serialAt l = some serial
  := by
  obtain ⟨mode, hlookup⟩ := h.lookup_self
  rw [serialAt, hlookup]
  rfl

theorem Opens.isDirAt (h : T.Opens l emptied mode serial opened) (k : Location) :
  opened.isDirAt k = T.isDirAt k
  := by
  by_cases hk : k = l
  · subst hk
    obtain ⟨mode, hlookup⟩ := h.lookup_self
    rw [h.isDirAt_eq_false, Tree.isDirAt, hlookup]
    rfl
  · rw [Tree.isDirAt, h.lookup_of_ne hk, Tree.isDirAt]

/-! ### Effects of appending -/

theorem lookup_append_self {oldMode : Nat} {old : Bytes}
    (h : T.lookup l = some (.file serial oldMode old)) (bytes : Bytes) :
  (T.append serial bytes).lookup l = some (.file serial oldMode (old ++ bytes))
  := by
  rw [lookup_append, h, Option.map_some, Node.grown, if_pos rfl]

/-- Appending to a file leaves all other locations alone. -/
theorem lookup_append_of_ne (hl : T.serialAt l = some serial) (bytes : Bytes) (hk : k ≠ l) :
  (T.append serial bytes).lookup k = T.lookup k
  := by
  rw [lookup_append]
  cases hnode : T.lookup k with
  | none => rfl
  | some node =>
    cases node with
    | dir mode => rfl
    | file s mode old =>
      have hs : s ≠ serial := by
        rintro rfl
        apply hk
        apply serialAt_unique _ hl
        rw [serialAt, hnode]
        rfl
      rw [Option.map_some, Node.grown, if_neg hs]

theorem isDirAt_append (T : Tree) (serial : Nat) (bytes : Bytes) (k : Location) :
  (T.append serial bytes).isDirAt k = T.isDirAt k
  := by
  rw [isDirAt, lookup_append, isDirAt]
  cases T.lookup k with
  | none => rfl
  | some node => exact Node.isDir_grown serial bytes node

/-! ### Writing -/

variable {S : Tree}

theorem write_eq_ok_iff :
  T.write base p bytes = .ok S ↔ ∃ serial opened,
    T.openFile base p true newFileMode = .ok (serial, opened) ∧ opened.append serial bytes = S
  := by
  unfold write
  cases T.openFile base p true newFileMode with
  | error cause => simp [Except.map]
  | ok found =>
    obtain ⟨serial, opened⟩ := found
    simp [Except.map]

theorem isDirAt_write (hwrite : T.write base p bytes = .ok S) (k : Location) :
  S.isDirAt k = T.isDirAt k
  := by
  obtain ⟨serial, opened, hopen, rfl⟩ := write_eq_ok_iff.mp hwrite
  obtain ⟨-, hopens⟩ := openFile_eq_ok_iff.mp hopen
  rw [isDirAt_append, hopens.isDirAt]

/-- A path at which a file can be written names its place. -/
theorem named_of_write (hwrite : T.write base p bytes = .ok S) :
  T.Named base p (p.place base).location
  := by
  obtain ⟨serial, opened, hopen, -⟩ := write_eq_ok_iff.mp hwrite
  obtain ⟨hroom, -⟩ := openFile_eq_ok_iff.mp hopen
  exact ⟨_, hroom.1, rfl⟩

/-- Writing a file leaves all other locations alone. -/
theorem lookup_write_of_ne (hwrite : T.write base p bytes = .ok S)
    (hk : k ≠ (p.place base).location) :
  S.lookup k = T.lookup k
  := by
  obtain ⟨serial, opened, hopen, rfl⟩ := write_eq_ok_iff.mp hwrite
  obtain ⟨-, hopens⟩ := openFile_eq_ok_iff.mp hopen
  rw [lookup_append_of_ne hopens.serialAt_self bytes hk, hopens.lookup_of_ne hk]

end Tree

end Bindery
