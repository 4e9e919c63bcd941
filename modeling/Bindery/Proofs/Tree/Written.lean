import Bindery.Proofs.Path
import Bindery.Proofs.Tree.Opening

/-!
# Files that were written

A file holds what was written to it last (`read_write`), and writing files of other names into its
directory leaves it alone (`Writes.read_of_ne`).  So files of different names that are written one
after another can all be read back (`Writes.read_of_mem`).  Making directories leaves all files alone
(`file?_makeDirs`).
-/

namespace Bindery

/-- A name that is joined to a path names the node of that name below the place of the path. -/
theorem Path.location_join (base : Location) (p : Path) {name : String} (h : IsName name) :
  ((p.join name).place base).location = (p.place base).location ++ [name]
  := by
  simp only [place, segments_join p h, isAbsolute_join p h, List.foldl_append, List.foldl_cons,
    List.foldl_nil]
  rw [Location.after, if_neg h.notDot, if_neg h.notDots]

/-- The path is another one or leads to a directory on the way there, as its parts say. -/
def Path.Encloses (q p : Path) : Prop :=
  q = p ∨ ∃ outer, outer <+: p.parts ∧ q = ofParts p.isAbsolute outer

namespace Tree

variable {T S : Tree} {base : Location} {p q : Path} {bytes old : Bytes}

/-! ### Reading and writing -/

/-- A path can be read if it names a file. -/
theorem read_eq_ok_iff :
  T.read base p = .ok bytes ↔ T.HasRoom base p
    ∧ ∃ serial mode, T.lookup (p.place base).location = some (.file serial mode bytes)
  := by
  constructor
  · intro h
    unfold read at h
    split at h
    · cases h
    · cases h
    · next l serial mode content hnode =>
      injection h with h
      subst h
      obtain ⟨⟨place, hplace, rfl⟩, hlookup⟩ := named_of_node hnode
      obtain rfl := eq_place_of_resolve hplace
      refine ⟨⟨hplace, ?_⟩, serial, mode, hlookup⟩
      unfold node at hnode
      rw [hplace] at hnode
      dsimp only at hnode
      rw [hlookup] at hnode
      dsimp only at hnode
      split at hnode
      · cases hnode
      · next hslash => simpa [Node.isDir] using hslash
  · rintro ⟨⟨hplace, hslash⟩, serial, mode, hlookup⟩
    simp [read, node, hplace, hlookup, hslash]

/-- What was written to a file can be read from it. -/
theorem read_write (hwrite : T.write base p bytes = .ok S) :
  S.read base p = .ok bytes
  := by
  obtain ⟨serial, opened, hopen, rfl⟩ := write_eq_ok_iff.mp hwrite
  obtain ⟨hroom, hopens⟩ := openFile_eq_ok_iff.mp hopen
  obtain ⟨mode, hlookup⟩ := hopens.lookup_self
  apply read_eq_ok_iff.mpr
  constructor
  · apply (hasRoom_congr (fun k => (isDirAt_write hwrite k).symm) base p).mp hroom
  · use serial, mode
    exact lookup_append_self hlookup bytes

/-- Writing a file leaves the files at all other places alone. -/
theorem read_write_of_ne (hwrite : T.write base p bytes = .ok S)
    (hne : (q.place base).location ≠ (p.place base).location) (hread : T.read base q = .ok old) :
  S.read base q = .ok old
  := by
  obtain ⟨hroom, serial, mode, hlookup⟩ := read_eq_ok_iff.mp hread
  apply read_eq_ok_iff.mpr
  constructor
  · apply (hasRoom_congr (fun k => (isDirAt_write hwrite k).symm) base q).mp hroom
  · use serial, mode
    rw [lookup_write_of_ne hwrite hne, hlookup]

/-! ### Several files -/

/-- Writing the files one after another leads from a tree to a tree. -/
inductive Writes (base : Location) : Tree → List (Path × Bytes) → Tree → Prop where
  | nil {T : Tree} : Writes base T [] T
  | cons {T T' T'' : Tree} {p : Path} {bytes : Bytes} {files : List (Path × Bytes)}
      (head : T.write base p bytes = .ok T') (tail : Writes base T' files T'') :
    Writes base T ((p, bytes) :: files) T''

namespace Writes

variable {files : List (Path × Bytes)}

theorem append {U : Tree} {more : List (Path × Bytes)} (h : Writes base T files S)
    (hmore : Writes base S more U) :
  Writes base T (files ++ more) U
  := by
  induction h with
  | nil => exact hmore
  | cons head _ ih => exact .cons head (ih hmore)

/-- A file at another place is left alone. -/
theorem read_of_ne (h : Writes base T files S)
    (hne : ∀ file ∈ files, (q.place base).location ≠ (file.1.place base).location)
    (hread : T.read base q = .ok old) :
  S.read base q = .ok old
  := by
  induction h with
  | nil => exact hread
  | cons head _ ih =>
    obtain ⟨hhead, htail⟩ := List.forall_mem_cons.mp hne
    exact ih htail (read_write_of_ne head hhead hread)

/-- Files that were written at different places can all be read. -/
theorem read_of_mem (h : Writes base T files S)
    (hapart : files.Pairwise fun a b => (a.1.place base).location ≠ (b.1.place base).location) :
  ∀ file ∈ files, S.read base file.1 = .ok file.2
  := by
  induction h with
  | nil => exact List.forall_mem_nil _
  | cons head tail ih =>
    obtain ⟨hhead, htail⟩ := List.pairwise_cons.mp hapart
    rw [List.forall_mem_cons]
    exact ⟨tail.read_of_ne hhead (read_write head), ih htail⟩

end Writes

/-! ### Directories -/

theorem ne_nil_of_lookup_eq_none {l : Location} (h : T.lookup l = none) :
  l ≠ []
  := by
  rintro rfl
  cases h

/-- Making a directory puts it at its place, which has a name and where nothing is. -/
theorem set_of_makeDir (hmake : T.makeDir base p = .ok S) :
  (p.place base).named = true ∧ T.lookup (p.place base).location = none
    ∧ S = T.set (p.place base).location (.dir newDirMode)
  := by
  unfold Tree.makeDir at hmake
  split at hmake
  · cases hmake
  · next place hplace =>
    obtain rfl := eq_place_of_resolve hplace
    split at hmake
    · cases hmake
    · next hnamed =>
      split at hmake
      · cases hmake
      · next hnone =>
        injection hmake with hmake
        exact ⟨by simpa using hnamed, hnone, hmake.symm⟩

/-- What making a directory keeps, making sure of it keeps. -/
theorem ensureDir_induct {P : Tree → Prop} (h : P T)
    (step : ∀ {S : Tree}, T.makeDir base p = .ok S → P S) (hensure : T.ensureDir base p = .ok S) :
  P S
  := by
  unfold Tree.ensureDir at hensure
  split at hensure
  · next hmake =>
    injection hensure with hensure
    rw [← hensure]
    exact step hmake
  · cases hensure
  · split at hensure
    · injection hensure with hensure
      rw [← hensure]
      exact h
    · cases hensure

theorem makeAll_induct {P : Tree → Prop} {absolute : Bool} {all parts : List String}
    (step : ∀ {T S : Tree} {outer : List String}, outer <+: all → P T →
      T.makeDir base (Path.ofParts absolute outer) = .ok S → P S)
    (h : P T) (hparts : parts.reverse <+: all) :
  P (Tree.makeAll base absolute parts T).2
  := by
  induction parts generalizing T with
  | nil => exact h
  | cons part outer ih =>
    have hpart {T S : Tree} := @step T S (part :: outer).reverse hparts
    rw [List.reverse_cons] at hparts
    have houter := ih h ((List.prefix_append outer.reverse [part]).trans hparts)
    rw [Tree.makeAll]
    split
    · next hensure => exact ensureDir_induct h (hpart h) hensure
    · split
      · next houter' =>
        rw [houter'] at houter
        exact houter
      · next houter' =>
        rw [houter'] at houter
        split
        · next hensure => exact ensureDir_induct houter (hpart houter) hensure
        · exact houter
    · exact h

/-- What making one directory keeps, on the way to a place or there, making the directory there
with those it is in keeps. -/
theorem makeDirs_induct {P : Tree → Prop} (p : Path)
    (step : ∀ {T S : Tree} {q : Path}, q.Encloses p → P T → T.makeDir base q = .ok S → P S)
    (h : P T) :
  P (T.makeDirs base p).2
  := by
  have hself {T S : Tree} := @step T S p (Or.inl rfl)
  unfold Tree.makeDirs
  split
  · exact h
  · split
    · next hensure => exact ensureDir_induct h (hself h) hensure
    · have hparts : p.parts.dropLast.reverse.reverse <+: p.parts := by
        rw [List.reverse_reverse]
        exact List.dropLast_prefix p.parts
      have houter := makeAll_induct (fun hprefix => step (Or.inr ⟨_, hprefix, rfl⟩)) h hparts
      split
      · next houter' =>
        rw [houter'] at houter
        exact houter
      · next houter' =>
        rw [houter'] at houter
        split
        · next hensure => exact ensureDir_induct houter (hself houter) hensure
        · exact houter
    · exact h

/-! ### Files among directories -/

/-- The file at a location, if there is one. -/
def file? (T : Tree) (l : Location) : Option Node :=
  (T.lookup l).filter fun n => !n.isDir

theorem file?_makeDir (hmake : T.makeDir base p = .ok S) (l : Location) :
  S.file? l = T.file? l
  := by
  obtain ⟨-, hnone, rfl⟩ := set_of_makeDir hmake
  have hne := ne_nil_of_lookup_eq_none hnone
  rw [file?, lookup_set_dir hne, file?]
  split
  · next hl =>
    rw [hl, hnone]
    rfl
  · rfl

/-- Making directories creates, changes and removes no file. -/
theorem file?_makeDirs (T : Tree) (base : Location) (p : Path) (l : Location) :
  (T.makeDirs base p).2.file? l = T.file? l
  := makeDirs_induct (P := fun S => S.file? l = T.file? l) p
    (fun _ h hmake => (file?_makeDir hmake l).trans h) rfl

end Tree

end Bindery
