import Mathlib.Tactic.Use
import Bindery.Tree

/-!
# The places of paths

Which place a path names does not depend on the tree (`eq_place_of_resolve`), and whether it
names one depends on the directories alone (`resolve_of_congr`).  So two trees with the same
directories differ in what a path leads to only by what is at its place.
-/

namespace Bindery

/-! ### The place of a path -/

/-- The location that a step leads to. -/
def Location.after (l : Location) (segment : String) : Location :=
  if segment = "." then l else if segment = ".." then l.dropLast else l ++ [segment]

/-- The place that a path names, in a tree where it names one. -/
def Path.place (base : Location) (p : Path) : Place where
  location := p.segments.foldl Location.after (if p.isAbsolute then [] else base)
  named := p.segments.getLast?.any fun s => s != "." && s != ".."
  slash := p.text.toList.getLast? == some '/'

/-- The path can name something: it is not empty or too long, and contains no NUL. -/
structure Path.IsUsable (p : Path) : Prop where
  noNul : ¬ p.text.toList.contains '\x00'
  nonempty : ¬ p.text.isEmpty
  short : ¬ Tree.maxPath < p.text.utf8ByteSize

namespace Tree

variable {T T' opened : Tree} {l k base : Location} {p : Path}

theorem eq_after_of_stepFrom {segment : String} (h : stepFrom l segment = .ok k) :
  k = l.after segment
  := by
  by_cases hdot : segment = "."
  · rw [stepFrom, if_pos hdot] at h
    rw [Location.after, if_pos hdot]
    injection h with h
    exact h.symm
  · rw [stepFrom, if_neg hdot] at h
    rw [Location.after, if_neg hdot]
    by_cases hdots : segment = ".."
    · rw [if_pos hdots] at h ⊢
      injection h with h
      exact h.symm
    · rw [if_neg hdots] at h ⊢
      split at h
      · cases h
      · injection h with h
        exact h.symm

/-- A walk ends where the steps lead. -/
theorem eq_foldl_of_walk {segments : List String} (h : T.walk l segments = .ok k) :
  k = segments.foldl Location.after l
  := by
  fun_induction walk T l segments with
  | case1 l =>
    cases h
    rfl
  | case2 l last => exact eq_after_of_stepFrom h
  | case3 => cases h
  | case4 => cases h
  | case5 => cases h
  | case6 l segment segments _ next hstep _ _ ih =>
    rw [ih h, eq_after_of_stepFrom hstep, List.foldl_cons]

theorem walk_cons_cons (T : Tree) (l : Location) (segment next : String) (rest : List String) :
  (T.walk l (segment :: next :: rest)).toOption
    = (stepFrom l segment).toOption.bind fun k =>
      if T.isDirAt k then (T.walk k (next :: rest)).toOption else none
  := by
  simp only [walk]
  cases stepFrom l segment with
  | error cause => rfl
  | ok k =>
    change _ = if (T.lookup k).any Node.isDir then _ else _
    rcases hnode : T.lookup k with _ | node
    · simp [hnode, Except.toOption]
    · cases node <;> simp [hnode, Except.toOption, Node.isDir]

/-- Where a walk comes to an end is a matter of the directories alone. -/
theorem walk_congr (h : ∀ k, T.isDirAt k = T'.isDirAt k) (l : Location)
    (segments : List String) :
  (T.walk l segments).toOption = (T'.walk l segments).toOption
  := by
  induction segments generalizing l with
  | nil => rfl
  | cons segment segments ih =>
    cases segments with
    | nil => rfl
    | cons next rest =>
      rw [walk_cons_cons, walk_cons_cons]
      congr
      funext k
      rw [h, ih]

theorem walk_of_congr (h : ∀ k, T.isDirAt k = T'.isDirAt k) {segments : List String}
    (hwalk : T.walk l segments = .ok k) :
  T'.walk l segments = .ok k
  := by
  have hcongr := walk_congr h l segments
  rw [hwalk] at hcongr
  cases hwalk' : T'.walk l segments with
  | error cause =>
    rw [hwalk'] at hcongr
    cases hcongr
  | ok k' =>
    rw [hwalk'] at hcongr
    injection hcongr with hcongr
    rw [hcongr]

theorem resolve_eq_ok_iff {place : Place} :
  T.resolve base p = .ok place ↔ p.IsUsable ∧ place = p.place base
    ∧ T.walk (if p.isAbsolute then [] else base) p.segments = .ok place.location
  := by
  constructor
  · intro h
    unfold resolve at h
    split at h
    · cases h
    rename_i hnul
    split at h
    · cases h
    rename_i hempty
    split at h
    · cases h
    rename_i hlong
    dsimp only at h
    split at h
    · cases h
    rename_i k hwalk
    injection h with h
    subst h
    refine ⟨⟨hnul, hempty, hlong⟩, ?_, hwalk⟩
    rw [Path.place, eq_foldl_of_walk hwalk]
  · rintro ⟨⟨hnul, hempty, hlong⟩, rfl, hwalk⟩
    unfold resolve
    rw [if_neg hnul, if_neg hempty, if_neg hlong]
    dsimp only
    rw [hwalk]
    rfl

theorem eq_place_of_resolve {place : Place} (h : T.resolve base p = .ok place) :
  place = p.place base
  := (resolve_eq_ok_iff.mp h).2.1

/-- A path names the same place in all trees with the same directories. -/
theorem resolve_of_congr (h : ∀ k, T.isDirAt k = T'.isDirAt k) {place : Place}
    (hplace : T.resolve base p = .ok place) :
  T'.resolve base p = .ok place
  := by
  obtain ⟨husable, hplace, hwalk⟩ := resolve_eq_ok_iff.mp hplace
  apply resolve_eq_ok_iff.mpr
  exact ⟨husable, hplace, walk_of_congr h hwalk⟩

/-- The path names a place where a file can be. -/
def HasRoom (T : Tree) (base : Location) (p : Path) : Prop :=
  T.resolve base p = .ok (p.place base) ∧ (p.place base).slash = false

/-- The path names a location. -/
def Named (T : Tree) (base : Location) (p : Path) (l : Location) : Prop :=
  ∃ place, T.resolve base p = .ok place ∧ place.location = l

theorem named_congr (h : ∀ k, T.isDirAt k = T'.isDirAt k) (base : Location) (p : Path)
    (l : Location) :
  T.Named base p l ↔ T'.Named base p l
  := by
  constructor
  · rintro ⟨place, hplace, hl⟩
    exact ⟨place, resolve_of_congr h hplace, hl⟩
  · rintro ⟨place, hplace, hl⟩
    exact ⟨place, resolve_of_congr (fun k => (h k).symm) hplace, hl⟩

theorem Named.eq (h : T.Named base p l) :
  l = (p.place base).location
  := by
  obtain ⟨place, hplace, rfl⟩ := h
  rw [eq_place_of_resolve hplace]

theorem hasRoom_congr (h : ∀ k, T.isDirAt k = T'.isDirAt k) (base : Location) (p : Path) :
  T.HasRoom base p ↔ T'.HasRoom base p
  := by
  constructor
  · rintro ⟨hplace, hslash⟩
    exact ⟨resolve_of_congr h hplace, hslash⟩
  · rintro ⟨hplace, hslash⟩
    exact ⟨resolve_of_congr (fun k => (h k).symm) hplace, hslash⟩

/-! ### The node that a path names -/

theorem named_of_node {n : Node} (h : T.node base p = .ok (l, n)) :
  T.Named base p l ∧ T.lookup l = some n
  := by
  unfold node at h
  split at h
  · cases h
  rename_i place hplace
  split at h
  · cases h
  rename_i n' hn
  split at h
  · cases h
  cases h
  exact ⟨⟨place, hplace, rfl⟩, hn⟩

theorem lookup_eq_none_of_node (h : T.node base p = .error .notFound)
    (hl : T.Named base p l) :
  T.lookup l = none
  := by
  obtain ⟨place, hplace, rfl⟩ := hl
  unfold node at h
  rw [hplace] at h
  dsimp only at h
  split at h
  · assumption
  · split at h
    · cases h
    · cases h

/-- Removing takes a file from the location that the path names. -/
theorem exists_erase_of_remove (h : T.remove base p = .ok T') :
  ∃ k, T.Named base p k ∧ T.isDirAt k = false ∧ T' = T.erase k
  := by
  unfold remove at h
  split at h
  · cases h
  · cases h
  · rename_i k _ _ _ hnode
    obtain ⟨hnamed, hlookup⟩ := named_of_node hnode
    cases h
    use k, hnamed
    rw [isDirAt, hlookup]
    exact ⟨rfl, rfl⟩

/-- There is nothing to remove if there is nothing at the location that the path names. -/
theorem lookup_eq_none_of_remove (h : T.remove base p = .error .notFound)
    (hl : T.Named base p l) :
  T.lookup l = none
  := by
  unfold remove at h
  split at h
  · rename_i cause hnode
    cases h
    exact lookup_eq_none_of_node hnode hl
  · cases h
  · cases h

/-! ### Reading what a path names -/

/-- The bytes of the file at a location, if there is one. -/
def contents (T : Tree) (l : Location) : Bytes :=
  match T.lookup l with
  | some (.file _ _ bytes) => bytes
  | _ => []

/-- What the file that a path names holds, which is nothing if there is no file. -/
def bytesAt (T : Tree) (base : Location) (p : Path) : Bytes :=
  (T.read base p).toOption.getD []

theorem bytesAt_of_hasRoom (h : T.HasRoom base p) :
  T.bytesAt base p = T.contents (p.place base).location
  := by
  unfold bytesAt read node contents
  rw [h.1]
  dsimp only
  cases T.lookup (p.place base).location with
  | none => rfl
  | some n => cases n <;> simp [h.2, Except.toOption]

theorem bytesAt_of_not_hasRoom (h : ¬ T.HasRoom base p) :
  T.bytesAt base p = []
  := by
  unfold bytesAt read node
  cases hplace : T.resolve base p with
  | error cause => rfl
  | ok place =>
    obtain rfl := eq_place_of_resolve hplace
    have hslash : (p.place base).slash = true := by
      apply eq_true_of_ne_false
      intro hslash
      exact h ⟨hplace, hslash⟩
    dsimp only
    cases T.lookup (p.place base).location with
    | none => rfl
    | some n => cases n <;> simp [hslash, Except.toOption, Node.isDir]

/-- A path names something in both of two trees with the same directories, or in neither, if
there is something at its place in both or in neither. -/
theorem exists?_congr (h : ∀ k, T.isDirAt k = T'.isDirAt k)
    (hsome : (T.lookup (p.place base).location).isSome
      = (T'.lookup (p.place base).location).isSome) :
  T.exists? base p = T'.exists? base p
  := by
  unfold exists? node
  cases hplace : T.resolve base p with
  | error cause =>
    cases hplace' : T'.resolve base p with
    | error cause' => rfl
    | ok place' =>
      rw [resolve_of_congr (fun k => (h k).symm) hplace'] at hplace
      cases hplace
  | ok place =>
    rw [resolve_of_congr h hplace]
    obtain rfl := eq_place_of_resolve hplace
    have hdir := h (p.place base).location
    unfold isDirAt at hdir
    dsimp only
    cases hn : T.lookup (p.place base).location with
    | none =>
      cases hn' : T'.lookup (p.place base).location with
      | none => rfl
      | some n' => simp [hn, hn'] at hsome
    | some n =>
      cases hn' : T'.lookup (p.place base).location with
      | none => simp [hn, hn'] at hsome
      | some n' =>
        rw [hn, hn', Option.any_some, Option.any_some] at hdir
        dsimp only
        rw [hdir]
        split <;> rfl

end Tree

end Bindery
