import Bindery.Proofs.Path.Outer
import Bindery.Proofs.Tree.Holding

/-!
# Open ways

A way through a tree is open if no name on it is too long and nothing on it is a file (`IsOpen`),
and `reached` lists its stops up to the first step that is barred.  A way that can be walked is open
and leads through directories (`isOpen_of_walk`, `walk_of_isOpen`), and a walk fails otherwise only
where something is missing (`reached_of_walk_error`).
-/

namespace Bindery

namespace Path

/-- Where the way of a path begins. -/
def start (base : Location) (p : Path) : Location :=
  if p.isAbsolute then [] else base

theorem stops_subset_filter (l : Location) (segments : List String) :
  l.stops segments ⊆ l :: l.stops (segments.filter (· != "."))
  := by
  induction segments generalizing l with
  | nil => exact List.nil_subset _
  | cons segment segments ih =>
    by_cases hdot : segment = "."
    · subst hdot
      exact List.cons_subset.mpr ⟨List.mem_cons_self, ih l⟩
    · have hkept : (segment != ".") = true := bne_iff_ne.mpr hdot
      rw [List.filter_cons, if_pos hkept]
      exact List.cons_subset.mpr ⟨List.mem_cons_of_mem _ List.mem_cons_self,
        List.subset_cons_of_subset l (ih _)⟩

theorem dropLast_filter_isPrefix (segments : List String) :
  (segments.filter (· != ".")).dropLast <+: segments.dropLast.filter (· != ".")
  := by
  induction segments using List.reverseRecOn with
  | nil => exact List.prefix_refl _
  | append_singleton segments segment _ =>
    rw [List.dropLast_concat, List.filter_append]
    by_cases hdot : segment = "."
    · subst hdot
      rw [List.filter_cons_of_neg (by decide), List.filter_nil, List.append_nil]
      exact List.dropLast_prefix _
    · have hkept : (segment != ".") = true := bne_iff_ne.mpr hdot
      have hall : (segments.filter (· != ".") ++ [segment].filter (· != ".")).dropLast
          = segments.filter (· != ".") := by
        rw [List.filter_cons, if_pos hkept, List.filter_nil, List.dropLast_concat]
      exact ⟨[], (List.append_nil _).trans hall⟩

theorem stops_subset_of_isPrefix {outer segments : List String} (h : outer <+: segments)
    (l : Location) :
  l.stops outer ⊆ l.stops segments
  := by
  obtain ⟨rest, rfl⟩ := h
  rw [Location.stops_append]
  exact List.subset_append_left _ _

/-- The stops of the parts but the last are among those of the segments but the last. -/
theorem stops_outer_subset (base : Location) (p : Path) :
  (p.start base).stops p.parts.dropLast
    ⊆ p.start base :: (p.start base).stops p.segments.dropLast
  := by
  have hfilter (l : Location) (segments : List String) :
      l.stops (segments.filter (· != ".")).dropLast ⊆ l.stops segments.dropLast :=
    List.Subset.trans (stops_subset_of_isPrefix (dropLast_filter_isPrefix segments) l)
      (stops_filter_subset l _)
  apply List.subset_cons_of_subset
  rcases p.parts_cases with hparts | ⟨rest, hsegments, hparts⟩
  · rw [hparts]
    exact hfilter _ _
  · rw [hparts, hsegments]
    cases hkept : rest.filter (· != ".") with
    | nil => exact List.nil_subset _
    | cons next more =>
      rw [← hkept, List.dropLast_cons_of_ne_nil (hkept ▸ List.cons_ne_nil next more)]
      cases rest with
      | nil => cases hkept
      | cons segment rest => exact List.cons_subset_cons _ (hfilter _ _)

/-- The stops of a path are those of its parts but the last, its place and where it begins. -/
theorem stops_subset (base : Location) (p : Path) :
  p.stops base ⊆ p.start base
    :: ((p.start base).stops p.parts.dropLast ++ [(p.place base).location])
  := by
  have hparts : p.stops base ⊆ p.start base :: (p.start base).stops p.parts := by
    change (p.start base).stops p.segments ⊆ _
    rcases p.parts_cases with hparts | ⟨rest, hsegments, hparts⟩
    · rw [hparts]
      exact stops_subset_filter _ _
    · rw [hparts, hsegments]
      apply List.subset_cons_of_subset
      exact List.cons_subset.mpr ⟨List.mem_cons_self, stops_subset_filter _ rest⟩
  apply List.Subset.trans hparts
  apply List.cons_subset_cons
  rw [location_eq_parts]
  change (p.start base).stops p.parts
    ⊆ (p.start base).stops p.parts.dropLast ++ [p.parts.foldl Location.after (p.start base)]
  rcases List.eq_nil_or_concat' p.parts with hnil | ⟨outer, last, hlast⟩
  · rw [hnil]
    exact List.nil_subset _
  · rw [hlast, List.dropLast_concat, Location.stops_append, List.foldl_append]
    exact List.Subset.refl _

end Path

namespace Tree

open scoped List

variable {T T' : Tree} {l k base : Location} {p : Path} {segments pre post : List String}
  {segment : String} {e : OsError}

/-! ### Open ways -/

theorem stepFrom_eq (l : Location) (segment : String) :
  stepFrom l segment
    = if maxName < segment.utf8ByteSize then .error .nameTooLong else .ok (l.after segment)
  := by
  unfold stepFrom Location.after
  by_cases hdot : segment = "."
  · subst hdot
    rfl
  · by_cases hdots : segment = ".."
    · subst hdots
      rfl
    · rw [if_neg hdot, if_neg hdots, if_neg hdot, if_neg hdots]

/-- A step leads to a location where a directory is or can be made. -/
def IsPassable (T : Tree) (l : Location) (segment : String) : Prop :=
  segment.utf8ByteSize ≤ maxName ∧ T.file? (l.after segment) = none

instance (T : Tree) (l : Location) (segment : String) : Decidable (T.IsPassable l segment) :=
  inferInstanceAs (Decidable (_ ∧ _))

/-- The stops of a way up to the first step that is barred. -/
def reached (T : Tree) (l : Location) : List String → List Location
  | [] => []
  | segment :: segments =>
    if T.IsPassable l segment then l.after segment :: T.reached (l.after segment) segments else []

/-- No step of the way is barred. -/
def IsOpen (T : Tree) (l : Location) : List String → Prop
  | [] => True
  | segment :: segments => T.IsPassable l segment ∧ T.IsOpen (l.after segment) segments

theorem isOpen_append :
  T.IsOpen l (pre ++ post) ↔ T.IsOpen l pre ∧ T.IsOpen (pre.foldl Location.after l) post
  := by
  induction pre generalizing l with
  | nil => exact (iff_of_eq (true_and _)).symm
  | cons segment pre ih => simp only [List.cons_append, IsOpen, ih, List.foldl_cons, and_assoc]

theorem reached_of_isOpen (h : T.IsOpen l segments) :
  T.reached l segments = l.stops segments
  := by
  induction segments generalizing l with
  | nil => rfl
  | cons segment segments ih => rw [reached, if_pos h.1, ih h.2, Location.stops]

theorem reached_append (post : List String) (h : T.IsOpen l pre) :
  T.reached l (pre ++ post) = l.stops pre ++ T.reached (pre.foldl Location.after l) post
  := by
  induction pre generalizing l with
  | nil => rfl
  | cons segment pre ih =>
    rw [List.cons_append, reached, if_pos h.1, ih h.2]
    rfl

theorem reached_append_of_not (h : ¬ T.IsOpen l pre) :
  T.reached l (pre ++ post) = T.reached l pre
  := by
  induction pre generalizing l with
  | nil => exact absurd trivial h
  | cons segment pre ih =>
    rw [List.cons_append, reached, reached]
    split
    · next hpass => rw [ih fun hopen => h ⟨hpass, hopen⟩]
    · rfl

theorem isOpen_of_isPrefix (h : T.IsOpen l segments) (hpre : pre <+: segments) :
  T.IsOpen l pre
  := by
  obtain ⟨post, rfl⟩ := hpre
  exact (isOpen_append.mp h).1

theorem reached_prefix (T : Tree) (l : Location) (h : pre <+: segments) :
  T.reached l pre ⊆ T.reached l segments
  := by
  obtain ⟨post, rfl⟩ := h
  by_cases hopen : T.IsOpen l pre
  · rw [reached_append _ hopen, reached_of_isOpen hopen]
    exact List.subset_append_left _ _
  · rw [reached_append_of_not hopen]
    exact List.Subset.refl _

/-- What is open is a matter of the files on the way. -/
theorem isOpen_congr (h : ∀ k ∈ l.stops segments, T.file? k = none ↔ T'.file? k = none) :
  T.IsOpen l segments ↔ T'.IsOpen l segments
  := by
  induction segments generalizing l with
  | nil => exact Iff.rfl
  | cons segment segments ih =>
    obtain ⟨hfirst, hrest⟩ := List.forall_mem_cons.mp h
    rw [IsOpen, IsOpen, IsPassable, IsPassable, hfirst, ih hrest]

theorem reached_congr (h : ∀ k ∈ l.stops segments, T.file? k = none ↔ T'.file? k = none) :
  T.reached l segments = T'.reached l segments
  := by
  induction segments generalizing l with
  | nil => rfl
  | cons segment segments ih =>
    obtain ⟨hfirst, hrest⟩ := List.forall_mem_cons.mp h
    have hpass : T.IsPassable l segment ↔ T'.IsPassable l segment :=
      and_congr_right fun _ => hfirst
    rw [reached, reached, if_congr hpass (congrArg _ (ih hrest)) rfl]

/-- A dot bars nothing. -/
private theorem reached_filter_subset (h : T.file? l = none) (segments : List String) :
  T.reached l (segments.filter (· != ".")) ⊆ T.reached l segments
  := by
  induction segments generalizing l with
  | nil => exact List.Subset.refl _
  | cons segment segments ih =>
    by_cases hdot : segment = "."
    · subst hdot
      have hpass : T.IsPassable l "." := ⟨by decide, h⟩
      rw [reached, if_pos hpass]
      exact List.subset_cons_of_subset l (ih h)
    · have hkept : (segment != ".") = true := bne_iff_ne.mpr hdot
      rw [List.filter_cons, if_pos hkept, reached, reached]
      split
      · next hpass => exact List.cons_subset_cons _ (ih hpass.2)
      · exact List.Subset.refl _

private theorem isOpen_filter (h : T.IsOpen l segments) :
  T.IsOpen l (segments.filter (· != "."))
  := by
  induction segments generalizing l with
  | nil => trivial
  | cons segment segments ih =>
    by_cases hdot : segment = "."
    · subst hdot
      exact ih h.2
    · have hkept : (segment != ".") = true := bne_iff_ne.mpr hdot
      rw [List.filter_cons, if_pos hkept]
      exact ⟨h.1, ih h.2⟩

theorem file?_eq_none_of_isDirAt (h : T.isDirAt l = true) :
  T.file? l = none
  := by
  unfold isDirAt at h
  unfold file?
  cases hnode : T.lookup l with
  | none => rfl
  | some n =>
    rw [hnode, Option.any_some] at h
    simp [h]

theorem exists_dir_of_isDirAt (h : T.isDirAt l = true) :
  ∃ mode, T.lookup l = some (.dir mode)
  := by
  unfold isDirAt at h
  cases hnode : T.lookup l with
  | none => simp [hnode] at h
  | some n =>
    cases n with
    | dir mode => exact ⟨mode, rfl⟩
    | file => simp [hnode, Node.isDir] at h

theorem lookup_ne_none_of_isDirAt (h : T.isDirAt l = true) :
  T.lookup l ≠ none
  := by
  obtain ⟨mode, hnode⟩ := exists_dir_of_isDirAt h
  rw [hnode]
  exact Option.some_ne_none _

theorem exists_file_of_ne_none (h : T.file? l ≠ none) :
  ∃ serial mode bytes, T.lookup l = some (.file serial mode bytes)
  := by
  unfold file? at h
  cases hnode : T.lookup l with
  | none => simp [hnode] at h
  | some n =>
    cases n with
    | dir mode => simp [hnode, Node.isDir] at h
    | file serial mode bytes => exact ⟨serial, mode, bytes, rfl⟩

/-- At a location is nothing, a directory or a file. -/
theorem lookup_cases (T : Tree) (l : Location) :
  T.lookup l = none ∨ T.isDirAt l = true ∨ T.file? l ≠ none
  := by
  unfold isDirAt file?
  rcases T.lookup l with _ | (_ | _) <;> simp [Node.isDir]

theorem reached_parts_subset (h : T.file? (p.start base) = none) :
  T.reached (p.start base) p.parts ⊆ T.reached (p.start base) p.segments
  := by
  rcases p.parts_cases with hparts | ⟨rest, hsegments, hparts⟩
  · rw [hparts]
    exact reached_filter_subset h _
  · rw [hparts, hsegments, reached, reached]
    split
    · next hpass => exact List.cons_subset_cons _ (reached_filter_subset hpass.2 rest)
    · exact List.Subset.refl _

/-- If the segments but the last are open, then so are the parts but the last. -/
theorem isOpen_outer (h : T.IsOpen l p.segments.dropLast) :
  T.IsOpen l p.parts.dropLast
  := by
  have hfilter {l : Location} {segments : List String} (h : T.IsOpen l segments.dropLast) :
      T.IsOpen l (segments.filter (· != ".")).dropLast :=
    isOpen_of_isPrefix (isOpen_filter h) (Path.dropLast_filter_isPrefix segments)
  rcases p.parts_cases with hparts | ⟨rest, hsegments, hparts⟩
  · rw [hparts]
    exact hfilter h
  · rw [hsegments] at h
    rw [hparts]
    cases hkept : rest.filter (· != ".") with
    | nil => trivial
    | cons next more =>
      rw [← hkept, List.dropLast_cons_of_ne_nil (hkept ▸ List.cons_ne_nil next more)]
      cases rest with
      | nil => cases hkept
      | cons segment rest => exact ⟨h.1, hfilter h.2⟩

/-! ### Walking along open ways -/

theorem walk_cons_of_ne_nil (h : segments ≠ []) :
  T.walk l (segment :: segments) = if maxName < segment.utf8ByteSize then .error .nameTooLong
    else match T.lookup (l.after segment) with
      | none => .error .notFound
      | some (.file ..) => .error .notADirectory
      | some (.dir _) => T.walk (l.after segment) segments
  := by
  obtain ⟨next, more, rfl⟩ := List.exists_cons_of_ne_nil h
  rw [walk, stepFrom_eq]
  · by_cases hlong : maxName < segment.utf8ByteSize
    · simp only [if_pos hlong]
    · rcases hnode : T.lookup (l.after segment) with _ | (_ | _) <;>
        simp only [if_neg hlong, hnode]
  · rintro ⟨⟩

/-- A way that can be walked is open, and consists of directories up to its last step. -/
theorem isOpen_of_walk (h : T.walk l (pre ++ [segment]) = .ok k) :
  T.IsOpen l pre ∧ ∀ stop ∈ l.stops pre, T.isDirAt stop = true
  := by
  refine ⟨?_, isDirAt_of_walk h⟩
  induction pre generalizing l with
  | nil => trivial
  | cons first pre ih =>
    obtain ⟨hfirst, -⟩ := List.forall_mem_cons.mp (isDirAt_of_walk h)
    have hne' := List.append_ne_nil_of_right_ne_nil pre (List.cons_ne_nil segment [])
    rw [List.cons_append, walk_cons_of_ne_nil hne'] at h
    split at h
    · cases h
    · next hshort =>
      refine ⟨⟨Nat.le_of_not_lt hshort, file?_eq_none_of_isDirAt hfirst⟩, ?_⟩
      split at h
      · cases h
      · cases h
      · exact ih h

/-- An open way of directories can be walked up to its last step. -/
theorem walk_of_isOpen (h : T.IsOpen l pre)
    (hdirs : ∀ stop ∈ l.stops pre, T.isDirAt stop = true) (segment : String) :
  T.walk l (pre ++ [segment]) = stepFrom (pre.foldl Location.after l) segment
  := by
  induction pre generalizing l with
  | nil => rfl
  | cons first pre ih =>
    obtain ⟨hfirst, hrest⟩ := List.forall_mem_cons.mp hdirs
    obtain ⟨mode, hnode⟩ := exists_dir_of_isDirAt hfirst
    have hne := List.append_ne_nil_of_right_ne_nil pre (List.cons_ne_nil segment [])
    rw [List.cons_append, walk_cons_of_ne_nil hne, if_neg (Nat.not_lt_of_le h.1.1), hnode]
    exact ih h.2 hrest

/-- A walk that fails because something is in the way passes directories up to there. -/
theorem reached_of_walk_error (h : T.walk l (pre ++ [segment]) = .error e) (hne : e ≠ .notFound) :
  (∀ stop ∈ T.reached l (pre ++ [segment]), T.isDirAt stop = true)
    ∧ ¬ T.IsOpen l (pre ++ [segment])
    ∧ (e = .nameTooLong ∨ ∃ stop ∈ l.stops (pre ++ [segment]), T.file? stop ≠ none)
  := by
  induction pre generalizing l with
  | nil =>
    change stepFrom l segment = _ at h
    rw [stepFrom_eq] at h
    split at h
    · next hlong =>
      cases h
      have hbarred : ¬ T.IsPassable l segment := fun hpass => Nat.not_lt_of_le hpass.1 hlong
      rw [List.nil_append, reached, if_neg hbarred, IsOpen]
      exact ⟨List.forall_mem_nil _, fun hopen => hbarred hopen.1, Or.inl rfl⟩
    · cases h
  | cons first pre ih =>
    have hne' := List.append_ne_nil_of_right_ne_nil pre (List.cons_ne_nil segment [])
    rw [List.cons_append, walk_cons_of_ne_nil hne'] at h
    rw [List.cons_append, reached, IsOpen, Location.stops]
    by_cases hlong : maxName < first.utf8ByteSize
    · rw [if_pos hlong] at h
      cases h
      have hbarred : ¬ T.IsPassable l first := fun hpass => Nat.not_lt_of_le hpass.1 hlong
      rw [if_neg hbarred]
      exact ⟨List.forall_mem_nil _, fun hopen => hbarred hopen.1, Or.inl rfl⟩
    · rw [if_neg hlong] at h
      cases hnode : T.lookup (l.after first) with
      | none =>
        rw [hnode] at h
        cases h
        exact absurd rfl hne
      | some n =>
        rw [hnode] at h
        cases n with
        | file serial mode bytes =>
          have hfile : T.file? (l.after first) ≠ none := by simp [file?, hnode, Node.isDir]
          have hbarred : ¬ T.IsPassable l first := fun hpass => hfile hpass.2
          rw [if_neg hbarred]
          exact ⟨List.forall_mem_nil _, fun hopen => hbarred hopen.1,
            Or.inr ⟨_, List.mem_cons_self, hfile⟩⟩
        | dir mode =>
          have hdir : T.isDirAt (l.after first) = true := by
            rw [isDirAt, hnode]
            rfl
          have hpass : T.IsPassable l first :=
            ⟨Nat.le_of_not_lt hlong, file?_eq_none_of_isDirAt hdir⟩
          obtain ⟨hdirs, hbarred, hcause⟩ := ih h
          rw [if_pos hpass, List.forall_mem_cons]
          refine ⟨⟨hdir, hdirs⟩, fun hopen => hbarred hopen.2, ?_⟩
          rcases hcause with hcause | ⟨stop, hstop, hfile⟩
          · exact Or.inl hcause
          · exact Or.inr ⟨stop, List.mem_cons_of_mem _ hstop, hfile⟩

/-! ### Following paths -/

theorem resolve_cases (T : Tree) (base : Location) (p : Path) :
  T.resolve base p = .ok (p.place base) ∨ ∃ e, T.resolve base p = .error e
  := by
  cases h : T.resolve base p with
  | error e => exact Or.inr ⟨e, rfl⟩
  | ok place => exact Or.inl (congrArg Except.ok (eq_place_of_resolve h))

theorem location_eq_after (base : Location) (hsegments : p.segments = pre ++ [segment]) :
  (p.place base).location = (pre.foldl Location.after (p.start base)).after segment
  := by
  rw [Path.place]
  dsimp only
  rw [hsegments, List.foldl_append]
  rfl

theorem resolve_of_walk (T : Tree) (base : Location) (hp : p.IsUsable) :
  T.resolve base p = (T.walk (p.start base) p.segments).map fun _ => p.place base
  := by
  cases hwalk : T.walk (p.start base) p.segments with
  | error e =>
    rw [Path.start] at hwalk
    rw [resolve, if_neg hp.noNul, if_neg hp.nonempty, if_neg hp.short, hwalk]
    rfl
  | ok location =>
    have hplace := eq_foldl_of_walk hwalk
    subst hplace
    exact resolve_eq_ok_iff.mpr ⟨hp, rfl, hwalk⟩

end Tree

end Bindery
