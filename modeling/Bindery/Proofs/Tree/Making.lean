import Bindery.Proofs.Tree.Way

/-!
# What making directories makes

Making directories makes those that are missing on the way to a place, up to the first step that is
barred (`makes_makeAll`), and changes nothing else (`widens_makeDirs`).  It succeeds if nothing is
in the way; if not, a name is too long or there is a file (`makeDirs_cases`).
-/

namespace Bindery

namespace Tree

open scoped List

variable {T T' S S₁ : Tree} {l k base : Location} {p q : Path} {segments pre post : List String}
  {way way' : List Location} {segment : String} {e : OsError} {r : Except OsError Unit}

/-! ### Making one directory -/

/-- Where a path cannot be followed, no directory is made. -/
theorem ensureDir_of_resolve_error (h : T.resolve base p = .error e) :
  T.ensureDir base p = .error e
  := by
  have hisDir : T.isDir base p = false := by simp [isDir, node, h]
  have hmake : T.makeDir base p = .error e := by rw [makeDir, h]
  unfold ensureDir
  rw [hmake, hisDir]
  cases e <;> rfl

/-- A directory is made where nothing is, unless the path ends in a dot. -/
theorem ensureDir_of_none (h : T.resolve base p = .ok (p.place base))
    (hnone : T.lookup (p.place base).location = none) :
  T.ensureDir base p = if (p.place base).named
    then .ok (T.set (p.place base).location (.dir newDirMode)) else .error .fileExists
  := by
  have hisDir : T.isDir base p = false := by simp [isDir, node, h, hnone]
  rw [ensureDir, makeDir, h, hisDir]
  dsimp only
  rw [hnone]
  cases (p.place base).named <;> rfl

/-- A directory is found where it is. -/
theorem ensureDir_of_isDirAt (h : T.resolve base p = .ok (p.place base))
    (hdir : T.isDirAt (p.place base).location = true) :
  T.ensureDir base p = .ok T
  := by
  obtain ⟨mode, hnode⟩ := exists_dir_of_isDirAt hdir
  have hisDir : T.isDir base p = true := by simp [isDir, node, h, hnode, Node.isDir]
  have hmake : T.makeDir base p = .error .fileExists := by simp [makeDir, h, hnode]
  rw [ensureDir, hmake, hisDir]
  rfl

/-- No directory is made where a file is. -/
theorem ensureDir_of_ne_none (h : T.resolve base p = .ok (p.place base))
    (hfile : T.file? (p.place base).location ≠ none) :
  T.ensureDir base p = .error .fileExists
  := by
  obtain ⟨serial, mode, bytes, hnode⟩ := exists_file_of_ne_none hfile
  have hisDir : T.isDir base p = false := by
    simp only [isDir, node, h, hnode]
    cases (p.place base).slash <;> rfl
  have hmake : T.makeDir base p = .error .fileExists := by simp [makeDir, h, hnode]
  rw [ensureDir, hmake, hisDir]
  rfl

/-- Making a directory changes no other location. -/
theorem lookup_ensureDir_of_ne (h : T.ensureDir base p = .ok S)
    (hk : k ≠ (p.place base).location) :
  S.lookup k = T.lookup k
  := ensureDir_induct (P := fun S => S.lookup k = T.lookup k) rfl
    (fun hmake => by
      obtain ⟨-, hnone, rfl⟩ := set_of_makeDir hmake
      rw [lookup_set_dir (ne_nil_of_lookup_eq_none hnone), if_neg hk]) h

/-- Whether a directory can be made is a matter of what sort of node there is on the way. -/
theorem ensureDir_congr
    (h : ∀ k ∈ p.stops base, (T.lookup k).map Node.isDir = (T'.lookup k).map Node.isDir)
    (hlocation : (T.lookup (p.place base).location).map Node.isDir
      = (T'.lookup (p.place base).location).map Node.isDir) :
  (T.ensureDir base p).map (fun _ => ()) = (T'.ensureDir base p).map fun _ => ()
  := by
  have hresolve : T'.resolve base p = T.resolve base p := by
    unfold resolve
    rw [walk_of_stops fun k hk => (h k hk).symm]
  rcases T.resolve_cases base p with hplace | ⟨e, he⟩
  · have hplace' := hresolve.trans hplace
    rcases T.lookup_cases (p.place base).location with hnone | hdir | hfile
    · have hnone' : T'.lookup (p.place base).location = none := by
        rwa [hnone, Option.map_none, eq_comm, Option.map_eq_none_iff] at hlocation
      rw [ensureDir_of_none hplace hnone, ensureDir_of_none hplace' hnone']
      cases (p.place base).named <;> rfl
    · have hdir' := (isDirAt_of_sort hlocation.symm).trans hdir
      rw [ensureDir_of_isDirAt hplace hdir, ensureDir_of_isDirAt hplace' hdir']
      rfl
    · have hfile' : T'.file? (p.place base).location ≠ none := by
        revert hlocation hfile
        unfold file?
        rcases T.lookup (p.place base).location with _ | (_ | _) <;>
          rcases T'.lookup (p.place base).location with _ | (_ | _) <;> simp [Node.isDir]
      rw [ensureDir_of_ne_none hplace hfile, ensureDir_of_ne_none hplace' hfile']
  · rw [ensureDir_of_resolve_error he, ensureDir_of_resolve_error (hresolve.trans he)]

/-- Nothing changes but that directories are made at some places of a way where nothing was. -/
def Widens (way : List Location) (T S : Tree) : Prop :=
  ∀ k, S.lookup k = T.lookup k
    ∨ k ∈ way ∧ T.lookup k = none ∧ S.lookup k = some (.dir newDirMode)

namespace Widens

theorem refl (way : List Location) (T : Tree) :
  Widens way T T
  := fun _ => Or.inl rfl

theorem mono (h : Widens way T S) (hway : way ⊆ way') :
  Widens way' T S
  := fun k => (h k).imp_right fun ⟨hk, hmade⟩ => ⟨hway hk, hmade⟩

theorem trans (h : Widens way T S) (h' : Widens way S S₁) :
  Widens way T S₁
  := by
  intro k
  rcases h k with hsame | ⟨hk, hnone, hdir⟩
  · rcases h' k with hsame' | ⟨hk, hnone, hdir⟩
    · exact Or.inl (hsame'.trans hsame)
    · exact Or.inr ⟨hk, hsame.symm.trans hnone, hdir⟩
  · rcases h' k with hsame' | ⟨-, hnone', -⟩
    · exact Or.inr ⟨hk, hnone, hsame'.trans hdir⟩
    · rw [hdir] at hnone'
      cases hnone'

theorem file? (h : Widens way T S) (k : Location) :
  S.file? k = T.file? k
  := by
  unfold Tree.file?
  rcases h k with hsame | ⟨-, hnone, hdir⟩
  · rw [hsame]
  · rw [hnone, hdir]
    rfl

theorem isDirAt (h : Widens way T S) (hk : T.isDirAt k = true) :
  S.isDirAt k = true
  := by
  rcases h k with hsame | ⟨-, hnone, -⟩
  · rwa [Tree.isDirAt, hsame]
  · exact absurd hnone (lookup_ne_none_of_isDirAt hk)

theorem isHome (h : Widens way T S) (hl : T.IsHome l) :
  S.IsHome l
  := fun k hk => h.isDirAt (hl k hk)

end Widens

theorem isDirAt_set (hnone : T.lookup l = none) (mode : Nat) :
  (T.set l (.dir mode)).isDirAt l = true
  := by
  rw [isDirAt, lookup_set_dir (ne_nil_of_lookup_eq_none hnone), if_pos rfl]
  rfl

theorem widens_set (hnone : T.lookup l = none) :
  Widens [l] T (T.set l (.dir newDirMode))
  := by
  intro k
  rw [lookup_set_dir (ne_nil_of_lookup_eq_none hnone)]
  split
  · next hk => exact Or.inr ⟨List.mem_singleton.mpr hk, hk ▸ hnone, rfl⟩
  · exact Or.inl rfl

/-! ### Making several directories -/

/-- What there is after an attempt. -/
def settle (T : Tree) : Except OsError Tree → Except OsError Unit × Tree
  | .ok S => (.ok (), S)
  | .error e => (.error e, T)

/-- What there is after an attempt that waited for another one. -/
def settleAfter (base : Location) (p : Path) :
    Except OsError Unit × Tree → Except OsError Unit × Tree
  | (.error e, S) => (.error e, S)
  | (.ok _, S) => S.settle (S.ensureDir base p)

/-- Directories on the way are made if the first attempt misses one. -/
theorem makeAll_cons (base : Location) (absolute : Bool) (part : String) (outer : List String)
    (hp : Path.ofParts absolute (part :: outer).reverse = p) :
  makeAll base absolute (part :: outer) T = if T.ensureDir base p = .error .notFound
    then settleAfter base p (makeAll base absolute outer T) else T.settle (T.ensureDir base p)
  := by
  rw [makeAll, hp]
  rcases hfirst : T.ensureDir base p with e | S
  · by_cases he : e = .notFound
    · subst he
      rw [if_pos rfl]
      rcases makeAll base absolute outer T with ⟨_ | _, S⟩
      · rfl
      · dsimp only [settleAfter]
        cases S.ensureDir base p <;> rfl
    · rw [if_neg fun h => he (Except.error.inj h)]
      cases e <;> first | rfl | exact absurd rfl he
  · rfl

theorem makeDirs_of_nonempty (hp : p.text.isEmpty = false) :
  T.makeDirs base p = if T.ensureDir base p = .error .notFound
    then settleAfter base p (makeAll base p.isAbsolute p.parts.dropLast.reverse T)
    else T.settle (T.ensureDir base p)
  := by
  rw [makeDirs, hp]
  rcases hfirst : T.ensureDir base p with e | S
  · by_cases he : e = .notFound
    · subst he
      rw [if_pos rfl]
      rcases makeAll base p.isAbsolute p.parts.dropLast.reverse T with ⟨_ | _, S⟩
      · rfl
      · dsimp only [settleAfter]
        cases S.ensureDir base p <;> rfl
    · rw [if_neg fun h => he (Except.error.inj h)]
      cases e <;> first | rfl | exact absurd rfl he
  · rfl

/-- An attempt that fails for another reason is the only one. -/
theorem makeDirs_of_error (hp : p.text.isEmpty = false) (he : T.ensureDir base p = .error e)
    (hne : e ≠ .notFound) :
  T.makeDirs base p = (.error e, T)
  := by
  rw [makeDirs_of_nonempty hp, he, if_neg fun heq => hne (Except.error.inj heq)]
  rfl

/-- Making the directories of a way makes the missing ones up to the first step that is barred. -/
structure Makes (T : Tree) (l : Location) (segments : List String) (r : Except OsError Unit)
    (S : Tree) : Prop where
  dirs : ∀ k ∈ T.reached l segments, S.isDirAt k = true
  widens : Widens (T.reached l segments) T S
  ok_iff : r = .ok () ↔ T.IsOpen l segments
  cause : ∀ e, r = .error e → e = .nameTooLong ∨ ∃ k ∈ l.stops segments, T.file? k ≠ none

theorem IsHome.foldl (h : T.IsHome l) (hdirs : ∀ stop ∈ l.stops pre, T.isDirAt stop = true) :
  T.IsHome (pre.foldl Location.after l)
  := by
  induction pre generalizing l with
  | nil => exact h
  | cons segment pre ih =>
    obtain ⟨hfirst, hrest⟩ := List.forall_mem_cons.mp hdirs
    exact ih (h.after hfirst) hrest

/-- A path whose last step has no name leads to a directory. -/
theorem isDirAt_of_not_named (hsegments : p.segments = pre ++ [segment])
    (h : T.IsHome (pre.foldl Location.after (p.start base)))
    (hnamed : (p.place base).named = false) :
  T.isDirAt (p.place base).location = true
  := by
  rw [location_eq_after base hsegments]
  rw [Path.place] at hnamed
  dsimp only at hnamed
  rw [hsegments, List.getLast?_concat, Option.any_some, Bool.and_eq_false_iff, bne_eq_false_iff_eq,
    bne_eq_false_iff_eq] at hnamed
  rcases hnamed with rfl | rfl
  · exact h _ (List.prefix_refl _)
  · exact h _ (List.dropLast_prefix _)

/-- Where a step is not barred, a directory is made or found. -/
theorem ensureDir_of_passable (hp : p.IsUsable) (hsegments : p.segments = pre ++ [segment])
    (hhome : T.IsHome (p.start base)) (hopen : T.IsOpen (p.start base) pre)
    (hdirs : ∀ stop ∈ (p.start base).stops pre, T.isDirAt stop = true)
    (hpass : T.IsPassable (pre.foldl Location.after (p.start base)) segment) :
  ∃ S, T.ensureDir base p = .ok S ∧ S.isDirAt (p.place base).location = true
    ∧ Widens [(p.place base).location] T S
  := by
  have hresolve := resolve_of_walk T base hp
  rw [hsegments, walk_of_isOpen hopen hdirs segment, stepFrom_eq,
    if_neg (Nat.not_lt_of_le hpass.1)] at hresolve
  have hfile := hpass.2
  rw [← location_eq_after base hsegments] at hfile
  rcases T.lookup_cases (p.place base).location with hnone | hdir | hfile'
  · have hnamed : (p.place base).named = true := by
      apply eq_true_of_ne_false
      intro hnamed
      have hdir := isDirAt_of_not_named hsegments (hhome.foldl hdirs) hnamed
      exact lookup_ne_none_of_isDirAt hdir hnone
    rw [ensureDir_of_none hresolve hnone, if_pos hnamed]
    exact ⟨_, rfl, isDirAt_set hnone newDirMode, widens_set hnone⟩
  · exact ⟨T, ensureDir_of_isDirAt hresolve hdir, hdir, Widens.refl _ T⟩
  · exact absurd hfile hfile'

/-- Where a step is barred, no directory is made. -/
theorem ensureDir_of_barred (hp : p.IsUsable) (hsegments : p.segments = pre ++ [segment])
    (hopen : T.IsOpen (p.start base) pre)
    (hdirs : ∀ stop ∈ (p.start base).stops pre, T.isDirAt stop = true)
    (hbarred : ¬ T.IsPassable (pre.foldl Location.after (p.start base)) segment) :
  ∃ e, T.ensureDir base p = .error e
    ∧ (e = .nameTooLong ∨ T.file? (p.place base).location ≠ none)
  := by
  have hresolve := resolve_of_walk T base hp
  rw [hsegments, walk_of_isOpen hopen hdirs segment, stepFrom_eq] at hresolve
  by_cases hlong : maxName < segment.utf8ByteSize
  · rw [if_pos hlong] at hresolve
    exact ⟨_, ensureDir_of_resolve_error hresolve, Or.inl rfl⟩
  · rw [if_neg hlong] at hresolve
    have hfile : T.file? (p.place base).location ≠ none := by
      rw [location_eq_after base hsegments]
      exact fun hnone => hbarred ⟨Nat.le_of_not_lt hlong, hnone⟩
    exact ⟨.fileExists, ensureDir_of_ne_none hresolve hfile, Or.inr hfile⟩

/-- Making a directory in one that is there. -/
theorem makes_ensureDir (hp : p.IsUsable) (hsegments : p.segments = pre ++ [segment])
    (hhome : T.IsHome (p.start base)) (hopen : T.IsOpen (p.start base) pre)
    (hdirs : ∀ stop ∈ (p.start base).stops pre, T.isDirAt stop = true) :
  Makes T (p.start base) p.segments (T.settle (T.ensureDir base p)).1
    (T.settle (T.ensureDir base p)).2
  := by
  have hlocation := location_eq_after base hsegments
  have hreached := reached_append [segment] hopen
  rw [hsegments]
  by_cases hpass : T.IsPassable (pre.foldl Location.after (p.start base)) segment
  · obtain ⟨S, hS, hdir, hwidens⟩ := ensureDir_of_passable hp hsegments hhome hopen hdirs hpass
    rw [reached, if_pos hpass, reached, ← hlocation] at hreached
    rw [hS]
    constructor
    · rw [hreached]
      intro k hk
      rcases List.mem_append.mp hk with hk | hk
      · exact hwidens.isDirAt (hdirs k hk)
      · rw [List.mem_singleton.mp hk]
        exact hdir
    · rw [hreached]
      exact hwidens.mono (List.subset_append_right _ _)
    · exact iff_of_true rfl (isOpen_append.mpr ⟨hopen, hpass, trivial⟩)
    · rintro e ⟨⟩
  · obtain ⟨e, he, hcause⟩ := ensureDir_of_barred hp hsegments hopen hdirs hpass
    rw [reached, if_neg hpass, List.append_nil] at hreached
    rw [he]
    constructor
    · rw [hreached]
      exact hdirs
    · exact Widens.refl _ T
    · exact iff_of_false (by rintro ⟨⟩) fun h => hpass (isOpen_append.mp h).2.1
    · rintro e' ⟨⟩
      refine hcause.imp_right fun hfile => ⟨_, ?_, hfile⟩
      rw [Location.stops_append, hlocation]
      exact List.mem_append_right _ List.mem_cons_self

/-- Making a directory in one that was made. -/
theorem Makes.snoc (h : Makes T (p.start base) pre (.ok ()) S) (hp : p.IsUsable)
    (hsegments : p.segments = pre ++ [segment]) (hhome : T.IsHome (p.start base)) :
  Makes T (p.start base) p.segments (S.settle (S.ensureDir base p)).1
    (S.settle (S.ensureDir base p)).2
  := by
  have hopen := h.ok_iff.mp rfl
  have hfile := h.widens.file?
  have hdirs := h.dirs
  rw [reached_of_isOpen hopen] at hdirs
  have hopen' : S.IsOpen (p.start base) pre :=
    (isOpen_congr fun k _ => by rw [hfile]).mpr hopen
  have hnext := makes_ensureDir hp hsegments (h.widens.isHome hhome) hopen' hdirs
  have hreached : S.reached (p.start base) p.segments = T.reached (p.start base) p.segments :=
    reached_congr fun k _ => by rw [hfile]
  constructor
  · rw [← hreached]
    exact hnext.dirs
  · have hwiden := hnext.widens
    rw [hreached] at hwiden
    refine (h.widens.mono ?_).trans hwiden
    exact T.reached_prefix _ ⟨[segment], hsegments.symm⟩
  · rw [hnext.ok_iff]
    exact isOpen_congr fun k _ => by rw [hfile]
  · intro e he
    exact (hnext.cause e he).imp_right fun ⟨k, hk, hbar⟩ => ⟨k, hk, by rwa [← hfile]⟩

theorem Makes.snoc_error (h : Makes T l pre (.error e) S) (post : List String) :
  Makes T l (pre ++ post) (.error e) S
  := by
  have hbarred : ¬ T.IsOpen l pre := fun hopen => by cases h.ok_iff.mpr hopen
  constructor
  · rw [reached_append_of_not hbarred]
    exact h.dirs
  · rw [reached_append_of_not hbarred]
    exact h.widens
  · exact iff_of_false (by rintro ⟨⟩) fun hopen => hbarred (isOpen_append.mp hopen).1
  · intro e' he
    refine (h.cause e' he).imp_right fun ⟨k, hk, hfile⟩ => ⟨k, ?_, hfile⟩
    rw [Location.stops_append]
    exact List.mem_append_left _ hk

/-- Where an attempt does not miss a directory, nothing has to be made before. -/
theorem makes_of_ne_notFound (hp : p.IsUsable) (hsegments : p.segments = pre ++ [segment])
    (hhome : T.IsHome (p.start base)) (h : T.ensureDir base p ≠ .error .notFound) :
  Makes T (p.start base) p.segments (T.settle (T.ensureDir base p)).1
    (T.settle (T.ensureDir base p)).2
  := by
  have hresolve := resolve_of_walk T base hp
  cases hwalk : T.walk (p.start base) p.segments with
  | ok location =>
    rw [hsegments] at hwalk
    obtain ⟨hopen, hdirs⟩ := isOpen_of_walk hwalk
    exact makes_ensureDir hp hsegments hhome hopen hdirs
  | error e =>
    rw [hwalk] at hresolve
    have he := ensureDir_of_resolve_error hresolve
    rw [he] at h ⊢
    rw [hsegments] at hwalk ⊢
    obtain ⟨hdirs, hbarred, hcause⟩ := reached_of_walk_error hwalk fun hnotFound =>
      h (congrArg _ hnotFound)
    constructor
    · exact hdirs
    · exact Widens.refl _ T
    · exact iff_of_false (by rintro ⟨⟩) hbarred
    · rintro e' ⟨⟩
      exact hcause

/-- Making all directories of a way. -/
theorem makes_makeAll {parts : List String} (hp : q.IsUsable) (hparts : parts <+: q.parts)
    (hhome : T.IsHome (q.start base)) :
  Makes T (q.start base) parts (makeAll base q.isAbsolute parts.reverse T).1
    (makeAll base q.isAbsolute parts.reverse T).2
  := by
  induction parts using List.reverseRecOn with
  | nil =>
    constructor
    · exact List.forall_mem_nil _
    · exact Widens.refl _ T
    · exact iff_of_true rfl trivial
    · rintro e ⟨⟩
  | append_singleton pre segment ih =>
    have hnames := Path.of_mem_prefix_parts hparts
    have hmakes := ih ((List.prefix_append pre [segment]).trans hparts)
    have hsegments := Path.segments_ofParts q.isAbsolute hnames
    have hne := List.append_ne_nil_of_right_ne_nil pre (List.cons_ne_nil segment [])
    have husable := Path.isUsable_ofParts hp hparts hne
    have habsolute := Path.isAbsolute_ofParts q.isAbsolute hnames
    have hstart : (Path.ofParts q.isAbsolute (pre ++ [segment])).start base = q.start base := by
      rw [Path.start, habsolute, Path.start]
    rw [List.reverse_concat, makeAll_cons base q.isAbsolute segment pre.reverse (by
      rw [← List.reverse_concat, List.reverse_reverse])]
    generalize Path.ofParts q.isAbsolute (pre ++ [segment]) = p at *
    rw [← hstart] at hhome hmakes ⊢
    by_cases hfirst : T.ensureDir base p = .error .notFound
    · rw [if_pos hfirst, ← hsegments]
      rcases houter : makeAll base q.isAbsolute pre.reverse T with ⟨e | ⟨⟩, S⟩
      · rw [houter] at hmakes
        rw [hsegments]
        exact hmakes.snoc_error [segment]
      · rw [houter] at hmakes
        exact hmakes.snoc husable hsegments hhome
    · rw [if_neg hfirst, ← hsegments]
      exact makes_of_ne_notFound husable hsegments hhome hfirst

/-- Where a directory was made or found, its path leads through directories. -/
theorem isDirAt_of_ensureDir (h : T.ensureDir base p = .ok S) :
  ∀ k ∈ p.stops base, S.isDirAt k = true
  := by
  rcases T.resolve_cases base p with hplace | ⟨e, he⟩
  · obtain ⟨-, -, hwalk⟩ := resolve_eq_ok_iff.mp hplace
    have hlocation : S.isDirAt (p.place base).location = true := by
      rcases T.lookup_cases (p.place base).location with hnone | hdir | hfile
      · rw [ensureDir_of_none hplace hnone] at h
        split at h
        · cases h
          exact isDirAt_set hnone newDirMode
        · cases h
      · rw [ensureDir_of_isDirAt hplace hdir] at h
        cases h
        exact hdir
      · rw [ensureDir_of_ne_none hplace hfile] at h
        cases h
    intro k hk
    by_cases hkl : k = (p.place base).location
    · rw [hkl]
      exact hlocation
    · rw [isDirAt, lookup_ensureDir_of_ne h hkl]
      rcases List.eq_nil_or_concat' p.segments with hnil | ⟨pre, segment, hsegments⟩
      · rw [Path.stops, hnil] at hk
        cases hk
      · rw [Path.stops, hsegments, Location.stops_append] at hk
        rw [hsegments] at hwalk
        rcases List.mem_append.mp hk with hk | hk
        · exact isDirAt_of_walk hwalk k hk
        · exact absurd ((List.mem_singleton.mp hk).trans (location_eq_after base hsegments).symm)
            hkl
  · rw [ensureDir_of_resolve_error he] at h
    cases h

theorem widens_makeDir (hmake : T.makeDir base p = .ok S) :
  Widens (p.stops base) T S
  := by
  obtain ⟨hnamed, hnone, rfl⟩ := set_of_makeDir hmake
  have hne : p.segments ≠ [] := by
    intro hnil
    simp [Path.place, hnil] at hnamed
  apply (widens_set hnone).mono
  rw [List.cons_subset]
  exact ⟨Path.location_mem_stops hne base, List.nil_subset _⟩

/-- Making directories changes nothing but that directories are made on the way. -/
theorem widens_makeDirs (T : Tree) (base : Location) (p : Path) :
  Widens (p.stops base) T (T.makeDirs base p).2
  := makeDirs_induct (P := Widens (p.stops base) T) p
    (fun hq h hmake => h.trans ((widens_makeDir hmake).mono (hq.stops_subset base)))
    (Widens.refl _ T)

/-- Where an attempt does not miss a directory, those around the last one are there, unless something
is in the way. -/
theorem outer_of_ne_notFound (hp : p.IsUsable) (hhome : T.IsHome (p.start base))
    (h : T.ensureDir base p ≠ .error .notFound) :
  (T.IsOpen (p.start base) p.parts.dropLast
    ∧ ∀ k ∈ (p.start base).stops p.parts.dropLast, T.isDirAt k = true)
  ∨ (¬ T.IsOpen (p.start base) p.parts.dropLast
    ∧ ∃ e, T.ensureDir base p = .error e
      ∧ (∀ k ∈ T.reached (p.start base) p.parts.dropLast, T.isDirAt k = true)
      ∧ (e = .nameTooLong ∨ ∃ k ∈ p.stops base, T.file? k ≠ none))
  := by
  rcases List.eq_nil_or_concat' p.segments with hnil | ⟨pre, segment, hsegments⟩
  · have hparts : p.parts = [] := by rw [Path.parts, hnil]
    rw [hparts]
    exact Or.inl ⟨trivial, List.forall_mem_nil _⟩
  cases hwalk : T.walk (p.start base) p.segments with
  | ok location =>
    have houtside := Path.stops_outer_subset base p
    rw [hsegments, List.dropLast_concat] at houtside
    rw [hsegments] at hwalk
    obtain ⟨hopen, hdirs⟩ := isOpen_of_walk hwalk
    left
    refine ⟨isOpen_outer ?_, fun k hk => ?_⟩
    · rwa [hsegments, List.dropLast_concat]
    · rcases List.mem_cons.mp (houtside hk) with rfl | hk
      · exact hhome _ (List.prefix_refl _)
      · exact hdirs k hk
  | error e =>
    have he : T.ensureDir base p = .error e := by
      apply ensureDir_of_resolve_error
      rw [resolve_of_walk T base hp, hwalk]
      rfl
    have hne : e ≠ .notFound := by
      rintro rfl
      exact h he
    have hstart := file?_eq_none_of_isDirAt (hhome _ (List.prefix_refl _))
    have hreached : T.reached (p.start base) p.parts.dropLast
        ⊆ T.reached (p.start base) p.segments :=
      List.Subset.trans (T.reached_prefix (p.start base) (List.dropLast_prefix p.parts))
        (reached_parts_subset hstart)
    rw [hsegments] at hwalk
    obtain ⟨hdirs, -, hcause⟩ := reached_of_walk_error hwalk hne
    rw [← hsegments] at hdirs hcause
    by_cases hopen : T.IsOpen (p.start base) p.parts.dropLast
    · rw [reached_of_isOpen hopen] at hreached
      exact Or.inl ⟨hopen, fun k hk => hdirs k (hreached hk)⟩
    · exact Or.inr ⟨hopen, e, he, fun k hk => hdirs k (hreached hk), hcause⟩

/-- Making directories makes those around the last one, and then the last one; unless something is
in the way. -/
theorem makeDirs_cases (hp : p.IsUsable) (hhome : T.IsHome (p.start base)) :
  (T.IsOpen (p.start base) p.parts.dropLast
    ∧ ∃ U, Widens ((p.start base).stops p.parts.dropLast) T U
      ∧ (∀ k ∈ (p.start base).stops p.parts.dropLast, U.isDirAt k = true)
      ∧ T.makeDirs base p = U.settle (U.ensureDir base p))
  ∨ (¬ T.IsOpen (p.start base) p.parts.dropLast
    ∧ ∃ e S, T.makeDirs base p = (.error e, S)
      ∧ Widens (T.reached (p.start base) p.parts.dropLast) T S
      ∧ (∀ k ∈ T.reached (p.start base) p.parts.dropLast, S.isDirAt k = true)
      ∧ (e = .nameTooLong ∨ ∃ k ∈ p.stops base, T.file? k ≠ none))
  := by
  have houter := List.dropLast_prefix p.parts
  rw [makeDirs_of_nonempty (eq_false_of_ne_true hp.nonempty)]
  by_cases hfirst : T.ensureDir base p = .error .notFound
  · rw [if_pos hfirst]
    have hmakes := makes_makeAll hp houter hhome
    rcases hmade : makeAll base p.isAbsolute p.parts.dropLast.reverse T with ⟨e | ⟨⟩, S⟩
    · rw [hmade] at hmakes
      have hbarred : ¬ T.IsOpen (p.start base) p.parts.dropLast := fun hopen => by
        cases hmakes.ok_iff.mpr hopen
      right
      refine ⟨hbarred, e, S, rfl, hmakes.widens, hmakes.dirs, ?_⟩
      refine (hmakes.cause e rfl).imp_right fun ⟨k, hk, hfile⟩ => ⟨k, ?_, hfile⟩
      exact Path.stops_parts_subset base p (Path.stops_subset_of_isPrefix houter _ hk)
    · rw [hmade] at hmakes
      have hopen := hmakes.ok_iff.mp rfl
      have hreached := reached_of_isOpen hopen
      left
      refine ⟨hopen, S, ?_, ?_, rfl⟩
      · rw [← hreached]
        exact hmakes.widens
      · rw [← hreached]
        exact hmakes.dirs
  · rw [if_neg hfirst]
    rcases outer_of_ne_notFound hp hhome hfirst with ⟨hopen, hdirs⟩ | ⟨hbarred, e, he, hdirs, hcause⟩
    · exact Or.inl ⟨hopen, T, Widens.refl _ T, hdirs, rfl⟩
    · right
      refine ⟨hbarred, e, T, ?_, Widens.refl _ T, hdirs, hcause⟩
      rw [he]
      rfl

end Tree

end Bindery
