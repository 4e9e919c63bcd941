import Bindery.Proofs.Tree.Agree
import Bindery.Proofs.Tree.Making

/-!
# Making directories ahead of time

A tree is `Ahead` of another if it shows the same, but that it has some of the directories already
that are missing in the other one on the way to a place.  When the directories of the way are made
in both, then this succeeds in both, and the trees agree; or it fails in both (`Ahead.makeDirs`).
What stops it is the same in both if the path has no step upwards and the nodes of the trees are in
directories (`Tree.Rooted`).
-/

namespace Bindery

namespace Tree

variable {T T' S S' : Tree} {l k base : Location} {p : Path} {segments : List String}
  {way : List Location} {e e' : OsError}

/-- Every node is in a directory. -/
def Rooted (T : Tree) : Prop :=
  ∀ l name, T.lookup (l ++ [name]) ≠ none → T.isDirAt l = true

theorem Rooted.isDirAt (h : T.Rooted) (hk : T.lookup k ≠ none) (hl : l <+: k) (hne : l ≠ k) :
  T.isDirAt l = true
  := by
  obtain ⟨names, rfl⟩ := hl
  induction names using List.reverseRecOn with
  | nil => exact absurd (List.append_nil l).symm hne
  | append_singleton names name ih =>
    rw [← List.append_assoc] at hk
    have hdir := h _ _ hk
    by_cases hl : l = l ++ names
    · rw [hl]
      exact hdir
    · exact ih (lookup_ne_none_of_isDirAt hdir) hl

theorem rooted_empty :
  Rooted {}
  := by
  intro l name hsome
  simp [lookup] at hsome

/-- At the location the first tree shows what the second one does, or has a new directory where the
second one has nothing. -/
def LeadsAt (T T' : Tree) (k : Location) : Prop :=
  T.shown k = T'.shown k ∨ T'.lookup k = none ∧ T.lookup k = some (.dir newDirMode)

namespace LeadsAt

theorem file?_eq_none (h : LeadsAt T T' k) :
  T.file? k = none ↔ T'.file? k = none
  := by
  have hfile (S : Tree) : S.file? k = none ↔ ((S.lookup k).map Node.isDir) ≠ some false := by
    unfold file?
    rcases S.lookup k with _ | (_ | _) <;> simp [Node.isDir]
  rcases h with hshown | ⟨hnone, hdir⟩
  · rw [hfile, hfile, sort_eq_of_shown hshown]
  · rw [hfile, hfile, hnone, hdir]
    simp [Node.isDir]

theorem isDirAt (h : LeadsAt T T' k) (hk : T'.isDirAt k = true) :
  T.isDirAt k = true
  := by
  rcases h with hshown | ⟨hnone, -⟩
  · rwa [← isDirAt_of_shown hshown]
  · exact absurd hnone (lookup_ne_none_of_isDirAt hk)

/-- Where directories are found or made in both trees, they show the same. -/
theorem shown_of_dirs (h : LeadsAt T T' k) (hS : S.isDirAt k = true) (hS' : S'.isDirAt k = true)
    (hmade : S.lookup k = T.lookup k ∨ T.lookup k = none ∧ S.lookup k = some (.dir newDirMode))
    (hmade' : S'.lookup k = T'.lookup k
      ∨ T'.lookup k = none ∧ S'.lookup k = some (.dir newDirMode)) :
  S.shown k = S'.shown k
  := by
  have hsome := lookup_ne_none_of_isDirAt hS
  have hsome' := lookup_ne_none_of_isDirAt hS'
  rcases hmade with hsame | ⟨hnone, hnew⟩ <;> rcases hmade' with hsame' | ⟨hnone', hnew'⟩
  · rcases h with hshown | ⟨hnone, -⟩
    · rwa [shown, shown, hsame, hsame']
    · exact absurd (hsame'.trans hnone) hsome'
  · rcases h with hshown | ⟨-, hdir⟩
    · rw [shown, shown, hnone', Option.map_none, Option.map_eq_none_iff] at hshown
      exact absurd (hsame.trans hshown) hsome
    · rw [shown, shown, hsame, hdir, hnew']
  · rcases h with hshown | ⟨-, hdir⟩
    · rw [shown, shown, hnone, Option.map_none, eq_comm, Option.map_eq_none_iff] at hshown
      exact absurd (hsame'.trans hshown) hsome'
    · rw [hnone] at hdir
      cases hdir
  · rw [shown, shown, hnew, hnew']

end LeadsAt

/-! ### What is in the way -/

/-- Without steps upwards, the stops of a way are below where it begins. -/
theorem prefix_of_mem_stops (hdots : ".." ∉ segments) (hk : k ∈ l.stops segments) :
  l <+: k
  := by
  induction segments generalizing l with
  | nil => cases hk
  | cons segment segments ih =>
    rw [List.mem_cons, not_or] at hdots
    have hafter : l <+: l.after segment := by
      rw [Location.after, if_neg (Ne.symm hdots.1)]
      split
      · exact List.prefix_refl l
      · exact List.prefix_append l _
    rcases List.mem_cons.mp hk with rfl | hk
    · exact hafter
    · exact hafter.trans (ih hdots.2 hk)

/-- A file on the way stops a walk in both trees alike, and nothing is missing before it. -/
theorem walk_of_file (hdots : ".." ∉ segments) (hrooted : T'.Rooted)
    (hleads : ∀ k ∈ l.stops segments, LeadsAt T T' k)
    (hfile : ∃ k ∈ l.stops segments, T'.file? k ≠ none) :
  T.walk l segments = T'.walk l segments ∧ T'.walk l segments ≠ .error .notFound
  := by
  induction segments generalizing l with
  | nil =>
    obtain ⟨k, hk, -⟩ := hfile
    cases hk
  | cons segment segments ih =>
    obtain ⟨hfirst, hrest⟩ := List.forall_mem_cons.mp hleads
    rw [List.mem_cons, not_or] at hdots
    by_cases hnil : segments = []
    · subst hnil
      refine ⟨rfl, ?_⟩
      change stepFrom l segment ≠ _
      rw [stepFrom_eq]
      split <;> simp
    rw [walk_cons_of_ne_nil hnil, walk_cons_of_ne_nil hnil]
    by_cases hlong : maxName < segment.utf8ByteSize
    · rw [if_pos hlong, if_pos hlong]
      exact ⟨rfl, by simp⟩
    rw [if_neg hlong, if_neg hlong]
    by_cases hbarred : T'.file? (l.after segment) = none
    · obtain ⟨k, hk, hkfile⟩ := hfile
      have hbelow : k ∈ (l.after segment).stops segments := by
        rcases List.mem_cons.mp hk with rfl | hk
        · exact absurd hbarred hkfile
        · exact hk
      have hsome : T'.lookup k ≠ none := by
        intro hnone
        simp [file?, hnone] at hkfile
      have hne : l.after segment ≠ k := by
        rintro rfl
        exact hkfile hbarred
      have hdir := hrooted.isDirAt hsome (prefix_of_mem_stops hdots.2 hbelow) hne
      obtain ⟨mode', hnode'⟩ := exists_dir_of_isDirAt hdir
      obtain ⟨mode, hnode⟩ := exists_dir_of_isDirAt (hfirst.isDirAt hdir)
      rw [hnode, hnode']
      exact ih hdots.2 hrest ⟨k, hbelow, hkfile⟩
    · obtain ⟨serial', mode', bytes', hnode'⟩ := exists_file_of_ne_none hbarred
      obtain ⟨serial, mode, bytes, hnode⟩ :=
        exists_file_of_ne_none (mt hfirst.file?_eq_none.mp hbarred)
      rw [hnode, hnode']
      exact ⟨rfl, by simp⟩

/-- A file on the way stops the making of a directory in both trees alike. -/
theorem ensureDir_of_file (hp : p.IsUsable) (hdots : ".." ∉ p.segments) (hrooted : T'.Rooted)
    (hleads : ∀ k ∈ p.stops base, LeadsAt T T' k)
    (hfile : ∃ k ∈ p.stops base, T'.file? k ≠ none) :
  ∃ e, T.ensureDir base p = .error e ∧ T'.ensureDir base p = .error e ∧ e ≠ .notFound
  := by
  obtain ⟨hwalk, hne⟩ := walk_of_file hdots hrooted hleads hfile
  have hresolve := resolve_of_walk T base hp
  have hresolve' := resolve_of_walk T' base hp
  change T.walk (p.start base) p.segments = T'.walk (p.start base) p.segments at hwalk
  rw [hwalk] at hresolve
  cases hend : T'.walk (p.start base) p.segments with
  | error e =>
    rw [hend] at hresolve hresolve'
    refine ⟨e, ensureDir_of_resolve_error hresolve, ensureDir_of_resolve_error hresolve', ?_⟩
    rintro rfl
    exact hne hend
  | ok location =>
    rw [hend] at hresolve hresolve'
    obtain ⟨k, hk, hkfile⟩ := hfile
    have hlocation : k = (p.place base).location := by
      rcases List.eq_nil_or_concat' p.segments with hnil | ⟨pre, segment, hsegments⟩
      · rw [Path.stops, hnil] at hk
        cases hk
      · rw [Path.stops, hsegments, Location.stops_append] at hk
        rw [hsegments] at hend
        rcases List.mem_append.mp hk with hk | hk
        · exact absurd (file?_eq_none_of_isDirAt (isDirAt_of_walk hend k hk)) hkfile
        · exact (List.mem_singleton.mp hk).trans (location_eq_after base hsegments).symm
    subst hlocation
    exact ⟨.fileExists,
      ensureDir_of_ne_none hresolve (mt (hleads _ hk).file?_eq_none.mp hkfile),
      ensureDir_of_ne_none hresolve' hkfile, by simp⟩

/-! ### Trees ahead of others -/

variable {on : Location → Prop}

/-- Two trees show the same at some locations, but that the first one may have new directories
where the second one has nothing, on the way to a place and not at or below it. -/
structure Ahead (base : Location) (p : Path) (on : Location → Prop) (T T' : Tree) : Prop where
  home : T.IsHome (p.start base)
  home' : T'.IsHome (p.start base)
  shown : ∀ k, on k → T.shown k = T'.shown k
    ∨ (k ∈ p.stops base ∧ ¬ (p.place base).location <+: k) ∧ LeadsAt T T' k

namespace Ahead

theorem refl (hhome : T.IsHome (p.start base)) :
  Ahead base p on T T
  := ⟨hhome, hhome, fun _ _ => Or.inl rfl⟩

theorem leads (h : Ahead base p on T T') (hk : on k) :
  LeadsAt T T' k
  := (h.shown k hk).elim Or.inl And.right

/-- Outside the way, the trees agree. -/
theorem shown_of_not_mem (h : Ahead base p on T T') (hk : on k)
    (hway : k ∈ p.stops base → (p.place base).location <+: k) :
  T.shown k = T'.shown k
  := (h.shown k hk).resolve_right fun ⟨⟨hstop, hbelow⟩, _⟩ => hbelow (hway hstop)

/-- The trees stay ahead when directories are made at the same places. -/
theorem widens (h : Ahead base p on T T') (hway : Widens way T S) (hway' : Widens way T' S')
    (hdirs : ∀ k ∈ way, S.isDirAt k = true) (hdirs' : ∀ k ∈ way, S'.isDirAt k = true) :
  Ahead base p on S S'
  := by
  refine ⟨hway.isHome h.home, hway'.isHome h.home', fun k hk => ?_⟩
  by_cases hmem : k ∈ way
  · left
    exact (h.leads hk).shown_of_dirs (hdirs k hmem) (hdirs' k hmem)
      ((hway k).imp_right And.right) ((hway' k).imp_right And.right)
  · have hsame := (hway k).resolve_right fun hmade => hmem hmade.1
    have hsame' := (hway' k).resolve_right fun hmade => hmem hmade.1
    rw [LeadsAt, Tree.shown, Tree.shown, hsame, hsame']
    exact h.shown k hk

/-- The trees agree when all directories of the way are made. -/
theorem agreeOn (h : Ahead base p on T T')
    (hway : Widens (p.stops base) T S) (hway' : Widens (p.stops base) T' S')
    (hdirs : ∀ k ∈ p.stops base, S.isDirAt k = true)
    (hdirs' : ∀ k ∈ p.stops base, S'.isDirAt k = true) :
  AgreeOn on S S'
  := by
  have hahead := h.widens hway hway' hdirs hdirs'
  refine ⟨fun k hk => (hahead.shown k hk).elim id ?_⟩
  rintro ⟨⟨hstop, -⟩, hsame | ⟨hnone, -⟩⟩
  · exact hsame
  · exact absurd hnone (lookup_ne_none_of_isDirAt (hdirs' k hstop))

end Ahead

/-- For a path that cannot name anything, nothing is made in any tree. -/
theorem makeDirs_of_not_usable (base : Location) (hp : ¬ p.IsUsable) :
  (p.stops base = [] ∧ ∀ T : Tree, T.makeDirs base p = (.ok (), T))
    ∨ ∃ e, ∀ T : Tree, T.makeDirs base p = (.error e, T)
  := by
  cases hempty : p.text.isEmpty with
  | true =>
    refine Or.inl ⟨?_, fun T => ?_⟩
    · rw [Path.stops, Path.segments, String.isEmpty_iff.mp hempty]
      rfl
    · rw [makeDirs, hempty]
      rfl
  | false =>
    have hfirst {e : OsError} (hne : e ≠ .notFound)
        (he : ∀ T : Tree, T.resolve base p = .error e) (T : Tree) :
        T.makeDirs base p = (.error e, T) :=
      makeDirs_of_error hempty (ensureDir_of_resolve_error (he T)) hne
    right
    by_cases hnul : p.text.toList.contains '\x00'
    · exact ⟨.nulInName, hfirst (by simp) fun T => by rw [resolve, if_pos hnul]⟩
    · by_cases hlong : maxPath < p.text.utf8ByteSize
      · refine ⟨.nameTooLong, hfirst (by simp) fun T => ?_⟩
        rw [resolve, if_neg hnul, if_neg (by simp [hempty]), if_pos hlong]
      · exact absurd ⟨hnul, by simp [hempty], hlong⟩ hp

/-- Where all directories around a place are there, the last one can be made in both trees, or in
none. -/
theorem Ahead.ensureDir {U U' : Tree} (h : Ahead base p on T T') (hon : ∀ k ∈ p.stops base, on k)
    (hU : Widens ((p.start base).stops p.parts.dropLast) T U)
    (hU' : Widens ((p.start base).stops p.parts.dropLast) T' U')
    (hdirs : ∀ k ∈ (p.start base).stops p.parts.dropLast, U.isDirAt k = true)
    (hdirs' : ∀ k ∈ (p.start base).stops p.parts.dropLast, U'.isDirAt k = true) :
  (U.ensureDir base p).map (fun _ => ()) = (U'.ensureDir base p).map fun _ => ()
  := by
  have hboth {k : Location} (hk : U.isDirAt k = true) (hk' : U'.isDirAt k = true) :
      (U.lookup k).map Node.isDir = (U'.lookup k).map Node.isDir := by
    obtain ⟨mode, hnode⟩ := exists_dir_of_isDirAt hk
    obtain ⟨mode', hnode'⟩ := exists_dir_of_isDirAt hk'
    rw [hnode, hnode']
    rfl
  have hstart := hboth (hU.isHome h.home _ (List.prefix_refl _))
    (hU'.isHome h.home' _ (List.prefix_refl _))
  have hlocation : (U.lookup (p.place base).location).map Node.isDir
      = (U'.lookup (p.place base).location).map Node.isDir := by
    by_cases hmem : (p.place base).location ∈ (p.start base).stops p.parts.dropLast
    · exact hboth (hdirs _ hmem) (hdirs' _ hmem)
    · by_cases hnil : p.segments = []
      · have hplace : (p.place base).location = p.start base := by
          rw [Path.place, hnil]
          rfl
        rw [hplace]
        exact hstart
      · have hshown := h.shown_of_not_mem (hon _ (Path.location_mem_stops hnil base))
          fun _ => List.prefix_refl _
        rw [(hU _).resolve_right fun hmade => hmem hmade.1,
          (hU' _).resolve_right fun hmade => hmem hmade.1]
        exact (sort_eq_of_shown hshown).symm
  apply ensureDir_congr _ hlocation
  intro k hk
  rcases List.mem_cons.mp (Path.stops_subset base p hk) with rfl | hk
  · exact hstart
  · rcases List.mem_append.mp hk with hk | hk
    · exact hboth (hdirs k hk) (hdirs' k hk)
    · rw [List.mem_singleton.mp hk]
      exact hlocation

/-- When directories can be made neither in one tree nor in the other one, the reasons are the same,
unless the path has steps upwards. -/
theorem Ahead.error_eq (h : Ahead base p on T T') (hon : ∀ k ∈ p.stops base, on k)
    (hp : p.IsUsable) (hdots : ".." ∉ p.segments) (hrooted : T'.Rooted)
    (hmake : (T.makeDirs base p).1 = .error e) (hmake' : (T'.makeDirs base p).1 = .error e')
    (hcause : e = .nameTooLong ∨ ∃ k ∈ p.stops base, T.file? k ≠ none)
    (hcause' : e' = .nameTooLong ∨ ∃ k ∈ p.stops base, T'.file? k ≠ none) :
  e = e'
  := by
  by_cases hfile : ∃ k ∈ p.stops base, T'.file? k ≠ none
  · obtain ⟨e₀, he, he', hne⟩ := ensureDir_of_file hp hdots hrooted
      (fun k hk => h.leads (hon k hk)) hfile
    have hempty := eq_false_of_ne_true hp.nonempty
    rw [makeDirs_of_error hempty he hne] at hmake
    rw [makeDirs_of_error hempty he' hne] at hmake'
    exact (Except.error.inj hmake).symm.trans (Except.error.inj hmake')
  · have hnone : ¬ ∃ k ∈ p.stops base, T.file? k ≠ none := fun ⟨k, hk, hkfile⟩ =>
      hfile ⟨k, hk, mt (h.leads (hon k hk)).file?_eq_none.mpr hkfile⟩
    rw [hcause.resolve_right hnone, hcause'.resolve_right hfile]

/-- When one tree is ahead of another on the way to a place, then the directories of the way can be
made in both trees, and they agree; or they can be made in none. -/
theorem Ahead.makeDirs (h : Ahead base p on T T') (hon : ∀ k ∈ p.stops base, on k) :
  ((T.makeDirs base p).1 = .ok () ∧ (T'.makeDirs base p).1 = .ok ()
    ∧ AgreeOn on (T.makeDirs base p).2 (T'.makeDirs base p).2
    ∧ ∀ k ∈ p.stops base, (T.makeDirs base p).2.isDirAt k = true)
  ∨ ∃ e e', (T.makeDirs base p).1 = .error e ∧ (T'.makeDirs base p).1 = .error e'
    ∧ Ahead base p on (T.makeDirs base p).2 (T'.makeDirs base p).2
    ∧ (".." ∉ p.segments → T'.Rooted → e = e')
  := by
  by_cases hp : p.IsUsable
  · have hfiles (k : Location) (hk : k ∈ p.stops base) : T.file? k = none ↔ T'.file? k = none :=
      (h.leads (hon k hk)).file?_eq_none
    have houter : (p.start base).stops p.parts.dropLast ⊆ p.stops base :=
      List.Subset.trans (Path.stops_subset_of_isPrefix (List.dropLast_prefix p.parts) _)
        (Path.stops_parts_subset base p)
    have hisOpen := isOpen_congr fun k hk => hfiles k (houter hk)
    have hreached := reached_congr fun k hk => hfiles k (houter hk)
    rcases makeDirs_cases hp h.home with
      ⟨hopen, U, hU, hdirs, hmake⟩ | ⟨hbarred, e, S, hmake, hway, hdirs, hcause⟩ <;>
    rcases makeDirs_cases hp h.home' with
      ⟨hopen', U', hU', hdirs', hmake'⟩ | ⟨hbarred', e', S', hmake', hway', hdirs', hcause'⟩
    · have hensure := h.ensureDir hon hU hU' hdirs hdirs'
      have hway := T.widens_makeDirs base p
      have hway' := T'.widens_makeDirs base p
      rw [hmake] at hway ⊢
      rw [hmake'] at hway' ⊢
      rcases hmade : U.ensureDir base p with e | S <;>
        rcases hmade' : U'.ensureDir base p with e' | S' <;>
        rw [hmade, hmade'] at hensure
      · cases hensure
        right
        exact ⟨e, e, rfl, rfl, h.widens hU hU' hdirs hdirs', fun _ _ => rfl⟩
      · cases hensure
      · cases hensure
      · rw [hmade] at hway
        rw [hmade'] at hway'
        have hdirs := isDirAt_of_ensureDir hmade
        left
        exact ⟨rfl, rfl, h.agreeOn hway hway' hdirs (isDirAt_of_ensureDir hmade'), hdirs⟩
    · exact absurd (hisOpen.mp hopen) hbarred'
    · exact absurd (hisOpen.mpr hopen') hbarred
    · right
      have hsame (hdots : ".." ∉ p.segments) (hrooted : T'.Rooted) : e = e' :=
        h.error_eq hon hp hdots hrooted (congrArg Prod.fst hmake) (congrArg Prod.fst hmake') hcause
          hcause'
      rw [← hreached] at hway' hdirs'
      rw [hmake, hmake']
      exact ⟨e, e', rfl, rfl, h.widens hway hway' hdirs hdirs', hsame⟩
  · rcases makeDirs_of_not_usable base hp with ⟨hstops, hmake⟩ | ⟨e, hmake⟩
    · have hagree : AgreeOn on T T' := by
        refine ⟨fun k hk => h.shown_of_not_mem hk ?_⟩
        rw [hstops]
        rintro ⟨⟩
      rw [hmake, hmake, hstops]
      exact Or.inl ⟨rfl, rfl, hagree, List.forall_mem_nil _⟩
    · rw [hmake, hmake]
      exact Or.inr ⟨e, e, rfl, rfl, h, fun _ _ => rfl⟩

end Tree

end Bindery
