import Bindery.Proofs.Request.Refusal
import Bindery.Proofs.Unaffected

/-!
# Requests with and without a source

Two requests are compared of which the second has one more source, handled after some sources of
the first and before the others (`Inserts`).  Keeping the sources leaves machines beside each other
at the location where that source is kept (`keeping_inserted`).  If it cannot be extracted, then
extracting the sources gives the same for the others, and leaves the machines beside each other
(`extractAll_inserted`).
-/

namespace Bindery.Request

open Machine (run run_bind Beside Mild Unaffected)

/-! ### One more source -/

/-- The second list of sources has one source more, handled after those of `pre` and before those of
`post`. -/
structure Inserts (sources sources' : List SourceFile) (pre : List (SourceFile × Nat))
    (extra : SourceFile × Nat) (post : List (SourceFile × Nat)) : Prop where
  without : inOrder sources = pre ++ post
  within : inOrder sources' = pre ++ extra :: post

variable {sources sources' before after : List SourceFile} {pre post : List (SourceFile × Nat)}
  {extra : SourceFile × Nat}

/-- No other source is kept under the name of the one that is inserted. -/
theorem Inserts.fileName_ne (h : Inserts sources sources' pre extra post) :
  ∀ source ∈ pre ++ post,
    source.1.kind.fileName source.2 ≠ extra.1.kind.fileName extra.2
  := by
  have hpairwise := inOrder_pairwise sources'
  rw [h.within, List.pairwise_append, List.pairwise_cons] at hpairwise
  obtain ⟨-, ⟨hafter, -⟩, hbefore⟩ := hpairwise
  intro source hsource hname
  obtain ⟨hkind, hindex⟩ := SourceKind.fileName_inj hname
  rcases List.mem_append.mp hsource with hpre | hpost
  · exact hbefore source hpre extra List.mem_cons_self ⟨hkind, hindex⟩
  · exact hafter source hpost ⟨hkind.symm, hindex.symm⟩

/-- The kinds before and after a kind. -/
theorem exists_split_kinds (kind : SourceKind) :
  ∃ earlier later, SourceKind.all = earlier ++ kind :: later
    ∧ (∀ k ∈ earlier, k.rank < kind.rank) ∧ ∀ k ∈ later, kind.rank < k.rank
  := by
  cases kind with
  | latex => exact ⟨[], [.slides, .notebook], rfl, by decide, by decide⟩
  | slides => exact ⟨[.latex], [.notebook], rfl, by decide, by decide⟩
  | notebook => exact ⟨[.latex, .slides], [], rfl, by decide, by decide⟩

theorem numbered_insert_of_ne {kind : SourceKind} {source : SourceFile} (h : source.kind ≠ kind) :
  numbered (before ++ source :: after) kind = numbered (before ++ after) kind
  := by simp [numbered, h]

/-- The last source of its kind has the number of those before it. -/
theorem numbered_insert {source : SourceFile} (h : ∀ other ∈ after, other.kind ≠ source.kind) :
  numbered (before ++ source :: after) source.kind
    = numbered (before ++ after) source.kind ++ [(source, (bytesOf before source.kind).length)]
  := by
  have hafter : (after.filter fun s => s.kind = source.kind) = [] := by
    apply List.filter_eq_nil_iff.mpr
    intro other hother
    simpa using h other hother
  simp [numbered, bytesOf, hafter, List.zipIdx_append]

/-- A source that is the last of its kind is handled after all sources whose kinds do not come
later. -/
theorem exists_inserts (before : List SourceFile) {source : SourceFile}
    (h : ∀ other ∈ after, other.kind ≠ source.kind) :
  ∃ pre post, Inserts (before ++ after) (before ++ source :: after) pre
      (source, (bytesOf before source.kind).length) post
    ∧ (∀ other ∈ pre, other.1.kind.rank ≤ source.kind.rank)
    ∧ ∀ other ∈ post, source.kind.rank < other.1.kind.rank
  := by
  obtain ⟨earlier, later, hall, hearlier, hlater⟩ := exists_split_kinds source.kind
  have hsame {kinds : List SourceKind} (hkinds : ∀ kind ∈ kinds, kind ≠ source.kind) :
      kinds.flatMap (numbered (before ++ source :: after))
        = kinds.flatMap (numbered (before ++ after)) := by
    apply List.flatMap_congr
    intro kind hkind
    exact numbered_insert_of_ne (hkinds kind hkind).symm
  have hne {kind kind' : SourceKind} (h : kind.rank < kind'.rank) : kind ≠ kind' := by
    rintro rfl
    exact Nat.lt_irrefl _ h
  refine ⟨earlier.flatMap (numbered (before ++ after)) ++ numbered (before ++ after) source.kind,
    later.flatMap (numbered (before ++ after)), ⟨?_, ?_⟩, ?_, ?_⟩
  · change SourceKind.all.flatMap (numbered (before ++ after)) = _
    rw [hall, List.flatMap_append, List.flatMap_cons, List.append_assoc]
  · change SourceKind.all.flatMap (numbered (before ++ source :: after)) = _
    rw [hall, List.flatMap_append, List.flatMap_cons, hsame fun kind hk => hne (hearlier kind hk),
      hsame fun kind hk => (hne (hlater kind hk)).symm, numbered_insert h]
    simp only [List.append_assoc, List.singleton_append]
  · intro other hother
    rcases List.mem_append.mp hother with hmem | hmem
    · obtain ⟨kind, hkind, hmem⟩ := List.mem_flatMap.mp hmem
      rw [(of_mem_numbered hmem).2]
      exact (hearlier kind hkind).le
    · rw [(of_mem_numbered hmem).2]
  · intro other hother
    obtain ⟨kind, hkind, hmem⟩ := List.mem_flatMap.mp hother
    rw [(of_mem_numbered hmem).2]
    exact hlater kind hkind

/-! ### Events -/

/-- What is announced, if progress is announced. -/
def announced (c : Config) (events : List Event) : List Event :=
  if c.announces then events else []

/-- The events of extracting sources of so many, of which the first has the given position. -/
def eventsOf (total position : Nat) : List Extraction → List Event
  | [] => []
  | x :: xs => .sourceBegun position total x.origin :: extractedEvent position total x.result
    :: eventsOf total (position + 1) xs

variable {s : Surroundings} {context : Context} {c : Config} {w : Workspace} {m m' : Machine}
  {l : Location} {bytes : Bytes}

theorem announced_append (events more : List Event) :
  announced c (events ++ more) = announced c events ++ announced c more
  := by
  unfold announced
  split <;> rfl

theorem run_announce_eq (event : Event) (m : Machine) :
  run s (announce c event) m
    = ((), { m with events := (announced c [event]).reverse ++ m.events })
  := by
  unfold announce announced
  split <;> rfl

/-! ### Keeping them -/

/-- Keeping a source that can be written, and then others. -/
theorem run_keepAll_cons {T : Tree} {source : SourceFile × Nat}
    (h : m.tree.write m.cwd (keptSource w source).path source.1.bytes = .ok T)
    (rest : List (SourceFile × Nat)) :
  run s (keepAll w (source :: rest)) m
    = ((run s (keepAll w rest) { m with tree := T }).1.map (keptSource w source :: ·),
      (run s (keepAll w rest) { m with tree := T }).2)
  := by
  obtain ⟨source, index⟩ := source
  rw [keptSource] at h
  dsimp only at h
  rw [keepAll, Dialogue.bind_eq, run_bind, Workspace.persist, run_workspace_write, h]
  dsimp only
  rw [Dialogue.bind_eq, run_bind]
  cases (run s (keepAll w rest) { m with tree := T }).1 <;> rfl

/-- Keeping some sources and then others. -/
theorem keepAll_append (w : Workspace) (first second : List (SourceFile × Nat)) :
  keepAll w (first ++ second) = (keepAll w first).bind fun result => match result with
    | .error e => .done (.error e)
    | .ok kept => (keepAll w second).bind fun result => .done (result.map (kept ++ ·))
  := by
  induction first with
  | nil =>
    change keepAll w second = (keepAll w second).bind fun result => .done (result.map fun k => k)
    rw [← Dialogue.bind_done (keepAll w second), Dialogue.bind_assoc]
    congr
    funext result
    cases result <;> rfl
  | cons source rest ih =>
    obtain ⟨source, index⟩ := source
    rw [List.cons_append, keepAll, keepAll, ih]
    simp only [Dialogue.bind_eq, Dialogue.bind_assoc]
    congr
    funext result
    cases result with
    | error e => rfl
    | ok path =>
      dsimp only
      simp only [Dialogue.bind_assoc]
      congr
      funext result
      cases result with
      | error e => rfl
      | ok kept =>
        dsimp only [Dialogue.pure_eq, Dialogue.bind]
        rw [Dialogue.bind_assoc]
        congr
        funext result
        cases result <;> rfl

/-- Where a source of a number is kept. -/
abbrev keptAt (w : Workspace) (cwd : Location) (source : SourceFile × Nat) : Location :=
  ((keptSource w source).path.place cwd).location

/-- The other sources and all images avoid a source that is inserted, where it can be written. -/
theorem Inserts.avoids (h : Inserts sources sources' pre extra post) {T S : Tree} {cwd : Location}
    (hwrite : T.write cwd (keptSource w extra).path bytes = .ok S) :
  (∀ source ∈ pre ++ post, (keptSource w source).path.Avoids cwd (keptAt w cwd extra))
    ∧ ∀ path, IsImageIn w.root path → path.Avoids cwd (keptAt w cwd extra)
  := by
  have hextra := SourceKind.isName_fileName extra.1.kind extra.2
  constructor
  · intro source hsource
    exact Tree.avoids_of_write (SourceKind.isName_fileName _ _) hextra
      (h.fileName_ne source hsource) hwrite
  · rintro path ⟨name, hname, rfl⟩
    exact Tree.avoids_of_write hname.isName hextra (hname.ne_fileName _ _) hwrite

/-- Keeping sources is unaffected by a file that they avoid. -/
theorem unaffected_keepAll {cwd : Location} {kept : List (SourceFile × Nat)}
    (h : ∀ source ∈ kept, (keptSource w source).path.Avoids cwd l) :
  Unaffected s cwd l bytes (keepAll w kept)
  := by
  apply Machine.unaffected_of_mild (E := fun _ => False)
  apply (mild_keepAll w kept).mono
  intro action
  apply Mild.mono
  · exact fun _ => False.elim
  · rintro path ⟨source, hsource, rfl⟩
    exact h source hsource
  · exact fun _ => False.elim

/-- Keeping one more source that can be written leaves the machine beside the one without it, unless
another source cannot be kept. -/
theorem keepAll_inserted {S : Tree} (pre : List (SourceFile × Nat))
    (hwrite : m.tree.write m.cwd (keptSource w extra).path extra.1.bytes = .ok S)
    (havoid : ∀ source ∈ post, (keptSource w source).path.Avoids m.cwd (keptAt w m.cwd extra)) :
  (∃ e, (run s (keepAll w (pre ++ post)) m).1 = .error e
      ∧ (run s (keepAll w (pre ++ extra :: post)) m).1 = .error e)
    ∨ (run s (keepAll w (pre ++ post)) m).1 = .ok ((pre ++ post).map (keptSource w))
      ∧ (run s (keepAll w (pre ++ extra :: post)) m).1
        = .ok ((pre ++ extra :: post).map (keptSource w))
      ∧ (run s (keepAll w (pre ++ post)) m).2.Beside (keptAt w m.cwd extra) extra.1.bytes
        (run s (keepAll w (pre ++ extra :: post)) m).2
  := by
  have hcontinues := Machine.continues_of_mild (s := s) (m := m) (mild_keepAll w pre)
  rw [keepAll_append, keepAll_append, run_bind, run_bind]
  cases hpre : run s (keepAll w pre) m with
  | mk result n =>
    rw [hpre] at hcontinues
    cases result with
    | error e =>
      left
      exact ⟨e, rfl, rfl⟩
    | ok kept =>
      obtain ⟨rfl, hcwd, -⟩ := run_keepAll hpre
      -- The directories are as before, so that the source can still be written.
      have hdirs : Tree.Alike (fun _ => True) m.tree n.tree :=
        ⟨fun _ h => absurd trivial h, fun k => (hcontinues.dirs k).symm⟩
      obtain ⟨T, hT, -⟩ := hdirs.write hwrite
      have hbeside : n.Beside (keptAt w m.cwd extra) extra.1.bytes { n with tree := T } :=
        ⟨Tree.beside_write hT, rfl, rfl, rfl, rfl⟩
      have hpost := unaffected_keepAll (s := s) havoid n _ hcwd hbeside
      rw [← hcwd] at hT
      dsimp only
      rw [run_bind, run_bind, run_keepAll_cons hT, hpost.value]
      cases hothers : run s (keepAll w post) n with
      | mk result n' =>
        rw [hothers] at hpost
        cases result with
        | error e =>
          left
          exact ⟨e, rfl, rfl⟩
        | ok others =>
          right
          obtain ⟨rfl, -, -⟩ := run_keepAll hothers
          rw [List.map_append, List.map_append]
          exact ⟨rfl, rfl, hpost.beside⟩

/-- Preparing a directory and keeping the sources announces that a request with so many sources
begins. -/
theorem run_keeping_eq {n : Machine}
    (h : run s (Workspace.prepare context.directory) m = (.ok w, n)) :
  run s (keeping context c sources) m
    = (((run s (keepAll w (inOrder sources)) n).1.map fun kept => (w, kept)),
      { (run s (keepAll w (inOrder sources)) n).2 with
        events := (announced c [.begun sources.length]).reverse
          ++ (run s (keepAll w (inOrder sources)) n).2.events })
  := by
  rw [keeping, Dialogue.bind_eq, run_bind, h]
  dsimp only
  rw [Dialogue.bind_eq, run_bind, run_announce_eq, Dialogue.bind_eq, run_bind,
    Machine.run_of_silent (mild_keepAll w (inOrder sources)),
    Machine.events_of_silent (mild_keepAll w (inOrder sources))]
  cases (run s (keepAll w (inOrder sources)) n).1 <;> rfl

/-- Keeping one more source that can be written in the prepared directory leaves the machine beside
the one without it, unless another source cannot be kept. -/
theorem keeping_inserted {S : Tree}
    (h : Inserts sources sources' pre extra post)
    (hwrite : (m.tree.makeDirs m.cwd context.directory).2.write m.cwd
      (keptSource ⟨context.directory⟩ extra).path extra.1.bytes = .ok S) :
  (∃ e, (run s (keeping context c sources) m).1 = .error e
      ∧ (run s (keeping context c sources') m).1 = .error e)
    ∨ ∃ n n', run s (keeping context c sources) m
        = (.ok (⟨context.directory⟩, (inOrder sources).map (keptSource ⟨context.directory⟩)), n)
      ∧ run s (keeping context c sources') m
        = (.ok (⟨context.directory⟩, (inOrder sources').map (keptSource ⟨context.directory⟩)), n')
      ∧ n.Beside (keptAt ⟨context.directory⟩ m.cwd extra) extra.1.bytes n'
      ∧ n.events = (announced c [.begun sources.length]).reverse ++ m.events
      ∧ n'.events = (announced c [.begun sources'.length]).reverse ++ m.events
  := by
  cases hprepared : run s (Workspace.prepare context.directory) m with
  | mk result n =>
    cases result with
    | error e =>
      left
      use e
      rw [keeping, keeping, Dialogue.bind_eq, run_bind, hprepared, Dialogue.bind_eq, run_bind,
        hprepared]
      exact ⟨rfl, rfl⟩
    | ok w =>
      have hmade := run_prepare_snd (s := s) context.directory m
      obtain ⟨rfl, -⟩ := root_of_run_prepare hprepared
      rw [hprepared] at hmade
      dsimp only at hmade
      subst hmade
      obtain ⟨-, havoid⟩ := List.forall_mem_append.mp (h.avoids hwrite).1
      let prepared : Machine := { m with tree := (m.tree.makeDirs m.cwd context.directory).2 }
      have hevents (sources : List (SourceFile × Nat)) :
          (run s (keepAll ⟨context.directory⟩ sources) prepared).2.events = m.events :=
        Machine.events_of_silent (mild_keepAll _ sources) prepared
      rw [run_keeping_eq hprepared, run_keeping_eq hprepared, h.without, h.within, hevents, hevents]
      rcases keepAll_inserted (s := s) (m := prepared) pre hwrite havoid with
        ⟨e, he, he'⟩ | ⟨hkept, hkept', hbeside⟩
      · left
        use e
        rw [he, he']
        exact ⟨rfl, rfl⟩
      · right
        rw [hkept, hkept']
        exact ⟨_, _, rfl, rfl, hbeside.announced _ _, rfl, rfl⟩

/-! ### Extracting them -/

/-- What is extracted from a source of a number, and what that leads to. -/
def extraction (source : SourceFile × Nat) (result : Except SourceError Extracted) : Extraction :=
  { kind := source.1.kind, origin := source.1.kind.fileName source.2, result }

theorem run_extractOne (total position : Nat) (source : SourceFile × Nat) (m : Machine) :
  run s (extractOne c w total position (keptSource w source)) m
    = let r := run s (source.1.kind.extract (keptSource w source).path w.root) m
      let x := extraction source r.1
      (x, { r.2 with
        events := (announced c (eventsOf total position [x])).reverse ++ r.2.events })
  := by
  have hsilent : SavesImages (keptSource w source).path w.root
      ((keptSource w source).kind.extract (keptSource w source).path w.root) :=
    mild_extract source.1.kind source.2 w.root
  have hevents : (run s (source.1.kind.extract (keptSource w source).path w.root) m).2.events
      = m.events := Machine.events_of_silent hsilent m
  have happend (begun ended : Event) : (announced c [begun, ended]).reverse
      = (announced c [ended]).reverse ++ (announced c [begun]).reverse := by
    unfold announced
    split <;> rfl
  rw [extractOne, Dialogue.bind_eq, run_bind, run_announce_eq, Dialogue.bind_eq, run_bind]
  dsimp only
  rw [Machine.run_of_silent hsilent, Dialogue.bind_eq, run_bind, run_announce_eq]
  dsimp only [eventsOf, extraction]
  rw [happend, origin_keptSource, List.append_assoc, hevents]
  rfl

/-- Extracting a source that avoids a file is unaffected by it if no image is saved there. -/
theorem unaffected_extract {cwd : Location} {source : SourceFile × Nat}
    (hsource : (keptSource w source).path.Avoids cwd l)
    (himages : ∀ path, IsImageIn w.root path → path.Avoids cwd l) :
  Unaffected s cwd l bytes (source.1.kind.extract (keptSource w source).path w.root)
  := by
  apply Machine.unaffected_of_mild (E := fun _ => False)
  apply (mild_extract source.1.kind source.2 w.root).mono
  intro action
  apply Mild.mono
  · rintro path rfl
    exact hsource
  · exact himages
  · exact fun _ => id

/-- Extracting sources that avoid a file gives the same whether it is there, whatever their
numbers. -/
theorem extractAll_beside {cwd : Location} {sources : List (SourceFile × Nat)}
    (hsources : ∀ source ∈ sources, (keptSource w source).path.Avoids cwd l)
    (himages : ∀ path, IsImageIn w.root path → path.Avoids cwd l) (h : m.Beside l bytes m')
    (hcwd : m.cwd = cwd) (total total' position position' : Nat) :
  (run s (extractAll c w total' position' (sources.map (keptSource w))) m').1
      = (run s (extractAll c w total position (sources.map (keptSource w))) m).1
    ∧ (run s (extractAll c w total position (sources.map (keptSource w))) m).2.Beside l bytes
      (run s (extractAll c w total' position' (sources.map (keptSource w))) m').2
  := by
  induction sources generalizing m m' position position' with
  | nil => exact ⟨rfl, h⟩
  | cons source rest ih =>
    obtain ⟨hfirst, hrest⟩ := List.forall_mem_cons.mp hsources
    have hextract := unaffected_extract (s := s) hfirst himages m m' hcwd h
    rw [List.map_cons, extractAll_cons, extractAll_cons, run_bind, run_bind, run_bind, run_bind,
      run_extractOne, run_extractOne]
    dsimp only
    rw [hextract.value]
    have hothers (events events' : List Event) :=
      ih hrest (hextract.beside.announced events events') (hextract.cwd.trans hcwd)
        (position + 1) (position' + 1)
    constructor
    · exact congrArg (_ :: ·) (hothers _ _).1
    · exact (hothers _ _).2

/-- Extracting sources announces what becomes of each of them. -/
theorem events_extractAll (total position : Nat) (sources : List (SourceFile × Nat))
    (m : Machine) :
  (run s (extractAll c w total position (sources.map (keptSource w))) m).2.events
    = (announced c (eventsOf total position
        (run s (extractAll c w total position (sources.map (keptSource w))) m).1)).reverse
      ++ m.events
  := by
  induction sources generalizing position m with
  | nil =>
    change m.events = (announced c []).reverse ++ m.events
    unfold announced
    split <;> rfl
  | cons source rest ih =>
    have hevents : (run s (source.1.kind.extract (keptSource w source).path w.root) m).2.events
        = m.events := Machine.events_of_silent (mild_extract source.1.kind source.2 w.root) m
    rw [List.map_cons, extractAll_cons, run_bind, run_bind, run_extractOne]
    dsimp only
    change (run s (extractAll c w total (position + 1) (rest.map (keptSource w))) _).2.events = _
    rw [ih]
    dsimp only
    rw [hevents, ← List.append_assoc, ← List.reverse_append,
      ← announced_append]
    rfl

/-- Extracting some sources and then others. -/
theorem run_extractAll_append (total position : Nat) (first second : List Kept) (m : Machine) :
  run s (extractAll c w total position (first ++ second)) m
    = let r := run s (extractAll c w total position first) m
      let r' := run s (extractAll c w total (position + first.length) second) r.2
      (r.1 ++ r'.1, r'.2)
  := by
  induction first generalizing position m with
  | nil => rfl
  | cons k rest ih =>
    rw [List.cons_append, extractAll_cons, extractAll_cons, run_bind, run_bind, run_bind, run_bind,
      ih, List.length_cons, Nat.add_right_comm position 1, Nat.add_assoc position]
    rfl

theorem map_key_run_extractAll (total position : Nat) (sources : List (SourceFile × Nat))
    (m : Machine) :
  (run s (extractAll c w total position (sources.map (keptSource w))) m).1.map Extraction.key
    = sources.map sourceKey
  := by
  have hkeys := (map_key_extractAll c w total position
    (sources.map (keptSource w))).run_fst (Machine.answer s) m
  rw [map_key_keptSource] at hkeys
  exact hkeys

/-- A source that is not accepted adds its failure to what is extracted, and changes nothing
else. -/
theorem extractAll_inserted
    (havoid : ∀ source ∈ pre ++ post, (keptSource w source).path.Avoids m.cwd l)
    (himages : ∀ path, IsImageIn w.root path → path.Avoids m.cwd l)
    (h : m.Beside l bytes m')
    (hread : m'.tree.read m'.cwd (keptSource w extra).path = .ok extra.1.bytes)
    (hrejected : ¬ IsAccepted extra.1) (total total' position position' : Nat) :
  ∃ xs ys e, e.origin = extra.1.kind.fileName extra.2
    ∧ xs.map Extraction.key = pre.map sourceKey ∧ ys.map Extraction.key = post.map sourceKey
    ∧ (run s (extractAll c w total position ((pre ++ post).map (keptSource w))) m).1 = xs ++ ys
    ∧ (run s (extractAll c w total' position' ((pre ++ extra :: post).map (keptSource w))) m').1
      = xs ++ extraction extra (.error e) :: ys
    ∧ (run s (extractAll c w total position ((pre ++ post).map (keptSource w))) m).2.Beside l bytes
      (run s (extractAll c w total' position' ((pre ++ extra :: post).map (keptSource w))) m').2
  := by
  rw [List.forall_mem_append] at havoid
  obtain ⟨hpre, hpost⟩ := havoid
  -- The sources before it.
  obtain ⟨hxs, hbefore⟩ := extractAll_beside (s := s) (c := c) hpre himages h rfl total total'
    position position'
  have hcontinues := Machine.continues_of_mild (s := s)
    (m := m) (mild_extractAll (c := c) (w := w) total position pre)
  have hread := read_after_mild (s := s) (mild_extractAll (c := c) total' position' pre) hread
  have hkeys := map_key_run_extractAll (s := s) (c := c) (w := w) total position pre m
  rw [List.map_append, List.map_append, List.map_cons, run_extractAll_append,
    run_extractAll_append, extractAll_cons, List.length_map]
  generalize run s (extractAll c w total position (pre.map (keptSource w))) m = r
    at hxs hbefore hcontinues hkeys
  generalize run s (extractAll c w total' position' (pre.map (keptSource w))) m' = r'
    at hxs hbefore hread
  obtain ⟨xs, n⟩ := r
  obtain ⟨xs', n'⟩ := r'
  dsimp only at hxs hbefore hread hkeys hcontinues
  subst hxs
  -- The source itself.
  obtain ⟨e, horigin, hfails⟩ := run_extract_of_not_accepts (s := s) extra.1.kind w.root hread
    (eq_false_of_ne_true hrejected)
  rw [origin_keptSource] at horigin
  dsimp only
  rw [run_bind, run_bind, run_extractOne, hfails]
  dsimp only
  -- The sources after it.
  have hafter (events : List Event) := extractAll_beside (s := s) (c := c) hpost himages
    (hbefore.announced n.events events) hcontinues.cwd total total' (position + pre.length)
    (position' + pre.length + 1)
  refine ⟨_, _, e, horigin, hkeys, map_key_run_extractAll _ _ post n, rfl, ?_, ?_⟩
  · exact congrArg (xs' ++ extraction extra (.error e) :: ·) (hafter _).1
  · exact (hafter _).2

end Bindery.Request
