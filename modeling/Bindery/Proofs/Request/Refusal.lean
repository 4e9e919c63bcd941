import Bindery.Proofs.Request.Accepted
import Bindery.Proofs.Request.Order

/-!
# Requests that are refused

A request that is refused for its sources (`IsRefusal`) ends before anything is merged: it has
started no program, announced nothing but what became of its sources, and written nothing but
sources and their images.  Which refusal it is, if any, depends on the sources that can be
extracted (`refused_before_merging`).
-/

namespace Bindery.Request

open Machine (run run_bind asked asked_bind Mild written)

/-- The action starts a program, or announces that something was merged or compiled. -/
def IsLate : Action → Prop
  | .launch _ => True
  | .announce event => ¬ event.IsEarly
  | _ => False

theorem not_isLate_of_mild {R P : Path → Prop} {E : Event → Prop}
    (hE : ∀ event, E event → event.IsEarly) {action : Action} (h : Mild R P E action) :
  ¬ IsLate action
  := by
  cases action with
  | announce event => exact not_not.mpr (hE event h)
  | launch => cases h
  | _ => exact not_false

variable {s : Surroundings} {context : Context} {c : Config} {sources : List SourceFile}
  {m m' : Machine} {w : Workspace} {kept : List Kept}

/-! ### Refusals -/

theorem isUnrefused_keeping (context : Context) (c : Config) (sources : List SourceFile) :
  (keeping context c sources).Always IsUnrefused
  := by
  apply Dialogue.always_bind.mpr
  apply (isUnrefused_prepare _).mono
  rintro (e | w) hprepare
  · rintro _ ⟨⟩
    exact hprepare e rfl
  · apply Dialogue.always_bind.mpr
    apply Dialogue.always_of_forall
    intro _
    apply Dialogue.always_bind.mpr
    apply (isUnrefused_keepAll w _).mono
    rintro (e | kept) hkeep
    · rintro _ ⟨⟩
      exact hkeep e rfl
    · exact isUnrefused_ok _

/-- Fragments are merged unless one of them is malformed. -/
theorem merge_cases (fragments : List Fragment) :
  (∃ malformed, merge fragments = .done (.error malformed))
    ∨ (merge fragments).Always fun result => ∃ document, result = .ok document
  := by
  rw [merge]
  split
  · next malformed _ => exact Or.inl ⟨malformed, rfl⟩
  · right
    rw [← bind_pure_comp]
    apply Dialogue.always_bind.mpr
    apply Dialogue.always_of_forall
    intro document
    exact ⟨document, rfl⟩

/-- Why nothing is merged, in the cases that there are: all sources failed, some did where that is
not allowed, or there is no reason. -/
inductive RefusalCases (c : Config) (outcomes : List Outcome) : Option RequestError → Prop where
  | all (nonempty : outcomes ≠ []) (failed : ∀ o ∈ outcomes, o.isOk = false) (total : Nat)
      (first : String) : RefusalCases c outcomes (some (.allSourcesFailed total first))
  | some (strict : c.allowPartial = false) (failed : ∃ o ∈ outcomes, o.isOk = false)
      (extracted : ∃ o ∈ outcomes, o.isOk = true) (count total : Nat) :
    RefusalCases c outcomes (some (.partialExtraction count total))
  | none (extracted : outcomes = [] ∨ ∃ o ∈ outcomes, o.isOk = true)
      (allowed : c.allowPartial = true ∨ ∀ o ∈ outcomes, o.isOk = true) :
    RefusalCases c outcomes none

theorem refusalCases (c : Config) (outcomes : List Outcome) :
  RefusalCases c outcomes (refusal? c outcomes)
  := by
  have hfailed (o : Outcome) : o.isOk = false ↔ (Outcome.error o).isSome := by
    rw [Outcome.isOk]
    cases o.error <;> simp
  have hlength : (outcomes.filterMap Outcome.error).length
      = outcomes.countP fun o => (Outcome.error o).isSome := List.length_filterMap_eq_countP
  unfold refusal?
  dsimp only
  split
  · next hnone =>
    have hall : ∀ o ∈ outcomes, o.isOk = true := by
      intro o ho
      have herror := List.filterMap_eq_nil_iff.mp hnone o ho
      rw [Outcome.isOk, herror]
      rfl
    apply RefusalCases.none _ (Or.inr hall)
    cases outcomes with
    | nil => exact Or.inl rfl
    | cons o rest => exact Or.inr ⟨o, List.mem_cons_self, hall o List.mem_cons_self⟩
  · next first errors herrors =>
    have hmem : first ∈ outcomes.filterMap Outcome.error := by
      rw [herrors]
      apply List.mem_cons_self
    obtain ⟨o, ho, herror⟩ := List.mem_filterMap.mp hmem
    have hbad : o.isOk = false := by
      rw [hfailed, herror]
      rfl
    split
    · next hcount =>
      rw [hlength, List.countP_eq_length] at hcount
      apply RefusalCases.all
      · exact List.ne_nil_of_mem ho
      · intro o' ho'
        rw [hfailed]
        exact hcount o' ho'
    · next hcount =>
      have hgood : ∃ o ∈ outcomes, o.isOk = true := by
        rw [hlength, List.countP_eq_length] at hcount
        push Not at hcount
        obtain ⟨o', ho', hgood⟩ := hcount
        exact ⟨o', ho', by simpa using mt (hfailed o').mp hgood⟩
      split
      · next hallowed => exact .none (Or.inr hgood) (Or.inl hallowed)
      · next hstrict => exact .some (eq_false_of_ne_true hstrict) ⟨o, ho, hbad⟩ hgood _ _

/-- A result that is the reason there is, and without one no refusal but for a malformed fragment,
tells the cases apart. -/
theorem RefusalCases.error_iff {α : Type} {outcomes : List Outcome} {refusal : Option RequestError}
    (h : RefusalCases c outcomes refusal) {result : Except RequestError α}
    (hsome : ∀ e, refusal = .some e → result = .error e)
    (hnone : refusal = .none → ∀ e, result = .error e → IsRefusal e →
      ∃ f, e = .malformedFragment f) :
  ((∃ total first, result = .error (.allSourcesFailed total first))
      ↔ outcomes ≠ [] ∧ ¬ ∃ o ∈ outcomes, o.isOk = true)
    ∧ ((∃ failed total, result = .error (.partialExtraction failed total))
      ↔ c.allowPartial = false ∧ (∃ o ∈ outcomes, o.isOk = false) ∧ ∃ o ∈ outcomes, o.isOk = true)
    ∧ ∀ f, result = .error (.malformedFragment f) →
      (outcomes = [] ∨ ∃ o ∈ outcomes, o.isOk = true)
        ∧ (c.allowPartial = true ∨ ¬ ∃ o ∈ outcomes, o.isOk = false)
  := by
  cases h with
  | all nonempty failed total first =>
    obtain rfl := hsome _ rfl
    have hbad : ¬ ∃ o ∈ outcomes, o.isOk = true := by
      rintro ⟨o, ho, hgood⟩
      rw [failed o ho] at hgood
      cases hgood
    refine ⟨⟨fun _ => ⟨nonempty, hbad⟩, fun _ => ⟨total, first, rfl⟩⟩, ⟨?_, ?_⟩, ?_⟩
    · rintro ⟨_, _, ⟨⟩⟩
    · exact fun ⟨_, _, hgood⟩ => absurd hgood hbad
    · rintro f ⟨⟩
  | some strict failed extracted count total =>
    obtain rfl := hsome _ rfl
    refine ⟨⟨?_, ?_⟩, ⟨fun _ => ⟨strict, failed, extracted⟩, fun _ => ⟨count, total, rfl⟩⟩, ?_⟩
    · rintro ⟨_, _, ⟨⟩⟩
    · exact fun ⟨_, hbad⟩ => absurd extracted hbad
    · rintro f ⟨⟩
  | none extracted allowed =>
    have hall : c.allowPartial = true ∨ ¬ ∃ o ∈ outcomes, o.isOk = false := by
      apply allowed.imp_right
      rintro hall ⟨o, ho, hfailed⟩
      rw [hall o ho] at hfailed
      cases hfailed
    refine ⟨⟨?_, ?_⟩, ⟨?_, ?_⟩, fun _ _ => ⟨extracted, hall⟩⟩
    · rintro ⟨total, first, hresult⟩
      obtain ⟨f, ⟨⟩⟩ := hnone rfl _ hresult trivial
    · exact fun ⟨hne, hbad⟩ => absurd extracted (not_or.mpr ⟨hne, hbad⟩)
    · rintro ⟨failed, total, hresult⟩
      obtain ⟨f, ⟨⟩⟩ := hnone rfl _ hresult trivial
    · rintro ⟨hstrict, hfailed, -⟩
      rcases hall with hallowed | hall
      · rw [hstrict] at hallowed
        cases hallowed
      · exact absurd hfailed hall

/-! ### Before anything is merged -/

/-- Merging ends with a refusal at once, or with none at all. -/
theorem mergeExtracted_cases (context : Context) (c : Config) (w : Workspace)
    (extractions : List Extraction) :
  (∃ e, mergeExtracted context c w extractions = .done (.error e))
    ∨ (mergeExtracted context c w extractions).Always IsUnrefused
  := by
  unfold mergeExtracted
  dsimp only
  split
  · next refusal _ => exact Or.inl ⟨refusal, rfl⟩
  · rcases merge_cases (extractions.filterMap Extraction.fragment?) with
      ⟨malformed, hmerge⟩ | hmerge
    · rw [hmerge]
      exact Or.inl ⟨_, rfl⟩
    · right
      apply Dialogue.always_bind.mpr
      apply (hmerge.interpret _).mono
      rintro _ ⟨document, rfl⟩
      exact isUnrefused_compileMerged c w _ document

/-- What was extracted in a run of a request, which is nothing if its sources were not kept. -/
def extractions (s : Surroundings) (context : Context) (c : Config) (sources : List SourceFile)
    (m : Machine) : List Extraction :=
  match run s (keeping context c sources) m with
  | (.error _, _) => []
  | (.ok (w, kept), m') => (run s (extractAll c w sources.length 1 kept) m').1

theorem extractions_eq (h : run s (keeping context c sources) m = (.ok (w, kept), m')) :
  extractions s context c sources m = (run s (extractAll c w sources.length 1 kept) m').1
  := by rw [extractions, h]

/-- A request that is refused has kept its sources and extracted them, and then ended. -/
theorem exists_kept_of_isRefusal {e : RequestError}
    (h : (run s (process context c sources) m).1 = .error e) (he : IsRefusal e) :
  ∃ w kept m', run s (keeping context c sources) m = (.ok (w, kept), m')
    ∧ run s (process context c sources) m
      = (.error e, (run s (extractAll c w sources.length 1 kept) m').2)
    ∧ asked s (process context c sources) m = asked s (keeping context c sources) m
      ++ asked s (extractAll c w sources.length 1 kept) m'
  := by
  rw [process_eq, run_bind] at h
  rw [process_eq, run_bind, asked_bind]
  have hunrefused := (isUnrefused_keeping context c sources).run_fst (Machine.answer s) m
  change IsUnrefused (run s (keeping context c sources) m).1 at hunrefused
  cases hkept : run s (keeping context c sources) m with
  | mk result m' =>
    rw [hkept] at h hunrefused
    cases result with
    | error e' =>
      cases h
      exact absurd he (hunrefused e rfl)
    | ok found =>
      obtain ⟨w, kept⟩ := found
      refine ⟨w, kept, m', rfl, ?_⟩
      dsimp only at h ⊢
      rw [finishing, Dialogue.bind_eq, run_bind] at h
      rw [finishing, Dialogue.bind_eq, run_bind, asked_bind]
      rcases mergeExtracted_cases context c w (run s (extractAll c w sources.length 1 kept) m').1
        with ⟨e', hdone⟩ | hunrefused
      · rw [hdone] at h ⊢
        cases h
        exact ⟨rfl, congrArg _ (List.append_nil _)⟩
      · exact absurd he (hunrefused.run_fst (Machine.answer s) _ e h)

/-! ### What is written before -/

/-- Keeping sources looks at nothing and announces nothing, and writes nothing but their files. -/
theorem mild_keepAll (w : Workspace) (sources : List (SourceFile × Nat)) :
  (keepAll w sources).Only (Mild (fun _ => False)
    (fun path => ∃ source ∈ sources, path = (keptSource w source).path) fun _ => False)
  := only_keepAll fun source hsource => ⟨source, hsource, rfl⟩

/-- Preparing a directory and keeping sources is not late. -/
theorem not_isLate_keeping (context : Context) (c : Config) (sources : List SourceFile) :
  (keeping context c sources).Only fun action => ¬ IsLate action
  := by
  have hprepare : (Workspace.prepare context.directory).Only fun action => ¬ IsLate action :=
    only_prepare not_false not_false
  have hbegun : (Event.begun sources.length).IsEarly := trivial
  refine hprepare.bind ?_
  rintro (e | w)
  · exact Dialogue.only_done _
  · have hannounce : (announce c (.begun sources.length)).Only
        (Mild (fun _ => True) (fun _ => True) Event.IsEarly) :=
      only_announce c hbegun
    refine (hannounce.mono fun _ => not_isLate_of_mild fun _ h => h).bind fun _ =>
      ((mild_keepAll w _).mono fun _ => not_isLate_of_mild fun _ => False.elim).bind ?_
    rintro (e | kept) <;> exact Dialogue.only_done _

/-- Keeping sources creates, changes and removes no file anywhere else. -/
theorem file?_keeping {l : Location}
    (h : run s (keeping context c sources) m = (.ok (w, kept), m'))
    (hl : ∀ source ∈ inOrder sources, l ≠ ((keptSource w source).path.place m.cwd).location) :
  m'.tree.file? l = m.tree.file? l
  := by
  obtain ⟨-, -, m₁, m₂, hprepared, rfl, hkept⟩ := of_run_keeping h
  obtain ⟨htree, hcwd⟩ := run_announce (s := s) c (.begun sources.length) m₁
  have hmade := run_prepare_snd (s := s) context.directory m
  rw [hprepared] at hmade
  dsimp only at hmade
  subst hmade
  dsimp only at htree hcwd
  have hlookup := Machine.lookup_of_mild (s := s) (l := l) (mild_keepAll w (inOrder sources))
    (by
      intro path hpath
      obtain ⟨source, hsource, rfl⟩ := Machine.forall_mem_written (mild_keepAll w _) _ path hpath
      rw [hcwd]
      exact (hl source hsource).symm)
  rw [hkept] at hlookup
  rw [Tree.file?, hlookup, htree]
  exact Tree.file?_makeDirs m.tree m.cwd context.directory l

/-! ### The refusal that there is -/

/-- The merged document, the log and the artifact of a request. -/
def products (context : Context) (c : Config) : List Path :=
  let merged := context.directory.join c.mergedName
  let artifact? := merged.fileName?.map fun fileName =>
    Compile.Task.artifact {
      config := c.compiler, directory := context.directory, fileName, announces := c.announces }
  merged :: Compile.logIn c.compiler context.directory :: artifact?.toList

/-- The source can be extracted. -/
def IsAccepted (source : SourceFile) : Prop :=
  source.kind.accepts source.bytes = true

instance (source : SourceFile) : Decidable (IsAccepted source) :=
  inferInstanceAs (Decidable (_ = true))

theorem isOk_extractions
    (h : run s (keeping context c sources) m = (.ok (w, kept), m')) :
  (extractions s context c sources m).map (fun x => x.outcome.isOk)
    = (inOrder sources).map fun source => decide (IsAccepted source.1)
  := by
  obtain ⟨-, rfl, -⟩ := of_run_keeping h
  obtain ⟨-, hread⟩ := read_of_run_keeping h
  rw [extractions_eq h, isOk_extractAll hread]
  apply List.map_congr_left
  intro source _
  exact Bool.decide_eq_true.symm

/-- Some outcome is of a kind exactly if some source is accepted or not. -/
theorem exists_outcome_iff {xs : List Extraction}
    (h : xs.map (fun x => x.outcome.isOk)
      = (inOrder sources).map fun source => decide (IsAccepted source.1)) (b : Bool) :
  (∃ o ∈ xs.map Extraction.outcome, o.isOk = b)
    ↔ ∃ source ∈ sources, decide (IsAccepted source) = b
  := by
  have hmem : b ∈ xs.map (fun x => x.outcome.isOk)
      ↔ b ∈ (inOrder sources).map fun source => decide (IsAccepted source.1) := by rw [h]
  constructor
  · rintro ⟨o, ho, rfl⟩
    obtain ⟨x, hx, rfl⟩ := List.mem_map.mp ho
    obtain ⟨source, hsource, heq⟩ := List.mem_map.mp
      (hmem.mp (List.mem_map_of_mem (f := fun x => x.outcome.isOk) hx))
    refine ⟨source.1, ?_, heq⟩
    exact (inOrder_perm sources).subset (List.mem_map_of_mem hsource)
  · rintro ⟨source, hsource, rfl⟩
    obtain ⟨numbered, hnumbered, rfl⟩ :=
      List.mem_map.mp ((inOrder_perm sources).symm.subset hsource)
    obtain ⟨x, hx, heq⟩ := List.mem_map.mp (hmem.mpr (List.mem_map_of_mem
      (f := fun source : SourceFile × Nat => decide (IsAccepted source.1)) hnumbered))
    exact ⟨x.outcome, List.mem_map_of_mem hx, heq⟩

/-- Nothing is merged if there is a reason, and otherwise only a malformed fragment is refused. -/
theorem mergeExtracted_of_refusal? (context : Context) (c : Config) (w : Workspace)
    (xs : List Extraction) :
  match refusal? c (xs.map Extraction.outcome) with
  | some e => mergeExtracted context c w xs = .done (.error e)
  | none => (mergeExtracted context c w xs).Always fun result =>
    ∀ e, result = .error e → IsRefusal e → ∃ f, e = .malformedFragment f
  := by
  unfold mergeExtracted
  dsimp only
  cases refusal? c (xs.map Extraction.outcome) with
  | some e => rfl
  | none =>
    apply Dialogue.always_bind.mpr
    apply Dialogue.always_of_forall
    rintro (malformed | document)
    · rintro _ ⟨⟩ -
      exact ⟨malformed, rfl⟩
    · apply (isUnrefused_compileMerged c w _ document).mono
      intro result hresult e he hrefusal
      exact absurd hrefusal (hresult e he)

theorem run_process_of_keeping (h : run s (keeping context c sources) m = (.ok (w, kept), m')) :
  (run s (process context c sources) m).1
    = (run s (mergeExtracted context c w (extractions s context c sources m))
      (run s (extractAll c w sources.length 1 kept) m').2).1
  := by
  rw [process_eq, run_bind, h, extractions_eq h]
  dsimp only
  rw [finishing, Dialogue.bind_eq, run_bind]

/-- Once the sources of a request are kept, it is refused if all of them fail, or if some do and
that is not allowed, and otherwise only because of a malformed fragment. -/
theorem refused_iff (h : run s (keeping context c sources) m = (.ok (w, kept), m')) :
  let result := (run s (process context c sources) m).1
  ((∃ total first, result = .error (.allSourcesFailed total first))
      ↔ sources ≠ [] ∧ ∀ source ∈ sources, ¬ IsAccepted source)
    ∧ ((∃ failed total, result = .error (.partialExtraction failed total))
      ↔ c.allowPartial = false ∧ (∃ source ∈ sources, ¬ IsAccepted source)
        ∧ ∃ source ∈ sources, IsAccepted source)
    ∧ ∀ f, result = .error (.malformedFragment f) →
      (sources = [] ∨ ∃ source ∈ sources, IsAccepted source)
        ∧ (c.allowPartial = true ∨ ∀ source ∈ sources, IsAccepted source)
  := by
  intro result
  have hok := isOk_extractions h
  have hgood := exists_outcome_iff hok true
  have hbad := exists_outcome_iff hok false
  simp only [decide_eq_true_eq, decide_eq_false_iff_not] at hgood hbad
  have hempty : (extractions s context c sources m).map Extraction.outcome = [] ↔ sources = [] := by
    have hlength := congrArg List.length hok
    rw [List.length_map, List.length_map, length_inOrder] at hlength
    rw [List.map_eq_nil_iff, ← List.length_eq_zero_iff, hlength, List.length_eq_zero_iff]
  have hnone : (∀ source ∈ sources, ¬ IsAccepted source)
      ↔ ¬ ∃ source ∈ sources, IsAccepted source := by simp
  have hall : (∀ source ∈ sources, IsAccepted source)
      ↔ ¬ ∃ source ∈ sources, ¬ IsAccepted source := by simp
  have hrun := run_process_of_keeping h
  have hmerge := mergeExtracted_of_refusal? context c w (extractions s context c sources m)
  rw [hnone, hall, ← hgood, ← hbad, ne_eq, ← hempty]
  apply (refusalCases c _).error_iff
  · intro e he
    rw [he] at hmerge
    dsimp only at hmerge
    rw [hmerge] at hrun
    exact hrun
  · intro he e hresult
    rw [he] at hmerge
    exact hmerge.run_fst (Machine.answer s) _ e (hrun.symm.trans hresult)

/-! ### What a refused request has done -/

/-- A request that is refused has started no program and announced nothing but what became of its
sources. -/
theorem not_isLate_of_isRefusal {e : RequestError}
    (h : (run s (process context c sources) m).1 = .error e) (he : IsRefusal e) :
  ∀ action ∈ asked s (process context c sources) m, ¬ IsLate action
  := by
  obtain ⟨w, kept, m', hkept, -, hasked⟩ := exists_kept_of_isRefusal h he
  obtain ⟨-, rfl, -⟩ := of_run_keeping hkept
  have hextract := mild_extractAll (c := c) (w := w) sources.length 1 (inOrder sources)
  rw [hasked, List.forall_mem_append]
  constructor
  · exact Machine.forall_mem_asked (not_isLate_keeping context c sources) m
  · exact Machine.forall_mem_asked (hextract.mono fun _ => not_isLate_of_mild fun _ h => h) m'

/-- A request that is refused has created, changed and removed no file but its sources and what was
reported as written for them. -/
theorem file?_of_isRefusal {e : RequestError}
    (h : (run s (process context c sources) m).1 = .error e) (he : IsRefusal e) {l : Location}
    (hsources : ∀ source ∈ inOrder sources,
      l ≠ ((keptSource ⟨context.directory⟩ source).path.place m.cwd).location)
    (hassets : ∀ x ∈ extractions s context c sources m, ∀ asset ∈ x.outcome.assets,
      l ≠ (asset.place m.cwd).location) :
  (run s (process context c sources) m).2.tree.file? l = m.tree.file? l
  := by
  obtain ⟨w, kept, m', hkept, hrun, -⟩ := exists_kept_of_isRefusal h he
  obtain ⟨rfl, rfl, -⟩ := of_run_keeping hkept
  obtain ⟨hcwd, -⟩ := read_of_run_keeping hkept
  rw [extractions_eq hkept] at hassets
  have hlookup := Machine.lookup_of_mild (s := s) (l := l)
    (mild_extractAll (c := c) sources.length 1 (inOrder sources)) (by
      rw [written_extractAll, hcwd]
      intro path hpath
      obtain ⟨x, hx, hasset⟩ := List.mem_flatMap.mp hpath
      exact (hassets x hx path hasset).symm)
  rw [hrun, Tree.file?, hlookup]
  exact file?_keeping hkept hsources

/-- A request that is refused for its sources has started no program, has announced nothing but what
became of its sources, and has left the merged document, the log and the artifact as they were, if
they are neither where a source is kept nor where an image was saved.  Once the sources are kept,
which refusal it is depends on the sources that can be extracted, whatever the probe. -/
theorem refused_before_merging (s : Surroundings) (context : Context) (c : Config)
    (sources : List SourceFile) (m : Machine) :
  (∀ e, (run s (process context c sources) m).1 = .error e → IsRefusal e →
    (∀ action ∈ asked s (process context c sources) m, ¬ IsLate action)
      ∧ ∀ path ∈ products context c,
        (∀ source ∈ inOrder sources, (path.place m.cwd).location
          ≠ ((keptSource ⟨context.directory⟩ source).path.place m.cwd).location) →
        (∀ x ∈ extractions s context c sources m, ∀ asset ∈ x.outcome.assets,
          (path.place m.cwd).location ≠ (asset.place m.cwd).location) →
        (run s (process context c sources) m).2.tree.file? (path.place m.cwd).location
          = m.tree.file? (path.place m.cwd).location)
  ∧ ∀ w kept m', run s (keeping context c sources) m = (.ok (w, kept), m') →
    let result := (run s (process context c sources) m).1
    (extractions s context c sources m).map (fun x => x.outcome.isOk)
        = (inOrder sources).map (fun source => decide (IsAccepted source.1))
      ∧ ((∃ total first, result = .error (.allSourcesFailed total first))
        ↔ sources ≠ [] ∧ ∀ source ∈ sources, ¬ IsAccepted source)
      ∧ ((∃ failed total, result = .error (.partialExtraction failed total))
        ↔ c.allowPartial = false ∧ (∃ source ∈ sources, ¬ IsAccepted source)
          ∧ ∃ source ∈ sources, IsAccepted source)
      ∧ ∀ f, result = .error (.malformedFragment f) →
        (sources = [] ∨ ∃ source ∈ sources, IsAccepted source)
          ∧ (c.allowPartial = true ∨ ∀ source ∈ sources, IsAccepted source)
  := by
  constructor
  · intro e h he
    refine ⟨not_isLate_of_isRefusal h he, ?_⟩
    intro path _ hsources hassets
    exact file?_of_isRefusal h he hsources hassets
  · intro w kept m' h
    exact ⟨isOk_extractions h, refused_iff h⟩

/-- The log of an earlier request is still there after one whose only source is no notebook. -/
theorem refused_before_merging_earlier :
  let s : Surroundings := { programs := fun _ _ tree => (.error .notFound, tree) }
  let context := Context.consulting "1" ⟨"."⟩
  let log : Node := .file 0 newFileMode [0x0a]
  let m : Machine := { tree := { nodes := [(["latex_output.log"], log)], nextSerial := 1 } }
  let sources : List SourceFile := [{ kind := .notebook, name := "a", bytes := [0x7b] }]
  (∃ total first, (run s (process context {} sources) m).1
      = .error (.allSourcesFailed total first))
    ∧ (∀ invocation, .launch invocation ∉ asked s (process context {} sources) m)
    ∧ (run s (process context {} sources) m).2.tree.file? ["latex_output.log"] = some log
  := by
  intro s context log m sources
  obtain ⟨hbefore, hcases⟩ := refused_before_merging s context {} sources m
  have hrefused : ∃ total first, (run s (process context {} sources) m).1
      = .error (.allSourcesFailed total first) := by
    cases hkept : run s (keeping context {} sources) m with
    | mk result m' =>
      cases result with
      | error e =>
        have hok : (run s (keeping context {} sources) m).1.isOk := by decide +kernel
        rw [hkept] at hok
        cases hok
      | ok found =>
        obtain ⟨-, hall, -⟩ := hcases found.1 found.2 m' hkept
        apply hall.mpr
        decide +kernel
  use hrefused
  obtain ⟨total, first, hresult⟩ := hrefused
  obtain ⟨hnot, hfiles⟩ := hbefore _ hresult trivial
  constructor
  · intro invocation hlaunch
    exact hnot _ hlaunch trivial
  · have hlog := hfiles ((⟨"."⟩ : Path).join "latex_output.log") (by decide +kernel)
      (by decide +kernel) (by decide +kernel)
    have hplace : (((⟨"."⟩ : Path).join "latex_output.log").place m.cwd).location
        = ["latex_output.log"] := by decide +kernel
    rw [hplace] at hlog
    rw [hlog]
    rfl

end Bindery.Request
