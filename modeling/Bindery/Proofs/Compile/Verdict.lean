import Bindery.Proofs.Compile.Pass

/-!
# The verdict of compiling

`Verdict` lists the ways in which a compilation can end, each with the relations between trees
that lead to it, and every compilation ends in one of them (`verdict_of_compile`).  It succeeds
exactly if the old artifact can be cleared away, both passes run to their ends, the last one is
excused, and the artifact is there (`Succeeds`), whatever the compiler does in each pass.
-/

namespace Bindery

/-! ### Coherent results -/

/-- The parts of a result of compiling fit together. -/
structure Compilation.Coherent (r : Compilation) : Prop where
  artifact_iff : r.artifact.isSome ↔ r.success
  softWarning_iff : r.softWarning ↔ r.success ∧ r.passes.getLast?.bind Pass.exitCode ≠ some 0
  numbers : r.passes.map Pass.number = List.range' 1 r.passes.length
  length_le : r.passes.length ≤ compilerPasses
  length_of_success : r.success → r.passes.length = compilerPasses
  /-- A report of the result has the artifact as its own result exactly on success. -/
  result_iff : ∀ report : Report, report.compilation = r →
    ∀ path, report.result = .ok path ↔ r.success ∧ r.artifact = some path

namespace Compile

/-- The record of the passes whose endings are given. -/
def records (endings : List Ending) : List Pass :=
  endings.mapIdx fun i e => { number := i + 1, exitCode := e.code? }

@[simp]
theorem length_records (endings : List Ending) :
  (records endings).length = endings.length
  := List.length_mapIdx

theorem records_append (endings : List Ending) (e : Ending) :
  records (endings ++ [e])
    = records endings ++ [{ number := endings.length + 1, exitCode := e.code? }]
  := List.mapIdx_concat

theorem numbers_records (endings : List Ending) :
  (records endings).map Pass.number = List.range' 1 (records endings).length
  := by
  apply List.ext_getElem
  · simp
  · intro i _ _
    simp [records, Nat.add_comm]

theorem exitCode_getLast?_records (endings : List Ending) (e : Ending) :
  (records (endings ++ [e])).getLast?.bind Pass.exitCode = e.code?
  := by
  rw [records_append, List.getLast?_concat]
  rfl

theorem coherent_failed {endings : List Ending} (h : endings.length ≤ compilerPasses)
    (message : String) (log : Path) :
  (Compilation.failed message log (records endings)).Coherent
  := by
  constructor
  · simp [Compilation.failed]
  · simp [Compilation.failed]
  · apply numbers_records
  · rw [Compilation.failed, length_records]
    exact h
  · simp [Compilation.failed]
  · rintro report hreport path
    simp [Report.result, hreport, Compilation.failed]

theorem coherent_succeeded {endings : List Ending} (h : endings.length + 1 = compilerPasses)
    (artifact log : Path) (e : Ending) :
  (Compilation.succeeded artifact log (e ≠ .exited 0) (records (endings ++ [e]))).Coherent
  := by
  have hlength : (records (endings ++ [e])).length = compilerPasses := by
    rw [length_records, List.length_append]
    exact h
  constructor
  · simp [Compilation.succeeded]
  · simp [Compilation.succeeded, exitCode_getLast?_records, Ending.code?_eq_zero_iff]
  · apply numbers_records
  · exact hlength.le
  · intro _
    exact hlength
  · rintro report hreport path
    simp [Report.result, hreport, Compilation.succeeded]

/-! ### The passes -/

/-- The compiler comes to a tree: the old artifact was cleared away, and the passes with the
given endings ran to their ends. -/
inductive Reaches (c : Course) (cwd : Location) (t : Task) (T : Tree) :
    List Ending → Tree → Prop where
  | start {T₁ : Tree} (cleared : Cleared T cwd t.artifact T₁) : Reaches c cwd t T [] T₁
  | pass {endings : List Ending} {T₁ T₂ : Tree} {e : Ending}
      (before : Reaches c cwd t T endings T₁)
      (completes : Completes (c endings.length) cwd t T₁ e T₂) :
    Reaches c cwd t T (endings ++ [e]) T₂

variable {c : Course} {cwd : Location} {t : Task} {T T₁ T₂ : Tree} {r : Compilation}
  {endings others : List Ending} {e : Ending}

theorem Reaches.exists_cleared (h : Reaches c cwd t T endings T₁) :
  ∃ T₁, Cleared T cwd t.artifact T₁
  := by
  induction h with
  | start cleared => exact ⟨_, cleared⟩
  | pass before completes ih => exact ih

/-- After a number of passes there is one tree that the compiler can come to. -/
theorem Reaches.unique (h : Reaches c cwd t T endings T₁) (h' : Reaches c cwd t T others T₂)
    (hlength : endings.length = others.length) :
  endings = others ∧ T₁ = T₂
  := by
  induction h generalizing others T₂ with
  | start cleared =>
    cases h' with
    | start cleared' => exact ⟨rfl, cleared.unique cleared'⟩
    | pass => simp at hlength
  | pass before completes ih =>
    cases h' with
    | start => simp at hlength
    | pass before' completes' =>
      rw [List.length_append, List.length_append] at hlength
      obtain ⟨rfl, rfl⟩ := ih before' (Nat.succ.inj hlength)
      obtain ⟨rfl, rfl⟩ := completes.unique completes'
      exact ⟨rfl, rfl⟩

/-- The passes that ran before are the first ones. -/
theorem Reaches.isPrefix (h : Reaches c cwd t T endings T₁) (h' : Reaches c cwd t T others T₂)
    (hlength : others.length ≤ endings.length) :
  others <+: endings
  := by
  induction h with
  | start cleared => rw [List.eq_nil_of_length_eq_zero (Nat.le_zero.mp hlength)]
  | @pass endings _ _ e before completes ih =>
    rcases Nat.eq_or_lt_of_le hlength with heq | hlt
    · obtain ⟨rfl, -⟩ := h'.unique (before.pass completes) heq
      apply List.prefix_refl
    · apply (ih _).trans
      · apply List.prefix_append
      · rw [List.length_append] at hlt
        exact Nat.le_of_lt_succ hlt

/-- If the next pass cannot run to its end, no other can. -/
theorem Reaches.length_le (h : Reaches c cwd t T endings T₁)
    (stops : ∀ e T₂, ¬ Completes (c endings.length) cwd t T₁ e T₂)
    (h' : Reaches c cwd t T others T₂) :
  others.length ≤ endings.length
  := by
  induction h' with
  | start cleared => exact Nat.zero_le _
  | @pass others _ _ _ before completes ih =>
    have hne : others.length ≠ endings.length := by
      intro heq
      obtain ⟨rfl, rfl⟩ := before.unique h heq
      exact stops _ _ completes
    rw [List.length_append]
    exact Nat.lt_of_le_of_ne ih hne

/-! ### Ways to end -/

/-- The compiler goes through both passes, the last of which has a certain ending and is
excused, and leaves the artifact. -/
def Succeeds (c : Course) (cwd : Location) (t : Task) (T : Tree) (e : Ending) : Prop :=
  ∃ e₁ T₁ T₂, Reaches c cwd t T [e₁] T₁ ∧ Completes (c 1) cwd t T₁ e T₂
    ∧ Excused cwd t T₁ e T₂ ∧ T₂.exists? cwd t.artifact

/-- The ways in which a compilation ends. -/
inductive Verdict (c : Course) (cwd : Location) (t : Task) (T : Tree) : Compilation → Prop where
  /-- The old artifact stays, and the compiler is never started. -/
  | blocked {message : String} (stays : ∀ T₁, ¬ Cleared T cwd t.artifact T₁) :
    Verdict c cwd t T (.failed message t.log (records []))
  /-- A pass does not run to its end. -/
  | stopped {message : String} {endings : List Ending} {T₁ : Tree}
      (reached : Reaches c cwd t T endings T₁) (short : endings.length < compilerPasses)
      (stops : ∀ e T₂, ¬ Completes (c endings.length) cwd t T₁ e T₂) :
    Verdict c cwd t T (.failed message t.log (records endings))
  /-- The last pass failed, or there is no artifact. -/
  | rejected {message : String} {endings : List Ending} {T₁ T₂ : Tree} {e : Ending}
      (reached : Reaches c cwd t T endings T₁) (short : endings.length + 1 = compilerPasses)
      (last : Completes (c endings.length) cwd t T₁ e T₂)
      (fails : ¬ (Excused cwd t T₁ e T₂ ∧ T₂.exists? cwd t.artifact)) :
    Verdict c cwd t T (.failed message t.log (records (endings ++ [e])))
  | accepted {endings : List Ending} {T₁ T₂ : Tree} {e : Ending}
      (reached : Reaches c cwd t T endings T₁) (short : endings.length + 1 = compilerPasses)
      (last : Completes (c endings.length) cwd t T₁ e T₂)
      (excused : Excused cwd t T₁ e T₂) (present : T₂.exists? cwd t.artifact) :
    Verdict c cwd t T
      (.succeeded t.artifact t.log (e ≠ .exited 0) (records (endings ++ [e])))

theorem Verdict.coherent (h : Verdict c cwd t T r) :
  r.Coherent
  := by
  cases h with
  | blocked =>
    apply coherent_failed
    exact Nat.zero_le 2
  | stopped reached short =>
    apply coherent_failed
    exact short.le
  | rejected reached short =>
    apply coherent_failed
    rw [List.length_append]
    exact short.le
  | accepted reached short =>
    apply coherent_succeeded
    exact short

/-- A compilation that goes through both passes has the only ending that it can have. -/
theorem Succeeds.eq_of_reaches {e' : Ending} (h : Succeeds c cwd t T e')
    (reached : Reaches c cwd t T endings T₁) (short : endings.length + 1 = compilerPasses)
    (last : Completes (c endings.length) cwd t T₁ e T₂) :
  e' = e ∧ Excused cwd t T₁ e T₂ ∧ T₂.exists? cwd t.artifact
  := by
  obtain ⟨e₁, T₁', T₂', reached', last', ends⟩ := h
  obtain ⟨rfl, rfl⟩ := reached.unique reached' (Nat.succ.inj short)
  obtain ⟨rfl, rfl⟩ := last.unique last'
  exact ⟨rfl, ends⟩

/-- A compilation succeeds exactly if the compiler goes through both passes as it should. -/
theorem Verdict.success_iff (h : Verdict c cwd t T r) :
  r.success ↔ ∃ e, Succeeds c cwd t T e
  := by
  cases h with
  | blocked stays =>
    apply iff_of_false
    · simp [Compilation.failed]
    · rintro ⟨e, e₁, T₁, T₂, reached, -⟩
      obtain ⟨T₀, cleared⟩ := reached.exists_cleared
      exact stays T₀ cleared
  | stopped reached short stops =>
    apply iff_of_false
    · simp [Compilation.failed]
    · rintro ⟨e, e₁, T₁, T₂, reached', last, -⟩
      have hlength := reached.length_le stops (reached'.pass last)
      exact absurd hlength (Nat.not_le_of_lt short)
  | rejected reached short last fails =>
    apply iff_of_false
    · simp [Compilation.failed]
    · rintro ⟨e, he⟩
      exact fails (he.eq_of_reaches reached short last).2
  | @accepted endings T₁ T₂ e reached short last excused present =>
    apply iff_of_true
    · rfl
    · obtain ⟨e₁, rfl⟩ := List.length_eq_one_iff.mp (Nat.succ.inj short)
      exact ⟨e, e₁, T₁, T₂, reached, last, excused, present⟩

/-- The artifact of a compilation that succeeds is the expected one, and the ending of its last
pass decides about the warning. -/
theorem Verdict.of_succeeds (h : Verdict c cwd t T r) (he : Succeeds c cwd t T e) :
  r.artifact = some t.artifact ∧ (r.softWarning ↔ e ≠ .exited 0)
  := by
  have hsuccess := h.success_iff.mpr ⟨e, he⟩
  cases h with
  | accepted reached short last =>
    obtain ⟨rfl, -⟩ := he.eq_of_reaches reached short last
    simp [Compilation.succeeded]
  | _ => cases hsuccess

theorem Verdict.artifact_eq (h : Verdict c cwd t T r) :
  r.artifact = if r.success then some t.artifact else none
  := by
  cases h with
  | accepted => rfl
  | _ => rfl

/-- A compilation warns exactly if the compiler goes through both passes but fails in the last
one. -/
theorem Verdict.softWarning_iff (h : Verdict c cwd t T r) :
  r.softWarning ↔ ∃ e, Succeeds c cwd t T e ∧ e ≠ .exited 0
  := by
  constructor
  · intro hwarning
    obtain ⟨hsuccess, -⟩ := h.coherent.softWarning_iff.mp hwarning
    obtain ⟨e, he⟩ := h.success_iff.mp hsuccess
    exact ⟨e, he, (h.of_succeeds he).2.mp hwarning⟩
  · rintro ⟨e, he, hcode⟩
    exact (h.of_succeeds he).2.mpr hcode

/-- The passes are on record as far as the compiler comes. -/
structure Recorded (c : Course) (cwd : Location) (t : Task) (T : Tree) (endings : List Ending) :
    Prop where
  length_le : endings.length ≤ compilerPasses
  reached : endings = [] ∨ ∃ T₁, Reaches c cwd t T endings T₁
  longest : ∀ {others T₂}, Reaches c cwd t T others T₂ → others.length ≤ compilerPasses →
    others <+: endings

theorem Verdict.exists_recorded (h : Verdict c cwd t T r) :
  ∃ endings, r.passes = records endings ∧ Recorded c cwd t T endings
  := by
  have hall {endings T₁} (reached : Reaches c cwd t T endings T₁)
      (hlength : endings.length = compilerPasses) : Recorded c cwd t T endings := by
    constructor
    · exact hlength.le
    · exact Or.inr ⟨T₁, reached⟩
    · intro others T₂ h' hothers
      apply reached.isPrefix h'
      rw [hlength]
      exact hothers
  cases h with
  | blocked stays =>
    use [], rfl
    constructor
    · exact Nat.zero_le 2
    · exact Or.inl rfl
    · intro others T₂ h' _
      obtain ⟨T₁, cleared⟩ := h'.exists_cleared
      exact absurd cleared (stays T₁)
  | @stopped _ endings T₁ reached short stops =>
    use endings, rfl
    constructor
    · exact short.le
    · exact Or.inr ⟨T₁, reached⟩
    · intro others T₂ h' _
      apply reached.isPrefix h'
      apply reached.length_le stops h'
  | @rejected _ endings T₁ T₂ e reached short last =>
    use endings ++ [e], rfl
    apply hall (reached.pass last)
    rw [List.length_append]
    exact short
  | @accepted endings T₁ T₂ e reached short last =>
    use endings ++ [e], rfl
    apply hall (reached.pass last)
    rw [List.length_append]
    exact short

/-! ### Every compilation -/

open Machine

/-- What is made of the passes: a failure if they were stopped, and a judgement otherwise. -/
def assess (t : Task) : Except CompileFault Nat × List Pass → Job Compilation
  | (.error fault, passes) => fail t.log fault passes
  | (.ok lastStart, passes) => judge t lastStart passes

theorem verdict_of_assess_error (s : Surroundings)
    {ended : (Except CompileFault Nat × List Pass) × (Machine × Nat)} {fault : CompileFault}
    {passes : List Pass} (hended : ended.1 = (.error fault, passes))
    (h : ∀ message, Verdict c cwd t T (.failed message t.log passes)) :
  Verdict c cwd t T (runInTurn s c (assess t ended.1) ended.2).1
  := by
  obtain ⟨message, hmessage⟩ := run_fail s c (w := ended.2) t.log fault passes
  rw [hended, assess, hmessage]
  apply h

/-- After the last pass, the compilation is judged by what the log got during it. -/
theorem verdict_of_assess_ok (s : Surroundings) {w : Machine × Nat} {n : Nat}
    (reached : Reaches c cwd t T endings T₁) (short : endings.length + 1 = compilerPasses)
    (last : Completes (c endings.length) cwd t T₁ e T₂) (hw : Stands w cwd T₂ n) :
  Verdict c cwd t T (runInTurn s c
    (assess t (.ok (T₁.bytesAt cwd t.log).length, records (endings ++ [e]))) w).1
  := by
  rw [assess]
  rcases run_judge s c t hw (exitCode_getLast?_records endings e)
    with ⟨excused, present, hjudge⟩ | ⟨fails, message, hjudge⟩
  · rw [hjudge]
    exact .accepted reached short last excused present
  · rw [hjudge]
    exact .rejected reached short last fails

/-- A pass either stops the compilation or leaves it to the passes that follow. -/
theorem verdict_of_runPasses_cons (s : Surroundings) {w : Machine × Nat} {lastStart : Nat}
    {passes : List Nat} (reached : Reaches c cwd t T endings T₁)
    (short : endings.length < compilerPasses) (hw : Stands w cwd T₁ endings.length)
    (next : ∀ e T₂ w', Completes (c endings.length) cwd t T₁ e T₂ →
      Stands w' cwd T₂ (endings.length + 1) →
      Verdict c cwd t T (runInTurn s c ((runPasses t (records (endings ++ [e]))
        (if passes.isEmpty then (T₁.bytesAt cwd t.log).length else lastStart) passes).bind
          (assess t)) w').1) :
  Verdict c cwd t T (runInTurn s c ((runPasses t (records endings) lastStart
    ((endings.length + 1) :: passes)).bind (assess t)) w).1
  := by
  rw [runInTurn_bind]
  rcases run_runPasses_cons s c t hw (records endings) lastStart (endings.length + 1) passes
    with ⟨e, T₂, w', completes, hw', hnext⟩ | ⟨stops, fault, hfault⟩
  · rw [hnext, ← records_append, ← runInTurn_bind]
    exact next e T₂ w' completes hw'
  · apply verdict_of_assess_error s hfault
    intro message
    exact .stopped reached short stops

/-- The passes that are left lead to a verdict from every tree that the compiler comes to. -/
theorem verdict_of_runPasses (s : Surroundings) {w : Machine × Nat} (left lastStart : Nat)
    (reached : Reaches c cwd t T endings T₁)
    (hleft : endings.length + (left + 1) = compilerPasses)
    (hw : Stands w cwd T₁ endings.length) :
  Verdict c cwd t T (runInTurn s c ((runPasses t (records endings) lastStart
    (List.range' (endings.length + 1) (left + 1))).bind (assess t)) w).1
  := by
  have short : endings.length < compilerPasses := by omega
  induction left generalizing endings T₁ w lastStart with
  | zero =>
    apply verdict_of_runPasses_cons s reached short hw
    intro e T₂ w' last hw'
    exact verdict_of_assess_ok s reached hleft last hw'
  | succ left ih =>
    rw [List.range'_succ]
    apply verdict_of_runPasses_cons s reached short hw
    intro e T₂ w' completes hw'
    have hlength : (endings ++ [e]).length = endings.length + 1 := List.length_append
    rw [← hlength] at hw' ⊢
    apply ih
    · exact reached.pass completes
    · rw [hlength]
      omega
    · exact hw'
    · rw [hlength]
      omega

theorem verdict_of_runAll (s : Surroundings) (c : Course) (t : Task) {w : Machine × Nat}
    (hw : Stands w cwd T 0) :
  Verdict c cwd t T (runInTurn s c ((runAll t).bind (assess t)) w).1
  := by
  unfold runAll
  rw [Dialogue.bind_eq, Dialogue.bind_assoc, runInTurn_bind]
  rcases run_removeStale s c hw t.artifact with ⟨T₁, cleared, hresult, hw₁⟩ | ⟨stays, fault, hfault⟩
  · rw [hresult]
    exact verdict_of_runPasses s 1 0 (.start cleared) rfl hw₁
  · rw [hfault, runInTurn_bind]
    apply verdict_of_assess_error s rfl
    intro message
    exact .blocked stays

/-- A compilation of a document that has a file name ends in one of the ways. -/
theorem verdict_of_compile (s : Surroundings) (c : Course) (m : Machine)
    (config : CompilerConfig) (announces : Bool) {document : Path} {fileName : String}
    (h : document.fileName? = some fileName) (directory : Path) :
  Verdict c m.cwd { config, directory, fileName, announces } m.tree
    (runInTurn s c (compile config announces document directory) (m, 0)).1
  := by
  rw [compile, h]
  exact verdict_of_runAll s c _ ⟨rfl, rfl, rfl⟩

/-- A document without a file name is not compiled. -/
theorem compile_of_no_fileName (s : Surroundings) (c : Course) (m : Machine)
    (config : CompilerConfig) (announces : Bool) {document : Path}
    (h : document.fileName? = none) (directory : Path) :
  ∃ message, (runInTurn s c (compile config announces document directory) (m, 0)).1
    = .failed message (logIn config directory) (records [])
  := by
  rw [compile, h]
  apply run_fail

/-- Whatever the compiler does in each pass, compiling succeeds exactly if the document has a
file name and the compiler goes through both passes as it should, the artifact is then the
expected one, the ending of the last pass decides about the warning, and the parts of the result
fit together. -/
theorem compile_success_iff (s : Surroundings) (c : Course) (m : Machine)
    (config : CompilerConfig) (announces : Bool) (document directory : Path) :
  let r := (runInTurn s c (compile config announces document directory) (m, 0)).1
  (r.success ↔ ∃ fileName e, document.fileName? = some fileName
      ∧ Succeeds c m.cwd { config, directory, fileName, announces } m.tree e)
    ∧ (∀ fileName e, document.fileName? = some fileName
      → Succeeds c m.cwd { config, directory, fileName, announces } m.tree e
      → r.artifact = some (directory.join
          (Path.stemOf fileName ++ "." ++ config.artifactExtension))
        ∧ (r.softWarning ↔ e ≠ .exited 0))
    ∧ r.Coherent
  := by
  dsimp only
  cases hname : document.fileName? with
  | none =>
    obtain ⟨message, hfailed⟩ := compile_of_no_fileName s c m config announces hname directory
    rw [hfailed]
    refine ⟨?_, ?_, ?_⟩
    · simp [Compilation.failed]
    · simp
    · apply coherent_failed
      exact Nat.zero_le 2
  | some fileName =>
    have hverdict := verdict_of_compile s c m config announces hname directory
    refine ⟨?_, ?_, hverdict.coherent⟩
    · rw [hverdict.success_iff]
      simp
    · rintro _ e ⟨rfl⟩ he
      exact hverdict.of_succeeds he

end Compile

end Bindery
