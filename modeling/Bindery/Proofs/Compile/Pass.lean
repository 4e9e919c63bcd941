import Mathlib.Tactic.Use
import Bindery.Proofs.Compile.Excerpt
import Bindery.Proofs.Course
import Bindery.Proofs.Tree.Place

/-!
# The steps of compiling

What each step of compiling does to the file tree, while the compiler follows a `Course`.  A
step is described by a relation between the tree before and the tree after that does not mention
the job: `Cleared` for the removal of an old artifact, `Ends` and `Signed` for the two parts of
a pass, and `Completes` for a whole pass.  The relations are functional, and for each step a
lemma says that the job either goes through it or stops with a fault because it is impossible.
-/

namespace Bindery

/-- The program ended by itself or by a signal. -/
def Ending.IsOver : Ending → Prop
  | exited _ => True
  | signalled => True
  | _ => False

theorem Ending.code?_eq_zero_iff {e : Ending} :
  e.code? = some 0 ↔ e = .exited 0
  := by
  cases e with
  | exited code => simp [code?]
  | _ => simp [code?]

namespace Compile

/-! ### Relations between trees -/

/-- The artifact of an earlier run was removed, or there was none. -/
def Cleared (T : Tree) (cwd : Location) (artifact : Path) (T' : Tree) : Prop :=
  T.remove cwd artifact = .ok T' ∨ (T.remove cwd artifact = .error .notFound ∧ T' = T)

/-- A run of the compiler, printing to the end of the log, came to an end. -/
def Ends (p : Programs) (cwd : Location) (t : Task) (T : Tree) (e : Ending) (T' : Tree) : Prop :=
  ∃ log opened, T.openFile cwd t.log false newFileMode = .ok (log, opened)
    ∧ p (t.invocation log) cwd opened = (.ok e, T') ∧ e.IsOver

/-- A run that failed left its exit code in the log. -/
def Signed (cwd : Location) (t : Task) (T : Tree) (e : Ending) (T' : Tree) : Prop :=
  if e = .exited 0 then T' = T
  else ∃ log opened, T.openFile cwd t.log false newFileMode = .ok (log, opened)
    ∧ T' = opened.append log (Text.utf8 (failureLine t.config.program e.code?).toList)

/-- A pass ran to its end. -/
def Completes (p : Programs) (cwd : Location) (t : Task) (T : Tree) (e : Ending) (T' : Tree) :
    Prop :=
  ∃ ended, Ends p cwd t T e ended ∧ Signed cwd t ended e T'

/-- A pass succeeded, or what the log got during it shows that an optional file is missing. -/
def Excused (cwd : Location) (t : Task) (T : Tree) (e : Ending) (T' : Tree) : Prop :=
  e = .exited 0 ∨ Text.utf8 missingFileSign.toList
    <:+: (T'.bytesAt cwd t.log).drop (T.bytesAt cwd t.log).length

theorem Cleared.unique {T T₁ T₂ : Tree} {cwd : Location} {artifact : Path}
    (h₁ : Cleared T cwd artifact T₁) (h₂ : Cleared T cwd artifact T₂) :
  T₁ = T₂
  := by
  rcases h₁ with h₁ | ⟨h₁, rfl⟩ <;> rcases h₂ with h₂ | ⟨h₂, rfl⟩
  · rw [h₁] at h₂
    injection h₂
  · rw [h₁] at h₂
    cases h₂
  · rw [h₁] at h₂
    cases h₂
  · rfl

theorem ends_iff {p : Programs} {cwd : Location} {t : Task} {T opened T' : Tree} {log : Nat}
    {e : Ending} (h : T.openFile cwd t.log false newFileMode = .ok (log, opened)) :
  Ends p cwd t T e T' ↔ p (t.invocation log) cwd opened = (.ok e, T') ∧ e.IsOver
  := by
  constructor
  · rintro ⟨log', opened', hopen, hrun⟩
    rw [h] at hopen
    cases hopen
    exact hrun
  · intro hrun
    exact ⟨log, opened, h, hrun⟩

theorem Ends.unique {p : Programs} {cwd : Location} {t : Task} {T T₁ T₂ : Tree} {e₁ e₂ : Ending}
    (h₁ : Ends p cwd t T e₁ T₁) (h₂ : Ends p cwd t T e₂ T₂) :
  e₁ = e₂ ∧ T₁ = T₂
  := by
  obtain ⟨log, opened, hopen, hrun₁, -⟩ := h₁
  obtain ⟨hrun₂, -⟩ := (ends_iff hopen).mp h₂
  rw [hrun₁] at hrun₂
  cases hrun₂
  exact ⟨rfl, rfl⟩

theorem Signed.unique {cwd : Location} {t : Task} {T T₁ T₂ : Tree} {e : Ending}
    (h₁ : Signed cwd t T e T₁) (h₂ : Signed cwd t T e T₂) :
  T₁ = T₂
  := by
  unfold Signed at h₁ h₂
  by_cases he : e = .exited 0
  · rw [if_pos he] at h₁ h₂
    rw [h₁, h₂]
  · rw [if_neg he] at h₁ h₂
    obtain ⟨log₁, opened₁, hopen₁, rfl⟩ := h₁
    obtain ⟨log₂, opened₂, hopen₂, rfl⟩ := h₂
    rw [hopen₁] at hopen₂
    cases hopen₂
    rfl

theorem Completes.unique {p : Programs} {cwd : Location} {t : Task} {T T₁ T₂ : Tree}
    {e₁ e₂ : Ending} (h₁ : Completes p cwd t T e₁ T₁) (h₂ : Completes p cwd t T e₂ T₂) :
  e₁ = e₂ ∧ T₁ = T₂
  := by
  obtain ⟨ended₁, hends₁, hsigned₁⟩ := h₁
  obtain ⟨ended₂, hends₂, hsigned₂⟩ := h₂
  obtain ⟨rfl, rfl⟩ := hends₁.unique hends₂
  exact ⟨rfl, hsigned₁.unique hsigned₂⟩

/-! ### Steps of the job -/

/-- The state of a job: where it works, on which tree, and how many programs it has started. -/
structure Stands (w : Machine × Nat) (cwd : Location) (T : Tree) (started : Nat) : Prop where
  cwd : w.1.cwd = cwd
  tree : w.1.tree = T
  started : w.2 = started

variable (s : Surroundings) (c : Course) (t : Task) {w : Machine × Nat} {cwd : Location}
  {T : Tree} {n : Nat}

open Machine

theorem stands_announce (hw : Stands w cwd T n) (event : Event) :
  Stands (runInTurn s c (t.announce event) w).2 cwd T n
  := by
  unfold Task.announce
  split
  · exact ⟨hw.cwd, hw.tree, hw.started⟩
  · exact hw

/-- The old artifact is cleared away, or the job stops because that is impossible. -/
theorem run_removeStale (hw : Stands w cwd T n) (artifact : Path) :
  (∃ T', Cleared T cwd artifact T' ∧ (runInTurn s c (removeStale artifact) w).1 = .ok ()
      ∧ Stands (runInTurn s c (removeStale artifact) w).2 cwd T' n)
    ∨ (∀ T', ¬ Cleared T cwd artifact T')
      ∧ ∃ fault, (runInTurn s c (removeStale artifact) w).1 = .error fault
  := by
  obtain ⟨rfl, rfl, rfl⟩ := hw
  unfold removeStale
  rw [Dialogue.bind_eq, runInTurn_bind, runInTurn_remove]
  cases hremove : w.1.tree.remove w.1.cwd artifact with
  | ok T' =>
    left
    use T', Or.inl hremove
    exact ⟨rfl, rfl, rfl, rfl⟩
  | error cause =>
    by_cases hcause : cause = .notFound
    · subst hcause
      left
      use w.1.tree, Or.inr ⟨hremove, rfl⟩
      exact ⟨rfl, rfl, rfl, rfl⟩
    · right
      constructor
      · intro T' h
        simp [Cleared, hremove, hcause] at h
      · use .staleArtifact artifact cause
        cases cause with
        | notFound => exact absurd rfl hcause
        | _ => rfl

/-- The length of the log is the number of the bytes in it. -/
theorem run_logLength (hw : Stands w cwd T n) (log : Path) :
  runInTurn s c (logLength log) w = ((T.bytesAt cwd log).length, w)
  := by
  obtain ⟨rfl, rfl, rfl⟩ := hw
  unfold logLength Tree.bytesAt Tree.read
  rw [Dialogue.bind_eq, runInTurn_bind, runInTurn_stat]
  cases w.1.tree.node w.1.cwd log with
  | error cause => rfl
  | ok found =>
    obtain ⟨l, node⟩ := found
    cases node <;> rfl

theorem run_logSince (hw : Stands w cwd T n) (log : Path) (offset : Nat) :
  runInTurn s c (logSince log offset) w
    = (Text.decodeLossy ((T.bytesAt cwd log).drop offset), w)
  := by
  obtain ⟨rfl, rfl, rfl⟩ := hw
  exact run_logSince_eq (answerInTurn s c) w log offset

/-- The end of a pass after the compiler has ended. -/
def sign (t : Task) (e : Ending) : Job (Except CompileFault (Option Int)) :=
  if e = .exited 0 then return .ok e.code?
  else do
    match ← act (.openEnd t.log) with
    | .error cause => return .error (.log t.log cause)
    | .ok log =>
      let _ ← act (.append log (Text.utf8 (failureLine t.config.program e.code?).toList))
      return .ok e.code?

theorem run_sign (hw : Stands w cwd T n) (e : Ending) :
  (∃ T', Signed cwd t T e T' ∧ (runInTurn s c (sign t e) w).1 = .ok e.code?
      ∧ Stands (runInTurn s c (sign t e) w).2 cwd T' n)
    ∨ (∀ T', ¬ Signed cwd t T e T') ∧ ∃ fault, (runInTurn s c (sign t e) w).1 = .error fault
  := by
  obtain ⟨rfl, rfl, rfl⟩ := hw
  unfold sign
  by_cases he : e = .exited 0
  · left
    rw [if_pos he]
    use w.1.tree
    constructor
    · rw [Signed, if_pos he]
    · exact ⟨rfl, rfl, rfl, rfl⟩
  · rw [if_neg he, Dialogue.bind_eq, runInTurn_bind, runInTurn_openEnd]
    cases hopen : w.1.tree.openFile w.1.cwd t.log false newFileMode with
    | error cause =>
      right
      constructor
      · intro T' h
        rw [Signed, if_neg he] at h
        obtain ⟨log, opened, hopen', -⟩ := h
        rw [hopen] at hopen'
        cases hopen'
      · exact ⟨_, rfl⟩
    | ok found =>
      obtain ⟨log, opened⟩ := found
      left
      use opened.append log (Text.utf8 (failureLine t.config.program e.code?).toList)
      constructor
      · rw [Signed, if_neg he]
        exact ⟨log, opened, hopen, rfl⟩
      · exact ⟨rfl, rfl, rfl, rfl⟩

/-- The end of a pass after an attempt to run the compiler. -/
def conclude (t : Task) (pass : Nat) :
    Except OsError Ending → Job (Except CompileFault (Option Int))
  | .error cause => return .error (.launch t.config.program cause)
  | .ok (.lost cause) => return .error (.wait t.config.program cause)
  | .ok .overran => return .error (.overrun pass t.config.passTimeout)
  | .ok e => sign t e

theorem conclude_of_isOver {e : Ending} (he : e.IsOver) (pass : Nat) :
  conclude t pass (.ok e) = sign t e
  := by
  cases e with
  | exited code => rfl
  | signalled => rfl
  | overran => cases he
  | lost cause => cases he

theorem conclude_of_not_isOver {result : Except OsError Ending}
    (h : ∀ e, result = .ok e → ¬ e.IsOver) (pass : Nat) :
  ∃ fault, conclude t pass result = .done (.error fault)
  := by
  cases result with
  | error cause => exact ⟨_, rfl⟩
  | ok e =>
    have he := h e rfl
    cases e with
    | exited code => exact absurd trivial he
    | signalled => exact absurd trivial he
    | overran => exact ⟨_, rfl⟩
    | lost cause => exact ⟨_, rfl⟩

/-- A pass opens the log, runs the compiler, and concludes. -/
theorem runPass_eq (pass : Nat) :
  runPass t pass = (act (.openEnd t.log)).bind fun opened => match opened with
    | .error cause => .done (.error (.log t.log cause))
    | .ok log => (act (.launch (t.invocation log))).bind (conclude t pass)
  := by
  rw [runPass, Dialogue.bind_eq]
  congr
  funext opened
  cases opened with
  | error cause => rfl
  | ok log =>
    dsimp only
    rw [Dialogue.bind_eq]
    congr
    funext result
    cases result with
    | error cause => rfl
    | ok e => cases e <;> rfl

/-- A pass runs to its end, or the job stops because that is impossible. -/
theorem run_runPass (hw : Stands w cwd T n) (pass : Nat) :
  (∃ e T', Completes (c n) cwd t T e T' ∧ (runInTurn s c (runPass t pass) w).1 = .ok e.code?
      ∧ Stands (runInTurn s c (runPass t pass) w).2 cwd T' (n + 1))
    ∨ (∀ e T', ¬ Completes (c n) cwd t T e T')
      ∧ ∃ fault, (runInTurn s c (runPass t pass) w).1 = .error fault
  := by
  obtain ⟨rfl, rfl, rfl⟩ := hw
  rw [runPass_eq, runInTurn_bind, runInTurn_openEnd]
  cases hopen : w.1.tree.openFile w.1.cwd t.log false newFileMode with
  | error cause =>
    right
    constructor
    · rintro e T' ⟨ended, ⟨log, opened, hopen', -⟩, -⟩
      rw [hopen] at hopen'
      cases hopen'
    · exact ⟨_, rfl⟩
  | ok found =>
    obtain ⟨log, opened⟩ := found
    dsimp only
    rw [runInTurn_bind, runInTurn_launch]
    dsimp only
    rcases hrun : c w.2 (t.invocation log) w.1.cwd opened with ⟨result, ended⟩
    have hends {e T'} :
        Ends (c w.2) w.1.cwd t w.1.tree e T' ↔ (result = .ok e ∧ ended = T') ∧ e.IsOver := by
      rw [ends_iff hopen, hrun, Prod.mk.injEq]
    by_cases hover : ∃ e, result = .ok e ∧ e.IsOver
    · obtain ⟨e, rfl, he⟩ := hover
      have hended : Ends (c w.2) w.1.cwd t w.1.tree e ended := hends.mpr ⟨⟨rfl, rfl⟩, he⟩
      rw [conclude_of_isOver t he]
      have hstands : Stands ({ w.1 with tree := ended }, w.2 + 1) w.1.cwd ended (w.2 + 1) :=
        ⟨rfl, rfl, rfl⟩
      rcases run_sign s c t hstands e with ⟨T', hsigned, hresult, hstands'⟩ | ⟨hnone, hfault⟩
      · left
        exact ⟨e, T', ⟨ended, hended, hsigned⟩, hresult, hstands'⟩
      · right
        refine ⟨?_, hfault⟩
        rintro e' T' ⟨ended', hended', hsigned⟩
        obtain ⟨rfl, rfl⟩ := hended.unique hended'
        exact hnone T' hsigned
    · right
      constructor
      · rintro e T' ⟨ended', hended, -⟩
        obtain ⟨⟨hresult, -⟩, he⟩ := hends.mp hended
        exact hover ⟨e, hresult, he⟩
      · obtain ⟨fault, hfault⟩ := conclude_of_not_isOver t
          (fun e hresult he => hover ⟨e, hresult, he⟩) pass
        use fault
        rw [hfault]
        rfl

@[simp]
theorem runPasses_nil (ran : List Pass) (lastStart : Nat) :
  runPasses t ran lastStart [] = .done (.ok lastStart, ran)
  := rfl

/-- The passes measure the log before the last one, and go on only after a pass that ended. -/
theorem runPasses_cons (ran : List Pass) (lastStart pass : Nat) (passes : List Nat) :
  runPasses t ran lastStart (pass :: passes)
    = (if passes.isEmpty then logLength t.log else .done lastStart).bind fun lastStart =>
      (t.announce (.passBegun pass compilerPasses)).bind fun _ =>
      (runPass t pass).bind fun result => match result with
      | .error fault => .done (.error fault, ran)
      | .ok exitCode => (t.announce (.passEnded pass compilerPasses exitCode)).bind fun _ =>
        runPasses t (ran ++ [{ number := pass, exitCode }]) lastStart passes
  := by
  rw [runPasses]
  split <;> rfl

/-- The passes go on with the next one, or stop because this one is impossible. -/
theorem run_runPasses_cons (hw : Stands w cwd T n) (ran : List Pass) (lastStart pass : Nat)
    (passes : List Nat) :
  (∃ e T' w', Completes (c n) cwd t T e T' ∧ Stands w' cwd T' (n + 1)
      ∧ runInTurn s c (runPasses t ran lastStart (pass :: passes)) w
        = runInTurn s c (runPasses t (ran ++ [{ number := pass, exitCode := e.code? }])
            (if passes.isEmpty then (T.bytesAt cwd t.log).length else lastStart) passes) w')
    ∨ (∀ e T', ¬ Completes (c n) cwd t T e T')
      ∧ ∃ fault,
        (runInTurn s c (runPasses t ran lastStart (pass :: passes)) w).1 = (.error fault, ran)
  := by
  have hlength : runInTurn s c
      (if passes.isEmpty then logLength t.log else .done lastStart) w
        = (if passes.isEmpty then (T.bytesAt cwd t.log).length else lastStart, w) := by
    split
    · apply run_logLength s c hw
    · rfl
  rw [runPasses_cons, runInTurn_bind, hlength, runInTurn_bind, runInTurn_bind]
  dsimp only
  rcases run_runPass s c t (stands_announce s c t hw (.passBegun pass compilerPasses)) pass
    with ⟨e, T', hcompletes, hresult, hstands⟩ | ⟨hnone, fault, hfault⟩
  · left
    refine ⟨e, T', _, hcompletes, stands_announce s c t hstands
      (.passEnded pass compilerPasses e.code?), ?_⟩
    rw [hresult, runInTurn_bind]
  · right
    refine ⟨hnone, fault, ?_⟩
    rw [hfault]
    rfl

/-! ### The verdict of the job -/

theorem run_fail (log : Path) (fault : CompileFault) (passes : List Pass) :
  ∃ message, (runInTurn s c (fail log fault passes) w).1 = .failed message log passes
  := by
  unfold fail
  rw [Dialogue.bind_eq, runInTurn_bind, runInTurn_read]
  cases w.1.tree.read w.1.cwd log <;> exact ⟨_, rfl⟩

theorem run_judgeArtifact (hw : Stands w cwd T n) (softWarning : Bool) (passes : List Pass) :
  (runInTurn s c (judgeArtifact t softWarning passes) w).1
    = if T.exists? cwd t.artifact then .succeeded t.artifact t.log softWarning passes
      else .failed (noArtifactMessage t) t.log passes
  := by
  obtain ⟨rfl, rfl, rfl⟩ := hw
  unfold judgeArtifact Tree.exists?
  rw [Dialogue.bind_eq, runInTurn_bind, runInTurn_stat]
  cases w.1.tree.node w.1.cwd t.artifact <;> rfl

/-- Passes that all ended lead to success if the last one is excused and the artifact is there,
and to a failure otherwise. -/
theorem run_judge {T₀ : Tree} {e : Ending} {passes : List Pass} (hw : Stands w cwd T n)
    (hlast : passes.getLast?.bind Pass.exitCode = e.code?) :
  (Excused cwd t T₀ e T ∧ T.exists? cwd t.artifact
      ∧ (runInTurn s c (judge t (T₀.bytesAt cwd t.log).length passes) w).1
        = .succeeded t.artifact t.log (e ≠ .exited 0) passes)
    ∨ ¬ (Excused cwd t T₀ e T ∧ T.exists? cwd t.artifact)
      ∧ ∃ message, (runInTurn s c (judge t (T₀.bytesAt cwd t.log).length passes) w).1
        = .failed message t.log passes
  := by
  have hexcused : Excused cwd t T₀ e T ↔ e = .exited 0 ∨ occurs missingFileSign.toList
      (Text.decodeLossy ((T.bytesAt cwd t.log).drop (T₀.bytesAt cwd t.log).length)) = true := by
    rw [occurs_missingFileSign_iff]
    rfl
  have hartifact (softWarning : Bool) :
      (T.exists? cwd t.artifact ∧ (runInTurn s c (judgeArtifact t softWarning passes) w).1
          = .succeeded t.artifact t.log softWarning passes)
        ∨ ¬ T.exists? cwd t.artifact ∧ ∃ message,
          (runInTurn s c (judgeArtifact t softWarning passes) w).1
            = .failed message t.log passes := by
    rw [run_judgeArtifact s c t hw]
    by_cases hexists : T.exists? cwd t.artifact
    · exact Or.inl ⟨hexists, if_pos hexists⟩
    · exact Or.inr ⟨hexists, _, if_neg hexists⟩
  unfold judge
  rw [hlast, hexcused]
  by_cases he : e = .exited 0
  · rw [if_pos (Ending.code?_eq_zero_iff.mpr he), decide_eq_false (not_not_intro he)]
    rcases hartifact false with ⟨hexists, hsucceeded⟩ | ⟨hmissing, hfailed⟩
    · left
      exact ⟨Or.inl he, hexists, hsucceeded⟩
    · right
      exact ⟨fun h => hmissing h.2, hfailed⟩
  · rw [if_neg (mt Ending.code?_eq_zero_iff.mp he), decide_eq_true he, or_iff_right he,
      Dialogue.bind_eq, runInTurn_bind, run_logSince s c hw]
    dsimp only
    by_cases hfound : occurs missingFileSign.toList
        (Text.decodeLossy ((T.bytesAt cwd t.log).drop (T₀.bytesAt cwd t.log).length)) = true
    · rw [if_pos hfound]
      rcases hartifact true with ⟨hexists, hsucceeded⟩ | ⟨hmissing, hfailed⟩
      · left
        exact ⟨hfound, hexists, hsucceeded⟩
      · right
        exact ⟨fun h => hmissing h.2, hfailed⟩
    · rw [if_neg hfound]
      right
      use fun h => hfound h.1
      exact ⟨_, rfl⟩

end Compile

end Bindery
