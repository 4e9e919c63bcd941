import Bindery.Proofs.Compile.Actions
import Bindery.Proofs.Request.Stages
import Bindery.Proofs.Touch

/-!
# Requests are tidy

A request changes no file but those that it touches, and what it adds to a file goes to a file
that it has just opened (`tidy_process`).  Only the line that a pass leaves in the log after a
failure is added in this way (`tidy_sign`); everything else that a request does is plain.
-/

namespace Bindery

open Dialogue (only_done only_of_forall)
open Job (Tidy tidy_act tidy_of_plain tidy_of_quiet)

variable {R : Path → Prop}

/-! ### Compiling -/

namespace Compile

/-- After a pass that failed, a line is added to the log, which is opened for it. -/
theorem tidy_sign (t : Task) (e : Ending) :
  Tidy R (sign t e)
  := by
  unfold sign
  split
  · exact .done _
  · refine .extend _ (fun _ _ => .done (.ok e.code?)) (fun cause => .done _)
      (fun handle => rfl) fun _ _ => .done _

theorem tidy_runPass (t : Task) (pass : Nat) :
  Tidy R (runPass t pass)
  := by
  rw [runPass_eq]
  refine (tidy_act (.openEnd t.log) trivial).bind ?_
  rintro (cause | log)
  · exact .done _
  · refine (tidy_act (.launch (t.invocation log)) trivial).bind fun result => ?_
    by_cases hover : ∃ e, result = .ok e ∧ e.IsOver
    · obtain ⟨e, rfl, he⟩ := hover
      rw [conclude_of_isOver t he]
      exact tidy_sign t e
    · obtain ⟨fault, hfault⟩ := conclude_of_not_isOver t
        (fun e hresult he => hover ⟨e, hresult, he⟩) pass
      rw [hfault]
      exact .done _

theorem tidy_runPasses (t : Task) (ran : List Pass) (lastStart : Nat) (passes : List Nat) :
  Tidy R (runPasses t ran lastStart passes)
  := by
  induction passes generalizing ran lastStart with
  | nil => exact .done _
  | cons pass passes ih =>
    have hlength : Tidy R (if passes.isEmpty then logLength t.log else .done lastStart) := by
      split
      · exact tidy_of_quiet (only_logLength trivial)
      · exact .done _
    rw [runPasses_cons]
    refine hlength.bind fun lastStart => (tidy_of_quiet (only_taskAnnounce t trivial)).bind fun _ =>
      (tidy_runPass t pass).bind ?_
    rintro (fault | exitCode)
    · exact .done _
    · exact (tidy_of_quiet (only_taskAnnounce t trivial)).bind fun _ => ih _ _

theorem tidy_compile (c : CompilerConfig) (announces : Bool) (document directory : Path) :
  Tidy R (compile c announces document directory)
  := by
  unfold compile
  cases document.fileName? with
  | none => exact tidy_of_quiet (only_fail trivial _ _)
  | some fileName =>
    refine Tidy.bind ((tidy_of_plain (only_removeStale trivial)).bind ?_) ?_
    · rintro (fault | _)
      · exact .done _
      · exact tidy_runPasses _ _ _ _
    · rintro ⟨fault | lastStart, passes⟩
      · exact tidy_of_quiet (only_fail trivial _ _)
      · exact tidy_of_quiet (only_judge trivial trivial _ _)

end Compile

/-! ### Requests -/

namespace Request

theorem plain_extractAll (c : Config) (w : Workspace) (total position : Nat)
    (kept : List Kept) :
  (extractAll c w total position kept).Only (Action.IsPlain R)
  := by
  have hrender (stem : String) (n : Notebook) : (n.render stem).Only fun _ => True :=
    only_of_forall (fun _ => trivial) _
  induction kept generalizing position with
  | nil => exact only_done _
  | cons k rest ih =>
    exact (only_announce c trivial).bind fun _ =>
      (only_extract k.kind trivial (hrender _) fun _ _ => trivial).bind fun _ =>
      (only_announce c trivial).bind fun _ => (ih (position + 1)).bind fun _ => only_done _

theorem tidy_compileMerged (c : Config) (w : Workspace) (outcomes : List Outcome)
    (document : Document) :
  Tidy R (compileMerged c w outcomes document)
  := by
  refine (tidy_of_plain (only_write trivial)).bind ?_
  rintro (e | merged)
  · exact .done _
  · exact (tidy_of_quiet (only_announce c trivial)).bind fun _ =>
      (Compile.tidy_compile _ _ _ _).bind fun _ =>
      (tidy_of_quiet (only_announce c trivial)).bind fun _ => .done _

variable {context : Context}

/-- A request whose packages are looked up quietly is tidy, and makes its working directory. -/
theorem tidy_process (hlook : ∀ name, (context.isAvailable name).Only Action.IsQuiet) (c : Config)
    (sources : List SourceFile) :
  Tidy (· = context.directory) (process context c sources)
  := by
  have hprepare : (Workspace.prepare context.directory).Only
      (Action.IsPlain (· = context.directory)) := only_prepare rfl trivial
  refine (tidy_of_plain hprepare).bind ?_
  rintro (e | w)
  · exact .done _
  · refine (tidy_of_quiet (only_announce c trivial)).bind fun _ =>
      (tidy_of_plain (only_keepAll fun _ _ => trivial)).bind ?_
    rintro (e | kept)
    · exact .done _
    · refine (tidy_of_plain (plain_extractAll c w _ _ _)).bind fun extractions => ?_
      unfold mergeExtracted
      dsimp only
      split
      · exact .done _
      · refine (tidy_of_quiet (only_merge hlook _)).bind ?_
        rintro (malformed | document)
        · exact .done _
        · exact tidy_compileMerged c w _ document

end Request

end Bindery
