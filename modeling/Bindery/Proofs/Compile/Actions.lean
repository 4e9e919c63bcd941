import Bindery.Proofs.Compile.Pass
import Bindery.Proofs.Transcript

/-!
# The actions of compiling

Which actions each step of compiling asks for, whatever the answers are.  Compiling removes the old
artifact, opens the log before and after a pass, starts the compiler, and adds a line to the log;
everything else that it does is to look at the log and at the artifact, and to announce passes.
-/

namespace Bindery.Compile

open Dialogue (Only only_done only_question)

variable {P : Action → Prop} {t : Task}

theorem only_taskAnnounce (t : Task) {event : Event} (h : P (.announce event)) :
  (t.announce event).Only P
  := by
  unfold Task.announce
  split
  · exact only_question h
  · exact only_done _

theorem only_removeStale {artifact : Path} (h : P (.remove artifact)) :
  (removeStale artifact).Only P
  := by
  refine Only.bind (only_question h) ?_
  rintro (cause | _)
  · cases cause <;> exact only_done _
  · exact only_done _

theorem only_logLength {log : Path} (h : P (.stat log)) :
  (logLength log).Only P
  := by
  refine Only.bind (only_question h) ?_
  rintro (e | stat) <;> exact only_done _

theorem only_judge (hlog : P (.read t.log)) (hartifact : P (.stat t.artifact)) (lastStart : Nat)
    (passes : List Pass) :
  (judge t lastStart passes).Only P
  := by
  have hlook (softWarning : Bool) : (judgeArtifact t softWarning passes).Only P := by
    refine Only.bind (only_question hartifact) ?_
    rintro (e | stat) <;> exact only_done _
  have hsince : (logSince t.log lastStart).Only P := by
    refine Only.bind (only_question hlog) ?_
    rintro (e | bytes) <;> exact only_done _
  unfold judge
  dsimp only
  split
  · exact hlook false
  · refine hsince.bind fun output => ?_
    split
    · exact hlook true
    · exact only_done _

theorem only_fail {log : Path} (h : P (.read log)) (fault : CompileFault) (passes : List Pass) :
  (fail log fault passes).Only P
  := by
  refine Only.bind (only_question h) ?_
  rintro (e | bytes) <;> exact only_done _

section Pass

variable (hopen : P (.openEnd t.log)) (happend : ∀ log bytes, P (.append log bytes))

include hopen happend

theorem only_sign (e : Ending) :
  (sign t e).Only P
  := by
  unfold sign
  split
  · exact only_done _
  · refine Only.bind (only_question hopen) ?_
    rintro (cause | log)
    · exact only_done _
    · exact Only.bind (only_question (happend log _)) fun _ => only_done _

theorem only_conclude (pass : Nat) (result : Except OsError Ending) :
  (conclude t pass result).Only P
  := by
  rcases result with cause | (code | _ | _ | cause)
  · exact only_done _
  · exact only_sign hopen happend _
  · exact only_sign hopen happend _
  · exact only_done _
  · exact only_done _

theorem only_runPass (hlaunch : ∀ log, P (.launch (t.invocation log))) (pass : Nat) :
  (runPass t pass).Only P
  := by
  rw [runPass_eq]
  refine Only.bind (only_question hopen) ?_
  rintro (cause | log)
  · exact only_done _
  · exact Only.bind (only_question (hlaunch log)) (only_conclude hopen happend pass)

end Pass

end Bindery.Compile
