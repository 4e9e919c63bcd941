import Bindery.Request
import Bindery.Proofs.Dialogue

/-!
# Errors of a request

A request is refused for its sources (`IsRefusal`), or fails because of the machine.  Preparing the
directory, keeping the sources and compiling the merged document only fail because of the machine,
whatever it answers (`isUnrefused_prepare`, `isUnrefused_keepAll`, `isUnrefused_compileMerged`).
-/

namespace Bindery.Request

/-- The error is about what was handed in, and not about the machine. -/
def IsRefusal : RequestError → Prop
  | .allSourcesFailed .. => True
  | .partialExtraction .. => True
  | .malformedFragment _ => True
  | _ => False

/-- No error of the result is a refusal. -/
def IsUnrefused {α : Type} (result : Except RequestError α) : Prop :=
  ∀ e, result = .error e → ¬ IsRefusal e

theorem isUnrefused_ok {α : Type} (a : α) :
  IsUnrefused (.ok a)
  := by
  rintro e ⟨⟩

theorem isUnrefused_write (w : Workspace) (name : String) (bytes : Bytes) :
  (w.write name bytes).Always IsUnrefused
  := by
  apply Dialogue.always_bind.mpr
  apply Dialogue.always_of_forall
  rintro (cause | _)
  · rintro e ⟨⟩
    exact not_false
  · exact isUnrefused_ok _

theorem isUnrefused_prepare (root : Path) :
  (Workspace.prepare root).Always IsUnrefused
  := by
  apply Dialogue.always_bind.mpr
  apply Dialogue.always_of_forall
  rintro (cause | _)
  · rintro e ⟨⟩
    exact not_false
  · apply Dialogue.always_bind.mpr
    apply Dialogue.always_of_forall
    rintro (cause | stat)
    · rintro e ⟨⟩
      exact not_false
    · dsimp only
      split
      · exact isUnrefused_ok _
      · rintro e ⟨⟩
        exact not_false

theorem isUnrefused_keepAll (w : Workspace) (sources : List (SourceFile × Nat)) :
  (keepAll w sources).Always IsUnrefused
  := by
  induction sources with
  | nil => exact isUnrefused_ok _
  | cons source rest ih =>
    apply Dialogue.always_bind.mpr
    apply (isUnrefused_write w _ _).mono
    rintro (e | path) hwrite
    · rintro _ ⟨⟩
      exact hwrite e rfl
    · apply Dialogue.always_bind.mpr
      apply ih.mono
      rintro (e | kept) hrest
      · rintro _ ⟨⟩
        exact hrest e rfl
      · exact isUnrefused_ok _

theorem isUnrefused_compileMerged (c : Config) (w : Workspace) (outcomes : List Outcome)
    (document : Document) :
  (compileMerged c w outcomes document).Always IsUnrefused
  := by
  apply Dialogue.always_bind.mpr
  apply (isUnrefused_write w _ _).mono
  rintro (e | merged) hwrite
  · rintro _ ⟨⟩
    exact hwrite e rfl
  · apply Dialogue.always_bind.mpr
    apply Dialogue.always_of_forall
    intro _
    apply Dialogue.always_bind.mpr
    apply Dialogue.always_of_forall
    intro compilation
    apply Dialogue.always_bind.mpr
    apply Dialogue.always_of_forall
    intro _
    exact isUnrefused_ok _

end Bindery.Request
