import Bindery.Dialogue

/-!
# Every outcome of a dialogue

`Always P x` says that the value of `x` satisfies `P` whatever the answers to its questions
are.  It passes through `bind` (`always_bind`) and along a fold whose steps keep an invariant
(`Always.foldlM`), and it holds of the value that any surroundings lead to (`Always.run_fst`).
Answering with a function commutes with both (`runPure_bind`, `runPure_foldlM`).
-/

namespace Bindery.Dialogue

variable {Q : Type} {A : Q → Type} {α β γ σ : Type}

/-- The value of the dialogue satisfies `P`, whatever the answers. -/
def Always (P : α → Prop) : Dialogue Q A α → Prop
  | done a => P a
  | ask _ next => ∀ answer, (next answer).Always P

/-- A sequence has an outcome of a kind exactly if every outcome of the first dialogue selects
one that has. -/
theorem always_bind {P : β → Prop} {x : Dialogue Q A α} {f : α → Dialogue Q A β} :
  (x.bind f).Always P ↔ x.Always fun a => (f a).Always P
  := by
  induction x with
  | done a => rfl
  | ask q next ih => exact forall_congr' ih

theorem Always.mono {P R : α → Prop} {x : Dialogue Q A α} (h : x.Always P)
    (hPR : ∀ a, P a → R a) :
  x.Always R
  := by
  induction x with
  | done a => exact hPR a h
  | ask q next ih => exact fun answer => ih answer (h answer)

theorem Always.and {P R : α → Prop} {x : Dialogue Q A α} (h : x.Always P) (h' : x.Always R) :
  x.Always fun a => P a ∧ R a
  := by
  induction x with
  | done a => exact ⟨h, h'⟩
  | ask q next ih => exact fun answer => ih answer (h answer) (h' answer)

theorem always_of_forall {P : α → Prop} (h : ∀ a, P a) (x : Dialogue Q A α) :
  x.Always P
  := by
  induction x with
  | done a => exact h a
  | ask q next ih => exact ih

/-- What holds of every outcome holds of the one that a state machine leads to. -/
theorem Always.run_fst {P : α → Prop} {x : Dialogue Q A α} (h : x.Always P)
    (answer : σ → (q : Q) → A q × σ) (s : σ) :
  P (x.run answer s).1
  := by
  induction x generalizing s with
  | done a => exact h
  | ask q next ih => exact ih _ (h _) _

/-- The answers to the questions of a sequence are found in sequence. -/
theorem interpret_bind {R : Type} {B : R → Type} (x : Dialogue Q A α) (f : α → Dialogue Q A β)
    (g : (q : Q) → Dialogue R B (A q)) :
  (x.bind f).interpret g = (x.interpret g).bind fun a => (f a).interpret g
  := by
  induction x with
  | done a => rfl
  | ask q next ih => simp only [bind, interpret, ih, bind_assoc]

/-- Finding the answers in another way adds no outcomes. -/
theorem Always.interpret {R : Type} {B : R → Type} {P : α → Prop} {x : Dialogue Q A α}
    (h : x.Always P) (f : (q : Q) → Dialogue R B (A q)) :
  (x.interpret f).Always P
  := by
  induction x with
  | done a => exact h
  | ask q next ih =>
    apply always_bind.mpr
    apply always_of_forall
    intro answer
    exact ih answer (h answer)

/-- A fold keeps what each of its steps keeps. -/
theorem Always.foldlM {P : β → Prop} {f : β → γ → Dialogue Q A β}
    (step : ∀ b c, P b → (f b c).Always P) (l : List γ) {b : β} (h : P b) :
  (l.foldlM f b).Always P
  := by
  induction l generalizing b with
  | nil => exact h
  | cons c l ih =>
    rw [List.foldlM_cons, bind_eq, always_bind]
    apply (step b c h).mono
    intro b' hb'
    apply ih hb'

/-- A fold whose steps extend what is known of the part of a list that was passed ends with
what is to be known of the whole list. -/
theorem Always.foldlM_append {P : List γ → β → Prop} {f : β → γ → Dialogue Q A β}
    (step : ∀ passed b c, P passed b → (f b c).Always (P (passed ++ [c]))) (l : List γ)
    {passed : List γ} {b : β} (h : P passed b) :
  (l.foldlM f b).Always (P (passed ++ l))
  := by
  induction l generalizing passed b with
  | nil =>
    rw [List.append_nil]
    exact h
  | cons c l ih =>
    rw [List.foldlM_cons, bind_eq, always_bind]
    apply (step passed b c h).mono
    intro b' hb'
    rw [← List.singleton_append, ← List.append_assoc]
    apply ih hb'

/-! ### Answers by a function -/

@[simp]
theorem runPure_done (answer : (q : Q) → A q) (a : α) :
  (done a : Dialogue Q A α).runPure answer = a
  := rfl

theorem runPure_question (answer : (q : Q) → A q) (q : Q) :
  (question q : Dialogue Q A (A q)).runPure answer = answer q
  := rfl

theorem runPure_bind (answer : (q : Q) → A q) (x : Dialogue Q A α) (f : α → Dialogue Q A β) :
  (x.bind f).runPure answer = (f (x.runPure answer)).runPure answer
  := by
  induction x with
  | done a => rfl
  | ask q next ih => exact ih _

theorem Always.runPure {P : α → Prop} {x : Dialogue Q A α} (h : x.Always P)
    (answer : (q : Q) → A q) :
  P (x.runPure answer)
  := by
  induction x with
  | done a => exact h
  | ask q next ih => exact ih _ (h _)

theorem runPure_foldlM (answer : (q : Q) → A q) (f : β → γ → Dialogue Q A β) (l : List γ)
    (b : β) :
  (l.foldlM f b).runPure answer = l.foldl (fun b c => (f b c).runPure answer) b
  := by
  induction l generalizing b with
  | nil => rfl
  | cons c l ih => rw [List.foldlM_cons, bind_eq, runPure_bind, ih, List.foldl_cons]

end Bindery.Dialogue
