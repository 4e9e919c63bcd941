import Bindery.Proofs.Dialogue

/-!
# What a dialogue asks

`transcript` lists the questions that a state machine is asked, with its answers, `moments` lists
them with the states in which they are asked, and `Only P x` says that `x` asks nothing but
questions that satisfy `P`, whatever the answers are.  All of them pass through `bind`
(`transcript_bind`, `moments_bind`, `Only.bind`), and what `x` asks when its questions are replaced
by dialogues is what these ask (`run_interpret`, `transcript_interpret`, `Only.interpret`).  A fold
asks what its steps ask (`foldlM_transcript`).  What a function is asked passes through `bind` too
(`trace_bind`).
-/

namespace Bindery.Dialogue

variable {Q R : Type} {A : Q → Type} {B : R → Type} {α β γ σ : Type}

/-! ### Transcripts -/

/-- The questions that a state machine is asked, in order, with its answers. -/
def transcript (answer : σ → (q : Q) → A q × σ) : Dialogue Q A α → σ → List ((q : Q) × A q)
  | done _, _ => []
  | ask q next, s =>
    ⟨q, (answer s q).1⟩ :: (next (answer s q).1).transcript answer (answer s q).2

variable (answer : σ → (q : Q) → A q × σ)

@[simp]
theorem transcript_done (a : α) (s : σ) :
  (done a : Dialogue Q A α).transcript answer s = []
  := rfl

@[simp]
theorem transcript_question (q : Q) (s : σ) :
  (question q : Dialogue Q A (A q)).transcript answer s = [⟨q, (answer s q).1⟩]
  := rfl

/-- A sequence asks what its parts ask. -/
theorem transcript_bind (x : Dialogue Q A α) (f : α → Dialogue Q A β) (s : σ) :
  (x.bind f).transcript answer s = x.transcript answer s
    ++ (f (x.run answer s).1).transcript answer (x.run answer s).2
  := by
  induction x generalizing s with
  | done a => rfl
  | ask q next ih => exact congrArg (_ :: ·) (ih _ _)

/-- The questions that a state machine is asked, in order, each with the state in which it is
asked. -/
def moments (answer : σ → (q : Q) → A q × σ) : Dialogue Q A α → σ → List (Q × σ)
  | done _, _ => []
  | ask q next, s => (q, s) :: (next (answer s q).1).moments answer (answer s q).2

theorem moments_bind (x : Dialogue Q A α) (f : α → Dialogue Q A β) (s : σ) :
  (x.bind f).moments answer s = x.moments answer s
    ++ (f (x.run answer s).1).moments answer (x.run answer s).2
  := by
  induction x generalizing s with
  | done a => rfl
  | ask q next ih => exact congrArg (_ :: ·) (ih _ _)

/-- A transcript is what is answered at the moments. -/
theorem transcript_eq_map_moments (x : Dialogue Q A α) (s : σ) :
  x.transcript answer s = (x.moments answer s).map
    fun asking => ⟨asking.1, (answer asking.2 asking.1).1⟩
  := by
  induction x generalizing s with
  | done a => rfl
  | ask q next ih => exact congrArg (_ :: ·) (ih _ _)

/-- What holds of no step and of each step, and of two stretches of steps together if it holds of
each of them, holds of a fold: of the value it starts with, its steps, what they ask, and the value
it ends with. -/
theorem foldlM_transcript {P : β → List γ → List ((q : Q) × A q) → β → Prop}
    {f : β → γ → Dialogue Q A β} (refl : ∀ b, P b [] [] b)
    (step : ∀ b c s, P b [c] ((f b c).transcript answer s) ((f b c).run answer s).1)
    (trans : ∀ {b b' b'' cs cs' asked asked'}, P b cs asked b' → P b' cs' asked' b'' →
      P b (cs ++ cs') (asked ++ asked') b'')
    (cs : List γ) (b : β) (s : σ) :
  P b cs ((cs.foldlM f b).transcript answer s) ((cs.foldlM f b).run answer s).1
  := by
  induction cs generalizing b s with
  | nil => exact refl b
  | cons c cs ih =>
    rw [List.foldlM_cons, bind_eq, transcript_bind, run_bind]
    exact trans (step b c s) (ih _ _)

/-- Dialogues that find the answers make a state machine of their own. -/
theorem run_interpret (f : (q : R) → Dialogue Q A (B q)) (x : Dialogue R B α) (s : σ) :
  (x.interpret f).run answer s = x.run (fun s q => (f q).run answer s) s
  := by
  induction x generalizing s with
  | done a => rfl
  | ask q next ih =>
    rw [interpret, run_bind, ih]
    rfl

/-- Dialogues that find the answers ask their own questions at the moments of the questions that
they answer. -/
theorem transcript_interpret (f : (q : R) → Dialogue Q A (B q)) (x : Dialogue R B α) (s : σ) :
  (x.interpret f).transcript answer s = (x.moments (fun s q => (f q).run answer s) s).flatMap
    fun asking => (f asking.1).transcript answer asking.2
  := by
  induction x generalizing s with
  | done a => rfl
  | ask q next ih =>
    rw [interpret, transcript_bind, ih]
    rfl

/-! ### Questions to a function -/

theorem trace_bind (answer : (q : Q) → A q) (x : Dialogue Q A α) (f : α → Dialogue Q A β) :
  (x.bind f).trace answer = x.trace answer ++ (f (x.runPure answer)).trace answer
  := by
  induction x with
  | done a => rfl
  | ask q next ih => exact congrArg (q :: ·) (ih _)

/-! ### Questions that may be asked -/

/-- All questions that are asked satisfy `P`, whatever the answers. -/
def Only (P : Q → Prop) : Dialogue Q A α → Prop
  | done _ => True
  | ask q next => P q ∧ ∀ a, (next a).Only P

variable {P : Q → Prop}

theorem only_done (a : α) :
  (done a : Dialogue Q A α).Only P
  := trivial

theorem only_question {q : Q} (h : P q) :
  (question q : Dialogue Q A (A q)).Only P
  := ⟨h, fun _ => trivial⟩

theorem Only.bind {x : Dialogue Q A α} {f : α → Dialogue Q A β} (hx : x.Only P)
    (hf : ∀ a, (f a).Only P) :
  (x.bind f).Only P
  := by
  induction x with
  | done a => exact hf a
  | ask q next ih => exact ⟨hx.1, fun a => ih a (hx.2 a)⟩

theorem Only.mono {P' : Q → Prop} {x : Dialogue Q A α} (h : x.Only P) (hP : ∀ q, P q → P' q) :
  x.Only P'
  := by
  induction x with
  | done a => trivial
  | ask q next ih => exact ⟨hP q h.1, fun a => ih a (h.2 a)⟩

theorem only_of_forall (h : ∀ q, P q) (x : Dialogue Q A α) :
  x.Only P
  := by
  induction x with
  | done a => trivial
  | ask q next ih => exact ⟨h q, ih⟩

theorem Only.interpret {P : R → Prop} {P' : Q → Prop} {f : (q : R) → Dialogue Q A (B q)}
    (hf : ∀ q, P q → (f q).Only P') {x : Dialogue R B α} (h : x.Only P) :
  (x.interpret f).Only P'
  := by
  induction x with
  | done a => trivial
  | ask q next ih => exact (hf q h.1).bind fun a => ih a (h.2 a)

/-- Only what may be asked is in a transcript. -/
theorem Only.transcript {x : Dialogue Q A α} (h : x.Only P) (s : σ) :
  ∀ entry ∈ x.transcript answer s, P entry.1
  := by
  induction x generalizing s with
  | done a => exact List.forall_mem_nil _
  | ask q next ih =>
    rw [Dialogue.transcript, List.forall_mem_cons]
    exact ⟨h.1, ih _ (h.2 _) _⟩

theorem Only.moments {x : Dialogue Q A α} (h : x.Only P) (s : σ) :
  ∀ entry ∈ x.moments answer s, P entry.1
  := by
  induction x generalizing s with
  | done a => exact List.forall_mem_nil _
  | ask q next ih =>
    rw [Dialogue.moments, List.forall_mem_cons]
    exact ⟨h.1, ih _ (h.2 _) _⟩

end Bindery.Dialogue
