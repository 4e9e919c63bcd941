/-!
# Dialogues

A `Dialogue Q A α` is a computation that puts questions `q : Q` to its surroundings, goes on
with each answer in `A q`, and ends with a value of type `α`.  The surroundings are not part
of it: `run` lets a state machine answer, `runPure` a function, `trace` lists the questions
that are asked, and `interpret` replaces every question by a dialogue about other questions;
`observe` does so with a state that is passed on, and can break off.
-/

namespace Bindery

/-- A computation that asks its surroundings questions. -/
inductive Dialogue (Q : Type) (A : Q → Type) (α : Type) : Type where
  /-- Ends with a value. -/
  | done (value : α)
  /-- Asks a question and goes on with its answer. -/
  | ask (question : Q) (next : A question → Dialogue Q A α)

namespace Dialogue

variable {Q R : Type} {A : Q → Type} {B : R → Type} {α β σ ε : Type}

/-- The first dialogue, and then the one that its value selects. -/
def bind : Dialogue Q A α → (α → Dialogue Q A β) → Dialogue Q A β
  | done a, f => f a
  | ask q next, f => ask q fun a => (next a).bind f

/-- The first dialogue, and then the one that its value selects, unless it ends with an error. -/
def andThen (x : Dialogue Q A (Except ε α)) (f : α → Dialogue Q A (Except ε β)) :
    Dialogue Q A (Except ε β) :=
  x.bind fun
    | .error e => done (.error e)
    | .ok a => f a

instance : Monad (Dialogue Q A) where
  pure := done
  bind := bind

/-- The dialogue of a single question. -/
def question (q : Q) : Dialogue Q A (A q) :=
  ask q done

/-- Lets a state machine answer the questions one after another. -/
def run (answer : σ → (q : Q) → A q × σ) : Dialogue Q A α → σ → α × σ
  | done a, s => (a, s)
  | ask q next, s =>
    let (a, s) := answer s q
    (next a).run answer s

/-- Lets a function answer the questions. -/
def runPure (answer : (q : Q) → A q) : Dialogue Q A α → α
  | done a => a
  | ask q next => (next (answer q)).runPure answer

/-- The questions asked, in order, if a function answers them. -/
def trace (answer : (q : Q) → A q) : Dialogue Q A α → List Q
  | done _ => []
  | ask q next => q :: (next (answer q)).trace answer

/-- The same dialogue with every question replaced by a dialogue that finds its answer. -/
def interpret (f : (q : Q) → Dialogue R B (A q)) : Dialogue Q A α → Dialogue R B α
  | done a => done a
  | ask q next => (f q).bind fun a => (next a).interpret f

/-- The same dialogue with every question replaced by a dialogue that finds its answer, and also
a state for the next question, or breaks everything off. -/
def observe (f : σ → (q : Q) → Dialogue R B (Except ε (A q × σ))) :
    Dialogue Q A α → σ → Dialogue R B (Except ε (α × σ))
  | done a, s => done (.ok (a, s))
  | ask q next, s => (f s q).andThen fun (a, s) => (next a).observe f s

@[simp]
theorem pure_eq (a : α) :
  (pure a : Dialogue Q A α) = done a
  := rfl

@[simp]
theorem bind_eq (x : Dialogue Q A α) (f : α → Dialogue Q A β) :
  (x >>= f) = x.bind f
  := rfl

theorem bind_done (x : Dialogue Q A α) :
  x.bind done = x
  := by
  induction x with
  | done a => rfl
  | ask q next ih => simp [bind, ih]

theorem bind_assoc {γ : Type} (x : Dialogue Q A α) (f : α → Dialogue Q A β)
    (g : β → Dialogue Q A γ) :
  (x.bind f).bind g = x.bind fun a => (f a).bind g
  := by
  induction x with
  | done a => rfl
  | ask q next ih => simp [bind, ih]

instance : LawfulMonad (Dialogue Q A) :=
  .mk' _ (fun x => bind_done x) (fun _ _ => rfl) (fun x f g => bind_assoc x f g)

/-- Running a sequence of two dialogues runs the second where the first left the state. -/
theorem run_bind (answer : σ → (q : Q) → A q × σ) (x : Dialogue Q A α)
    (f : α → Dialogue Q A β) (s : σ) :
  (x.bind f).run answer s = (f (x.run answer s).1).run answer (x.run answer s).2
  := by
  induction x generalizing s with
  | done a => rfl
  | ask q next ih => simp [bind, run, ih]

end Dialogue

end Bindery
