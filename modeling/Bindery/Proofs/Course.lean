import Bindery.Machine

/-!
# Programs that behave differently each time

A `Course` says what the first program that a job starts does, what the second, and so on.
`Machine.runInTurn` carries a job out while programs follow a course, so that nothing ties what
a program does to what it did before.  With the same programs each time it is `Machine.run`
(`runInTurn_const`).
-/

namespace Bindery

/-- What the first program that is started does, the second, and so on. -/
abbrev Course : Type :=
  Nat → Programs

namespace Machine

/-- The answer to an action, while programs follow a course.  The machine goes with the number
of the programs that were started so far. -/
def answerInTurn (s : Surroundings) (c : Course) (w : Machine × Nat) (action : Action) :
    action.Answer × (Machine × Nat) :=
  let (result, m) := answer { s with programs := c w.2 } w.1 action
  (result, m, match action with
    | .launch _ => w.2 + 1
    | _ => w.2)

/-- Carries a job out while programs follow a course. -/
def runInTurn {α : Type} (s : Surroundings) (c : Course) (job : Job α) (w : Machine × Nat) :
    α × (Machine × Nat) :=
  Dialogue.run (answerInTurn s c) job w

variable {α β : Type} {s : Surroundings} {c : Course}

@[simp]
theorem runInTurn_done (a : α) (w : Machine × Nat) :
  runInTurn s c (.done a) w = (a, w)
  := rfl

@[simp]
theorem runInTurn_bind (x : Job α) (f : α → Job β) (w : Machine × Nat) :
  runInTurn s c (x.bind f) w
    = runInTurn s c (f (runInTurn s c x w).1) (runInTurn s c x w).2
  := Dialogue.run_bind (answerInTurn s c) x f w

/-! ### Single actions -/

variable (w : Machine × Nat)

@[simp]
theorem runInTurn_stat (path : Path) :
  runInTurn s c (act (.stat path)) w
    = ((w.1.tree.node w.1.cwd path).map fun (_, n) => statOf n, w)
  := rfl

@[simp]
theorem runInTurn_read (path : Path) :
  runInTurn s c (act (.read path)) w = (w.1.tree.read w.1.cwd path, w)
  := rfl

@[simp]
theorem runInTurn_remove (path : Path) :
  runInTurn s c (act (.remove path)) w
    = ((w.1.changed (w.1.tree.remove w.1.cwd path)).1,
      (w.1.changed (w.1.tree.remove w.1.cwd path)).2, w.2)
  := rfl

theorem answer_openEnd (m : Machine) (path : Path) :
  answer s m (.openEnd path) = match m.tree.openFile m.cwd path false newFileMode with
    | .error e => (.error e, m)
    | .ok (serial, tree) => (.ok serial, { m with tree })
  := rfl

@[simp]
theorem runInTurn_openEnd (path : Path) :
  runInTurn s c (act (.openEnd path)) w
    = match w.1.tree.openFile w.1.cwd path false newFileMode with
      | .error e => (.error e, w)
      | .ok (serial, tree) => (.ok serial, { w.1 with tree }, w.2)
  := by
  let s' : Surroundings := { s with programs := c w.2 }
  change ((answer s' w.1 (.openEnd path)).1, (answer s' w.1 (.openEnd path)).2, w.2) = _
  rw [answer_openEnd]
  cases w.1.tree.openFile w.1.cwd path false newFileMode <;> rfl

@[simp]
theorem runInTurn_launch (invocation : Invocation) :
  runInTurn s c (act (.launch invocation)) w
    = ((c w.2 invocation w.1.cwd w.1.tree).1,
      { w.1 with tree := (c w.2 invocation w.1.cwd w.1.tree).2 }, w.2 + 1)
  := rfl

/-! ### A course that does not change -/

/-- With the same programs each time, a job is carried out as on the machine alone. -/
theorem runInTurn_const (job : Job α) (m : Machine) (started : Nat) :
  (runInTurn s (fun _ => s.programs) job (m, started)).1 = (run s job m).1
    ∧ (runInTurn s (fun _ => s.programs) job (m, started)).2.1 = (run s job m).2
  := by
  induction job generalizing m started with
  | done a => exact ⟨rfl, rfl⟩
  | ask action next ih => exact ih _ _ _

end Machine

end Bindery
