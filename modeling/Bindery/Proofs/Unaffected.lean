import Bindery.Proofs.Frame
import Bindery.Proofs.Tree.Beside

/-!
# Jobs that one more file does not affect

A machine is `Beside` another if its tree is and if nothing else differs but what was announced.
Runs on two such machines that come to the same result, announce the same and leave machines beside
each other are `Parallel`, and a job is `Unaffected` by the file if all its runs on such machines
are.  What is put together from unaffected jobs is unaffected (`Unaffected.bind`,
`unaffected_interpret`), so it is enough to know it of the actions that a job asks for
(`unaffected_of_only`).  To look at and to write files at paths that avoid the location of the file
is unaffected (`unaffected_act`).
-/

namespace Bindery

namespace Machine

/-! ### Runs side by side -/

/-- The second machine has one more file, and differs in nothing else but what was announced. -/
structure Beside (l : Location) (bytes : Bytes) (m m' : Machine) : Prop where
  tree : Tree.Beside l bytes m.tree m'.tree
  cwd : m'.cwd = m.cwd
  consulted : m'.consulted = m.consulted
  printed : m'.printed = m.printed
  complaints : m'.complaints = m.complaints

variable {α β : Type} {s : Surroundings} {cwd l : Location} {bytes : Bytes} {m m' : Machine}

theorem Beside.changed (h : Beside l bytes m m') {T T' : Tree} (hT : Tree.Beside l bytes T T') :
  Beside l bytes { m with tree := T } { m' with tree := T' }
  := ⟨hT, h.cwd, h.consulted, h.printed, h.complaints⟩

theorem Beside.announced (h : Beside l bytes m m') (events events' : List Event) :
  Beside l bytes { m with events } { m' with events := events' }
  := ⟨h.tree, h.cwd, h.consulted, h.printed, h.complaints⟩

/-- From two machines beside each other, runs come to the same result, announce the same, and leave
machines beside each other. -/
structure Parallel (l : Location) (bytes : Bytes) (m m' : Machine) (r r' : α × Machine) :
    Prop where
  value : r'.1 = r.1
  cwd : r.2.cwd = m.cwd
  beside : Beside l bytes r.2 r'.2
  events : ∃ new, r.2.events = new ++ m.events ∧ r'.2.events = new ++ m'.events

/-- Runs that end with the same value, and leave changed trees beside each other. -/
theorem Beside.parallel (h : Beside l bytes m m') (a : α) {T T' : Tree}
    (hT : Tree.Beside l bytes T T') :
  Parallel l bytes m m' (a, { m with tree := T }) (a, { m' with tree := T' })
  := ⟨rfl, rfl, h.changed hT, [], rfl, rfl⟩

theorem parallel_done (h : Beside l bytes m m') (a : α) :
  Parallel l bytes m m' (run s (.done a) m) (run s (.done a) m')
  := h.parallel a h.tree

/-- Sequences run side by side if their parts do. -/
theorem Parallel.bind {x x' : Job α} {f : α → Job β}
    (hx : Parallel l bytes m m' (run s x m) (run s x' m'))
    (hf : ∀ a {M M' : Machine}, M.cwd = m.cwd → Beside l bytes M M' →
      Parallel l bytes M M' (run s (f a) M) (run s (f a) M')) :
  Parallel l bytes m m' (run s (x.bind f) m) (run s (x'.bind f) m')
  := by
  rw [run_bind, run_bind, hx.value]
  have hrest := hf (run s x m).1 hx.cwd hx.beside
  obtain ⟨first, hfirst, hfirst'⟩ := hx.events
  obtain ⟨second, hsecond, hsecond'⟩ := hrest.events
  refine ⟨hrest.value, hrest.cwd.trans hx.cwd, hrest.beside, second ++ first, ?_, ?_⟩
  · rw [hsecond, hfirst, List.append_assoc]
  · rw [hsecond', hfirst', List.append_assoc]

/-- What is known of a node is known from what is shown of it. -/
theorem statOf_shown (n : Node) :
  statOf n.shown = statOf n
  := by cases n <;> rfl

/-- Reading and writing where the file is not, and announcing, can be done side by side. -/
theorem parallel_answer {E : Event → Prop} {action : Action}
    (hmild : Mild (Path.Avoids m.cwd · l) (Path.Avoids m.cwd · l) E action)
    (h : Beside l bytes m m') :
  Parallel l bytes m m' (answer s m action) (answer s m' action)
  := by
  cases action with
  | stat path =>
    constructor
    · change (m'.tree.node m'.cwd path).map _ = (m.tree.node m.cwd path).map _
      rw [h.cwd]
      exact h.tree.agreeOn.map_node statOf_shown hmild.within
    · rfl
    · exact h
    · exact ⟨[], rfl, rfl⟩
  | read path =>
    constructor
    · change m'.tree.read m'.cwd path = m.tree.read m.cwd path
      rw [h.cwd, h.tree.read hmild]
    · rfl
    · exact h
    · exact ⟨[], rfl, rfl⟩
  | write path new =>
    rw [answer_write, answer_write, h.cwd]
    rcases h.tree.write hmild new with ⟨e, he, he'⟩ | ⟨S, S', hS, hS', hbeside⟩
    · rw [he, he']
      exact h.parallel _ h.tree
    · rw [hS, hS']
      exact h.parallel _ hbeside
  | announce event =>
    exact ⟨rfl, rfl, h.announced _ _, [event], rfl, rfl⟩
  | _ => cases hmild

/-! ### Unaffected jobs -/

/-- In the directory, a job runs in parallel on a machine and on one with another file. -/
def Unaffected (s : Surroundings) (cwd l : Location) (bytes : Bytes) (x : Job α) : Prop :=
  ∀ m m' : Machine, m.cwd = cwd → Beside l bytes m m' →
    Parallel l bytes m m' (run s x m) (run s x m')

theorem unaffected_done (a : α) :
  Unaffected s cwd l bytes (.done a)
  := fun _ _ _ h => parallel_done h a

theorem Unaffected.bind {x : Job α} {f : α → Job β} (hx : Unaffected s cwd l bytes x)
    (hf : ∀ a, Unaffected s cwd l bytes (f a)) :
  Unaffected s cwd l bytes (x.bind f)
  := by
  intro m m' hcwd h
  apply (hx m m' hcwd h).bind
  intro a M M' hM hbeside
  exact hf a M M' (hM.trans hcwd) hbeside

/-- A job is unaffected if it asks only for actions that are. -/
theorem unaffected_of_only {x : Job α}
    (hx : x.Only fun action => Unaffected s cwd l bytes (act action)) :
  Unaffected s cwd l bytes x
  := by
  induction x with
  | done a => exact unaffected_done a
  | ask action next ih => exact Unaffected.bind hx.1 fun a => ih a (hx.2 a)

/-- To look at a file or to write one, if its path avoids the location of the file, and to announce
are unaffected. -/
theorem unaffected_act {action : Action}
    (h : Mild (Path.Avoids cwd · l) (Path.Avoids cwd · l) (fun _ => True) action) :
  Unaffected s cwd l bytes (act action)
  := by
  rintro m m' rfl hbeside
  exact parallel_answer h hbeside

/-- A job that looks only at files that avoid the location of the file, and writes only such files,
is unaffected. -/
theorem unaffected_of_mild {E : Event → Prop} {x : Job α}
    (hx : x.Only (Mild (Path.Avoids cwd · l) (Path.Avoids cwd · l) E)) :
  Unaffected s cwd l bytes x
  := by
  refine unaffected_of_only (hx.mono fun action h => unaffected_act ?_)
  exact h.mono (fun _ => id) (fun _ => id) fun _ _ => trivial

theorem unaffected_remove {path : Path} (hpath : path.Avoids cwd l) :
  Unaffected s cwd l bytes (act (.remove path))
  := by
  rintro m m' rfl h
  change Parallel l bytes m m' (m.changed (m.tree.remove m.cwd path))
    (m'.changed (m'.tree.remove m'.cwd path))
  rw [h.cwd]
  rcases h.tree.remove hpath with ⟨e, he, he'⟩ | ⟨S, S', hS, hS', hbeside⟩
  · rw [he, he']
    exact h.parallel _ h.tree
  · rw [hS, hS']
    exact h.parallel _ hbeside

/-- Asking the caller is unaffected by files. -/
theorem unaffected_consult (package : String) :
  Unaffected s cwd l bytes (act (.consult package))
  := by
  intro m m' _ h
  refine ⟨rfl, rfl, ⟨h.tree, h.cwd, ?_, h.printed, h.complaints⟩, [], rfl, rfl⟩
  exact congrArg (package :: ·) h.consulted

/-! ### Questions that are answered by jobs -/

variable {Q : Type} {A : Q → Type} {f : (q : Q) → Job (A q)}

/-- Finding answers by unaffected jobs is unaffected. -/
theorem unaffected_interpret (hf : ∀ q, Unaffected s cwd l bytes (f q)) (x : Dialogue Q A α) :
  Unaffected s cwd l bytes (x.interpret f)
  := by
  induction x with
  | done a => exact unaffected_done a
  | ask q next ih => exact (hf q).bind ih

/-- The questions that are answered by unaffected jobs are the same, and so are the answers. -/
theorem transcript_of_unaffected (hf : ∀ q, Unaffected s cwd l bytes (f q))
    (x : Dialogue Q A α) (hcwd : m.cwd = cwd) (h : Beside l bytes m m') :
  x.transcript (fun m q => run s (f q) m) m' = x.transcript (fun m q => run s (f q) m) m
  := by
  induction x generalizing m m' with
  | done a => rfl
  | ask q next ih =>
    have hfirst := hf q m m' hcwd h
    rw [Dialogue.transcript, Dialogue.transcript, hfirst.value,
      ih _ (hfirst.cwd.trans hcwd) hfirst.beside]

/-! ### Silent jobs -/

/-- A job that announces nothing does the same whatever was announced before, and leaves it at
that. -/
theorem run_of_silent {R P : Path → Prop} {x : Job α} (hx : x.Only (Mild R P fun _ => False))
    (m : Machine) (events : List Event) :
  run s x { m with events } = ((run s x m).1, { (run s x m).2 with events })
  := by
  induction x generalizing m with
  | done a => rfl
  | ask action next ih =>
    have hfirst : answer s { m with events } action
        = ((answer s m action).1, { (answer s m action).2 with events }) := by
      cases action with
      | stat | read => rfl
      | write path bytes =>
        rw [answer_write, answer_write]
        dsimp only
        cases m.tree.write m.cwd path bytes <;> rfl
      | announce => cases hx.1
      | _ => cases hx.1
    change run s (next (answer s { m with events } action).1) (answer s { m with events } action).2
      = ((run s (next (answer s m action).1) (answer s m action).2).1, _)
    rw [hfirst]
    exact ih _ (hx.2 _) _

theorem events_of_silent {R P : Path → Prop} {x : Job α} (hx : x.Only (Mild R P fun _ => False))
    (m : Machine) :
  (run s x m).2.events = m.events
  := congrArg (fun r => r.2.events) (run_of_silent hx m m.events)

end Machine

end Bindery
