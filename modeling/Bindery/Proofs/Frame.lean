import Bindery.Proofs.Course
import Bindery.Proofs.Transcript
import Bindery.Proofs.Request.Malformed

/-!
# What a job leaves alone

A job that only looks at files, writes files and announces events (`Mild`) leaves everything as it
is at a location to which it writes nothing (`lookup_of_mild`).  What it has written is `written`.
-/

namespace Bindery

/-- The event tells of sources, and not of what is made of them. -/
def Event.IsEarly : Event → Prop
  | begun _ => True
  | sourceBegun .. => True
  | sourceExtracted .. => True
  | sourceFailed .. => True
  | _ => False

namespace Machine

/-! ### What a job asks and writes -/

/-- The action looks at a file at a path that satisfies `R`, writes a file at a path that satisfies
`P`, or announces an event that satisfies `E`. -/
def Mild (R P : Path → Prop) (E : Event → Prop) : Action → Prop
  | .stat path => R path
  | .read path => R path
  | .announce event => E event
  | .write path _ => P path
  | _ => False

theorem Mild.mono {R R' P P' : Path → Prop} {E E' : Event → Prop} (hR : ∀ path, R path → R' path)
    (hP : ∀ path, P path → P' path) (hE : ∀ event, E event → E' event) {action : Action}
    (h : Mild R P E action) :
  Mild R' P' E' action
  := by
  cases action with
  | stat path | read path => exact hR path h
  | write path bytes => exact hP path h
  | announce event => exact hE event h
  | _ => cases h

/-- The path of the file that was written. -/
def writtenPath? : (action : Action) × action.Answer → Option Path
  | ⟨.write path _, .ok _⟩ => some path
  | _ => none

variable {α β : Type} (s : Surroundings)

/-- The actions that a job takes. -/
def asked (job : Job α) (m : Machine) : List Action :=
  (job.transcript (answer s) m).map Sigma.fst

/-- The files that a job writes. -/
def written (job : Job α) (m : Machine) : List Path :=
  (job.transcript (answer s) m).filterMap writtenPath?

theorem asked_bind (x : Job α) (f : α → Job β) (m : Machine) :
  asked s (x.bind f) m = asked s x m ++ asked s (f (run s x m).1) (run s x m).2
  := by
  rw [asked, Dialogue.transcript_bind, List.map_append]
  rfl

theorem written_bind (x : Job α) (f : α → Job β) (m : Machine) :
  written s (x.bind f) m = written s x m ++ written s (f (run s x m).1) (run s x m).2
  := by
  rw [written, Dialogue.transcript_bind, List.filterMap_append]
  rfl

/-- A file is written if the machine does not refuse it. -/
theorem written_write (path : Path) (bytes : Bytes) (m : Machine) :
  written s (act (.write path bytes)) m = match m.tree.write m.cwd path bytes with
    | .error _ => []
    | .ok _ => [path]
  := by
  have hanswer : (answer s m (.write path bytes)).1
      = (m.changed (m.tree.write m.cwd path bytes)).1 := rfl
  rw [written, act, Dialogue.transcript_question, hanswer]
  cases m.tree.write m.cwd path bytes <;> rfl

variable {s} {R P : Path → Prop} {E : Event → Prop}

theorem forall_mem_asked {P : Action → Prop} {job : Job α} (h : job.Only P) (m : Machine) :
  ∀ action ∈ asked s job m, P action
  := List.forall_mem_map.mpr (h.transcript (answer s) m)

/-- A mild job writes only where it may. -/
theorem forall_mem_written {job : Job α} (h : job.Only (Mild R P E)) (m : Machine) :
  ∀ path ∈ written s job m, P path
  := by
  intro path hpath
  obtain ⟨entry, hentry, hwritten⟩ := List.mem_filterMap.mp hpath
  have hmild := h.transcript (answer s) m entry hentry
  unfold writtenPath? at hwritten
  split at hwritten
  · injection hwritten with hwritten
    rw [← hwritten]
    exact hmild
  · cases hwritten

/-! ### The current directory -/

theorem cwd_changed (m : Machine) (result : Except OsError Tree) :
  (m.changed result).2.cwd = m.cwd
  := by cases result <;> rfl

/-- No action changes the current directory. -/
theorem cwd_answer (s : Surroundings) (m : Machine) (action : Action) :
  (answer s m action).2.cwd = m.cwd
  := by
  cases action with
  | write path bytes => exact cwd_changed m (m.tree.write m.cwd path bytes)
  | remove path => exact cwd_changed m (m.tree.remove m.cwd path)
  | copy source target => exact cwd_changed m (m.tree.copy m.cwd source target)
  | rename source target => exact cwd_changed m (m.tree.rename m.cwd source target)
  | removeAll path => exact cwd_changed m (m.tree.removeAll m.cwd path)
  | openEnd path =>
    rw [answer_openEnd]
    split <;> rfl
  | makeTemporary =>
    delta answer
    dsimp only
    generalize m.tree.makeDir m.cwd (temporaryDir s) = made
    cases made <;> rfl
  | makeDirs | stat | read | append | launch | consult | announce | print | complain => rfl

theorem cwd_run (job : Job α) (m : Machine) :
  (run s job m).2.cwd = m.cwd
  := by
  induction job generalizing m with
  | done a => rfl
  | ask action next ih => exact (ih _ _).trans (cwd_answer s m action)

/-! ### Locations that are left alone -/

/-- The machine works in the same directory on a tree with the same directories. -/
structure Continues (m m' : Machine) : Prop where
  cwd : m'.cwd = m.cwd
  dirs : ∀ k, m'.tree.isDirAt k = m.tree.isDirAt k

variable {l : Location} {m m' m'' : Machine}

theorem Continues.trans (h : Continues m m') (h' : Continues m' m'') :
  Continues m m''
  := ⟨h'.cwd.trans h.cwd, fun k => (h'.dirs k).trans (h.dirs k)⟩

theorem answer_write (path : Path) (bytes : Bytes) (m : Machine) :
  answer s m (.write path bytes) = m.changed (m.tree.write m.cwd path bytes)
  := rfl

theorem continues_of_answer {action : Action} (hmild : Mild R P E action) :
  Continues m (answer s m action).2
  := by
  cases action with
  | stat | read | announce => exact ⟨rfl, fun _ => rfl⟩
  | write path bytes =>
    rw [answer_write]
    cases hwrite : m.tree.write m.cwd path bytes with
    | error cause => exact ⟨rfl, fun _ => rfl⟩
    | ok tree => exact ⟨rfl, Tree.isDirAt_write hwrite⟩
  | _ => cases hmild

theorem lookup_of_answer {action : Action} (hmild : Mild R P E action)
    (hl : ∀ path, writtenPath? ⟨action, (answer s m action).1⟩ = some path →
      (path.place m.cwd).location ≠ l) :
  (answer s m action).2.tree.lookup l = m.tree.lookup l
  := by
  cases action with
  | stat | read | announce => rfl
  | write path bytes =>
    rw [answer_write] at hl ⊢
    cases hwrite : m.tree.write m.cwd path bytes with
    | error cause => rfl
    | ok tree =>
      rw [hwrite] at hl
      exact Tree.lookup_write_of_ne hwrite (Ne.symm (hl path rfl))
  | _ => cases hmild

/-- A mild job makes no directories. -/
theorem continues_of_mild {job : Job α} (h : job.Only (Mild R P E)) :
  Continues m (run s job m).2
  := by
  induction job generalizing m with
  | done a => exact ⟨rfl, fun _ => rfl⟩
  | ask action next ih =>
    have hfirst : Continues m (answer s m action).2 := continues_of_answer h.1
    exact hfirst.trans (ih _ (h.2 _))

/-- A mild job changes nothing at a location at which it writes no file. -/
theorem lookup_of_mild {job : Job α} (h : job.Only (Mild R P E))
    (hl : ∀ path ∈ written s job m, (path.place m.cwd).location ≠ l) :
  (run s job m).2.tree.lookup l = m.tree.lookup l
  := by
  induction job generalizing m with
  | done a => rfl
  | ask action next ih =>
    have hfirst : Continues m (answer s m action).2 := continues_of_answer h.1
    rw [written, Dialogue.transcript, List.filterMap_cons] at hl
    have hrest := ih (answer s m action).1 (h.2 _) (by
      intro path hpath
      rw [hfirst.cwd]
      apply hl
      split
      · exact hpath
      · exact List.mem_cons_of_mem _ hpath)
    apply Eq.trans hrest
    apply lookup_of_answer h.1
    intro path hpath
    apply hl
    rw [hpath]
    apply List.mem_cons_self

/-- A mild job leaves a file readable at whose location it writes nothing. -/
theorem read_of_mild {job : Job α} (h : job.Only (Mild R P E)) {p : Path}
    (hp : ∀ path ∈ written s job m, (path.place m.cwd).location ≠ (p.place m.cwd).location)
    {bytes : Bytes} (hread : m.tree.read m.cwd p = .ok bytes) :
  (run s job m).2.tree.read (run s job m).2.cwd p = .ok bytes
  := by
  have hcontinues : Continues m (run s job m).2 := continues_of_mild h
  obtain ⟨hroom, hfile⟩ := Tree.read_eq_ok_iff.mp hread
  rw [hcontinues.cwd]
  apply Tree.read_eq_ok_iff.mpr
  rw [lookup_of_mild h hp]
  exact ⟨(Tree.hasRoom_congr (fun k => (hcontinues.dirs k).symm) _ _).mp hroom, hfile⟩

end Machine

end Bindery
