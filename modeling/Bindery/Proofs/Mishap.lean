import Bindery.Proofs.Frame
import Bindery.Proofs.Touch
import Bindery.Proofs.Tree.Holding

/-!
# Actions that fail

A `Fortune` says, for one action after another, what the surroundings are and whether a `Mishap`
breaks the action off when it has come so far (`Turn.partway`).  `Machine.runAmid` carries a job out
with such fortune, and without mishaps it is `Machine.run` (`runAmid_calm`).  The trees that a job
`Passes` on its way are all that can be seen of it from outside, or be left if it is cut short; a
tidy job that does not touch a file keeps what its place showed in all of them (`keeps_of_tidy`).
-/

namespace Bindery

/-! ### Fortune -/

/-- How an action fails. -/
structure Mishap where
  cause : OsError
  /-- How far the action has come; it is not even begun if there is nothing. -/
  progress : Option Nat
deriving DecidableEq, Repr

/-- How one action fares. -/
structure Turn where
  surroundings : Surroundings
  /-- The tree that a program leaves when it has come so far. -/
  meanwhile : Nat → Invocation → Location → Tree → Tree := fun _ _ _ tree => tree
  mishap : Option Mishap := none

/-- How the first action of a job fares, how the second, and so on. -/
abbrev Fortune : Type :=
  Nat → Turn

/-- The fortune without mishaps in surroundings that stay the same. -/
def Fortune.calm (s : Surroundings) : Fortune :=
  fun _ => { surroundings := s }

/-- The answer that an action failed; some actions cannot fail. -/
def Action.refusal (cause : OsError) : (action : Action) → Option action.Answer
  | .makeDirs _ => some (.error cause)
  | .stat _ => some (.error cause)
  | .read _ => some (.error cause)
  | .write _ _ => some (.error cause)
  | .remove _ => some (.error cause)
  | .openEnd _ => some (.error cause)
  | .append _ _ => some (.error cause)
  | .copy _ _ => some (.error cause)
  | .rename _ _ => some (.error cause)
  | .launch _ => some (.error cause)
  | .makeTemporary => some (.error cause)
  | .removeAll _ => some (.error cause)
  | .print _ => some false
  | .complain _ => some false
  | .consult _ => none
  | .announce _ => none

namespace Turn

/-- The tree when an action has come so far: when it has made the first directories on the way,
written the first bytes to the file that it has opened for them, or let a program run for a while.
All other actions happen at once, so that nothing is seen of them before. -/
def partway (turn : Turn) (T : Tree) (cwd : Location) (n : Nat) : Action → Tree
  | .makeDirs path => (T.makeDirs cwd (Path.ofParts path.isAbsolute (path.parts.take n))).2
  | .write path bytes => (T.write cwd path (bytes.take n)).toOption.getD T
  | .append handle bytes => T.append handle (bytes.take n)
  | .copy source target => T.copyUpTo cwd source target n
  | .launch invocation => turn.meanwhile n invocation cwd T
  | _ => T

/-- A tree is seen before an action has happened. -/
def Shows (turn : Turn) (T : Tree) (cwd : Location) (action : Action) (T' : Tree) : Prop :=
  T' = T ∨ ∃ n, T' = turn.partway T cwd n action

end Turn

/-- Programs keep the current directory in its place, and leave what a location holds as it is. -/
def Programs.Spare (programs : Programs) (cwd l : Location) : Prop :=
  ∀ invocation (T : Tree), T.IsHome cwd →
    T.Keeps cwd l False (programs invocation cwd T).2

/-- Programs leave what a location holds as it is, also while they run. -/
structure Turn.Spares (turn : Turn) (cwd l : Location) : Prop where
  programs : turn.surroundings.programs.Spare cwd l
  meanwhile : ∀ n invocation (T : Tree), T.IsHome cwd →
    T.Keeps cwd l False (turn.meanwhile n invocation cwd T)

/-- Programs that all do no more than write a file. -/
def Programs.writing (path : Path) (bytes : Bytes) : Programs :=
  fun _ cwd tree =>
    match tree.write cwd path bytes with
    | .ok tree => (.ok (.exited 0), tree)
    | .error cause => (.error cause, tree)

/-- Programs that write a file leave all other locations as they are. -/
theorem Programs.spare_writing {path : Path} {bytes : Bytes} {cwd l : Location}
    (hne : (path.place cwd).location ≠ l) :
  (Programs.writing path bytes).Spare cwd l
  := by
  intro _ T hhome
  have hstart := Tree.Keeps.refl hhome l False
  unfold writing
  cases hwrite : T.write cwd path bytes with
  | error cause => exact hstart
  | ok S => exact hstart.write hwrite hne

/-- Programs of which nothing is seen before they end. -/
theorem Turn.spares_of_programs {s : Surroundings} {mishap : Option Mishap} {cwd l : Location}
    (h : s.programs.Spare cwd l) :
  Turn.Spares { surroundings := s, mishap } cwd l
  := ⟨h, fun _ _ _ hhome => Tree.Keeps.refl hhome l False⟩

namespace Machine

variable {α β : Type}

/-- The answer to an action that fares so.  The machine goes with the number of the actions that
were asked for so far. -/
def answerAmid (f : Fortune) (w : Machine × Nat) (action : Action) :
    action.Answer × (Machine × Nat) :=
  let turn := f w.2
  match turn.mishap.bind fun mishap => (action.refusal mishap.cause).map (mishap.progress, ·) with
  | some (progress, refusal) =>
    (refusal, { w.1 with tree := progress.elim w.1.tree (turn.partway w.1.tree w.1.cwd · action) },
      w.2 + 1)
  | none => ((answer turn.surroundings w.1 action).1, (answer turn.surroundings w.1 action).2,
      w.2 + 1)

/-- Carries a job out with some fortune. -/
def runAmid (f : Fortune) (job : Job α) (w : Machine × Nat) : α × (Machine × Nat) :=
  job.run (answerAmid f) w

/-- A job passes a tree if that is seen while the job is carried out, or when it has ended. -/
def Passes (f : Fortune) (T : Tree) : Job α → Machine × Nat → Prop
  | .done _, w => T = w.1.tree
  | .ask action next, w =>
    (f w.2).Shows w.1.tree w.1.cwd action T
      ∨ Passes f T (next (answerAmid f w action).1) (answerAmid f w action).2

variable {f : Fortune} {T T₀ : Tree} {w : Machine × Nat}

@[simp]
theorem runAmid_done (a : α) (w : Machine × Nat) :
  runAmid f (.done a) w = (a, w)
  := rfl

@[simp]
theorem runAmid_bind (job : Job α) (g : α → Job β) (w : Machine × Nat) :
  runAmid f (job.bind g) w = runAmid f (g (runAmid f job w).1) (runAmid f job w).2
  := Dialogue.run_bind (answerAmid f) job g w

@[simp]
theorem runAmid_act (action : Action) (w : Machine × Nat) :
  runAmid f (act action) w = answerAmid f w action
  := rfl

/-- Without mishaps, a job is carried out as on the machine alone. -/
theorem runAmid_calm (s : Surroundings) (job : Job α) (m : Machine) (n : Nat) :
  (runAmid (.calm s) job (m, n)).1 = (run s job m).1
    ∧ (runAmid (.calm s) job (m, n)).2.1 = (run s job m).2
  := by
  induction job generalizing m n with
  | done a => exact ⟨rfl, rfl⟩
  | ask action next ih => exact ih (answer s m action).1 (answer s m action).2 (n + 1)

/-! ### Trees that are passed -/

theorem passes_start (job : Job α) (w : Machine × Nat) :
  Passes f w.1.tree job w
  := by
  cases job with
  | done a => rfl
  | ask action next => exact Or.inl (Or.inl rfl)

/-- The tree that a job leaves is the last one that it passes. -/
theorem passes_end (job : Job α) (w : Machine × Nat) :
  Passes f (runAmid f job w).2.1.tree job w
  := by
  induction job generalizing w with
  | done a => rfl
  | ask action next ih => exact Or.inr (ih _ _)

/-- A sequence passes what its parts pass. -/
theorem passes_bind (job : Job α) (g : α → Job β) (w : Machine × Nat) :
  Passes f T (job.bind g) w
    ↔ Passes f T job w ∨ Passes f T (g (runAmid f job w).1) (runAmid f job w).2
  := by
  induction job generalizing w with
  | done a =>
    constructor
    · exact Or.inr
    · rintro (hstart | h)
      · obtain rfl : T = w.1.tree := hstart
        exact passes_start (g a) w
      · exact h
  | ask action next ih => exact (or_congr_right (ih _ _)).trans or_assoc.symm

theorem passes_act (action : Action) (w : Machine × Nat) :
  Passes f T (act action) w
    ↔ (f w.2).Shows w.1.tree w.1.cwd action T ∨ T = (answerAmid f w action).2.1.tree
  := Iff.rfl

/-- A job leads from an old condition of the tree to a new one at once: all trees that it passes
meet the one or the other, and the result tells which of them the last one meets. -/
structure Atomic {ε : Type} (f : Fortune) (job : Job (Except ε α)) (w : Machine × Nat)
    (old new : Tree → Prop) : Prop where
  passes : ∀ T, Passes f T job w → old T ∨ new T
  ok : ∀ a, (runAmid f job w).1 = .ok a → new (runAmid f job w).2.1.tree
  error : ∀ e, (runAmid f job w).1 = .error e → old (runAmid f job w).2.1.tree

section Atomic

variable {ε δ : Type} {old new : Tree → Prop}

theorem Atomic.mono {old' new' : Tree → Prop} {job : Job (Except ε α)}
    (h : Atomic f job w old new) (hold : ∀ T, old T → old' T) (hnew : ∀ T, new T → new' T) :
  Atomic f job w old' new'
  := by
  constructor
  · intro T hpasses
    exact (h.passes T hpasses).imp (hold T) (hnew T)
  · intro a ha
    exact hnew _ (h.ok a ha)
  · intro e he
    exact hold _ (h.error e he)

theorem atomic_error {e : ε} (h : old w.1.tree) :
  Atomic f (.done (.error e) : Job (Except ε α)) w old new
  := by
  constructor
  · intro T hpasses
    obtain rfl : T = w.1.tree := hpasses
    exact Or.inl h
  · intro a ha
    cases ha
  · intro e' _
    exact h

/-- Before a job that is atomic, others may pass old trees. -/
theorem Atomic.after {job : Job α} {g : α → Job (Except ε β)}
    (hfirst : ∀ T, Passes f T job w → old T)
    (h : Atomic f (g (runAmid f job w).1) (runAmid f job w).2 old new) :
  Atomic f (job.bind g) w old new
  := by
  constructor
  · intro T hpasses
    rcases (passes_bind job g w).mp hpasses with hpasses | hpasses
    · exact Or.inl (hfirst T hpasses)
    · exact h.passes T hpasses
  · intro b hb
    rw [runAmid_bind] at hb ⊢
    exact h.ok b hb
  · intro e he
    rw [runAmid_bind] at he ⊢
    exact h.error e he

/-- A job stays atomic when its result is worded in another way. -/
theorem Atomic.reword {job : Job (Except ε α)} {g : Except ε α → Job (Except δ β)}
    (h : Atomic f job w old new) (hg : ∀ r, ∃ r', g r = .done r' ∧ r'.isOk = r.isOk) :
  Atomic f (job.bind g) w old new
  := by
  obtain ⟨r, hr, hsame⟩ := hg (runAmid f job w).1
  have hrun : runAmid f (job.bind g) w = (r, (runAmid f job w).2) := by
    rw [runAmid_bind, hr, runAmid_done]
  constructor
  · intro T hpasses
    apply h.passes
    rcases (passes_bind job g w).mp hpasses with hpasses | hpasses
    · exact hpasses
    · rw [hr] at hpasses
      obtain rfl : T = (runAmid f job w).2.1.tree := hpasses
      exact passes_end job w
  · intro b hb
    rw [hrun] at hb ⊢
    cases hresult : (runAmid f job w).1 with
    | error e =>
      rw [hresult, show r = .ok b from hb] at hsame
      cases hsame
    | ok a => exact h.ok a hresult
  · intro e he
    rw [hrun] at he ⊢
    cases hresult : (runAmid f job w).1 with
    | error e' => exact h.error e' hresult
    | ok a =>
      rw [hresult, show r = .error e from he] at hsame
      cases hsame

end Atomic

/-! ### Single actions -/

/-- An action either fails with a tree that is seen on the way, or is answered. -/
theorem answerAmid_cases (f : Fortune) (w : Machine × Nat) (action : Action) :
  (∃ cause refusal T, action.refusal cause = some refusal
      ∧ (f w.2).Shows w.1.tree w.1.cwd action T
      ∧ answerAmid f w action = (refusal, { w.1 with tree := T }, w.2 + 1))
    ∨ answerAmid f w action = ((answer (f w.2).surroundings w.1 action).1,
      (answer (f w.2).surroundings w.1 action).2, w.2 + 1)
  := by
  unfold answerAmid
  dsimp only
  split
  · next progress refusal hmishap =>
    obtain ⟨mishap, -, hrefusal⟩ := Option.bind_eq_some_iff.mp hmishap
    obtain ⟨refusal', hrefusal', hpair⟩ := Option.map_eq_some_iff.mp hrefusal
    cases hpair
    refine Or.inl ⟨mishap.cause, refusal, _, hrefusal', ?_, rfl⟩
    cases mishap.progress with
    | none => exact Or.inl rfl
    | some n => exact Or.inr ⟨n, rfl⟩
  · exact Or.inr rfl

theorem cwd_answerAmid (f : Fortune) (w : Machine × Nat) (action : Action) :
  (answerAmid f w action).2.1.cwd = w.1.cwd
  := by
  rcases answerAmid_cases f w action with ⟨cause, refusal, T, -, -, hanswer⟩ | hanswer
  · rw [hanswer]
  · rw [hanswer]
    exact cwd_answer _ w.1 action

theorem cwd_runAmid (job : Job α) (w : Machine × Nat) :
  (runAmid f job w).2.1.cwd = w.1.cwd
  := by
  induction job generalizing w with
  | done a => rfl
  | ask action next ih => exact (ih _ _).trans (cwd_answerAmid f w action)

/-- A copy is broken off, or succeeds. -/
theorem answerAmid_copy (f : Fortune) (w : Machine × Nat) (source target : Path) :
  (∃ e T, (f w.2).Shows w.1.tree w.1.cwd (.copy source target) T
      ∧ answerAmid f w (.copy source target) = (.error e, { w.1 with tree := T }, w.2 + 1))
    ∨ ∃ S, w.1.tree.copy w.1.cwd source target = .ok S
      ∧ answerAmid f w (.copy source target) = (.ok (), { w.1 with tree := S }, w.2 + 1)
  := by
  rcases answerAmid_cases f w (.copy source target) with
    ⟨cause, refusal, T, hcause, hshows, hanswer⟩ | hanswer
  · cases hcause
    exact Or.inl ⟨cause, T, hshows, hanswer⟩
  · have hchanged (s : Surroundings) : answer s w.1 (.copy source target)
        = w.1.changed (w.1.tree.copy w.1.cwd source target) := rfl
    rw [hanswer, hchanged]
    cases w.1.tree.copy w.1.cwd source target with
    | error e => exact Or.inl ⟨e, w.1.tree, Or.inl rfl, rfl⟩
    | ok S => exact Or.inr ⟨S, rfl, rfl⟩

/-- Giving a file another name succeeds, or nothing happens. -/
theorem answerAmid_rename (f : Fortune) (w : Machine × Nat) (source target : Path) :
  (∃ e, answerAmid f w (.rename source target) = (.error e, w.1, w.2 + 1))
    ∨ ∃ S, w.1.tree.rename w.1.cwd source target = .ok S
      ∧ answerAmid f w (.rename source target) = (.ok (), { w.1 with tree := S }, w.2 + 1)
  := by
  rcases answerAmid_cases f w (.rename source target) with
    ⟨cause, refusal, T, hcause, hshows, hanswer⟩ | hanswer
  · cases hcause
    left
    use cause
    rw [hanswer]
    rcases hshows with rfl | ⟨n, rfl⟩ <;> rfl
  · have hchanged (s : Surroundings) : answer s w.1 (.rename source target)
        = w.1.changed (w.1.tree.rename w.1.cwd source target) := rfl
    rw [hanswer, hchanged]
    cases w.1.tree.rename w.1.cwd source target with
    | error e => exact Or.inl ⟨e, rfl⟩
    | ok S => exact Or.inr ⟨S, rfl, rfl⟩

/-- Giving a file another name is atomic: nothing is seen of it before it has happened. -/
theorem atomic_rename {source target : Path} {old new : Tree → Prop} (h : old w.1.tree)
    (hnew : ∀ S, w.1.tree.rename w.1.cwd source target = .ok S → new S) :
  Atomic f (act (.rename source target)) w old new
  := by
  have hshown {T} (hshows : (f w.2).Shows w.1.tree w.1.cwd (.rename source target) T) : old T := by
    rcases hshows with rfl | ⟨n, rfl⟩ <;> exact h
  rcases answerAmid_rename f w source target with ⟨e, hanswer⟩ | ⟨S, hrename, hanswer⟩
  · constructor
    · intro T hpasses
      left
      rcases (passes_act _ w).mp hpasses with hshows | rfl
      · exact hshown hshows
      · rw [hanswer]
        exact h
    · intro u hu
      rw [runAmid_act, hanswer] at hu
      cases hu
    · intro _ _
      rw [runAmid_act, hanswer]
      exact h
  · constructor
    · intro T hpasses
      rcases (passes_act _ w).mp hpasses with hshows | rfl
      · exact Or.inl (hshown hshows)
      · rw [hanswer]
        exact Or.inr (hnew S hrename)
    · intro _ _
      rw [runAmid_act, hanswer]
      exact hnew S hrename
    · intro e he
      rw [runAmid_act, hanswer] at he
      cases he

/-! ### What tidy jobs keep -/

variable {cwd l : Location} {way : Prop} {R : Path → Prop}

/-- What is seen of a plain action keeps a location that it does not touch. -/
theorem keeps_of_shows {turn : Turn} {action : Action} (hplain : action.IsPlain R)
    (hway : ∀ path, R path → l ∈ path.stops cwd → way) (hspares : turn.Spares cwd l)
    (htouches : ∀ touch ∈ action.touches, (touch.path.place cwd).location ≠ l)
    (h : T₀.Keeps cwd l way T) {T' : Tree} (hshows : turn.Shows T cwd action T') :
  T₀.Keeps cwd l way T'
  := by
  rcases hshows with rfl | ⟨n, rfl⟩
  · exact h
  · cases action with
    | makeDirs path =>
      apply h.makeDirs
      intro hstop
      apply hway path hplain
      exact Path.Encloses.stops_subset (Or.inr ⟨_, List.take_prefix n _, rfl⟩) cwd hstop
    | write path bytes =>
      rw [Turn.partway]
      cases hwrite : T.write cwd path (bytes.take n) with
      | error cause => exact h
      | ok S => exact h.write hwrite (htouches ⟨.written, path⟩ (List.mem_singleton_self _))
    | launch invocation =>
      exact h.trans (hspares.meanwhile n invocation T h.home) False.elim
    | append | copy => cases hplain
    | _ => exact h

/-- A plain action keeps a location that it does not touch. -/
theorem keeps_of_answer {s : Surroundings} {m : Machine} {action : Action}
    (hplain : action.IsPlain R) (hway : ∀ path, R path → l ∈ path.stops cwd → way)
    (hprograms : s.programs.Spare cwd l) (hcwd : m.cwd = cwd)
    (htouches : ∀ touch ∈ action.touches, (touch.path.place cwd).location ≠ l)
    (h : T₀.Keeps cwd l way m.tree) :
  T₀.Keeps cwd l way (answer s m action).2.tree
  := by
  subst hcwd
  cases action with
  | makeDirs path => exact h.makeDirs (hway path hplain)
  | write path bytes =>
    rw [answer_write]
    cases hwrite : m.tree.write m.cwd path bytes with
    | error cause => exact h
    | ok S => exact h.write hwrite (htouches ⟨.written, path⟩ (List.mem_singleton_self _))
  | remove path =>
    change T₀.Keeps m.cwd l way (m.changed (m.tree.remove m.cwd path)).2.tree
    cases hremove : m.tree.remove m.cwd path with
    | error cause => exact h
    | ok S => exact h.remove hremove (htouches ⟨.removed, path⟩ (List.mem_singleton_self _))
  | openEnd path =>
    rw [answer_openEnd]
    cases hopen : m.tree.openFile m.cwd path false newFileMode with
    | error cause => exact h
    | ok found =>
      obtain ⟨-, hopens⟩ := Tree.openFile_eq_ok_iff.mp hopen
      exact h.opens hopens (htouches ⟨.opened, path⟩ (List.mem_singleton_self _))
  | launch invocation =>
    exact h.trans (hprograms invocation m.tree h.home) False.elim
  | stat | read | consult | announce | print | complain => exact h
  | append | copy | rename | makeTemporary | removeAll => cases hplain

theorem keeps_of_answerAmid {action : Action} (hplain : action.IsPlain R)
    (hway : ∀ path, R path → l ∈ path.stops cwd → way)
    (hspares : ∀ n, (f n).Spares cwd l) (hcwd : w.1.cwd = cwd)
    (htouches : ∀ touch ∈ action.touches, (touch.path.place cwd).location ≠ l)
    (h : T₀.Keeps cwd l way w.1.tree) :
  T₀.Keeps cwd l way (answerAmid f w action).2.1.tree
  := by
  rcases answerAmid_cases f w action with ⟨cause, refusal, T, -, hshows, hanswer⟩ | hanswer
  · rw [hanswer]
    rw [hcwd] at hshows
    exact keeps_of_shows hplain hway (hspares w.2) htouches h hshows
  · rw [hanswer]
    exact keeps_of_answer hplain hway (hspares w.2).programs hcwd htouches h

/-- A file that was opened at its end has the number that was answered. -/
theorem serialAt_of_openEnd {path : Path} {handle : Handle}
    (h : (answerAmid f w (.openEnd path)).1 = .ok handle) :
  (answerAmid f w (.openEnd path)).2.1.tree.serialAt (path.place w.1.cwd).location = some handle
  := by
  rcases answerAmid_cases f w (.openEnd path) with ⟨cause, refusal, T, hcause, -, hanswer⟩ | hanswer
  · rw [hanswer] at h
    cases hcause
    cases h
  · rw [hanswer, answer_openEnd] at h ⊢
    cases hopen : w.1.tree.openFile w.1.cwd path false newFileMode with
    | error cause =>
      rw [hopen] at h
      cases h
    | ok found =>
      rw [hopen] at h
      cases h
      obtain ⟨-, hopens⟩ := Tree.openFile_eq_ok_iff.mp hopen
      exact hopens.serialAt_self

/-- Adding to a file at another location keeps a location, however far it comes. -/
theorem keeps_of_append {k : Location} {handle : Handle} (bytes : Bytes)
    (hserial : w.1.tree.serialAt k = some handle) (hne : k ≠ l)
    (h : T₀.Keeps cwd l way w.1.tree) :
  (∀ T, (f w.2).Shows w.1.tree w.1.cwd (.append handle bytes) T → T₀.Keeps cwd l way T)
    ∧ T₀.Keeps cwd l way (answerAmid f w (.append handle bytes)).2.1.tree
  := by
  have hshows : ∀ T, (f w.2).Shows w.1.tree w.1.cwd (.append handle bytes) T →
      T₀.Keeps cwd l way T := by
    rintro T (rfl | ⟨n, rfl⟩)
    · exact h
    · exact h.append hserial hne (bytes.take n)
  use hshows
  rcases answerAmid_cases f w (.append handle bytes) with
    ⟨cause, refusal, T, -, hseen, hanswer⟩ | hanswer
  · rw [hanswer]
    exact hshows T hseen
  · rw [hanswer]
    exact h.append hserial hne bytes

/-- A copy keeps a location if it does so however far it comes. -/
theorem keeps_of_copy {source target : Path} (hcwd : w.1.cwd = cwd)
    (h : T₀.Keeps cwd l way w.1.tree)
    (hpart : ∀ n, T₀.Keeps cwd l way (w.1.tree.copyUpTo cwd source target n)) :
  ∀ T, Passes f T (act (.copy source target)) w → T₀.Keeps cwd l way T
  := by
  subst hcwd
  have hshown : ∀ T, (f w.2).Shows w.1.tree w.1.cwd (.copy source target) T →
      T₀.Keeps w.1.cwd l way T := by
    rintro T (rfl | ⟨n, rfl⟩)
    · exact h
    · exact hpart n
  intro T hpasses
  rcases (passes_act _ w).mp hpasses with hshows | rfl
  · exact hshown T hshows
  · rcases answerAmid_copy f w source target with ⟨e, T, hshows, hanswer⟩ | ⟨S, hcopy, hanswer⟩
    · rw [hanswer]
      exact hshown T hshows
    · obtain ⟨n, rfl⟩ := Tree.exists_copyUpTo_of_copy hcopy
      rw [hanswer]
      exact hpart n

/-- A tidy job keeps a location that it does not touch in all trees that it passes, whatever
mishaps befall it. -/
theorem keeps_of_tidy {job : Job α} (htidy : Job.Tidy R job)
    (hway : ∀ path, R path → l ∈ path.stops cwd → way)
    (hspares : ∀ n, (f n).Spares cwd l) (hcwd : w.1.cwd = cwd)
    (htouches : ∀ touch ∈ Job.touches (answerAmid f) job w, (touch.path.place cwd).location ≠ l)
    (h : T₀.Keeps cwd l way w.1.tree) :
  ∀ T, Passes f T job w → T₀.Keeps cwd l way T
  := by
  intro T hpasses
  induction htidy generalizing w with
  | done a =>
    obtain rfl : T = w.1.tree := hpasses
    exact h
  | @ask action next plain rest ih =>
    rw [Job.touches_ask, List.forall_mem_append] at htouches
    rcases hpasses with hshows | hrest
    · rw [hcwd] at hshows
      exact keeps_of_shows plain hway (hspares w.2) htouches.1 h hshows
    · exact ih _ ((cwd_answerAmid f w action).trans hcwd) htouches.2
        (keeps_of_answerAmid plain hway hspares hcwd htouches.1 h) hrest
  | @extend path next bytes more refused opened rest ihRefused ihMore =>
    rw [Job.touches_ask, List.forall_mem_append] at htouches
    obtain ⟨hpath, htouches⟩ := htouches
    have hplain : (Action.openEnd path).IsPlain R := trivial
    have hopened := keeps_of_answerAmid hplain hway hspares hcwd hpath h
    have hcwd' := (cwd_answerAmid f w (.openEnd path)).trans hcwd
    rcases hpasses with hshows | hrest
    · rw [hcwd] at hshows
      exact keeps_of_shows hplain hway (hspares w.2) hpath h hshows
    · cases hanswer : (answerAmid f w (.openEnd path)).1 with
      | error cause =>
        rw [hanswer] at hrest htouches
        exact ihRefused cause hcwd' htouches hopened hrest
      | ok handle =>
        -- The next action adds to the file that was just opened, which is not at the location.
        have hserial := serialAt_of_openEnd hanswer
        rw [hcwd] at hserial
        have hne := hpath ⟨.opened, path⟩ (List.mem_singleton_self _)
        rw [hanswer, opened] at hrest htouches
        rw [Job.touches_ask, List.forall_mem_append] at htouches
        obtain ⟨hshown, happended⟩ := keeps_of_append (bytes handle) hserial hne hopened
        rcases hrest with hshows | hrest
        · exact hshown T hshows
        · exact ihMore handle _ ((cwd_answerAmid f _ _).trans hcwd') htouches.2 happended hrest

end Machine

end Bindery
