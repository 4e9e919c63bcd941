import Bindery.Proofs.Compile.Actions
import Bindery.Proofs.Compile.Reuse
import Bindery.Proofs.Frame

/-!
# The history in the log

The programs that a job starts are recorded as `launches`, each with the trees before and after it.
What a program adds to the log and the note on its ending are its `entry`.  If the compiler only
appends to the log (`Appends`), compiling does nothing to it but add entries (`Enters`): after any
number of compilations the log holds what it held before, and then the entries of all launches in
order, and what is searched after a last pass is its own entry (`history_of_compileAll`).
-/

namespace Bindery

open Machine Bindery.Tree

/-! ### Launches -/

/-- A program that was started. -/
structure Launch where
  invocation : Invocation
  before : Tree
  ending : Ending
  after : Tree

/-- The program that an action starts. -/
def launched? (c : Course) (w : Machine × Nat) : Action → Option Launch
  | .launch invocation =>
    match c w.2 invocation w.1.cwd w.1.tree with
    | (.ok ending, after) => some { invocation, before := w.1.tree, ending, after }
    | (.error _, _) => none
  | _ => none

variable {α β : Type} (s : Surroundings) (c : Course)

/-- The programs that a job starts. -/
def launches : Job α → Machine × Nat → List Launch
  | .done _, _ => []
  | .ask action next, w => (launched? c w action).toList
    ++ launches (next (answerInTurn s c w action).1) (answerInTurn s c w action).2

@[simp]
theorem launches_done (a : α) (w : Machine × Nat) :
  launches s c (.done a) w = []
  := rfl

/-- A sequence starts what its parts start. -/
theorem launches_bind (job : Job α) (f : α → Job β) (w : Machine × Nat) :
  launches s c (job.bind f) w = launches s c job w
    ++ launches s c (f (runInTurn s c job w).1) (runInTurn s c job w).2
  := by
  induction job generalizing w with
  | done a => rfl
  | ask action next ih =>
    rw [Dialogue.bind, launches, launches, ih, List.append_assoc]
    rfl

theorem launches_act (action : Action) (w : Machine × Nat) :
  launches s c (act action) w = (launched? c w action).toList
  := List.append_nil _

theorem cwd_runInTurn (job : Job α) (w : Machine × Nat) :
  (runInTurn s c job w).2.1.cwd = w.1.cwd
  := by
  induction job generalizing w with
  | done a => rfl
  | ask action next ih =>
    have hnext := ih (answerInTurn s c w action).1 (answerInTurn s c w action).2
    exact hnext.trans (cwd_answer { s with programs := c w.2 } w.1 action)

/-- The line that the log gets after a program that ended by itself or by a signal, but not as it
should. -/
def Compile.note (program : String) : Ending → Bytes
  | .exited 0 | .overran | .lost _ => []
  | e => Text.utf8 (failureLine program e.code?).toList

namespace Launch

variable (x : Launch) (l : Location)

/-- What the program added to the file at a location. -/
def printed : Bytes :=
  (x.after.contents l).drop (x.before.contents l).length

/-- The entry in the log at a location. -/
def entry : Bytes :=
  x.printed l ++ Compile.note x.invocation.program x.ending

variable {x l}

theorem printed_eq {out : Bytes} (h : x.after.contents l = x.before.contents l ++ out) :
  x.printed l = out
  := by rw [printed, h, List.drop_left]

end Launch

namespace Compile

/-! ### Programs that append -/

/-- The program leaves the log where it is, and does nothing to it but to print to its end.  A
program that cannot be started prints nothing. -/
def Appends (p : Programs) (cwd : Location) (log : Path) : Prop :=
  ∀ (i : Invocation) (T : Tree) (handle : Handle), i.output = some handle →
    T.HasRoom cwd log → T.serialAt (log.place cwd).location = some handle →
    (p i cwd T).2.HasRoom cwd log
      ∧ (p i cwd T).2.serialAt (log.place cwd).location = some handle
      ∧ ∃ out, (p i cwd T).2.contents (log.place cwd).location
          = T.contents (log.place cwd).location ++ out
        ∧ ∀ cause, (p i cwd T).1 = .error cause → out = []

/-- The action only looks at files, announces something, or removes a file that is not at the
location. -/
def Spares (cwd l : Location) : Action → Prop
  | .stat _ | .read _ | .announce _ => True
  | .remove path => (path.place cwd).location ≠ l
  | _ => False

variable {s c} {cwd l : Location} {t : Task} {w : Machine × Nat}

theorem launched?_of_spares {action : Action} (h : Spares cwd l action) :
  launched? c w action = none
  := by
  cases action with
  | launch => cases h
  | _ => rfl

theorem contents_erase {T : Tree} {k : Location} (hk : T.isDirAt k = false) (hne : k ≠ l) :
  (T.erase k).contents l = T.contents l
  := by rw [contents, lookup_erase (ne_nil_of_isDirAt hk), if_neg hne.symm, contents]

theorem isDirAt_erase {T : Tree} {k : Location} (hk : T.isDirAt k = false) (l : Location) :
  (T.erase k).isDirAt l = T.isDirAt l
  := by
  rw [isDirAt, lookup_erase (ne_nil_of_isDirAt hk)]
  split
  · next h =>
    rw [h, hk]
    rfl
  · rfl

/-- The trees hold the same at the location, and have the same directories. -/
structure Spared (l : Location) (T T' : Tree) : Prop where
  contents : T'.contents l = T.contents l
  dirs : ∀ k, T'.isDirAt k = T.isDirAt k

theorem spared_of_answer {action : Action} (h : Spares w.1.cwd l action) :
  Spared l w.1.tree (answerInTurn s c w action).2.1.tree
  := by
  cases action with
  | stat | read | announce => exact ⟨rfl, fun _ => rfl⟩
  | remove path =>
    change Spared l w.1.tree (w.1.changed (w.1.tree.remove w.1.cwd path)).2.tree
    cases hremove : w.1.tree.remove w.1.cwd path with
    | error cause => exact ⟨rfl, fun _ => rfl⟩
    | ok T =>
      obtain ⟨k, hnamed, hk, rfl⟩ := exists_erase_of_remove hremove
      have hne : k ≠ l := by
        rw [hnamed.eq]
        exact h
      exact ⟨contents_erase hk hne, isDirAt_erase hk⟩
  | _ => cases h

/-- Jobs that spare a location start nothing and change nothing there. -/
theorem spared_of_only {job : Job α} (h : job.Only (Spares w.1.cwd l)) :
  launches s c job w = [] ∧ Spared l w.1.tree (runInTurn s c job w).2.1.tree
  := by
  induction job generalizing w with
  | done a => exact ⟨rfl, rfl, fun _ => rfl⟩
  | ask action next ih =>
    have hfirst := spared_of_answer (s := s) (c := c) h.1
    have hcwd : (answerInTurn s c w action).2.1.cwd = w.1.cwd :=
      cwd_answer { s with programs := c w.2 } w.1 action
    have hnext : (next (answerInTurn s c w action).1).Only
        (Spares (answerInTurn s c w action).2.1.cwd l) := by
      rw [hcwd]
      exact h.2 _
    obtain ⟨hnone, hrest⟩ := ih _ hnext
    constructor
    · rw [launches, launched?_of_spares h.1, hnone]
      rfl
    · constructor
      · exact hrest.contents.trans hfirst.contents
      · exact fun k => (hrest.dirs k).trans (hfirst.dirs k)

/-! ### Entries -/

/-- What the job adds to the file at a location are the entries of the programs that it starts. -/
def Enters (s : Surroundings) (c : Course) (cwd l : Location) (job : Job α) : Prop :=
  ∀ w : Machine × Nat, w.1.cwd = cwd → (runInTurn s c job w).2.1.tree.contents l
    = w.1.tree.contents l ++ (launches s c job w).flatMap (Launch.entry · l)

theorem Enters.bind {job : Job α} {f : α → Job β} (h : Enters s c cwd l job)
    (hf : ∀ a, Enters s c cwd l (f a)) :
  Enters s c cwd l (job.bind f)
  := by
  intro w hw
  have hcwd : (runInTurn s c job w).2.1.cwd = cwd := (cwd_runInTurn s c job w).trans hw
  rw [runInTurn_bind, launches_bind, List.flatMap_append, ← List.append_assoc, ← h w hw]
  exact hf _ _ hcwd

theorem enters_of_only {job : Job α} (h : job.Only (Spares cwd l)) :
  Enters s c cwd l job
  := by
  rintro w rfl
  obtain ⟨hnone, hspared⟩ := spared_of_only (s := s) (c := c) h
  rw [hspared.contents, hnone, List.flatMap_nil, List.append_nil]

theorem enters_done (a : α) :
  Enters s c cwd l (.done a)
  := enters_of_only (Dialogue.only_done a)

/-- The log can be opened when it is reachable and a file. -/
theorem exists_opens_of_serialAt {T : Tree} {log : Path} {handle : Handle}
    (hroom : T.HasRoom cwd log) (hserial : T.serialAt (log.place cwd).location = some handle) :
  ∃ opened, T.openFile cwd log false newFileMode = .ok (handle, opened)
    ∧ T.Opens (log.place cwd).location false newFileMode handle opened
  := by
  obtain ⟨mode, bytes, hfile⟩ := exists_file_of_serialAt hserial
  have hopens : T.Opens (log.place cwd).location false newFileMode handle _ := .old hfile
  exact ⟨_, openFile_eq_ok_iff.mpr ⟨hroom, hopens⟩, hopens⟩

theorem contents_of_opens {T opened : Tree} {handle : Handle}
    (h : T.Opens l false newFileMode handle opened) :
  opened.contents l = T.contents l
  := by
  obtain ⟨_, hfile⟩ := h.lookup_kept
  exact contents_of_lookup hfile

theorem note_of_isOver {e : Ending} (h : e.IsOver) (program : String) :
  note program e = if e = .exited 0 then [] else Text.utf8 (failureLine program e.code?).toList
  := by
  cases e with
  | exited code => cases code <;> simp [note]
  | signalled => rfl
  | overran | lost => cases h

theorem note_of_not_isOver {e : Ending} (h : ¬ e.IsOver) (program : String) :
  note program e = []
  := by
  cases e with
  | exited | signalled => exact absurd trivial h
  | overran | lost => rfl

/-- After a program that has ended by itself or by a signal, its ending is noted. -/
theorem run_sign_of_serialAt {handle : Handle} (hroom : w.1.tree.HasRoom w.1.cwd t.log)
    (hserial : w.1.tree.serialAt (t.logPlace w.1.cwd) = some handle) {e : Ending}
    (he : e.IsOver) :
  (runInTurn s c (sign t e) w).2.1.tree.contents (t.logPlace w.1.cwd)
      = w.1.tree.contents (t.logPlace w.1.cwd) ++ note t.config.program e
    ∧ launches s c (sign t e) w = []
    ∧ (runInTurn s c (sign t e) w).2.1.tree.HasRoom w.1.cwd t.log
  := by
  rw [sign, note_of_isOver he]
  split
  · exact ⟨(List.append_nil _).symm, rfl, hroom⟩
  · obtain ⟨opened, hopen, hopens⟩ := exists_opens_of_serialAt hroom hserial
    let line := Text.utf8 (failureLine t.config.program e.code?).toList
    have hdirs (k : Location) : w.1.tree.isDirAt k = (opened.append handle line).isDirAt k := by
      rw [isDirAt_append, hopens.isDirAt]
    obtain ⟨mode, hfile⟩ := hopens.lookup_kept
    rw [Dialogue.bind_eq, runInTurn_bind, launches_bind, launches_act, runInTurn_openEnd, hopen]
    refine ⟨?_, rfl, (hasRoom_congr hdirs w.1.cwd t.log).mp hroom⟩
    exact contents_of_lookup (lookup_append_self hfile line)

/-- What is made of an attempt to run the compiler adds a note on it to the log, if there is
something to note. -/
theorem run_conclude {handle : Handle} (hroom : w.1.tree.HasRoom w.1.cwd t.log)
    (hserial : w.1.tree.serialAt (t.logPlace w.1.cwd) = some handle) (pass : Nat) (e : Ending) :
  (runInTurn s c (conclude t pass (.ok e)) w).2.1.tree.contents (t.logPlace w.1.cwd)
      = w.1.tree.contents (t.logPlace w.1.cwd) ++ note t.config.program e
    ∧ launches s c (conclude t pass (.ok e)) w = []
    ∧ (runInTurn s c (conclude t pass (.ok e)) w).2.1.tree.HasRoom w.1.cwd t.log
  := by
  by_cases he : e.IsOver
  · rw [conclude_of_isOver t he]
    exact run_sign_of_serialAt hroom hserial he
  · have hnot : ∀ e', Except.ok (ε := OsError) e = .ok e' → ¬ e'.IsOver := by
      rintro _ ⟨⟩
      exact he
    obtain ⟨fault, hfault⟩ := conclude_of_not_isOver t hnot pass
    rw [hfault, note_of_not_isOver he, List.append_nil]
    exact ⟨rfl, rfl, hroom⟩

section Passes

variable (hc : ∀ i, Appends (c i) cwd t.log)

include hc

/-- A pass adds the entry of the program that it starts.  Without one, it does not end. -/
theorem run_runPass_entry (hw : w.1.cwd = cwd) (pass : Nat) :
  (runInTurn s c (runPass t pass) w).2.1.tree.contents (t.logPlace cwd)
      = w.1.tree.contents (t.logPlace cwd)
        ++ (launches s c (runPass t pass) w).flatMap (Launch.entry · (t.logPlace cwd))
    ∧ ∀ code, (runInTurn s c (runPass t pass) w).1 = .ok code →
      w.1.tree.HasRoom cwd t.log ∧ (runInTurn s c (runPass t pass) w).2.1.tree.HasRoom cwd t.log
        ∧ ∃ x, launches s c (runPass t pass) w = [x]
  := by
  subst hw
  rw [runPass_eq, runInTurn_bind, launches_bind, launches_act, runInTurn_openEnd]
  cases hopen : w.1.tree.openFile w.1.cwd t.log false newFileMode with
  | error cause =>
    refine ⟨(List.append_nil _).symm, ?_⟩
    rintro code ⟨⟩
  | ok found =>
    obtain ⟨handle, opened⟩ := found
    obtain ⟨hroom, hopens⟩ := openFile_eq_ok_iff.mp hopen
    have hroom' : opened.HasRoom w.1.cwd t.log :=
      (hasRoom_congr (fun k => (hopens.isDirAt k).symm) _ _).mp hroom
    obtain ⟨hafter, hserial, out, hout, hfailed⟩ :=
      hc w.2 (t.invocation handle) opened handle rfl hroom' hopens.serialAt_self
    dsimp only
    rw [runInTurn_bind, launches_bind, launches_act, runInTurn_launch, launched?]
    dsimp only
    generalize c w.2 (t.invocation handle) w.1.cwd opened = ended at hafter hserial hout hfailed ⊢
    obtain ⟨result, after⟩ := ended
    cases result with
    | error cause =>
      rw [hfailed cause rfl] at hout
      refine ⟨?_, ?_⟩
      · exact hout.trans (congrArg (· ++ []) (contents_of_opens hopens))
      · rintro code ⟨⟩
    | ok e =>
      have hconclude := run_conclude (s := s) (c := c)
        (w := ({ w.1 with tree := after }, w.2 + 1)) hafter hserial pass e
      obtain ⟨hcontents, hnone, hroom''⟩ := hconclude
      rw [hnone]
      refine ⟨?_, fun code _ => ⟨hroom, hroom'', _, rfl⟩⟩
      let x : Launch := { invocation := t.invocation handle, before := opened, ending := e, after }
      have hprinted : x.printed (t.logPlace w.1.cwd) = out := Launch.printed_eq hout
      have hentries : ((some x).toList ++ [] ++ []).flatMap (Launch.entry · (t.logPlace w.1.cwd))
          = out ++ note t.config.program e := by
        rw [← hprinted]
        exact List.append_nil _
      rw [hcontents, hout, contents_of_opens hopens, List.append_assoc, ← hentries]
      rfl

theorem enters_runPass (pass : Nat) :
  Enters s c cwd (t.logPlace cwd) (runPass t pass)
  := fun _ hw => (run_runPass_entry hc hw pass).1

theorem enters_runPasses (ran : List Pass) (lastStart : Nat) (passes : List Nat) :
  Enters s c cwd (t.logPlace cwd) (runPasses t ran lastStart passes)
  := by
  induction passes generalizing ran lastStart with
  | nil => exact enters_done _
  | cons pass passes ih =>
    have hlength : Enters s c cwd (t.logPlace cwd)
        (if passes.isEmpty then logLength t.log else .done lastStart) := by
      split
      · exact enters_of_only (only_logLength trivial)
      · exact enters_done _
    have hannounce (event : Event) : Enters s c cwd (t.logPlace cwd) (t.announce event) :=
      enters_of_only (only_taskAnnounce t trivial)
    rw [runPasses_cons]
    refine hlength.bind fun lastStart => (hannounce _).bind fun _ =>
      (enters_runPass hc pass).bind ?_
    rintro (fault | exitCode)
    · exact enters_done _
    · exact (hannounce _).bind fun _ => ih _ _

theorem enters_runAll (hartifact : (t.artifact.place cwd).location ≠ t.logPlace cwd) :
  Enters s c cwd (t.logPlace cwd) (runAll t)
  := by
  refine (enters_of_only (only_removeStale hartifact)).bind ?_
  rintro (fault | _)
  · exact enters_done _
  · exact enters_runPasses hc _ _ _

/-- A pass that ends is followed by the others.  It has started a program, and the log is measured
before the last one. -/
theorem run_runPasses_cons_entry {ran ended : List Pass} {lastStart lastStart' pass : Nat}
    {passes : List Nat} (hw : w.1.cwd = cwd)
    (h : (runInTurn s c (runPasses t ran lastStart (pass :: passes)) w).1
      = (.ok lastStart', ended)) :
  ∃ x w' ran', w'.1.cwd = cwd ∧ w'.1.tree.HasRoom cwd t.log
    ∧ w'.1.tree.contents (t.logPlace cwd)
      = w.1.tree.contents (t.logPlace cwd) ++ x.entry (t.logPlace cwd)
    ∧ let measured := if passes.isEmpty then (w.1.tree.contents (t.logPlace cwd)).length
        else lastStart
      runInTurn s c (runPasses t ran lastStart (pass :: passes)) w
          = runInTurn s c (runPasses t ran' measured passes) w'
        ∧ launches s c (runPasses t ran lastStart (pass :: passes)) w
          = x :: launches s c (runPasses t ran' measured passes) w'
  := by
  have hstands : Stands w cwd w.1.tree w.2 := ⟨hw, rfl, rfl⟩
  have hlength : runInTurn s c
      (if passes.isEmpty then logLength t.log else .done lastStart) w
        = (if passes.isEmpty then (w.1.tree.bytesAt cwd t.log).length else lastStart, w) := by
    split
    · exact run_logLength s c hstands t.log
    · rfl
  have hsilent : launches s c
      (if passes.isEmpty then logLength t.log else .done lastStart) w = [] := by
    split
    · exact (spared_of_only (l := t.logPlace cwd) (only_logLength trivial)).1
    · rfl
  have hannounce (event : Event) (w : Machine × Nat) :
      launches s c (t.announce event) w = [] :=
    (spared_of_only (l := t.logPlace cwd) (only_taskAnnounce t trivial)).1
  have hbegun := stands_announce s c t hstands (.passBegun pass compilerPasses)
  rw [runPasses_cons, runInTurn_bind, hlength, runInTurn_bind, runInTurn_bind] at h
  rw [runPasses_cons, runInTurn_bind, launches_bind, hlength, hsilent, runInTurn_bind,
    launches_bind, hannounce, runInTurn_bind, launches_bind]
  generalize (runInTurn s c (t.announce _) w).2 = w₁ at h hbegun ⊢
  obtain ⟨hentry, hended⟩ := run_runPass_entry hc hbegun.cwd pass
  have hcwd := (cwd_runInTurn s c (runPass t pass) w₁).trans hbegun.cwd
  generalize runInTurn s c (runPass t pass) w₁ = passed at h hentry hended hcwd ⊢
  generalize launches s c (runPass t pass) w₁ = xs at hentry hended ⊢
  obtain ⟨result, w₂⟩ := passed
  cases result with
  | error fault => cases h
  | ok code =>
    obtain ⟨hroom, hroom', x, hx⟩ := hended code rfl
    dsimp only at hroom' hentry ⊢
    have hstands' : Stands w₂ cwd w₂.1.tree w₂.2 := ⟨hcwd, rfl, rfl⟩
    have hnext := stands_announce s c t hstands' (.passEnded pass compilerPasses code)
    refine ⟨x, (runInTurn s c (t.announce (.passEnded pass compilerPasses code)) w₂).2,
      ran ++ [{ number := pass, exitCode := code }], ?_, ?_, ?_, ?_⟩
    · exact hnext.cwd
    · rw [hnext.tree]
      exact hroom'
    · rw [hnext.tree, hentry, hbegun.tree, hx]
      exact congrArg _ (List.append_nil _)
    · rw [hbegun.tree] at hroom
      rw [runInTurn_bind, launches_bind, hannounce, hx, bytesAt_of_hasRoom hroom]
      exact ⟨rfl, rfl⟩

/-- If the passes end, each of them has started a program, and where the last one begins is measured
at the end of the entries of the others. -/
theorem run_runPasses_entries {ran ended : List Pass} {lastStart lastStart' pass : Nat}
    {passes : List Nat} (hw : w.1.cwd = cwd)
    (h : (runInTurn s c (runPasses t ran lastStart (pass :: passes)) w).1
      = (.ok lastStart', ended)) :
  ∃ xs x, launches s c (runPasses t ran lastStart (pass :: passes)) w = xs ++ [x]
    ∧ xs.length = passes.length
    ∧ (runInTurn s c (runPasses t ran lastStart (pass :: passes)) w).2.1.tree.HasRoom cwd t.log
    ∧ lastStart' = (w.1.tree.contents (t.logPlace cwd)
      ++ xs.flatMap (Launch.entry · (t.logPlace cwd))).length
  := by
  induction passes generalizing ran lastStart pass w with
  | nil =>
    obtain ⟨x, w', ran', hcwd, hroom, hentry, hrun, hlaunches⟩ := run_runPasses_cons_entry hc hw h
    rw [runPasses_nil, runInTurn_done, List.isEmpty_nil, if_pos rfl] at hrun
    rw [runPasses_nil, launches_done] at hlaunches
    rw [hrun] at h ⊢
    obtain ⟨hstart, -⟩ := Prod.mk.inj h
    refine ⟨[], x, hlaunches, rfl, hroom, ?_⟩
    rw [List.flatMap_nil, List.append_nil]
    exact (Except.ok.inj hstart).symm
  | cons next passes ih =>
    obtain ⟨x, w', ran', hcwd, hroom, hentry, hrun, hlaunches⟩ := run_runPasses_cons_entry hc hw h
    rw [hrun] at h ⊢
    obtain ⟨xs, last, hrest, hlength, hroom', hstart⟩ := ih hcwd h
    refine ⟨x :: xs, last, ?_, congrArg _ hlength, hroom', ?_⟩
    · rw [hlaunches, hrest]
      rfl
    · rw [hstart, hentry, List.append_assoc]
      rfl

/-- When the passes of a compilation have ended, what is searched is the entry of the last one. -/
theorem run_runAll_entries {lastStart : Nat} {ended : List Pass} {w' : Machine × Nat}
    (hartifact : (t.artifact.place cwd).location ≠ t.logPlace cwd) (hw : w.1.cwd = cwd)
    (h : runInTurn s c (runAll t) w = ((.ok lastStart, ended), w')) :
  ∃ x₁ x₂, launches s c (runAll t) w = [x₁, x₂]
    ∧ lastStart
      = (w.1.tree.contents (t.logPlace cwd) ++ x₁.entry (t.logPlace cwd)).length
    ∧ runInTurn s c (logSince t.log lastStart) w'
      = (Text.decodeLossy (x₂.entry (t.logPlace cwd)), w')
  := by
  have hnumbers : (List.range compilerPasses).map (· + 1) = [1, 2] := rfl
  have hlog := enters_runAll (s := s) hc hartifact w hw
  rw [h] at hlog
  have hstale : (removeStale t.artifact).Only (Spares w.1.cwd (t.logPlace cwd)) := by
    rw [hw]
    exact only_removeStale hartifact
  obtain ⟨hnone, hspared⟩ := spared_of_only (s := s) (c := c) hstale
  have hcwd := (cwd_runInTurn s c (removeStale t.artifact) w).trans hw
  rw [runAll, Dialogue.bind_eq, runInTurn_bind] at h
  rw [runAll, Dialogue.bind_eq, launches_bind, hnone, List.nil_append] at hlog ⊢
  generalize runInTurn s c (removeStale t.artifact) w = cleared at h hspared hcwd hlog ⊢
  obtain ⟨fault | _, w₁⟩ := cleared
  · cases h
  · dsimp only at h hlog ⊢
    rw [hnumbers] at h hlog ⊢
    have hresult : (runInTurn s c (runPasses t [] 0 [1, 2]) w₁).1 = (.ok lastStart, ended) := by
      rw [h]
    obtain ⟨xs, x₂, hlaunches, hlength, hroom, hstart⟩ := run_runPasses_entries hc hcwd hresult
    obtain ⟨x₁, rfl⟩ := List.length_eq_one_iff.mp hlength
    have hstands : Stands w' cwd w'.1.tree w'.2 := by
      refine ⟨?_, rfl, rfl⟩
      rw [← hcwd, ← cwd_runInTurn s c (runPasses t [] 0 [1, 2]) w₁, h]
    rw [h] at hroom
    rw [hspared.contents, List.flatMap_cons, List.flatMap_nil, List.append_nil] at hstart
    rw [hlaunches, List.flatMap_append, ← List.append_assoc] at hlog
    refine ⟨x₁, x₂, hlaunches, hstart, ?_⟩
    rw [run_logSince s c hstands, bytesAt_of_hasRoom hroom, hlog, hstart, List.flatMap_cons,
      List.flatMap_nil, List.append_nil, List.drop_left, List.flatMap_cons, List.flatMap_nil,
      List.append_nil]

end Passes

/-! ### Many compilations -/

/-- A document to be compiled. -/
structure Call where
  config : CompilerConfig
  announces : Bool
  document : Path
  directory : Path

namespace Call

/-- Compiles the document. -/
def run (call : Call) : Job Compilation :=
  compile call.config call.announces call.document call.directory

/-- What the passes over the document have in common, if it has a file name. -/
def task? (call : Call) : Option Task :=
  call.document.fileName?.map fun fileName =>
    { config := call.config, directory := call.directory, fileName, announces := call.announces }

/-- The call keeps its log at a path, where it does not put its artifact. -/
structure LogsTo (call : Call) (cwd : Location) (log : Path) : Prop where
  log_eq : logIn call.config call.directory = log
  artifact : ∀ t, call.task? = some t → (t.artifact.place cwd).location ≠ (log.place cwd).location

theorem enters_run {call : Call} {log : Path} (hc : ∀ i, Appends (c i) cwd log)
    (hcall : call.LogsTo cwd log) :
  Enters s c cwd (log.place cwd).location call.run
  := by
  obtain ⟨rfl, hartifact⟩ := hcall
  unfold run compile
  cases hname : call.document.fileName? with
  | none => exact enters_of_only (only_fail trivial _ _)
  | some fileName =>
    let t : Task := { config := call.config, directory := call.directory, fileName,
                      announces := call.announces }
    have ht : call.task? = some t := by
      rw [task?, hname]
      rfl
    have hrun := enters_runAll (s := s) (t := t) hc (hartifact t ht)
    refine hrun.bind ?_
    rintro ⟨fault | lastStart, passes⟩
    · exact enters_of_only (only_fail trivial _ _)
    · exact enters_of_only (only_judge trivial trivial _ _)

end Call

/-- Compiles documents one after another. -/
def compileAll (calls : List Call) : Job (List Compilation) :=
  calls.mapM Call.run

theorem enters_compileAll {log : Path} (hc : ∀ i, Appends (c i) cwd log) {calls : List Call}
    (hcalls : ∀ call ∈ calls, call.LogsTo cwd log) :
  Enters s c cwd (log.place cwd).location (compileAll calls)
  := by
  unfold compileAll
  induction calls with
  | nil => exact enters_done []
  | cons call rest ih =>
    obtain ⟨hcall, hrest⟩ := List.forall_mem_cons.mp hcalls
    rw [List.mapM_cons]
    exact (call.enters_run hc hcall).bind fun _ => (ih hrest).bind fun _ => enters_done _

/-- Documents are compiled, while programs follow any course, by a compiler that only appends to
the log.  Then the log holds what it held before and the entries of all launches in order.  In each
compilation, the last pass begins at the end of the entry before it, and what is searched after it
is its own entry. -/
theorem history_of_compileAll (s : Surroundings) (c : Course) {cwd : Location} {log : Path}
    (hc : ∀ i, Appends (c i) cwd log) (calls : List Call)
    (hcalls : ∀ call ∈ calls, call.LogsTo cwd log) :
  let entry := fun x : Launch => x.entry (log.place cwd).location
  (∀ w : Machine × Nat, w.1.cwd = cwd →
    (runInTurn s c (compileAll calls) w).2.1.tree.contents (log.place cwd).location
      = w.1.tree.contents (log.place cwd).location
        ++ (launches s c (compileAll calls) w).flatMap entry)
  ∧ ∀ call ∈ calls, ∀ t, call.task? = some t → ∀ (w w' : Machine × Nat) (lastStart : Nat)
    (passes : List Pass), w.1.cwd = cwd →
    runInTurn s c (runAll t) w = ((.ok lastStart, passes), w') →
    ∃ x₁ x₂, launches s c (runAll t) w = [x₁, x₂]
      ∧ lastStart = (w.1.tree.contents (log.place cwd).location ++ entry x₁).length
      ∧ runInTurn s c (logSince t.log lastStart) w' = (Text.decodeLossy (entry x₂), w')
  := by
  intro entry
  refine ⟨enters_compileAll hc hcalls, ?_⟩
  intro call hcall t ht w w' lastStart passes hw h
  obtain ⟨hlog, hartifact⟩ := hcalls call hcall
  have hlog' : t.log = log := by
    rw [← hlog]
    obtain ⟨fileName, -, rfl⟩ := Option.map_eq_some_iff.mp ht
    rfl
  subst hlog'
  exact run_runAll_entries hc (hartifact t ht) hw h

/-- A compiler that prints something and exits. -/
def chatting (code : Nat) (out : Bytes) : Programs :=
  fun i _ T => (.ok (.exited code), i.output.elim T fun log => T.append log out)

theorem appends_chatting (code : Nat) (out : Bytes) (cwd : Location) (log : Path) :
  Appends (chatting code out) cwd log
  := by
  intro i T handle hi hroom hserial
  obtain ⟨mode, bytes, hfile⟩ := exists_file_of_serialAt hserial
  have hafter : (chatting code out i cwd T).2 = T.append handle out := by
    rw [chatting, hi]
    rfl
  rw [hafter]
  refine ⟨?_, ?_, out, ?_, ?_⟩
  · exact (hasRoom_congr (fun k => (isDirAt_append T handle out k).symm) cwd log).mp hroom
  · rw [serialAt_append, hserial]
  · rw [contents_of_lookup hfile, contents_of_lookup (lookup_append_self hfile out)]
  · rintro cause ⟨⟩

/-- A log of one byte after four passes that failed. -/
theorem history_of_compileAll_twice :
  let c : Course := fun _ => chatting 1 [0x61]
  let call : Call := { config := {}, announces := false, document := ⟨"a.tex"⟩, directory := ⟨"."⟩ }
  let after := (runInTurn bare c (compileAll [call, call]) ({ tree := logged }, 0)).2.1
  let line := Text.utf8 "\nxelatex exited with code 1\n".toList
  (∀ i, Appends (c i) [] sample.log) ∧ (∀ call' ∈ [call, call], call'.LogsTo [] sample.log)
    ∧ after.tree.contents ["latex_output.log"]
      = 0x0a :: (List.replicate 4 (0x61 :: line)).flatten
  := by
  intro c call after line
  have hc (i : Nat) : Appends (c i) [] sample.log := appends_chatting 1 [0x61] [] sample.log
  have hcall : call.LogsTo [] sample.log := by
    constructor
    · rfl
    · intro t ht
      have htask : call.task? = some { sample with fileName := "a.tex" } := by decide +kernel
      rw [htask] at ht
      obtain rfl := Option.some.inj ht
      decide +kernel
  have hcalls : ∀ call' ∈ [call, call], call'.LogsTo [] sample.log := by
    intro call' h
    rw [List.eq_of_mem_replicate (n := 2) h]
    exact hcall
  have hplace : (sample.log.place []).location = ["latex_output.log"] := by decide +kernel
  obtain ⟨hhistory, -⟩ := history_of_compileAll bare c hc [call, call] hcalls
  refine ⟨hc, hcalls, ?_⟩
  have hafter := hhistory ({ tree := logged }, 0) rfl
  rw [hplace] at hafter
  rw [hafter]
  decide +kernel

end Compile

end Bindery
