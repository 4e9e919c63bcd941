import Bindery.Proofs.CommandLine.Ending

/-!
# The outcome of an invocation

Unless something cannot be printed, the exit status of an invocation is zero exactly if its run
accomplishes what it is to do.  Without a structured result it then prints the path of the artifact
on the standard output, or nothing if that was copied, and otherwise nothing.  The temporary
directory that it has made is removed exactly if it succeeds and the artifact was copied, as the last
thing it does (`exits_runProgram`).  A result whose paths are not Unicode fails where it was to be
written (`status_of_not_unicode`).
-/

namespace Bindery

open Dialogue (Only only_done)

namespace Action

/-- The temporary directory that is made. -/
def made? : (action : Action) → action.Answer → Option Path
  | makeTemporary, .ok directory => some directory
  | _, _ => none

/-- The directory that is removed with everything in it. -/
def removed? : (action : Action) → action.Answer → Option Path
  | removeAll path, _ => some path
  | _, _ => none

/-- The action neither makes a temporary directory nor removes a directory. -/
def IsLocal : Action → Prop
  | makeTemporary | removeAll _ => False
  | _ => True

theorem IsWork.isLocal {action : Action} (h : action.IsWork) :
  action.IsLocal
  := by
  cases action with
  | makeTemporary | removeAll => cases h
  | _ => trivial

theorem IsLocal.made?_eq {action : Action} (h : action.IsLocal) (r : action.Answer) :
  action.made? r = none
  := by
  cases action with
  | makeTemporary | removeAll => cases h
  | _ => rfl

theorem IsLocal.removed?_eq {action : Action} (h : action.IsLocal) (r : action.Answer) :
  action.removed? r = none
  := by
  cases action with
  | makeTemporary | removeAll => cases h
  | _ => rfl

end Action

namespace CommandLine

variable {σ : Type} {isUnicode : Path → Bool}
  {answer : σ → (action : Action) → action.Answer × σ} {s : Settings}
  {c : Config} {sources : List SourceFile} {directory : Path}

/-! ### Temporary directories -/

theorem made_of_local {α : Type} {job : Job α} (h : job.Only Action.IsLocal) (x : σ) :
  Job.picked answer Action.made? job x = []
  := Job.picked_eq_nil answer h (fun _ h => h.made?_eq) x

theorem removed_of_local {α : Type} {job : Job α} (h : job.Only Action.IsLocal) (x : σ) :
  Job.picked answer Action.removed? job x = []
  := Job.picked_eq_nil answer h (fun _ h => h.removed?_eq) x

/-- Unless it panics, a job removes at its very end what it makes as a temporary directory if it
succeeds and the artifact is copied, and else it removes nothing. -/
structure Clears (answer : σ → (action : Action) → action.Answer × σ) (s : Settings)
    (job : Job (Except Halt Unit)) (x : σ) : Prop where
  removed : (job.run answer x).1 ≠ .error .panicked →
    Job.picked answer Action.removed? job x
      = if isDropped s (job.run answer x).1 then Job.picked answer Action.made? job x else []
  last : ∀ directory ∈ Job.picked answer Action.removed? job x, ∃ earlier r,
    job.transcript answer x = earlier ++ [⟨.removeAll directory, r⟩]

theorem clears_of_local {job : Job (Except Halt Unit)} (h : job.Only Action.IsLocal) (x : σ) :
  Clears answer s job x
  := by
  constructor
  · intro _
    rw [removed_of_local h, made_of_local h, ite_self]
  · rw [removed_of_local h]
    exact List.forall_mem_nil _

theorem clears_andThen {α : Type} {job : Job (Except Halt α)} {f : α → Job (Except Halt Unit)}
    (h : job.Only Action.IsLocal) {x : σ}
    (hf : ∀ a, Clears answer s (f a) (job.run answer x).2) :
  Clears answer s (job.andThen f) x
  := by
  rcases hresult : (job.run answer x).1 with halt | a
  · constructor
    · intro _
      rw [Job.picked_andThen_of_error answer _ hresult, Job.picked_andThen_of_error answer _ hresult,
        removed_of_local h, made_of_local h, ite_self]
    · rw [Job.picked_andThen_of_error answer _ hresult, removed_of_local h]
      exact List.forall_mem_nil _
  · constructor
    · rw [Job.picked_andThen_of_ok answer _ hresult, Job.picked_andThen_of_ok answer _ hresult,
        Dialogue.run_andThen_of_ok hresult, removed_of_local h, made_of_local h]
      exact (hf a).removed
    · rw [Job.picked_andThen_of_ok answer _ hresult, removed_of_local h,
        Dialogue.transcript_andThen_of_ok hresult]
      intro directory hdirectory
      obtain ⟨earlier, r, hlast⟩ := (hf a).last directory hdirectory
      rw [hlast, ← List.append_assoc]
      exact ⟨_, r, rfl⟩

theorem only_local_runIn (hc : c.Fits) (s : Settings) (sources : List SourceFile)
    (directory : Path) :
  (runIn isUnicode s c sources directory).Only Action.IsLocal
  := by
  rw [runIn_eq]
  refine ((only_request hc s sources directory).mono ?_).andThen fun result =>
    only_conclude isUnicode (fun _ => trivial) (fun _ _ => trivial) (fun _ _ => trivial)
      (fun _ => trivial) (fun _ => trivial) s c result
  rintro action (h | ⟨success, failed, rfl⟩)
  · exact h.isLocal
  · trivial

/-- If a directory is left and removed, that is all that is done. -/
theorem transcript_leave {s : Settings} {result : Except Halt Unit} (h : isDropped s result = true)
    (directory : Path) (x : σ) :
  (leave s directory result).transcript answer x
    = [⟨.removeAll directory, (answer x (.removeAll directory)).1⟩]
  := by
  unfold leave
  rw [if_pos h]
  rfl

theorem removed_leave (s : Settings) (directory : Path) (result : Except Halt Unit) (x : σ) :
  Job.picked answer Action.removed? (leave s directory result) x
    = if isDropped s result then [directory] else []
  := by
  split
  · next h =>
    rw [Job.picked, transcript_leave h]
    rfl
  · next h =>
    have honly : (leave s directory result).Only Action.IsLocal := by
      unfold leave
      rw [if_neg h]
      split
      · exact only_done _
      · exact Only.andThen ⟨trivial, fun _ => trivial⟩ fun _ => only_done _
    exact removed_of_local honly x

section Temporary

variable (hc : c.Fits) {y z w : σ} {result : Except Halt Unit}
  (hmade : answer y .makeTemporary = (.ok directory, z))
  (hrun : (runIn isUnicode s c sources directory).run answer z = (result, w))

include hc hmade hrun

/-- A temporary directory is the only one that is made. -/
theorem made_runInTemporary :
  Job.picked answer Action.made? (runInTemporary isUnicode s c sources) y = [directory]
  := by
  rw [picked_runInTemporary hmade hrun, made_of_local (only_local_runIn hc s sources directory),
    picked_leave (fun _ _ => rfl) (fun _ _ => rfl)]
  rfl

theorem removed_runInTemporary :
  Job.picked answer Action.removed? (runInTemporary isUnicode s c sources) y
    = if isDropped s result then [directory] else []
  := by
  rw [picked_runInTemporary hmade hrun, removed_of_local (only_local_runIn hc s sources directory),
    removed_leave]
  rfl

end Temporary

theorem clears_runInTemporary (hc : c.Fits) (y : σ) :
  Clears answer s (runInTemporary isUnicode s c sources) y
  := by
  rcases hmade : answer y .makeTemporary with ⟨cause | directory, z⟩
  · have htranscript : (runInTemporary isUnicode s c sources).transcript answer y
        = [⟨.makeTemporary, .error cause⟩] := by
      rw [runInTemporary_eq, Dialogue.transcript, hmade]
      rfl
    constructor
    · intro _
      rw [Job.picked, Job.picked, htranscript]
      exact (ite_self _).symm
    · rw [Job.picked, htranscript]
      intro directory hdirectory
      cases hdirectory
  · rcases hrun : (runIn isUnicode s c sources directory).run answer z with ⟨result, w⟩
    constructor
    · rw [removed_runInTemporary hc hmade hrun, made_runInTemporary hc hmade hrun,
        run_runInTemporary hmade hrun]
      rcases run_leave s directory result w with hsame | hpanicked
      · exact fun _ => by rw [hsame]
      · exact fun h => absurd hpanicked h
    · rw [removed_runInTemporary hc hmade hrun]
      intro other hother
      split at hother
      · next hleft =>
        obtain rfl := List.mem_singleton.mp hother
        rw [transcript_runInTemporary hmade hrun, transcript_leave hleft, ← List.cons_append]
        exact ⟨_, _, rfl⟩
      · cases hother

/-! ### Whole runs -/

theorem clears_runPlaced (hc : c.Fits) (y : σ) :
  Clears answer s (runPlaced isUnicode s c sources) y
  := by
  unfold runPlaced
  split
  · exact clears_of_local (only_local_runIn hc s sources _) y
  · exact clears_runInTemporary hc y

theorem clears_run (isUnicode : Path → Bool) (s : Settings) (x : σ) :
  Clears answer s (run isUnicode s) x
  := by
  apply clears_andThen ((only_work_readSources s.sources).mono fun _ h => h.isLocal)
  intro sources
  unfold proceed
  split
  · exact clears_of_local (only_done _) _
  · split
    · exact clears_of_local (only_done _) _
    · next hconfig => exact clears_runPlaced (Settings.fits_of_config hconfig) _

/-- How an invocation exits: its status, what it has printed on the standard output, and what
becomes of a temporary directory. -/
structure Exits (isUnicode : Path → Bool) (answer : σ → (action : Action) → action.Answer × σ)
    (s : Settings) (job : Job Nat) (x : σ) : Prop where
  /-- The status says whether all was done that was to be done, or that something could not be
  printed. -/
  status : (job.run answer x).1 = 0 ∧ (∃ r, Accomplishes isUnicode answer s x r)
      ∧ ¬ Job.Falters answer job x
    ∨ (job.run answer x).1 = 1 ∧ (¬ ∃ r, Accomplishes isUnicode answer s x r)
    ∨ (job.run answer x).1 = 101 ∧ Job.Falters answer job x
  path : s.json = false → s.output = none → (job.run answer x).1 = 0 → ∃ r artifact,
    Accomplishes isUnicode answer s x r ∧ r.compilation.artifact = some artifact
      ∧ Job.picked answer Action.printed? job x = [artifact.text ++ "\n"]
  nothing : s.json = false → s.output ≠ none ∨ (job.run answer x).1 = 1 →
    Job.picked answer Action.printed? job x = []
  removed : (job.run answer x).1 ≠ 101 → Job.picked answer Action.removed? job x
    = if (job.run answer x).1 = 0 ∧ s.output ≠ none then Job.picked answer Action.made? job x
      else []
  /-- Nothing is done after a removal. -/
  last : ∀ directory ∈ Job.picked answer Action.removed? job x, ∃ earlier r,
    job.transcript answer x = earlier ++ [⟨.removeAll directory, r⟩]

section Close

variable {job : Job (Except Halt Unit)} {x : σ}

/-- What a report of a failure is not picked for is picked from the run alone. -/
theorem picked_close {γ : Type} (pick : (action : Action) → action.Answer → Option γ)
    (h : ∀ text r, pick (.complain text) r = none) :
  Job.picked answer pick (job.bind close) x = Job.picked answer pick job x
  := by
  have hclose := Job.picked_eq_nil answer (only_close (P := fun action => ∀ r, pick action r = none)
    h (job.run answer x).1) (fun _ h => h) (job.run answer x).2
  rw [Job.picked_bind, hclose, List.append_nil]

/-- Only a failure is reported when a job is closed. -/
theorem transcript_close (h : ∀ failure, (job.run answer x).1 ≠ .error (.failed failure)) :
  (job.bind close).transcript answer x = job.transcript answer x
  := by
  rw [Dialogue.transcript_bind]
  rcases hresult : (job.run answer x).1 with (failure | _) | ⟨⟨⟩⟩
  · exact absurd hresult (h failure)
  · exact List.append_nil _
  · exact List.append_nil _

/-- A job that fails is closed with a status of one. -/
theorem exits_close_of_failed {failure : Failure}
    (hresult : (job.run answer x).1 = .error (.failed failure))
    (hends : Ends s (Accomplishes isUnicode answer s x) (.error (.failed failure))
      (Job.picked answer Action.printed? job x)) (hclears : Clears answer s job x) :
  Exits isUnicode answer s (job.bind close) x
  := by
  have hstatus : ((job.bind close).run answer x).1 = 1 := by
    rw [Dialogue.run_bind, hresult]
    rfl
  have hremoved : Job.picked answer Action.removed? (job.bind close) x = [] := by
    rw [picked_close Action.removed? fun _ _ => rfl, hclears.removed (by rw [hresult]; rintro ⟨⟩),
      hresult]
    rfl
  cases hends with
  | failed hnone hprinted =>
    constructor
    · exact Or.inr (Or.inl ⟨hstatus, fun ⟨r, h⟩ => hnone r h⟩)
    · intro _ _ h
      rw [hstatus] at h
      cases h
    · intro hjson _
      rw [picked_close Action.printed? fun _ _ => rfl]
      exact hprinted hjson
    · intro _
      rw [hremoved, if_neg]
      rw [hstatus]
      exact fun h => Nat.one_ne_zero h.1
    · rw [hremoved]
      exact List.forall_mem_nil _

/-- A job that succeeds is closed with a status of zero. -/
theorem exits_close_of_finished (hresult : (job.run answer x).1 = .ok ())
    (hends : Ends s (Accomplishes isUnicode answer s x) (.ok ())
      (Job.picked answer Action.printed? job x)) (hclears : Clears answer s job x)
    (hsensitive : Job.Sensitive answer job x) :
  Exits isUnicode answer s (job.bind close) x
  := by
  have hstatus : ((job.bind close).run answer x).1 = 0 := by
    rw [Dialogue.run_bind, hresult]
    rfl
  have htranscript : (job.bind close).transcript answer x = job.transcript answer x :=
    transcript_close fun failure h => by rw [hresult] at h; cases h
  have htold : ¬ Job.Falters answer (job.bind close) x := by
    rw [Job.Falters, htranscript]
    exact fun h => by cases hresult.symm.trans (hsensitive.mpr h)
  cases hends with
  | finished hsuccess hartifact hprinted =>
    constructor
    · exact Or.inl ⟨hstatus, ⟨_, hsuccess⟩, htold⟩
    · intro hjson houtput _
      rw [picked_close Action.printed? fun _ _ => rfl, hprinted hjson, houtput]
      exact ⟨_, _, hsuccess, hartifact, rfl⟩
    · rintro hjson (houtput | h)
      · rw [picked_close Action.printed? fun _ _ => rfl, hprinted hjson,
          if_pos (Option.isSome_iff_ne_none.mpr houtput)]
      · rw [hstatus] at h
        cases h
    · intro _
      rw [picked_close Action.removed? fun _ _ => rfl, picked_close Action.made? fun _ _ => rfl,
        hclears.removed (by rw [hresult]; rintro ⟨⟩), hresult, hstatus, isDropped]
      cases s.output <;> rfl
    · rw [htranscript, picked_close Action.removed? fun _ _ => rfl]
      exact hclears.last

/-- A job that panics is closed with a status of its own. -/
theorem exits_close_of_panicked (hresult : (job.run answer x).1 = .error .panicked)
    (hends : Ends s (Accomplishes isUnicode answer s x) (.error .panicked)
      (Job.picked answer Action.printed? job x)) (hclears : Clears answer s job x)
    (hsensitive : Job.Sensitive answer job x) :
  Exits isUnicode answer s (job.bind close) x
  := by
  have hstatus : ((job.bind close).run answer x).1 = 101 := by
    rw [Dialogue.run_bind, hresult]
    rfl
  have htranscript : (job.bind close).transcript answer x = job.transcript answer x :=
    transcript_close fun failure h => by rw [hresult] at h; cases h
  have hfalters : Job.Falters answer (job.bind close) x := by
    rw [Job.Falters, htranscript]
    exact hsensitive.mp hresult
  cases hends with
  | panicked hprinted =>
    constructor
    · exact Or.inr (Or.inr ⟨hstatus, hfalters⟩)
    · intro _ _ h
      rw [hstatus] at h
      cases h
    · rintro hjson (houtput | h)
      · rw [picked_close Action.printed? fun _ _ => rfl]
        exact hprinted hjson houtput
      · rw [hstatus] at h
        cases h
    · exact fun h => absurd hstatus h
    · rw [htranscript, picked_close Action.removed? fun _ _ => rfl]
      exact hclears.last

end Close

/-- Every invocation with a valid command line exits so, whatever its actions are answered. -/
theorem exits_runProgram (isUnicode : Path → Bool)
    (answer : σ → (action : Action) → action.Answer × σ) {arguments : List String}
    {environment : String → Option String} {given : Given}
    (hgiven : Given.ofArguments arguments environment = .ok given) (x : σ) :
  Exits isUnicode answer (Settings.ofGiven given) (runProgram arguments environment isUnicode) x
  := by
  rw [runProgram_eq isUnicode hgiven]
  have hends := ends_run isUnicode answer (Settings.ofGiven given) x
  have hsensitive := sensitive_run answer isUnicode (Settings.ofGiven given) x
  rcases hresult : ((run isUnicode (Settings.ofGiven given)).run answer x).1 with
    (failure | _) | ⟨⟨⟩⟩
  · exact exits_close_of_failed hresult (hresult ▸ hends) (clears_run isUnicode _ x)
  · exact exits_close_of_panicked hresult (hresult ▸ hends) (clears_run isUnicode _ x) hsensitive
  · exact exits_close_of_finished hresult (hresult ▸ hends) (clears_run isUnicode _ x) hsensitive

/-- A document is compiled and copied, and the directory it was made in is removed. -/
theorem exits_runProgram_copied :
  let compiler : Programs := fun _ cwd T =>
    match T.write cwd ⟨"tmp/texfuse-XXXXXX/merged.pdf"⟩ (Text.utf8 "%PDF".toList) with
    | .ok T => (.ok (.exited 0), T)
    | .error cause => (.error cause, T)
  let answer := Machine.answer { programs := compiler }
  let source : Node := .file 0 newFileMode (Text.utf8 "Hello".toList)
  let m : Machine := {
    tree := { nodes := [(["a.tex"], source), (["tmp"], .dir newDirMode)], nextSerial := 1 } }
  let given : Given := [(.latex, "a.tex"), (.output, "out.pdf")]
  let job := runProgram ["--latex", "a.tex", "-o", "out.pdf"] fun _ => none
  Given.ofArguments ["--latex", "a.tex", "-o", "out.pdf"] (fun _ => none) = .ok given
    ∧ Exits (fun _ => true) answer (Settings.ofGiven given) job m
    ∧ (∃ r, Accomplishes (fun _ => true) answer (Settings.ofGiven given) m r)
    ∧ Job.picked answer Action.printed? job m = []
    ∧ Job.picked answer Action.removed? job m = [⟨"/tmp/texfuse-XXXXXX"⟩]
  := by
  intro compiler answer source m given job
  have hgiven : Given.ofArguments ["--latex", "a.tex", "-o", "out.pdf"] (fun _ => none)
      = .ok given := by decide +kernel
  have hexits := exits_runProgram (fun _ => true) answer hgiven m
  have hstatus : (job.run answer m).1 = 0 := by decide +kernel
  refine ⟨hgiven, hexits, ?_, ?_, ?_⟩
  · rcases hexits.status with ⟨-, h, -⟩ | ⟨h, -⟩ | ⟨h, -⟩
    · exact h
    · rw [hstatus] at h
      cases h
    · rw [hstatus] at h
      cases h
  · exact hexits.nothing rfl (Or.inl (Option.some_ne_none _))
  · rw [hexits.removed (by rw [hstatus]; decide), hstatus]
    decide +kernel

/-- An invocation with a status of zero accomplishes what it is to do. -/
theorem accomplishes_of_status {arguments : List String} {environment : String → Option String}
    {given : Given} (hgiven : Given.ofArguments arguments environment = .ok given) {x : σ}
    (h : ((runProgram arguments environment isUnicode).run answer x).1 = 0) :
  ∃ r, Accomplishes isUnicode answer (Settings.ofGiven given) x r
  := by
  have hends := ends_run isUnicode answer (Settings.ofGiven given) x
  rw [runProgram_eq isUnicode hgiven, Dialogue.run_bind] at h
  generalize ((run isUnicode (Settings.ofGiven given)).run answer x).1 = result at hends h
  cases hends with
  | failed | panicked => cases h
  | finished hsuccess => exact ⟨_, hsuccess⟩

/-- A compiler that makes the artifact in its directory. -/
def making : Programs := fun i cwd T =>
  match T.write cwd ((i.directory.getD ⟨"."⟩).join "merged.pdf") (Text.utf8 "%PDF".toList) with
  | .ok T => (.ok (.exited 0), T)
  | .error cause => (.error cause, T)

/-- An invocation that compiles its document still fails if a path in its structured result is not
Unicode, and one that asks for the version succeeds without a source. -/
theorem status_of_not_unicode :
  let isUnicode (path : Path) := !path.text.toList.contains '\ufffd'
  let arguments := ["--json", "--latex", "a.tex", "--work-dir", "w\ufffd"]
  let given : Given := [(.json, "true"), (.latex, "a.tex"), (.workDir, "w\ufffd")]
  let answer := Machine.answer { programs := making }
  let source : Node := .file 0 newFileMode (Text.utf8 "Hello".toList)
  let m : Machine := { tree := { nodes := [(["a.tex"], source)], nextSerial := 1 } }
  Given.ofArguments arguments (fun _ => none) = .ok given
    ∧ (∃ r, Accomplishes (fun _ => true) answer (Settings.ofGiven given) m r)
    ∧ ((runProgram arguments (fun _ => none) isUnicode).run answer m).1 = 1
    ∧ ((runProgram ["--version"] fun _ => none).run answer m).1 = 0
  := by
  intro isUnicode arguments given answer source m
  have hgiven : Given.ofArguments arguments (fun _ => none) = .ok given := by decide +kernel
  have hstatus : ((runProgram arguments fun _ => none).run answer m).1 = 0 := by decide +kernel
  exact ⟨hgiven, accomplishes_of_status hgiven hstatus, by decide +kernel, by decide +kernel⟩

end CommandLine

end Bindery
