import Bindery.Proofs.CommandLine.Ending

/-!
# What a run points at

An invocation `PointsAt` a path if it prints that as the place of the artifact, in a structured
result, or as the place where to look.  Whatever is there at that moment `Lasts` to the end
(`lasts_runProgram`), unless the invocation removes its temporary directory after it has reported
its result: then the log that it names is gone (`log_removed`).
-/

namespace Bindery

open Dialogue (Only only_done only_question)

namespace Machine

/-- A path names something. -/
def Has (m : Machine) (path : Path) : Prop :=
  m.tree.exists? m.cwd path = true

instance (m : Machine) (path : Path) : Decidable (m.Has path) :=
  inferInstanceAs (Decidable (_ = true))

end Machine

namespace CommandLine

variable {α β : Type} {isUnicode : Path → Bool} {surroundings : Surroundings} {s : Settings}
  {c : Config} {sources : List SourceFile}

/-! ### Pointing -/

/-- The action points at a path. -/
inductive PointsAt : Action → Path → Prop where
  /-- The artifact is there. -/
  | artifact (path : Path) : PointsAt (.print (path.text ++ "\n")) path
  /-- The path is in a structured result. -/
  | result {r : Report} {path : Path} (h : path ∈ r.paths) :
      PointsAt (.print (r.toJson.pretty ++ "\n")) path
  /-- The log tells which files were missing. -/
  | warning (path : Path) :
      PointsAt (.complain (remark ("missing optional files, see " ++ path.text) ++ "\n")) path
  /-- The working directory is kept. -/
  | kept (path : Path) :
      PointsAt (.complain (Style.dim.apply ("Working directory: " ++ path.text) ++ "\n")) path
  /-- The log tells why the compiler failed. -/
  | failure {f : Failure} {path : Path} {before after : String}
      (h : before ++ "Check log: " ++ path.text ++ after ∈ f.causes) :
      PointsAt (.complain f.report) path

/-- The action points at nothing. -/
def Mute (action : Action) : Prop :=
  ∀ path, ¬ PointsAt action path

/-- Only what is told points at something. -/
theorem mute_of_not_isTelling {action : Action} (h : ¬ action.IsTelling) :
  Mute action
  := by
  rintro path (_ | _ | _ | _ | _) <;> exact h trivial

theorem mute_makeTemporary :
  Mute .makeTemporary
  := mute_of_not_isTelling not_false

theorem mute_removeAll (directory : Path) :
  Mute (.removeAll directory)
  := mute_of_not_isTelling not_false

/-- A text in a style begins with the sequence of the style. -/
theorem toList_apply (style : Style) (text : String) :
  (style.apply text).toList
    = '\x1b' :: '[' :: ((toString style.number).toList ++ 'm' :: (text ++ Style.sequence 0).toList)
  := by
  simp [Style.apply, Style.sequence, String.toList_append]

/-- A verdict begins with a colour. -/
theorem take_verdict (success : Bool) (failed : Nat) :
  (Progress.verdict success failed ++ "\n").toList.take 3 = ['\x1b', '[', '3']
  := by
  unfold Progress.verdict
  split
  · rfl
  · split
    · rfl
    · simp only [String.toList_append, toList_apply]
      rfl

theorem mute_of_isVerdict {action : Action} (h : Progress.IsVerdict action) :
  Mute action
  := by
  obtain ⟨success, failed, rfl⟩ := h
  intro path hpoints
  generalize htext : Progress.verdict success failed ++ "\n" = text at hpoints
  have hbegin : text.toList.take 3 = ['\x1b', '[', '3'] := htext ▸ take_verdict success failed
  -- Each of the lines that point at something begins in another way.
  cases hpoints with
  | warning =>
    simp only [remark, String.toList_append] at hbegin
    cases hbegin
  | kept =>
    simp only [String.toList_append, toList_apply] at hbegin
    cases hbegin
  | failure =>
    simp only [Failure.report, String.toList_append] at hbegin
    cases hbegin

/-! ### Lasting -/

/-- What is there when a job points at it is there when the job ends. -/
def Lasts (surroundings : Surroundings) (job : Job α) (m : Machine) : Prop :=
  ∀ action m' path, (action, m') ∈ job.moments (Machine.answer surroundings) m →
    PointsAt action path → m'.Has path → (Machine.run surroundings job m).2.Has path

/-- Telling something changes no file. -/
theorem has_run_of_telling {job : Job α} (h : job.Only Action.IsTelling) (m : Machine)
    (path : Path) :
  (Machine.run surroundings job m).2.Has path ↔ m.Has path
  := by
  induction job generalizing m with
  | done a => rfl
  | ask action next ih =>
    refine (ih _ (h.2 _) _).trans ?_
    cases action with
    | print | complain => rfl
    | _ => cases h.1

theorem lasts_of_mute {job : Job α} (h : job.Only Mute) (m : Machine) :
  Lasts surroundings job m
  := fun action m' path hmoment hpoints _ =>
    absurd hpoints (h.moments _ m (action, m') hmoment path)

theorem lasts_of_telling {job : Job α} (h : job.Only Action.IsTelling) (m : Machine) :
  Lasts surroundings job m
  := by
  induction job generalizing m with
  | done a => exact lasts_of_mute (only_done a) m
  | ask action next ih =>
    intro action' m' path hmoment hpoints hhas
    rcases List.mem_cons.mp hmoment with hfirst | hlater
    · cases hfirst
      exact (has_run_of_telling h m path).mpr hhas
    · exact ih _ (h.2 _) _ action' m' path hlater hpoints hhas

/-- Nothing that a machine is to print falters. -/
theorem not_falters (job : Job α) (m : Machine) :
  ¬ Job.Falters (Machine.answer surroundings) job m
  := by
  rintro ⟨entry, hentry, huntold⟩
  rw [Dialogue.transcript_eq_map_moments] at hentry
  obtain ⟨⟨action, m'⟩, -, rfl⟩ := List.mem_map.mp hentry
  cases action with
  | print | complain => cases huntold
  | _ => exact huntold

/-- What is pointed at lasts while other things are told. -/
theorem Lasts.bind_telling {job : Job α} {f : α → Job β} {m : Machine}
    (h : Lasts surroundings job m)
    (hf : (f (Machine.run surroundings job m).1).Only Action.IsTelling) :
  Lasts surroundings (job.bind f) m
  := by
  intro action m' path hmoment hpoints hhas
  rw [Dialogue.moments_bind] at hmoment
  rw [Machine.run, Dialogue.run_bind]
  rcases List.mem_append.mp hmoment with hfirst | hlater
  · exact (has_run_of_telling hf _ path).mpr (h action m' path hfirst hpoints hhas)
  · exact lasts_of_telling hf _ action m' path hlater hpoints hhas

/-- Before anything is pointed at, anything may change. -/
theorem lasts_bind_of_mute {job : Job α} {f : α → Job β} {m : Machine} (h : job.Only Mute)
    (hf : Lasts surroundings (f (Machine.run surroundings job m).1)
      (Machine.run surroundings job m).2) :
  Lasts surroundings (job.bind f) m
  := by
  intro action m' path hmoment hpoints hhas
  rw [Dialogue.moments_bind] at hmoment
  rw [Machine.run, Dialogue.run_bind]
  rcases List.mem_append.mp hmoment with hfirst | hlater
  · cases h.moments _ m (action, m') hfirst path hpoints
  · exact hf action m' path hlater hpoints hhas

theorem lasts_ask {action : Action} {next : action.Answer → Job α} {m : Machine}
    (h : Mute action)
    (hnext : Lasts surroundings (next (Machine.answer surroundings m action).1)
      (Machine.answer surroundings m action).2) :
  Lasts surroundings (.ask action next) m
  := lasts_bind_of_mute (f := next) (only_question h) hnext

/-! ### The parts of a run -/

theorem mute_deliverResult (c : Config) (output : Path) (result : Except RequestError Report) :
  (Request.deliverResult c output result).Only Mute
  := Request.only_deliverResult (fun _ => mute_of_not_isTelling not_false)
    (fun _ _ => mute_of_not_isTelling not_false) (fun _ _ => mute_of_not_isTelling not_false) c
    output result

theorem telling_reportResult (s : Settings) (r : Report) (closing : List String) :
  (reportResult isUnicode s r closing).Only Action.IsTelling
  := only_reportResult isUnicode (fun _ _ => trivial) (fun _ => trivial) r closing

/-- A run that is asked to be quiet reports no result in lines. -/
theorem reportResult_of_quiet (hjson : s.json = false) (hquiet : s.quiet = true) (r : Report)
    (closing : List String) :
  reportResult isUnicode s r closing = .done (.ok ())
  := by
  unfold reportResult
  rw [hjson, hquiet]
  rfl

theorem lasts_conclude (result : Except RequestError Report) (m : Machine) :
  Lasts surroundings (conclude isUnicode s c result) m
  := by
  unfold conclude
  split
  · apply lasts_bind_of_mute (mute_deliverResult c _ result)
    apply lasts_of_telling
    split
    · exact only_done _
    · exact telling_reportResult s _ _
  · apply lasts_of_telling
    split
    · exact only_done _
    · refine (telling_reportResult s _ []).andThen fun _ => ?_
      split
      · exact only_done _
      · split
        · exact only_done _
        · exact ⟨trivial, fun _ => only_done _⟩

theorem mute_request (hc : c.Fits) (s : Settings) (sources : List SourceFile) (directory : Path) :
  (request s c sources directory).Only Mute
  := by
  apply (only_request hc s sources directory).mono
  rintro action (h | h)
  · exact mute_of_not_isTelling h.not_isTelling
  · exact mute_of_isVerdict h

theorem lasts_runIn (hc : c.Fits) (directory : Path) (m : Machine) :
  Lasts surroundings (runIn isUnicode s c sources directory) m
  := by
  rw [runIn_eq]
  apply lasts_bind_of_mute (mute_request hc s sources directory)
  split
  · exact lasts_of_mute (only_done _) _
  · exact lasts_conclude _ _

/-- A directory that is not removed is told about, or not. -/
theorem telling_leave {result : Except Halt Unit} (h : isDropped s result = false)
    (directory : Path) :
  (leave s directory result).Only Action.IsTelling
  := by
  unfold leave
  rw [h, if_neg Bool.false_ne_true]
  split
  · exact only_done _
  · exact Only.andThen ⟨trivial, fun _ => only_done _⟩ fun _ => only_done _

theorem lasts_runInTemporary (hc : c.Fits) {m : Machine}
    (h : isDropped s (Machine.run surroundings (runInTemporary isUnicode s c sources) m).1
      = false) :
  Lasts surroundings (runInTemporary isUnicode s c sources) m
  := by
  rcases hmade : Machine.answer surroundings m .makeTemporary with ⟨cause | directory, z⟩
  · rw [runInTemporary_eq]
    apply lasts_ask mute_makeTemporary
    rw [hmade]
    exact lasts_of_mute (only_done _) z
  · rcases hrun : Machine.run surroundings (runIn isUnicode s c sources directory) z with
      ⟨result, w⟩
    rw [Machine.run, run_runInTemporary hmade hrun] at h
    have hkept : isDropped s result = false := by
      rcases run_leave s directory result w with hsame | hpanicked
      · rwa [hsame] at h
      · rw [hpanicked] at h
        cases h
    rw [runInTemporary_eq]
    apply lasts_ask mute_makeTemporary
    rw [hmade]
    apply (lasts_runIn hc directory z).bind_telling
    rw [hrun]
    exact telling_leave hkept directory

theorem lasts_run {s : Settings} {m : Machine}
    (h : s.workDir ≠ none ∨ isDropped s (Machine.run surroundings (run isUnicode s) m).1 = false) :
  Lasts surroundings (run isUnicode s) m
  := by
  have hread : (readSources s.sources).Only Mute :=
    (only_work_readSources s.sources).mono fun _ h => mute_of_not_isTelling h.not_isTelling
  rw [run, Dialogue.andThen, Machine.run, Dialogue.run_bind] at h
  apply lasts_bind_of_mute hread
  revert h
  rw [Machine.run]
  split
  · exact fun _ => lasts_of_mute (only_done _) _
  · unfold proceed
    split
    · exact fun _ => lasts_of_mute (only_done _) _
    · split
      · exact fun _ => lasts_of_mute (only_done _) _
      · next hconfig =>
        have hc := Settings.fits_of_config hconfig
        -- Only in a directory of its own does a run remove anything after it has reported.
        unfold runPlaced
        split
        · exact fun _ => lasts_runIn hc _ _
        · next hplace =>
          rintro (h | h)
          · exact absurd hplace h
          · exact lasts_runInTemporary hc h

/-! ### Quiet runs -/

/-- A run that is asked to be quiet points at nothing if its artifact is copied. -/
theorem mute_conclude_of_quiet (houtput : s.output ≠ none) (hjson : s.json = false)
    (hquiet : s.quiet = true) (result : Except RequestError Report) :
  (conclude isUnicode s c result).Only Mute
  := by
  unfold conclude
  split
  · refine (mute_deliverResult c _ result).bind ?_
    rintro (e | r)
    · exact only_done _
    · dsimp only
      rw [reportResult_of_quiet hjson hquiet]
      exact only_done _
  · next hnone => exact absurd hnone houtput

theorem mute_run_of_quiet (houtput : s.output ≠ none) (hjson : s.json = false)
    (hquiet : s.quiet = true) :
  (run isUnicode s).Only Mute
  := by
  have hin {c : Config} (hc : c.Fits) (sources : List SourceFile) (directory : Path) :
      (runIn isUnicode s c sources directory).Only Mute := by
    rw [runIn_eq]
    exact (mute_request hc s sources directory).andThen
      (mute_conclude_of_quiet houtput hjson hquiet)
  have hleave (directory : Path) (result : Except Halt Unit) :
      (leave s directory result).Only Mute := by
    unfold leave
    rw [hquiet]
    split
    · exact ⟨mute_removeAll directory, fun _ => only_done _⟩
    · exact only_done _
  apply ((only_work_readSources s.sources).mono fun _ h =>
    mute_of_not_isTelling h.not_isTelling).andThen
  intro sources
  unfold proceed
  split
  · exact only_done _
  · split
    · exact only_done _
    · next c hconfig =>
      have hc := Settings.fits_of_config hconfig
      unfold runPlaced
      split
      · exact hin hc sources _
      · rw [runInTemporary_eq]
        refine ⟨mute_makeTemporary, ?_⟩
        rintro (cause | directory)
        · exact only_done _
        · exact (hin hc sources directory).bind (hleave directory)

/-! ### Whole runs -/

/-- What an invocation points at is still there in the end, unless it has reported its result and
removes the temporary directory in which it has worked. -/
theorem lasts_runProgram {arguments : List String} {environment : String → Option String}
    {given : Given} (hgiven : Given.ofArguments arguments environment = .ok given)
    (isUnicode : Path → Bool) (surroundings : Surroundings) (m : Machine)
    (hkept : (Settings.ofGiven given).workDir ≠ none ∨ (Settings.ofGiven given).output = none
      ∨ (Machine.run surroundings (runProgram arguments environment isUnicode) m).1 ≠ 0
      ∨ (Settings.ofGiven given).json = false ∧ (Settings.ofGiven given).quiet = true) :
  Lasts surroundings (runProgram arguments environment isUnicode) m
  := by
  rw [runProgram_eq isUnicode hgiven] at hkept ⊢
  generalize Settings.ofGiven given = s at hkept ⊢
  apply Lasts.bind_telling
  case hf => exact only_close (fun _ => trivial) _
  have hsensitive := sensitive_run (Machine.answer surroundings) isUnicode s m
  rcases hresult : (Machine.run surroundings (run isUnicode s) m).1 with (failure | _) | ⟨⟨⟩⟩
  · exact lasts_run (Or.inr (by rw [hresult]; rfl))
  · exact absurd (hsensitive.mp hresult) (not_falters _ m)
  · have hstatus : (Machine.run surroundings ((run isUnicode s).bind close) m).1 = 0 := by
      rw [Machine.run, Dialogue.run_bind]
      rw [Machine.run] at hresult
      rw [hresult]
      rfl
    have hcopied (houtput : s.output = none) : Lasts surroundings (run isUnicode s) m :=
      lasts_run (Or.inr (by rw [hresult, isDropped, houtput]; rfl))
    rcases hkept with hplaced | houtput | hfailed | ⟨hjson, hquiet⟩
    · exact lasts_run (Or.inl hplaced)
    · exact hcopied houtput
    · exact absurd hstatus hfailed
    · by_cases houtput : s.output = none
      · exact hcopied houtput
      · exact lasts_of_mute (mute_run_of_quiet houtput hjson hquiet) m

/-- A compiler that makes the artifact, but misses a file. -/
def wanting : Programs := fun i cwd T =>
  match T.write cwd ((i.directory.getD ⟨"."⟩).join "merged.pdf") (Text.utf8 "%PDF".toList) with
  | .ok T => (.ok (.exited 1), i.output.elim T fun log =>
    T.append log (Text.utf8 (Compile.missingFileSign ++ "logo.png' not found.").toList))
  | .error cause => (.error cause, T)

/-- Where there is a document to compile. -/
def desk : Machine where
  tree := {
    nodes := [
      (["a.tex"], .file 0 newFileMode (Text.utf8 "Hello".toList)), (["tmp"], .dir newDirMode)]
    nextSerial := 1 }

/-- In a working directory of its own the log is there to be looked at. -/
theorem lasts_runProgram_workDir :
  let arguments := ["--latex", "a.tex", "-o", "out.pdf", "--work-dir", "w"]
  let given : Given := [(.latex, "a.tex"), (.output, "out.pdf"), (.workDir, "w")]
  let surroundings : Surroundings := { programs := wanting }
  let job := runProgram arguments fun _ => none
  let log : Path := ⟨"w/latex_output.log"⟩
  Given.ofArguments arguments (fun _ => none) = .ok given
    ∧ Lasts surroundings job desk
    ∧ ∃ action m', (action, m') ∈ job.moments (Machine.answer surroundings) desk
      ∧ PointsAt action log ∧ m'.Has log ∧ (Machine.run surroundings job desk).2.Has log
  := by
  intro arguments given surroundings job log
  have hgiven : Given.ofArguments arguments (fun _ => none) = .ok given := by decide +kernel
  have hlasts : Lasts surroundings job desk :=
    lasts_runProgram hgiven (fun _ => true) surroundings desk (Or.inl (Option.some_ne_none _))
  have htold : ∃ entry ∈ job.moments (Machine.answer surroundings) desk,
      entry.1 = .complain (remark ("missing optional files, see " ++ log.text) ++ "\n")
        ∧ entry.2.Has log := by decide +kernel
  obtain ⟨⟨_, m'⟩, hmoment, rfl, hhas⟩ := htold
  have hpoints := PointsAt.warning log
  exact ⟨hgiven, hlasts, _, m', hmoment, hpoints, hhas, hlasts _ m' log hmoment hpoints hhas⟩

/-- The log that tells which files were missing is removed with the temporary directory. -/
theorem log_removed :
  let arguments := ["--latex", "a.tex", "-o", "out.pdf"]
  let surroundings : Surroundings := { programs := wanting }
  let job := runProgram arguments fun _ => none
  let log : Path := ⟨"/tmp/texfuse-XXXXXX/latex_output.log"⟩
  (Given.ofArguments arguments (fun _ => none)).toOption.isSome
    ∧ ∃ action m', (action, m') ∈ job.moments (Machine.answer surroundings) desk
      ∧ PointsAt action log ∧ m'.Has log ∧ ¬ (Machine.run surroundings job desk).2.Has log
  := by
  intro arguments surroundings job log
  have htold : ∃ entry ∈ job.moments (Machine.answer surroundings) desk,
      entry.1 = .complain (remark ("missing optional files, see " ++ log.text) ++ "\n")
        ∧ entry.2.Has log := by decide +kernel
  obtain ⟨⟨_, m'⟩, hmoment, rfl, hhas⟩ := htold
  have hgiven : (Given.ofArguments arguments (fun _ => none)).toOption.isSome = true := by
    decide +kernel
  have hgone : ¬ (Machine.run surroundings job desk).2.Has log := by decide +kernel
  exact ⟨hgiven, _, m', hmoment, .warning log, hhas, hgone⟩

end CommandLine

end Bindery
