import Bindery.Proofs.Compile.Abreast
import Bindery.Proofs.Compile.Actions
import Bindery.Proofs.Unaffected

/-!
# Compiling beside one more file

Compiling is unaffected by a file that the compiler ignores (`Ignores`), if neither the log nor the
artifact leads to its location or through it (`unaffected_compile`).  The only part of a compilation
that differs is the handle of the log, because the trees may number their files differently
(`parallel_openEnd`).
-/

namespace Bindery.Compile

open Machine (run run_bind Unaffected Parallel unaffected_done unaffected_act unaffected_of_only
  unaffected_remove)

/-- Whether the file is there makes no difference to what the compiler does while it prints to the
log, and the compiler leaves the file as it is. -/
def Ignores (p : Programs) (cwd : Location) (t : Task) (l : Location) (bytes : Bytes) : Prop :=
  ∀ {T T' : Tree} {log log' : Handle}, Tree.Beside l bytes T T' →
    T.serialAt (t.logPlace cwd) = some log → T'.serialAt (t.logPlace cwd) = some log' →
    (p (t.invocation log') cwd T').1 = (p (t.invocation log) cwd T).1
      ∧ Tree.Beside l bytes (p (t.invocation log) cwd T).2 (p (t.invocation log') cwd T').2

variable {α : Type} {s : Surroundings} {cwd l : Location} {bytes : Bytes} {m m' : Machine}
  {t : Task}

/-! ### Printing to the log -/

/-- Opening a file fails on two machines alike, or what is done with its handles decides. -/
theorem parallel_openEnd {path : Path} {f : Except OsError Handle → Job α}
    (hpath : path.Avoids m.cwd l) (h : m.Beside l bytes m')
    (hfail : ∀ e, Unaffected s m.cwd l bytes (f (.error e)))
    (hopen : ∀ {M M' : Machine} {log log' : Handle}, M.cwd = m.cwd → M.Beside l bytes M' →
      M.tree.serialAt (path.place m.cwd).location = some log →
      M'.tree.serialAt (path.place m.cwd).location = some log' →
      Parallel l bytes M M' (run s (f (.ok log)) M) (run s (f (.ok log')) M')) :
  Parallel l bytes m m' (run s ((act (.openEnd path)).bind f) m)
    (run s ((act (.openEnd path)).bind f) m')
  := by
  have hanswer (m : Machine) :
      run s (act (.openEnd path)) m = Machine.answer s m (.openEnd path) := rfl
  rw [run_bind, run_bind, hanswer, hanswer, Machine.answer_openEnd, Machine.answer_openEnd]
  rcases h.tree.openFile hpath false newFileMode with
    ⟨e, he, he'⟩ | ⟨log, T, log', T', hT, hT', hlog, hlog', hopened⟩
  · rw [← h.cwd] at he'
    rw [he, he']
    exact hfail e m m' rfl h
  · rw [← h.cwd] at hT'
    rw [hT, hT']
    have hrest := hopen (M := { m with tree := T }) rfl (h.changed hopened) hlog hlog'
    exact ⟨hrest.value, hrest.cwd, hrest.beside, hrest.events⟩

/-- Printing to the log gives the same on both machines. -/
theorem parallel_append {log log' : Handle} (h : m.Beside l bytes m')
    (hne : t.logPlace m.cwd ≠ l) (hlog : m.tree.serialAt (t.logPlace m.cwd) = some log)
    (hlog' : m'.tree.serialAt (t.logPlace m.cwd) = some log') (line : Bytes) :
  Parallel l bytes m m' (run s (act (.append log line)) m) (run s (act (.append log' line)) m')
  := h.parallel (Except.ok ()) (h.tree.append hne hlog hlog' line)

/-- A compiler that ignores the file does the same on both machines. -/
theorem parallel_launch {log log' : Handle} (hp : Ignores s.programs m.cwd t l bytes)
    (h : m.Beside l bytes m') (hlog : m.tree.serialAt (t.logPlace m.cwd) = some log)
    (hlog' : m'.tree.serialAt (t.logPlace m.cwd) = some log') :
  Parallel l bytes m m' (run s (act (.launch (t.invocation log))) m)
    (run s (act (.launch (t.invocation log'))) m')
  := by
  have hlaunch (m : Machine) (invocation : Invocation) :
      run s (act (.launch invocation)) m = ((s.programs invocation m.cwd m.tree).1,
        { m with tree := (s.programs invocation m.cwd m.tree).2 }) := rfl
  obtain ⟨hresult, htree⟩ := hp h.tree hlog hlog'
  rw [hlaunch, hlaunch, h.cwd, hresult]
  have hrest := h.parallel (s.programs (t.invocation log) m.cwd m.tree).1 htree
  rw [h.cwd] at hrest
  exact hrest

/-! ### The steps -/

theorem unaffected_removeStale (hartifact : t.artifact.Avoids cwd l) :
  Unaffected s cwd l bytes (removeStale t.artifact)
  := unaffected_of_only (only_removeStale (unaffected_remove hartifact))

theorem unaffected_logLength {log : Path} (hlog : log.Avoids cwd l) :
  Unaffected s cwd l bytes (logLength log)
  := unaffected_of_only (only_logLength (unaffected_act hlog))

theorem unaffected_announce (event : Event) :
  Unaffected s cwd l bytes (t.announce event)
  := unaffected_of_only (only_taskAnnounce t (unaffected_act trivial))

theorem unaffected_sign (hlog : t.log.Avoids cwd l) (e : Ending) :
  Unaffected s cwd l bytes (sign t e)
  := by
  unfold sign
  split
  · exact unaffected_done _
  · rintro m m' rfl h
    apply parallel_openEnd hlog h
    · intro cause
      exact unaffected_done _
    · intro M M' log log' hcwd hbeside hserial hserial'
      rw [← hcwd] at hlog hserial hserial'
      have happend := parallel_append (s := s) hbeside hlog.1 hserial hserial'
        (Text.utf8 (failureLine t.config.program e.code?).toList)
      exact happend.bind fun _ _ _ _ hrest => Machine.parallel_done hrest _

theorem unaffected_conclude (hlog : t.log.Avoids cwd l) (pass : Nat)
    (result : Except OsError Ending) :
  Unaffected s cwd l bytes (conclude t pass result)
  := by
  rcases result with cause | (code | _ | _ | cause)
  · exact unaffected_done _
  · exact unaffected_sign hlog _
  · exact unaffected_sign hlog _
  · exact unaffected_done _
  · exact unaffected_done _

variable (hlog : t.log.Avoids cwd l) (hp : Ignores s.programs cwd t l bytes)

include hlog hp

theorem unaffected_runPass (pass : Nat) :
  Unaffected s cwd l bytes (runPass t pass)
  := by
  rintro m m' rfl h
  rw [runPass_eq]
  apply parallel_openEnd hlog h
  · intro cause
    exact unaffected_done _
  · intro M M' log log' hcwd hbeside hserial hserial'
    rw [← hcwd] at hlog hserial hserial' hp
    apply (parallel_launch hp hbeside hserial hserial').bind
    intro result N N' hN hrest
    exact unaffected_conclude hlog pass result N N' hN hrest

theorem unaffected_runPasses (ran : List Pass) (lastStart : Nat) (passes : List Nat) :
  Unaffected s cwd l bytes (runPasses t ran lastStart passes)
  := by
  induction passes generalizing ran lastStart with
  | nil => exact unaffected_done _
  | cons pass passes ih =>
    rw [runPasses_cons]
    have hlength : Unaffected s cwd l bytes
        (if passes.isEmpty then logLength t.log else .done lastStart) := by
      split
      · exact unaffected_logLength hlog
      · exact unaffected_done _
    refine hlength.bind fun lastStart => (unaffected_announce _).bind fun _ =>
      (unaffected_runPass hlog hp pass).bind ?_
    rintro (fault | exitCode)
    · exact unaffected_done _
    · exact (unaffected_announce _).bind fun _ => ih _ _

theorem unaffected_runAll (hartifact : t.artifact.Avoids cwd l) :
  Unaffected s cwd l bytes (runAll t)
  := by
  refine (unaffected_removeStale hartifact).bind ?_
  rintro (fault | _)
  · exact unaffected_done _
  · exact unaffected_runPasses hlog hp [] 0 _

omit hp

theorem unaffected_judge (hartifact : t.artifact.Avoids cwd l) (lastStart : Nat)
    (passes : List Pass) :
  Unaffected s cwd l bytes (judge t lastStart passes)
  := by
  apply unaffected_of_only
  apply only_judge
  · exact unaffected_act hlog
  · exact unaffected_act hartifact

omit hlog in
theorem unaffected_fail {log : Path} (hlog : log.Avoids cwd l) (fault : CompileFault)
    (passes : List Pass) :
  Unaffected s cwd l bytes (fail log fault passes)
  := by
  apply unaffected_of_only
  apply only_fail
  exact unaffected_act hlog

omit hlog in
/-- Compiling is unaffected by a file that the compiler ignores, and to which neither the log nor
the artifact leads. -/
theorem unaffected_compile {c : CompilerConfig} {announces : Bool} {document directory : Path}
    (hlog : (logIn c directory).Avoids cwd l)
    (htask : ∀ fileName, document.fileName? = some fileName →
      (Task.artifact { config := c, directory, fileName, announces }).Avoids cwd l)
    (hp : ∀ fileName, document.fileName? = some fileName →
      Ignores s.programs cwd { config := c, directory, fileName, announces } l bytes) :
  Unaffected s cwd l bytes (compile c announces document directory)
  := by
  unfold compile
  split
  · exact unaffected_fail hlog _ _
  · next fileName hname =>
    let t : Task := { config := c, directory, fileName, announces }
    have htlog : t.log.Avoids cwd l := hlog
    have hartifact : t.artifact.Avoids cwd l := htask fileName hname
    refine (unaffected_runAll htlog (hp fileName hname) hartifact).bind ?_
    rintro ⟨fault | lastStart, passes⟩
    · exact unaffected_fail htlog fault passes
    · exact unaffected_judge htlog hartifact lastStart passes

end Bindery.Compile
