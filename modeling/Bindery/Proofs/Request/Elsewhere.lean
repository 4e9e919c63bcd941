import Bindery.Proofs.Request.Delivery
import Bindery.Proofs.Request.Homely

/-!
# What a request leaves alone

A request touches nothing but files in its working directory (`path_of_touch`), and `processToFile`
nothing but these, its output, and the temporary file that it copies the artifact to.  So every
other location (`IsElsewhere`) shows at all times what it showed at first, or a directory that the
call has made where nothing was (`Leaves.elsewhere`).  The temporary file is not touched before
there is an artifact (`Leaves.untried`), and is gone once the call has succeeded, wherever the
output is (`Leaves.gone`).  Its name depends on nothing but the path of the output, so a file that
has the name already is lost (`sibling_of_processToFile`).
-/

namespace Bindery

open Job (Homely touches touches_ask)
open Machine (Atomic Passes answerAmid answerAmid_copy atomic_error atomic_rename cwd_runAmid
  keeps_of_copy keeps_of_tidy passes_bind passes_end runAmid)

/-! ### Touches -/

section Touches

variable {σ α : Type} (answer : σ → (action : Action) → action.Answer × σ)

theorem Action.IsHomely.path_of_touch {w : Path} {action : Action} (h : action.IsHomely w) :
  ∀ touch ∈ action.touches, ∃ name, Path.IsName name ∧ touch.path = w.join name
  := by
  cases action with
  | write path bytes =>
    intro touch htouch
    rw [List.mem_singleton.mp htouch]
    exact h
  | remove path =>
    intro touch htouch
    rw [List.mem_singleton.mp htouch]
    exact h
  | stat | read | announce => exact List.forall_mem_nil _
  | _ => cases h

/-- A job that is homely, but for quiet actions, touches nothing but files in its directory. -/
theorem Job.Homely.path_of_touch {w log : Path} {job : Job α} (h : Homely Action.IsQuiet w log job)
    (hlog : ∃ name, Path.IsName name ∧ log = w.join name) (x : σ) :
  ∀ touch ∈ touches answer job x, ∃ name, Path.IsName name ∧ touch.path = w.join name
  := by
  have hopened : ∀ touch ∈ (Action.openEnd log).touches,
      ∃ name, Path.IsName name ∧ touch.path = w.join name := by
    intro touch htouch
    rw [List.mem_singleton.mp htouch]
    exact hlog
  induction h generalizing x with
  | done a => exact List.forall_mem_nil _
  | @ask action next homely rest ih =>
    rw [touches_ask, List.forall_mem_append]
    refine ⟨?_, ih _ _⟩
    rcases homely with hhomely | hquiet
    · exact hhomely.path_of_touch
    · rw [hquiet.touches_eq]
      exact List.forall_mem_nil _
  | @start next invocation more inside refused opened rest ih ih' =>
    rw [touches_ask, List.forall_mem_append]
    refine ⟨hopened, ?_⟩
    cases (answer x (.openEnd log)).1 with
    | error cause => exact ih cause _
    | ok handle =>
      rw [opened]
      exact ih' _ _
  | @extend next bytes more refused opened rest ih ih' =>
    rw [touches_ask, List.forall_mem_append]
    refine ⟨hopened, ?_⟩
    cases (answer x (.openEnd log)).1 with
    | error cause => exact ih cause _
    | ok handle =>
      rw [opened]
      exact ih' _ _

end Touches

namespace Request

variable {context : Context} {c : Config} {sources : List SourceFile} {output : Path}

/-- A request touches nothing but files in its working directory. -/
theorem path_of_touch {σ : Type} (hc : c.Fits)
    (hlook : ∀ name, (context.isAvailable name).Only Action.IsQuiet) (sources : List SourceFile)
    (answer : σ → (action : Action) → action.Answer × σ) (x : σ) :
  ∀ touch ∈ touches answer (process context c sources) x,
    ∃ name, Path.IsName name ∧ touch.path = context.directory.join name
  := by
  obtain ⟨next, hprocess, hrefused, hhomely⟩ := homely_process hc hlook sources
  rw [hprocess, touches_ask, List.forall_mem_append]
  refine ⟨List.forall_mem_nil _, ?_⟩
  cases (answer x (.makeDirs context.directory)).1 with
  | error cause =>
    rw [hrefused]
    exact List.forall_mem_nil _
  | ok made => exact hhomely.path_of_touch answer ⟨_, hc.log, rfl⟩ _

/-- The call makes directories on the way to its working directory and to the directory of the
output, and a location can be among them. -/
def MakesDir (cwd : Location) (context : Context) (output : Path) (l : Location) : Prop :=
  l ∈ context.directory.stops cwd
    ∨ ∃ parent, output.parent? = some parent ∧ l ∈ parent.stops cwd

variable {f : Fortune} {m : Machine} {w : Machine × Nat} {cwd l : Location} {way : Prop} {T₀ : Tree}

/-- Until there is an artifact, a location outside of the working directory keeps what it shows. -/
theorem keeps_process (hc : c.Fits)
    (hlook : ∀ name, (context.isAvailable name).Only Action.IsQuiet) (sources : List SourceFile)
    (hhome : m.tree.IsHome m.cwd) (hspares : ∀ n, (f n).Spares m.cwd l)
    (hinside : ∀ name, Path.IsName name →
      ((context.directory.join name).place m.cwd).location ≠ l)
    (hway : l ∈ context.directory.stops m.cwd → way) :
  ∀ T, Passes f T (process context c sources) (m, 0) → m.tree.Keeps m.cwd l way T
  := by
  apply keeps_of_tidy (tidy_process hlook c sources) _ hspares rfl _ (.refl hhome l way)
  · rintro _ rfl
    exact hway
  · intro touch htouch
    obtain ⟨name, hname, hpath⟩ := path_of_touch hc hlook sources (answerAmid f) (m, 0) touch htouch
    rw [hpath]
    exact hinside name hname

/-- Delivering the artifact keeps a location that is neither the output nor the temporary file. -/
theorem atomic_deliver_elsewhere (hc : c.Fits) (hcwd : w.1.cwd = cwd)
    (h : T₀.Keeps cwd l way w.1.tree)
    (hway : ∀ parent, output.parent? = some parent → l ∈ parent.stops cwd → way)
    (hspares : ∀ n, (f n).Spares cwd l) (houtput : l ≠ (output.place cwd).location)
    (htemporary : l ≠ ((temporary c.compiler output).place cwd).location) :
  Atomic f (deliver c.compiler (context.directory.join c.artifactName) output) w
    (T₀.Keeps cwd l way) (T₀.Retains way l)
  := by
  have hparent := keeps_makeParent hcwd h hway hspares
  have hmade := hparent _ (passes_end _ w)
  have hcwd' := (cwd_runAmid (f := f) (makeParent output) w).trans hcwd
  rw [deliver_eq]
  apply Atomic.after hparent
  apply atomic_replace_of hc hcwd' hmade.home
  · exact keeps_of_copy hcwd' hmade (hmade.copyUpTo htemporary.symm)
  · intro bytes T S _ _ hT hfile hrename
    have hsame := Tree.lookup_of_rename hrename hfile htemporary houtput
    rw [Tree.Retains, Tree.holding_of_lookup_eq hsame]
    exact hT.retains

/-- Once the artifact is delivered, the temporary file is gone. -/
theorem gone_of_deliver (hc : c.Fits) (hcwd : w.1.cwd = cwd)
    (hhome : (runAmid f (makeParent output) w).2.1.tree.IsHome cwd)
    (hok : (runAmid f (deliver c.compiler (context.directory.join c.artifactName) output) w).1
      = .ok ()) :
  (runAmid f (deliver c.compiler (context.directory.join c.artifactName) output) w).2.1.tree.holding
    ((temporary c.compiler output).place cwd).location = .nothing
  := by
  -- Until the file is renamed nothing has to hold, so that the old condition is trivial.
  have hreplace (made : Except OsError Unit) :
      Atomic f (replace c.compiler (context.directory.join c.artifactName) output made)
        (runAmid f (makeParent output) w).2 (fun _ => True)
        fun T => T.holding ((temporary c.compiler output).place cwd).location = .nothing := by
    apply atomic_replace_of hc ((cwd_runAmid _ w).trans hcwd) hhome
    · exact fun _ _ => trivial
    · intro bytes T S hne _ _ hfile hrename
      exact Tree.holding_source_of_rename hrename hfile hne
  rw [deliver_eq, Machine.runAmid_bind] at hok ⊢
  exact (hreplace _).ok () hok

/-- Unless programs remove it, the current directory is still there when the artifact is delivered:
a request only touches files, and these are not the root. -/
theorem isHome_makeParent (hc : c.Fits)
    (hlook : ∀ name, (context.isAvailable name).Only Action.IsQuiet) (sources : List SourceFile)
    (output : Path) (hhome : m.tree.IsHome m.cwd) (hspares : ∀ n, (f n).Spares m.cwd []) :
  (runAmid f (makeParent output) (runAmid f (process context c sources) (m, 0)).2).2.1.tree.IsHome
    m.cwd
  := by
  have hinside (name : String) (hname : Path.IsName name) :
      ((context.directory.join name).place m.cwd).location ≠ [] := by
    rw [Path.location_join _ _ hname]
    exact List.concat_ne_nil _ _
  have hprocessed : m.tree.Keeps m.cwd [] True
      (runAmid f (process context c sources) (m, 0)).2.1.tree :=
    keeps_process hc hlook sources hhome hspares hinside (fun _ => trivial) _ (passes_end _ _)
  have hcwd : (runAmid f (process context c sources) (m, 0)).2.1.cwd = m.cwd := cwd_runAmid _ _
  exact (keeps_makeParent hcwd hprocessed (fun _ _ _ => trivial) hspares _ (passes_end _ _)).home

/-! ### A whole request -/

theorem exists_cause_of_delivered {report : Report} {written : Except OsError Unit}
    {e : RequestError} (h : delivered report output written = .error e) :
  ∃ cause, e = .outputWriteFailed output cause
  := by
  cases written with
  | error cause => exact ⟨cause, (Except.error.inj h).symm⟩
  | ok _ => cases h

theorem eq_ok_of_delivered {report report' : Report} {written : Except OsError Unit}
    (h : delivered report output written = .ok report') :
  written = .ok ()
  := by
  cases written with
  | error cause => cases h
  | ok _ => rfl

/-- A location is outside of the working directory, it is not the output, and programs leave it as
it is. -/
structure IsElsewhere (context : Context) (output : Path) (f : Fortune) (cwd l : Location) :
    Prop where
  spared : ∀ n, (f n).Spares cwd l
  outside : ∀ name, Path.IsName name → ((context.directory.join name).place cwd).location ≠ l
  ne_output : l ≠ (output.place cwd).location

/-- What the call leaves of other files. -/
structure Leaves (context : Context) (c : Config) (sources : List SourceFile) (output : Path)
    (f : Fortune) (m : Machine) : Prop where
  /-- All but the temporary file stays as it is, but that directories can be made. -/
  elsewhere : ∀ l, IsElsewhere context output f m.cwd l →
    l ≠ ((temporary c.compiler output).place m.cwd).location →
    ∀ T, Passes f T (processToFile context c sources output) (m, 0) →
      m.tree.Retains (MakesDir m.cwd context output l) l T
  /-- The temporary file stays as it is, too, if the request fails before that is written. -/
  untried : ∀ e, (runAmid f (processToFile context c sources output) (m, 0)).1 = .error e →
    (∀ cause, e ≠ .outputWriteFailed output cause) →
    ∀ l, IsElsewhere context output f m.cwd l →
      ∀ T, Passes f T (processToFile context c sources output) (m, 0) →
        m.tree.Retains (MakesDir m.cwd context output l) l T
  /-- The temporary file is gone if the request succeeds and programs have not removed the current
  directory. -/
  gone : (∀ n, (f n).Spares m.cwd []) →
    ∀ report, (runAmid f (processToFile context c sources output) (m, 0)).1 = .ok report →
      (runAmid f (processToFile context c sources output) (m, 0)).2.1.tree.holding
        ((temporary c.compiler output).place m.cwd).location = .nothing

/-- Whatever mishaps befall it, a request that delivers its artifact leaves what is outside of its
working directory as it is, in all trees that it passes, as far as the programs do that it starts.
Only its output, its temporary file, and directories that it makes are excepted; and the temporary
file is not touched by a request that fails before it is written, and gone after one that
succeeds. -/
theorem leaves_processToFile {choices : List Config.Choice} (hbuild : Config.build choices = .ok c)
    (hlook : ∀ name, (context.isAvailable name).Only Action.IsQuiet) (sources : List SourceFile)
    (output : Path) (f : Fortune) {m : Machine} (hhome : m.tree.IsHome m.cwd) :
  Leaves context c sources output f m
  := by
  have hc := Config.fits_of_build hbuild
  have hprocess {l : Location} (hl : IsElsewhere context output f m.cwd l) :
      ∀ T, Passes f T (process context c sources) (m, 0) →
        m.tree.Keeps m.cwd l (MakesDir m.cwd context output l) T :=
    keeps_process hc hlook sources hhome hl.spared hl.outside Or.inl
  have hway (l : Location) : ∀ parent, output.parent? = some parent → l ∈ parent.stops m.cwd →
      MakesDir m.cwd context output l := fun parent hparent hstop => Or.inr ⟨parent, hparent, hstop⟩
  have hcwd : (runAmid f (process context c sources) (m, 0)).2.1.cwd = m.cwd := cwd_runAmid _ _
  have hexpects : Expects c context.directory (runAmid f (process context c sources) (m, 0)).1 :=
    (always_process hc context sources).run_fst (answerAmid f) (m, 0)
  constructor
  case elsewhere =>
    intro l hl htemporary T hpasses
    rw [processToFile_eq] at hpasses
    have hprocessed := hprocess hl _ (passes_end _ _)
    have hdeliver := atomic_deliverResult_of hprocessed hexpects
      (atomic_deliver_elsewhere hc hcwd hprocessed (hway l) hl.spared hl.ne_output htemporary)
    rcases (passes_bind _ _ _).mp hpasses with hbefore | hafter
    · exact (hprocess hl T hbefore).retains
    · rcases hdeliver.passes T hafter with hold | hnew
      · exact hold.retains
      · exact hnew
  case untried =>
    intro e herror hother l hl T hpasses
    rw [processToFile_eq] at hpasses herror
    rw [Machine.runAmid_bind] at herror
    rcases (passes_bind _ _ _).mp hpasses with hbefore | hafter
    · exact (hprocess hl T hbefore).retains
    · rcases deliverResult_cases output hexpects with ⟨e', hdone⟩ | ⟨report, hdeliver⟩
      · -- Nothing is delivered, so that the tree is the one that the request has left.
        rw [hdone] at hafter
        obtain rfl : T = (runAmid f (process context c sources) (m, 0)).2.1.tree := hafter
        exact (hprocess hl _ (passes_end _ _)).retains
      · rw [hdeliver, Machine.runAmid_bind, Machine.runAmid_done] at herror
        obtain ⟨cause, rfl⟩ := exists_cause_of_delivered herror
        exact absurd rfl (hother cause)
  case gone =>
    intro hspares report hok
    rw [processToFile_eq, Machine.runAmid_bind] at hok ⊢
    rcases deliverResult_cases output hexpects with ⟨e', hdone⟩ | ⟨report, hdeliver⟩
    · rw [hdone] at hok
      cases hok
    · rw [hdeliver, Machine.runAmid_bind, Machine.runAmid_done] at hok ⊢
      have hmade := isHome_makeParent hc hlook sources output hhome hspares
      exact gone_of_deliver hc hcwd hmade (eq_ok_of_delivered hok)

/-- Files in a directory are nowhere else. -/
theorem location_join_ne_of_dropLast {directory : Path}
    (h : l.dropLast ≠ (directory.place cwd).location) {name : String} (hname : Path.IsName name) :
  ((directory.join name).place cwd).location ≠ l
  := by
  rintro rfl
  rw [Path.location_join _ _ hname, List.dropLast_concat] at h
  exact h rfl

/-- The copy is broken off after its first byte, and a file beside the output stays as it is. -/
theorem leaves_processToFile_interrupted :
  let s : Surroundings := { programs := .writing ⟨"/w/merged.pdf"⟩ [0x25, 0x50] }
  let f : Fortune := fun n => {
    surroundings := s
    mishap := if n = 11 then some { cause := .resourceBusy, progress := some 1 } else none }
  let context := Context.consulting "1" ⟨"/w"⟩
  let output : Path := ⟨"/out.pdf"⟩
  let m : Machine := {
    tree := { nodes := [(["notes"], .file 0 newFileMode [0x6f])], nextSerial := 1 } }
  let ended := runAmid f (processToFile context {} [] output) (m, 0)
  Leaves context {} [] output f m ∧ IsElsewhere context output f [] ["notes"]
    ∧ ended.1 = .error (.outputWriteFailed output .resourceBusy)
    ∧ ended.2.1.tree.holding ["notes"] = .file [0x6f]
  := by
  intro s f context output m ended
  have hbuild : Config.build [] = .ok {} := rfl
  have hleaves := leaves_processToFile hbuild (quiet_consulting "1" ⟨"/w"⟩) [] output f
    (Tree.isHome_nil m.tree)
  refine ⟨hleaves, ⟨?_, ?_, by decide +kernel⟩, by decide +kernel, by decide +kernel⟩
  · exact fun _ => Turn.spares_of_programs (Programs.spare_writing (by decide +kernel))
  · exact fun _ hname => location_join_ne_of_dropLast (by decide +kernel) hname

/-- A file that has the name of the temporary file is overwritten and then gone, although the
request succeeds and makes its output elsewhere; and where a directory is in the place of the
output, the temporary file stays. -/
theorem sibling_of_processToFile :
  let s : Surroundings := { programs := .writing ⟨"/w/merged.pdf"⟩ [0x25, 0x50] }
  let context := Context.consulting "1" ⟨"/w"⟩
  let output : Path := ⟨"/out.pdf"⟩
  let l : Location := ["out.pdf.tmp"]
  let m : Machine := {
    tree := { nodes := [(l, .file 0 newFileMode [0x6f])], nextSerial := 1 } }
  let blocked : Machine := { tree := { nodes := [(["out.pdf"], .dir newDirMode)] } }
  let ended := Machine.run s (processToFile context {} [] output) m
  let failed := Machine.run s (processToFile context {} [] output) blocked
  Config.build [] = .ok {} ∧ s.programs.Spare [] l
    ∧ (∀ name, Path.IsName name → ((context.directory.join name).place []).location ≠ l)
    ∧ l ≠ (output.place []).location ∧ ¬ MakesDir [] context output l
    ∧ (ended.1.isOk = true ∧ m.tree.holding l = .file [0x6f] ∧ ended.2.tree.holding l = .nothing)
    ∧ failed.1.isOk = false ∧ blocked.tree.holding l = .nothing
    ∧ failed.2.tree.holding l = .file [0x25, 0x50]
  := by
  intro s context output l m blocked ended failed
  refine ⟨rfl, Programs.spare_writing (by decide +kernel), ?_, by decide +kernel, ?_,
    by decide +kernel, by decide +kernel⟩
  · intro name hname
    exact location_join_ne_of_dropLast (by decide +kernel) hname
  · have hparent : output.parent? = some ⟨"/"⟩ := by decide +kernel
    rintro (hstop | ⟨parent, hsome, hstop⟩)
    · revert hstop
      decide +kernel
    · cases hparent.symm.trans hsome
      revert hstop
      decide +kernel

end Request

end Bindery
