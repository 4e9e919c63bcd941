import Bindery.Proofs.Request.Company

/-!
# Requests at the same time

A request changes only files of names in its working directory, and makes that directory and those
on its way (`changesIn_of_process`).  Two requests whose directories are apart can take turns, action
by action, in any order: each ends as it does alone (`Pace.endsAsAlone`).  The invariant is that each
keeps `Pace` with itself alone: its own steps keep it (`Pace.step`), and so do those of the other one
(`Pace.of_stays`).
-/

namespace Bindery

open Bindery.Tree (Ahead AgreeOn ChangesIn LeadsAt Stays)
open Job (Counterpart Homely InStep)
open Machine (answer moves run step stepped together)

/-! ### Changes elsewhere -/

section Elsewhere

variable {T T' S : Tree} {cwd k : Location} {w w' : Path}

/-- What changes in another directory is not in view, but that directories are made which both ways
share. -/
theorem Tree.Stays.lookup_of_view (h : Stays cwd w' T S) (hway : w.Bypasses cwd w')
    (hway' : w'.Bypasses cwd w) (hk : w.View cwd w' k) :
  S.lookup k = T.lookup k
    ∨ (k ∈ w.way cwd ∧ ¬ (w.place cwd).location <+: k)
      ∧ T.lookup k = none ∧ S.lookup k = some (.dir newDirMode)
  := by
  refine (h k (hk.not_inside hway hway')).imp_right fun ⟨hstop, hmade⟩ => ⟨?_, hmade⟩
  have hmem : k ∈ w'.way cwd := List.mem_cons_of_mem _ hstop
  have hbelow := hway' k hmem
  refine ⟨?_, hbelow⟩
  rcases hk with (hmem' | hinside) | hnot
  · exact hmem'
  · exact absurd hinside.1 hbelow
  · exact absurd (Or.inl hmem) hnot

/-- What directories on the way there are stay there. -/
theorem Tree.Stays.lookup_of_dirs (h : Stays cwd w' T S) (hway : w.Bypasses cwd w')
    (hway' : w'.Bypasses cwd w) (hk : w.View cwd w' k)
    (hdirs : ∀ k ∈ w.way cwd, ¬ (w.place cwd).location.IsInside k → T.isDirAt k = true) :
  S.lookup k = T.lookup k
  := by
  refine (h.lookup_of_view hway hway' hk).resolve_right fun ⟨⟨hmem, hbelow⟩, hnone, _⟩ => ?_
  have hdir := hdirs k hmem fun hinside => hbelow hinside.1
  exact Tree.lookup_ne_none_of_isDirAt hdir hnone

/-- Jobs stay in step when something changes elsewhere. -/
theorem Job.InStep.of_stays {α : Type} {name : String} {job job' : Job α}
    (h : InStep cwd w name (w.View cwd w') job job' T T') (hname : Path.IsName name)
    (hstays : Stays cwd w' T S) (hway : w.Bypasses cwd w') (hway' : w'.Bypasses cwd w) :
  InStep cwd w name (w.View cwd w') job job' S T'
  := by
  have hsame {k : Location} (hk : w.View cwd w' k) : S.lookup k = T.lookup k :=
    hstays.lookup_of_dirs hway hway' hk h.dirs
  have hlog {log : Handle} (hserial : T.serialAt ((w.join name).place cwd).location = some log) :
      S.serialAt ((w.join name).place cwd).location = some log := by
    rwa [Tree.serialAt, hsame (Or.inl (Or.inr (Path.isInside_join cwd w hname)))]
  constructor
  · refine ⟨fun k hk => ?_⟩
    rw [Tree.shown, hsame hk]
    exact h.agree.shown k hk
  · intro k hk hoff
    rw [Tree.isDirAt, hsame (Or.inl (Or.inl hk))]
    exact h.dirs k hk hoff
  · cases h.jobs with
    | same homely => exact .same homely
    | started inside rest opened opened' => exact .started inside rest (hlog opened) opened'
    | extending rest opened opened' => exact .extending rest (hlog opened) opened'

/-- A tree is ahead of another still when something changes elsewhere. -/
theorem Tree.Ahead.of_stays (h : Ahead cwd w (w.View cwd w') T T') (hstays : Stays cwd w' T S)
    (hway : w.Bypasses cwd w') (hway' : w'.Bypasses cwd w) :
  Ahead cwd w (w.View cwd w') S T'
  := by
  have hstart : w.start cwd ∈ w.way cwd := List.mem_cons_self
  refine ⟨?_, h.home', fun k hk => ?_⟩
  · intro k hk
    refine hstays.isDirAt (fun hinside => hway _ hstart (hinside.1.trans hk)) (h.home k hk)
  · rcases hstays.lookup_of_view hway hway' hk with hsame | ⟨⟨hmem, hbelow⟩, hnone, hnew⟩
    · rw [LeadsAt, Tree.shown, hsame]
      exact h.shown k hk
    · right
      have hstop : k ∈ w.stops cwd := by
        rcases List.mem_cons.mp hmem with rfl | hstop
        · exact absurd hnone (Tree.lookup_ne_none_of_isDirAt (h.home _ (List.prefix_refl _)))
        · exact hstop
      refine ⟨⟨hstop, hbelow⟩, Or.inr ⟨?_, hnew⟩⟩
      rcases h.shown k hk with hshown | ⟨-, hshown | ⟨-, hdir⟩⟩
      · rwa [Tree.shown, Tree.shown, hnone, Option.map_none, eq_comm, Option.map_eq_none_iff]
          at hshown
      · rwa [Tree.shown, Tree.shown, hnone, Option.map_none, eq_comm, Option.map_eq_none_iff]
          at hshown
      · rw [hnone] at hdir
        cases hdir

end Elsewhere

namespace Request

variable {s : Surroundings} {context : Context} {c : Config} {sources : List SourceFile}

/-! ### One request -/

/-- The same results; or the working directory cannot be made, and other reasons are given for it,
which can be if the path has steps upwards. -/
def SameResult (w : Path) (result result' : Except RequestError Report) : Prop :=
  result = result' ∨ ".." ∈ w.segments ∧ ∃ cause cause',
    result = .error (.workspaceCreate w cause) ∧ result' = .error (.workspaceCreate w cause')

/-- What a request needs to be undisturbed by another one that works elsewhere: its configuration is
one that was built, the caller is asked for packages, and the compiler stays in the directory. -/
structure Undisturbed (s : Surroundings) (cwd : Location) (context : Context) (c : Config)
    (other : Path) : Prop where
  built : ∃ choices, Config.build choices = .ok c
  consults : ∀ name, (context.isAvailable name).Only Action.IsConsult
  confined : s.programs.Confined cwd context.directory (context.directory.View cwd other)

theorem Undisturbed.fits {cwd : Location} {other : Path} (h : Undisturbed s cwd context c other) :
  c.Fits
  := by
  obtain ⟨choices, hbuild⟩ := h.built
  exact Config.fits_of_build hbuild

/-- What has become of a request in company, and of the same request alone. -/
inductive Pace (cwd : Location) (context : Context) (c : Config) (sources : List SourceFile)
    (other : Path) (job job' : Job (Except RequestError Report)) (T T' : Tree) : Prop where
  /-- It has not begun. -/
  | fresh (begun : job = process context c sources) (begun' : job' = process context c sources)
      (ahead : Ahead cwd context.directory (context.directory.View cwd other) T T')
      (rooted : T'.Rooted)
  /-- The working directory was made. -/
  | going (inStep : InStep cwd context.directory c.compiler.logName
      (context.directory.View cwd other) job job' T T')
  /-- The working directory cannot be made. -/
  | refused {cause cause' : OsError}
      (refused : job = .done (.error (.workspaceCreate context.directory cause)))
      (refused' : job' = .done (.error (.workspaceCreate context.directory cause')))
      (ahead : Ahead cwd context.directory (context.directory.View cwd other) T T')
      (same : ".." ∉ context.directory.segments → cause = cause')

variable {cwd : Location} {other : Path} {job job' : Job (Except RequestError Report)}
  {T T' S : Tree}

/-- A request keeps pace when something changes elsewhere. -/
theorem Pace.of_stays (h : Pace cwd context c sources other job job' T T') (hc : c.Fits)
    (hstays : Stays cwd other T S) (hway : context.directory.Bypasses cwd other)
    (hway' : other.Bypasses cwd context.directory) :
  Pace cwd context c sources other job job' S T'
  := by
  cases h with
  | fresh begun begun' ahead rooted =>
    exact .fresh begun begun' (ahead.of_stays hstays hway hway') rooted
  | going inStep => exact .going (inStep.of_stays hc.log hstays hway hway')
  | refused refused refused' ahead same =>
    exact .refused refused refused' (ahead.of_stays hstays hway hway') same

/-- A request keeps pace when it takes a step, and changes nothing outside its directory. -/
theorem Pace.step {m m' : Machine} (h : Pace cwd context c sources other job job' m.tree m'.tree)
    (hu : Undisturbed s cwd context c other) (hm : m.cwd = cwd) (hm' : m'.cwd = cwd) :
  let x := Machine.step s job m
  let x' := Machine.step s job' m'
  Pace cwd context c sources other x.1 x'.1 x.2.tree x'.2.tree
    ∧ Stays cwd context.directory m.tree x.2.tree
  := by
  subst hm
  have hview {k : Location} (hk : context.directory.Realm m.cwd k) :
      context.directory.View m.cwd other k := Or.inl hk
  cases h with
  | fresh begun begun' ahead rooted =>
    obtain ⟨next, hprocess, hrefused, hhomely⟩ := homely_process hu.fits hu.consults sources
    have hanswer (m : Machine) : answer s m (.makeDirs context.directory)
        = ((m.tree.makeDirs m.cwd context.directory).1,
          { m with tree := (m.tree.makeDirs m.cwd context.directory).2 }) := rfl
    rw [begun, begun', hprocess, Machine.step, Machine.step, hanswer, hanswer, hm']
    have hstays := (m.tree.widens_makeDirs m.cwd context.directory).changesIn.stays
    refine ⟨?_, hstays⟩
    rcases ahead.makeDirs fun k hk => hview (Or.inl (List.mem_cons_of_mem _ hk)) with
      ⟨hmade, hmade', hagree, hdirs⟩ | ⟨cause, cause', hcause, hcause', hahead, hsame⟩
    · rw [hmade, hmade']
      refine .going ⟨hagree, fun k hk hoff => ?_, .same hhomely⟩
      rcases List.mem_cons.mp hk with rfl | hk
      · exact (m.tree.widens_makeDirs m.cwd context.directory).isHome ahead.home _
          (List.prefix_refl _)
      · exact hdirs k hk
    · rw [hcause, hcause']
      exact .refused (hrefused cause) (hrefused cause') hahead fun hdots => hsame hdots rooted
  | going inStep =>
    obtain ⟨hstep, hstays⟩ := inStep.step (s := s) hu.fits.log (fun _ => hview) hm' hu.confined
    exact ⟨.going hstep, hstays⟩
  | refused refused refused' ahead same =>
    rw [refused, refused']
    exact ⟨.refused rfl rfl ahead same, (ChangesIn.refl _ _ _).stays⟩

/-- A request that has come to an end alone has come to the same end in company. -/
theorem Pace.of_done {result' : Except RequestError Report}
    (h : Pace cwd context c sources other job (.done result') T T') :
  ∃ result, job = .done result ∧ SameResult context.directory result result'
    ∧ ∀ k, (context.directory.place cwd).location <+: k → T.shown k = T'.shown k
  := by
  have hview {k : Location} (hk : (context.directory.place cwd).location <+: k) :
      context.directory.View cwd other k := by
    by_cases hsame : k = (context.directory.place cwd).location
    · rw [hsame]
      exact Or.inl (Or.inl (Path.location_mem_way cwd context.directory))
    · exact Or.inl (Or.inr ⟨hk, hsame⟩)
  cases h with
  | fresh begun begun' ahead rooted => cases begun'
  | going inStep =>
    cases inStep.jobs with
    | same homely => exact ⟨result', rfl, Or.inl rfl, fun k hk => inStep.agree.shown k (hview hk)⟩
  | refused refused refused' ahead same =>
    cases refused'
    refine ⟨_, refused, ?_, fun k hk => ahead.shown_of_not_mem (hview hk) fun _ => hk⟩
    by_cases hdots : ".." ∈ context.directory.segments
    · exact Or.inr ⟨hdots, _, _, rfl, rfl⟩
    · rw [same hdots]
      exact Or.inl rfl

/-! ### Two requests -/

variable {context' : Context} {c' : Config} {sources' : List SourceFile}

/-- A job in company that has had as many turns as the same job alone takes actions has come to an
end, and with the same result; and its directory holds what it does then. -/
def EndsAsAlone (s : Surroundings) (m : Machine) (w : Path)
    (alone : Job (Except RequestError Report)) (turns : Nat)
    (job : Job (Except RequestError Report)) (T : Tree) : Prop :=
  (alone.transcript (answer s) m).length ≤ turns → ∃ result, job = .done result
    ∧ SameResult w result (run s alone m).1
    ∧ ∀ k, (w.place m.cwd).location <+: k → T.shown k = (run s alone m).2.tree.shown k

theorem Pace.endsAsAlone {m : Machine} {turns : Nat}
    (h : Pace m.cwd context c sources other job (stepped s turns (process context c sources, m)).1 T
      (stepped s turns (process context c sources, m)).2.tree) :
  EndsAsAlone s m context.directory (process context c sources) turns job T
  := by
  intro hturns
  rw [Machine.stepped_of_length_le _ _ hturns] at h
  exact h.of_done

/-- Two requests keep pace with themselves alone, whatever turns they take. -/
theorem pace_together (sources sources' : List SourceFile) {m : Machine}
    (hu : Undisturbed s m.cwd context c context'.directory)
    (hu' : Undisturbed s m.cwd context' c' context.directory)
    (hway : context.directory.Bypasses m.cwd context'.directory)
    (hway' : context'.directory.Bypasses m.cwd context.directory)
    (hrooted : m.tree.Rooted) (hhome : m.tree.IsHome m.cwd) (turns : List Bool) :
  let ended := together s turns (process context c sources) (process context' c' sources') m
  let alone := stepped s (turns.count true) (process context c sources, m)
  let alone' := stepped s (turns.count false) (process context' c' sources', m)
  Pace m.cwd context c sources context'.directory ended.1 alone.1 ended.2.2.tree alone.2.tree
    ∧ Pace m.cwd context' c' sources' context.directory ended.2.1 alone'.1 ended.2.2.tree
      alone'.2.tree
  := by
  have hstart (w : Path) : m.tree.IsHome (w.start m.cwd) := by
    unfold Path.start
    split
    · exact m.tree.isHome_nil
    · exact hhome
  have hall := Machine.together_induct (s := s)
    (R := fun (x, y, n) x' y' => (n.cwd = m.cwd ∧ x'.2.cwd = m.cwd ∧ y'.2.cwd = m.cwd)
      ∧ Pace m.cwd context c sources context'.directory x x'.1 n.tree x'.2.tree
      ∧ Pace m.cwd context' c' sources' context.directory y y'.1 n.tree y'.2.tree)
    ?first ?second turns (x := process context c sources) (y := process context' c' sources')
    (m := m) (u := (process context c sources, m)) (v := (process context' c' sources', m)) ?start
  case start =>
    exact ⟨⟨rfl, rfl, rfl⟩, .fresh rfl rfl (.refl (hstart _)) hrooted,
      .fresh rfl rfl (.refl (hstart _)) hrooted⟩
  case first =>
    rintro x y n ⟨x', n'⟩ y' ⟨⟨hn, hn', hcwd⟩, hx, hy⟩
    obtain ⟨hstep, hstays⟩ := hx.step hu hn hn'
    exact ⟨⟨(Machine.cwd_step x n).trans hn, (Machine.cwd_step x' n').trans hn', hcwd⟩, hstep,
      hy.of_stays hu'.fits hstays hway' hway⟩
  case second =>
    rintro x y n x' ⟨y', n'⟩ ⟨⟨hn, hcwd, hn'⟩, hx, hy⟩
    obtain ⟨hstep, hstays⟩ := hy.step hu' hn hn'
    exact ⟨⟨(Machine.cwd_step y n).trans hn, hcwd, (Machine.cwd_step y' n').trans hn'⟩,
      hx.of_stays hu.fits hstays hway hway', hstep⟩
  exact hall.2

/-- The programs apart that it starts, a request changes nothing but files of names in its working
directory, and makes that directory and those on its way. -/
theorem changesIn_of_process {m : Machine} (hc : c.Fits)
    (hlook : ∀ name, (context.isAvailable name).Only Action.IsQuiet) :
  ∀ move ∈ moves s (process context c sources) m,
    move.1.IsLaunch ∨ ChangesIn m.cwd context.directory move.2.1 move.2.2
  := by
  obtain ⟨next, hprocess, hrefused, hhomely⟩ := homely_process hc hlook sources
  rw [hprocess, moves, List.forall_mem_cons]
  refine ⟨Or.inr (m.tree.widens_makeDirs m.cwd context.directory).changesIn, ?_⟩
  change ∀ move ∈ moves s (next (m.tree.makeDirs m.cwd context.directory).1) _, _
  cases (m.tree.makeDirs m.cwd context.directory).1 with
  | error cause =>
    rw [hrefused]
    exact List.forall_mem_nil _
  | ok _ =>
    exact Machine.changesIn_of_mem_moves hhomely hc.log _

/-- A request whose configuration was built changes nothing itself but files of names in its working
directory, and makes that directory and those on its way.  So two requests whose ways bypass each
other's directory end as they do alone, whatever turns they take, if callers are asked for packages
and compilers stay in the directory. -/
theorem process_at_the_same_time :
  (∀ (s : Surroundings) (context : Context) (choices : List Config.Choice) (c : Config)
      (sources : List SourceFile) (m : Machine), Config.build choices = .ok c →
    (∀ name, (context.isAvailable name).Only Action.IsQuiet) →
    ∀ move ∈ moves s (process context c sources) m,
      move.1.IsLaunch ∨ ChangesIn m.cwd context.directory move.2.1 move.2.2)
  ∧ ∀ (s : Surroundings) (context context' : Context) (c c' : Config)
      (sources sources' : List SourceFile) (m : Machine) (turns : List Bool),
    Undisturbed s m.cwd context c context'.directory →
    Undisturbed s m.cwd context' c' context.directory →
    context.directory.Bypasses m.cwd context'.directory →
    context'.directory.Bypasses m.cwd context.directory →
    m.tree.Rooted → m.tree.IsHome m.cwd →
    let ended := together s turns (process context c sources) (process context' c' sources') m
    EndsAsAlone s m context.directory (process context c sources) (turns.count true) ended.1
        ended.2.2.tree
      ∧ EndsAsAlone s m context'.directory (process context' c' sources') (turns.count false)
        ended.2.1 ended.2.2.tree
  := by
  constructor
  · intro s context choices c sources m hbuild hlook
    exact changesIn_of_process (Config.fits_of_build hbuild) hlook
  · intro s context context' c c' sources sources' m turns hu hu' hway hway' hrooted hhome
    obtain ⟨hpace, hpace'⟩ := pace_together sources sources' hu hu' hway hway' hrooted hhome turns
    exact ⟨hpace.endsAsAlone, hpace'.endsAsAlone⟩

/-- A compiler that prints a line and makes an artifact of the document. -/
def typesetting : Programs :=
  fun i cwd T => match i.directory, i.output with
    | some w, some log =>
      let printed := T.append log (Text.utf8 "This is a compiler.\n".toList)
      match printed.read cwd (w.join "merged.tex") with
      | .error _ => (.ok (.exited 1), printed)
      | .ok bytes =>
        match printed.write cwd (w.join "merged.pdf") bytes with
        | .error _ => (.ok (.exited 1), printed)
        | .ok made => (.ok (.exited 0), made)
    | _, _ => (.error .notFound, T)

/-- The compiler stays in the directory. -/
theorem confined_typesetting {w : Path} {view : Location → Prop}
    (hview : ∀ k, w.Realm cwd k → view k) :
  typesetting.Confined cwd w view
  := by
  have hpdf : Path.IsName "merged.pdf" := by decide
  have htex : Path.IsName "merged.tex" := by decide
  constructor
  · rintro i T l k ⟨hdirectory, hinside, log, hlog, hserial⟩ hk
    have hne {l : Location} (hl : (w.place cwd).location.IsInside l) : k ≠ l := by
      rintro rfl
      exact hk hl
    have hprinted := Tree.lookup_append_of_ne hserial (Text.utf8 "This is a compiler.\n".toList)
      (hne hinside)
    unfold typesetting
    rw [hdirectory, hlog]
    dsimp only
    split
    · exact hprinted
    · split
      · exact hprinted
      · next hwrite =>
        rw [← hprinted]
        exact Tree.lookup_write_of_ne hwrite (hne (Path.isInside_join cwd w hpdf))
  · rintro i i' T T' l ⟨hdirectory, -, log, hlog, hserial⟩ ⟨hdirectory', -, log', hlog', hserial'⟩ -
      hagree
    have hprinted := hagree.append hserial hserial' (Text.utf8 "This is a compiler.\n".toList)
    have hshown {S S' : Tree} (h : AgreeOn view S S') (k : Location)
        (hk : (w.place cwd).location.IsInside k) : S.shown k = S'.shown k :=
      h.shown k (hview k (Or.inr hk))
    unfold typesetting
    rw [hdirectory, hlog, hdirectory', hlog']
    dsimp only
    rw [hprinted.read (Path.within_join hview htex)]
    split
    · exact ⟨rfl, hshown hprinted⟩
    · next bytes _ =>
      rcases hprinted.write (Path.within_join hview hpdf) bytes with
        ⟨e, he, he'⟩ | ⟨S, S', hS, hS', hmade⟩
      · rw [he, he']
        exact ⟨rfl, hshown hprinted⟩
      · rw [hS, hS']
        exact ⟨rfl, hshown hmade⟩

/-- Two requests in directories side by side. -/
theorem process_at_the_same_time_beside :
  let s : Surroundings := { programs := typesetting }
  let first := Context.consulting "1" ⟨"/v"⟩
  let second := Context.consulting "2" ⟨"/w"⟩
  let sources : List SourceFile := [{ kind := .latex, name := "a", bytes := Text.utf8 "a".toList }]
  let m : Machine := { tree := {} }
  let turns := (List.replicate 40 [true, false]).flatten
  let ended := together s turns (process first {} sources) (process second {} sources) m
  (∀ move ∈ moves s (process first {} sources) m,
      move.1.IsLaunch ∨ ChangesIn m.cwd first.directory move.2.1 move.2.2)
    ∧ (run s (process first {} sources) m).1.toOption.map (·.compilation.success) = some true
    ∧ (∃ result, ended.1 = .done result
      ∧ SameResult first.directory result (run s (process first {} sources) m).1
      ∧ ∀ k, (first.directory.place m.cwd).location <+: k → ended.2.2.tree.shown k
        = (run s (process first {} sources) m).2.tree.shown k)
    ∧ ∃ result, ended.2.1 = .done result
      ∧ SameResult second.directory result (run s (process second {} sources) m).1
      ∧ ∀ k, (second.directory.place m.cwd).location <+: k → ended.2.2.tree.shown k
        = (run s (process second {} sources) m).2.tree.shown k
  := by
  intro s first second sources m turns ended
  have hbuild : Config.build [] = .ok {} := by decide +kernel
  have hquiet (name : String) : (first.isAvailable name).Only Action.IsQuiet :=
    Dialogue.only_question trivial
  have hundisturbed (id : String) (w other : Path) :
      Undisturbed s m.cwd (.consulting id w) {} other :=
    ⟨⟨[], hbuild⟩, fun _ => Dialogue.only_question trivial,
      confined_typesetting fun _ hk => Or.inl hk⟩
  have hmoves := process_at_the_same_time.1 s first [] {} sources m hbuild hquiet
  obtain ⟨hfirst, hsecond⟩ := process_at_the_same_time.2 s first second {} {} sources sources m
    turns (hundisturbed "1" _ _) (hundisturbed "2" _ _) (by decide) (by decide)
    Tree.rooted_empty (Tree.isHome_nil _)
  exact ⟨hmoves, by decide +kernel, hfirst (by decide +kernel), hsecond (by decide +kernel)⟩

/-- A way with steps upwards can lead through the directory of another request, and make a directory
there where that one keeps a source, or make that directory although the other one cannot; and
another request can make a directory on such a way so that it is stopped at another place. -/
theorem process_disturbed_by_steps_upwards :
  let s : Surroundings := { programs := fun _ _ T => (.ok (.exited 0), T) }
  let sources : List SourceFile := [{ kind := .latex, name := "a", bytes := Text.utf8 "a".toList }]
  Config.build [] = .ok {}
    ∧ (∀ id w name, ((Context.consulting id w).isAvailable name).Only Action.IsConsult)
    ∧ (let first := Context.consulting "1" ⟨"/u/../w/latex_0.tex/../../v"⟩
      let second := Context.consulting "2" ⟨"/w"⟩
      let m : Machine := { tree := {} }
      let ended := together s (true :: List.replicate 40 false) (process first {} [])
        (process second {} sources) m
      (first.directory.place m.cwd).location = ["v"]
        ∧ (second.directory.place m.cwd).location = ["w"]
        ∧ ended.2.1.value? = some (.error (.writeFailed ⟨"/w/latex_0.tex"⟩ .isADirectory))
        ∧ (run s (process second {} sources) m).1.toOption.isSome)
    ∧ (let first := Context.consulting "1" ⟨"/v/../w"⟩
      let second := Context.consulting "2" ⟨"/w/../u"⟩
      let m : Machine := { tree := { nodes := [(["v"], .file 0 newFileMode [])], nextSerial := 1 } }
      let ended := together s [false, true] (process first {} sources)
        (process second {} sources) m
      (first.directory.place m.cwd).location = ["w"]
        ∧ (second.directory.place m.cwd).location = ["u"]
        ∧ ended.1.value? = some (.error (.workspaceCreate first.directory .notADirectory))
        ∧ ended.2.2.tree.isDirAt ["w"] = true
        ∧ (run s (process first {} sources) m).2.tree.isDirAt ["w"] = false)
    ∧ (let first := Context.consulting "1" ⟨"/a/../b/c"⟩
      let second := Context.consulting "2" ⟨"/a/z"⟩
      let m : Machine := { tree := { nodes := [(["b"], .file 0 newFileMode [])], nextSerial := 1 } }
      let ended := together s [false, true] (process first {} sources)
        (process second {} sources) m
      (first.directory.place m.cwd).location = ["b", "c"]
        ∧ (second.directory.place m.cwd).location = ["a", "z"]
        ∧ ended.1.value? = some (.error (.workspaceCreate first.directory .notADirectory))
        ∧ (run s (process first {} sources) m).1
          = .error (.workspaceCreate first.directory .fileExists))
  := by
  intro s sources
  refine ⟨by decide +kernel, fun id w name => Dialogue.only_question trivial, ?_, ?_, ?_⟩
  · decide +kernel
  · decide +kernel
  · decide +kernel

end Request

end Bindery
