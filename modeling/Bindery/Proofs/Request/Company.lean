import Bindery.Proofs.Interleaving
import Bindery.Proofs.Request.Homely
import Bindery.Proofs.Tree.Ahead
import Bindery.Proofs.Unaffected

/-!
# Jobs in company

A job that is homely in a directory changes nothing outside it (`Stays`), and does not notice what
happens elsewhere: on two trees that agree on what it may look at, its steps go the same way
(`InStep.step`), as long as the programs that it starts are `Confined` to the directory as well.  So
it keeps in step with itself alone when another job changes the tree in a directory that its way
`Bypasses` (`InStep.of_stays`).
-/

namespace Bindery

/-- The location is below another one. -/
def Location.IsInside (l k : Location) : Prop :=
  l <+: k ∧ k ≠ l

namespace Path

variable {base : Location} {p q : Path} {name : String} {k : Location}

/-! ### Ways that bypass a directory -/

/-- Where the way of a path begins, and all its stops. -/
def way (base : Location) (p : Path) : List Location :=
  p.start base :: p.stops base

/-- The way of the path leads neither to the place of the other one nor below it. -/
def Bypasses (base : Location) (p q : Path) : Prop :=
  ∀ k ∈ p.way base, ¬ (q.place base).location <+: k

instance (base : Location) (p q : Path) : Decidable (p.Bypasses base q) :=
  inferInstanceAs (Decidable (∀ k ∈ _, ¬ _ <+: _))

/-- The way of the path, and what is below its place. -/
def Realm (base : Location) (p : Path) (k : Location) : Prop :=
  k ∈ p.way base ∨ (p.place base).location.IsInside k

/-- What can be seen from one directory and is not the matter of another one alone. -/
def View (base : Location) (p q : Path) (k : Location) : Prop :=
  p.Realm base k ∨ ¬ q.Realm base k

theorem location_mem_way (base : Location) (p : Path) :
  (p.place base).location ∈ p.way base
  := by
  by_cases hnil : p.segments = []
  · have hplace : (p.place base).location = p.start base := by
      rw [place, hnil]
      rfl
    rw [hplace]
    exact List.mem_cons_self
  · exact List.mem_cons_of_mem _ (location_mem_stops hnil base)

/-- What is below a directory is not below another one if their ways bypass each other. -/
theorem Bypasses.not_prefix (h : p.Bypasses base q) (h' : q.Bypasses base p)
    (hk : (p.place base).location <+: k) :
  ¬ (q.place base).location <+: k
  := by
  intro hk'
  rcases List.prefix_or_prefix_of_prefix hk hk' with hle | hle
  · exact h' _ (location_mem_way base q) hle
  · exact h _ (location_mem_way base p) hle

/-- What is seen from one directory is not inside the other. -/
theorem View.not_inside (h : p.Bypasses base q) (h' : q.Bypasses base p) (hk : p.View base q k) :
  ¬ (q.place base).location.IsInside k
  := by
  rintro ⟨hbelow, hne⟩
  rcases hk with (hway | ⟨hbelow', -⟩) | hnot
  · exact h k hway hbelow
  · exact h.not_prefix h' hbelow' hbelow
  · exact hnot (Or.inr ⟨hbelow, hne⟩)

theorem within_self {on : Location → Prop} (hon : ∀ k, p.Realm base k → on k) :
  p.Within base on
  := by
  refine ⟨hon _ (Or.inl (location_mem_way base p)), fun k hk => hon k (Or.inl ?_)⟩
  exact List.mem_cons_of_mem _ hk

theorem isInside_join (base : Location) (p : Path) (h : IsName name) :
  (p.place base).location.IsInside ((p.join name).place base).location
  := by
  rw [location_join base p h]
  exact ⟨List.prefix_append _ _, by simp⟩

theorem within_join {on : Location → Prop} (hon : ∀ k, p.Realm base k → on k) (h : IsName name) :
  (p.join name).Within base on
  := by
  have hlocation := hon _ (Or.inr (isInside_join base p h))
  refine ⟨hlocation, fun k hk => ?_⟩
  rw [isAbsolute_join p h, segments_join p h, Location.stops_append] at hk
  rcases List.mem_append.mp hk with hk | hk
  · exact (within_self hon).2 k hk
  · rw [location_join base p h, place] at hlocation
    rw [Location.stops, Location.stops, List.mem_singleton, Location.after, if_neg h.notDot,
      if_neg h.notDots] at hk
    rw [hk]
    exact hlocation

end Path

/-! ### Changes at home -/

namespace Tree

variable {T S : Tree} {base k : Location} {w : Path}

/-- Nothing changes but files of names in a directory, and that directories are made on its way. -/
def ChangesIn (base : Location) (w : Path) (T S : Tree) : Prop :=
  ∀ k, S.lookup k = T.lookup k
    ∨ (∃ name, Path.IsName name ∧ k = (w.place base).location ++ [name])
    ∨ k ∈ w.stops base ∧ T.lookup k = none ∧ S.lookup k = some (.dir newDirMode)

/-- Nothing changes outside a directory but that directories are made on its way. -/
def Stays (base : Location) (w : Path) (T S : Tree) : Prop :=
  ∀ k, ¬ (w.place base).location.IsInside k → S.lookup k = T.lookup k
    ∨ k ∈ w.stops base ∧ T.lookup k = none ∧ S.lookup k = some (.dir newDirMode)

theorem ChangesIn.refl (base : Location) (w : Path) (T : Tree) :
  ChangesIn base w T T
  := fun _ => Or.inl rfl

/-- A file of a name in a directory changes. -/
theorem ChangesIn.of_ne {name : String} (hname : Path.IsName name)
    (h : ∀ k, k ≠ ((w.join name).place base).location → S.lookup k = T.lookup k) :
  ChangesIn base w T S
  := by
  intro k
  rw [Path.location_join base w hname] at h
  by_cases hk : k = (w.place base).location ++ [name]
  · exact Or.inr (Or.inl ⟨name, hname, hk⟩)
  · exact Or.inl (h k hk)

theorem Widens.changesIn (h : Widens (w.stops base) T S) :
  ChangesIn base w T S
  := fun k => (h k).imp_right Or.inr

theorem ChangesIn.stays (h : ChangesIn base w T S) :
  Stays base w T S
  := by
  intro k hk
  refine (h k).imp_right fun hchange => hchange.resolve_left ?_
  rintro ⟨name, -, rfl⟩
  exact hk ⟨List.prefix_append _ _, by simp⟩

/-- Directories outside stay. -/
theorem Stays.isDirAt (h : Stays base w T S) (hk : ¬ (w.place base).location.IsInside k)
    (hdir : T.isDirAt k = true) :
  S.isDirAt k = true
  := by
  rcases h k hk with hsame | ⟨-, hnone, -⟩
  · rwa [Tree.isDirAt, hsame]
  · exact absurd hnone (lookup_ne_none_of_isDirAt hdir)

end Tree

open Bindery.Tree (AgreeOn ChangesIn Stays)

/-- A program is to start in a directory, and the file at a location there takes its output. -/
structure Invocation.StartsIn (i : Invocation) (cwd : Location) (w : Path) (T : Tree)
    (l : Location) : Prop where
  directory : i.directory = some w
  inside : (w.place cwd).location.IsInside l
  output : ∃ log, i.output = some log ∧ T.serialAt l = some log

/-- A program that starts in a directory changes nothing outside it.  What comes of it depends on
nothing but what is in view, and not on serial numbers. -/
structure Programs.Confined (programs : Programs) (cwd : Location) (w : Path)
    (view : Location → Prop) : Prop where
  outside : ∀ {i : Invocation} {T : Tree} {l k : Location}, i.StartsIn cwd w T l →
    ¬ (w.place cwd).location.IsInside k → (programs i cwd T).2.lookup k = T.lookup k
  same : ∀ {i i' : Invocation} {T T' : Tree} {l : Location}, i.StartsIn cwd w T l →
    i'.StartsIn cwd w T' l → { i with output := i'.output } = i' → AgreeOn view T T' →
    (programs i cwd T).1 = (programs i' cwd T').1 ∧ ∀ k, (w.place cwd).location.IsInside k →
      (programs i cwd T).2.shown k = (programs i' cwd T').2.shown k

namespace Programs.Confined

variable {programs : Programs} {cwd : Location} {w : Path} {view : Location → Prop}
  {i i' : Invocation} {T T' : Tree} {l : Location}

theorem stays (h : programs.Confined cwd w view) (hi : i.StartsIn cwd w T l) :
  Stays cwd w T (programs i cwd T).2
  := fun _ hk => Or.inl (h.outside hi hk)

/-- Trees that agree on what is in view still do so when a program has run. -/
theorem agreeOn (h : programs.Confined cwd w view) (hi : i.StartsIn cwd w T l)
    (hi' : i'.StartsIn cwd w T' l) (hsame : { i with output := i'.output } = i')
    (hagree : AgreeOn view T T') :
  AgreeOn view (programs i cwd T).2 (programs i' cwd T').2
  := by
  refine ⟨fun k hk => ?_⟩
  by_cases hinside : (w.place cwd).location.IsInside k
  · exact (h.same hi hi' hsame hagree).2 k hinside
  · rw [Tree.shown, Tree.shown, h.outside hi hinside, h.outside hi' hinside]
    exact hagree.shown k hk

end Programs.Confined

/-! ### Single actions -/

namespace Action

/-- The action asks the caller for a package. -/
def IsConsult : Action → Prop
  | consult _ => True
  | _ => False

/-- The action starts a program. -/
def IsLaunch : Action → Prop
  | launch _ => True
  | _ => False

end Action

namespace Machine

variable {s : Surroundings} {m m' : Machine} {w : Path} {view : Location → Prop} {action : Action}

theorem answer_remove (s : Surroundings) (m : Machine) (path : Path) :
  answer s m (.remove path) = m.changed (m.tree.remove m.cwd path)
  := rfl

/-- A homely action changes files of names in the directory. -/
theorem changesIn_of_homely (h : action.IsHomely w) :
  ChangesIn m.cwd w m.tree (answer s m action).2.tree
  := by
  cases action with
  | stat | read | announce => exact .refl _ _ _
  | write path bytes =>
    obtain ⟨name, hname, rfl⟩ := h
    rw [answer_write]
    cases hwrite : m.tree.write m.cwd (w.join name) bytes with
    | error e => exact .refl _ _ _
    | ok S => exact .of_ne hname fun k hk => Tree.lookup_write_of_ne hwrite hk
  | remove path =>
    obtain ⟨name, hname, rfl⟩ := h
    rw [answer_remove]
    cases hremove : m.tree.remove m.cwd (w.join name) with
    | error e => exact .refl _ _ _
    | ok S =>
      obtain ⟨l, hnamed, hfile, rfl⟩ := Tree.exists_erase_of_remove hremove
      obtain rfl := hnamed.eq
      have hnil := Tree.ne_nil_of_isDirAt hfile
      refine .of_ne hname fun k hk => ?_
      change (m.tree.erase _).lookup k = _
      rw [Tree.lookup_erase hnil, if_neg hk]
  | _ => cases h

/-- A homely action goes the same way on trees that agree on what is in view. -/
theorem agree_of_homely (hview : ∀ k, w.Realm m.cwd k → view k) (hcwd : m'.cwd = m.cwd)
    (hagree : AgreeOn view m.tree m'.tree) (h : action.IsHomely w ∨ action.IsConsult) :
  (answer s m' action).1 = (answer s m action).1
    ∧ AgreeOn view (answer s m action).2.tree (answer s m' action).2.tree
  := by
  have hself := Path.within_self hview
  have hjoin {name : String} (hname : Path.IsName name) := Path.within_join hview hname
  have hlooked {path : Path} (h : path = w ∨ ∃ name, Path.IsName name ∧ path = w.join name) :
      path.Within m.cwd view := by
    rcases h with rfl | ⟨name, hname, rfl⟩
    · exact hself
    · exact hjoin hname
  rcases h with h | h
  · cases action with
    | stat path =>
      refine ⟨?_, hagree⟩
      change (m'.tree.node m'.cwd path).map _ = (m.tree.node m.cwd path).map _
      rw [hcwd]
      exact hagree.map_node statOf_shown (hlooked h)
    | read path =>
      refine ⟨?_, hagree⟩
      change m'.tree.read m'.cwd path = m.tree.read m.cwd path
      rw [hcwd]
      exact hagree.read (hlooked h)
    | write path bytes =>
      obtain ⟨name, hname, rfl⟩ := h
      rw [answer_write, answer_write, hcwd]
      rcases hagree.write (hjoin hname) bytes with ⟨e, he, he'⟩ | ⟨S, S', hS, hS', hagree'⟩
      · rw [he, he']
        exact ⟨rfl, hagree⟩
      · rw [hS, hS']
        exact ⟨rfl, hagree'⟩
    | remove path =>
      obtain ⟨name, hname, rfl⟩ := h
      rw [answer_remove, answer_remove, hcwd]
      rcases hagree.remove (hjoin hname) with ⟨e, he, he'⟩ | ⟨hS, hS', hdir⟩
      · rw [he, he']
        exact ⟨rfl, hagree⟩
      · rw [hS, hS']
        exact ⟨rfl, hagree.erase (Tree.ne_nil_of_isDirAt hdir)⟩
    | announce event => exact ⟨rfl, hagree⟩
    | _ => cases h
  · cases action with
    | consult package => exact ⟨rfl, hagree⟩
    | _ => cases h

/-- Opening a log in the directory goes the same way on trees that agree on what is in view. -/
theorem openEnd_cases {name : String} (hview : ∀ k, w.Realm m.cwd k → view k) (hcwd : m'.cwd = m.cwd)
    (hagree : AgreeOn view m.tree m'.tree) (hname : Path.IsName name) :
  (∃ e, answer s m (.openEnd (w.join name)) = (.error e, m)
    ∧ answer s m' (.openEnd (w.join name)) = (.error e, m'))
  ∨ ∃ log log' T T', answer s m (.openEnd (w.join name)) = (.ok log, { m with tree := T })
    ∧ answer s m' (.openEnd (w.join name)) = (.ok log', { m' with tree := T' })
    ∧ T.serialAt ((w.join name).place m.cwd).location = some log
    ∧ T'.serialAt ((w.join name).place m.cwd).location = some log'
    ∧ AgreeOn view T T' ∧ ChangesIn m.cwd w m.tree T
  := by
  rw [answer_openEnd, answer_openEnd, hcwd]
  rcases hagree.openFile (Path.within_join hview hname) false newFileMode with
    ⟨e, he, he'⟩ | ⟨log, T, log', T', hopen, hopen', hopens, hopens', hagree'⟩
  · rw [he, he']
    exact Or.inl ⟨e, rfl, rfl⟩
  · rw [hopen, hopen']
    right
    exact ⟨log, log', T, T', rfl, rfl, hopens.serialAt_self, hopens'.serialAt_self, hagree',
      .of_ne hname fun k hk => hopens.lookup_of_ne hk⟩

end Machine

/-! ### What a homely job changes -/

namespace Machine

variable {α : Type} {s : Surroundings} {m : Machine} {w : Path} {name : String}

/-- A quiet action changes nothing, unless it starts a program. -/
theorem changesIn_of_quiet {action : Action} (h : action.IsQuiet) :
  action.IsLaunch ∨ ChangesIn m.cwd w m.tree (answer s m action).2.tree
  := by
  cases action with
  | launch => exact Or.inl trivial
  | stat | read | consult | announce | print | complain => exact Or.inr (.refl _ _ _)
  | _ => cases h

/-- The programs apart that it starts, a homely job changes nothing but files of names in its
directory. -/
theorem changesIn_of_mem_moves {job : Job α}
    (h : Job.Homely Action.IsQuiet w (w.join name) job) (hname : Path.IsName name) (m : Machine) :
  ∀ move ∈ moves s job m, move.1.IsLaunch ∨ ChangesIn m.cwd w move.2.1 move.2.2
  := by
  have hopen (m : Machine) := openEnd_cases (s := s) (w := w)
    (fun _ _ => trivial) (rfl : m.cwd = m.cwd)
    (⟨fun _ _ => rfl⟩ : AgreeOn (fun _ => True) m.tree m.tree) hname
  induction h generalizing m with
  | done a => exact List.forall_mem_nil _
  | @ask action next homely rest ih =>
    have hrest := ih (answer s m action).1 (answer s m action).2
    rw [cwd_answer] at hrest
    refine List.forall_mem_cons.mpr ⟨?_, hrest⟩
    rcases homely with homely | hquiet
    · exact Or.inr (changesIn_of_homely (s := s) homely)
    · exact changesIn_of_quiet hquiet
  | @start next invocation more inside refused opened rest ih ih' =>
    rw [moves, List.forall_mem_cons]
    rcases hopen m with ⟨e, he, -⟩ | ⟨log, _, T, _, hlog, -, -, -, -, hchange⟩
    · rw [he]
      exact ⟨Or.inr (.refl _ _ _), ih e m⟩
    · rw [hlog, opened, moves, List.forall_mem_cons]
      exact ⟨Or.inr hchange, Or.inl trivial, ih' _ _⟩
  | @extend next bytes more refused opened rest ih ih' =>
    rw [moves, List.forall_mem_cons]
    rcases hopen m with ⟨e, he, -⟩ | ⟨log, _, T, _, hlog, -, hserial, -, -, hchange⟩
    · rw [he]
      exact ⟨Or.inr (.refl _ _ _), ih e m⟩
    · have happend : ChangesIn m.cwd w T (T.append log bytes) :=
        .of_ne hname fun k hk => Tree.lookup_append_of_ne hserial bytes hk
      rw [hlog, opened, moves, List.forall_mem_cons]
      exact ⟨Or.inr hchange, Or.inr happend, ih' _ _⟩

end Machine

/-! ### Jobs in step -/

namespace Job

variable {α : Type} {s : Surroundings} {cwd : Location} {w : Path} {name : String}
  {view : Location → Prop} {T T' S : Tree} {job job' : Job α}

/-- Two homely jobs are the same, but that an open log may have another handle. -/
inductive Counterpart (cwd : Location) (w : Path) (name : String) (T T' : Tree) :
    Job α → Job α → Prop where
  | same {job : Job α} (homely : Homely Action.IsConsult w (w.join name) job) :
    Counterpart cwd w name T T' job job
  /-- A program is going to print to the log. -/
  | started {invocation : Invocation} {more : Except OsError Ending → Job α} {log log' : Handle}
      (inside : invocation.directory = some w)
      (rest : ∀ answer, Homely Action.IsConsult w (w.join name) (more answer))
      (opened : T.serialAt ((w.join name).place cwd).location = some log)
      (opened' : T'.serialAt ((w.join name).place cwd).location = some log') :
    Counterpart cwd w name T T' (.ask (.launch { invocation with output := some log }) more)
      (.ask (.launch { invocation with output := some log' }) more)
  /-- Bytes are going to be added to the log. -/
  | extending {bytes : Bytes} {more : Except OsError Unit → Job α} {log log' : Handle}
      (rest : ∀ answer, Homely Action.IsConsult w (w.join name) (more answer))
      (opened : T.serialAt ((w.join name).place cwd).location = some log)
      (opened' : T'.serialAt ((w.join name).place cwd).location = some log') :
    Counterpart cwd w name T T' (.ask (.append log bytes) more) (.ask (.append log' bytes) more)

/-- Two homely jobs go the same way, on trees that agree on what is in view, with all directories of
the way. -/
structure InStep (cwd : Location) (w : Path) (name : String) (view : Location → Prop)
    (job job' : Job α) (T T' : Tree) : Prop where
  agree : AgreeOn view T T'
  dirs : ∀ k ∈ w.way cwd, ¬ (w.place cwd).location.IsInside k → T.isDirAt k = true
  jobs : Counterpart cwd w name T T' job job'

variable {m m' : Machine}

/-- Jobs are in step again after a step if the trees agree again. -/
theorem InStep.next {S' : Tree} {x x' : Job α} (h : InStep cwd w name view job job' T T')
    (hstays : Stays cwd w T S) (hagree : AgreeOn view S S')
    (hjobs : Counterpart cwd w name S S' x x') :
  InStep cwd w name view x x' S S' ∧ Stays cwd w T S
  := ⟨⟨hagree, fun k hk hoff => hstays.isDirAt hoff (h.dirs k hk hoff), hjobs⟩, hstays⟩

/-- Jobs that open the log are in step when they have opened it, or could not. -/
theorem InStep.openEnd {next : Except OsError Handle → Job α}
    (h : InStep m.cwd w name view (.ask (.openEnd (w.join name)) next)
      (.ask (.openEnd (w.join name)) next) m.tree m'.tree)
    (hname : Path.IsName name) (hview : ∀ k, w.Realm m.cwd k → view k) (hcwd : m'.cwd = m.cwd)
    (refused : ∀ cause, Homely Action.IsConsult w (w.join name) (next (.error cause)))
    (opened : ∀ {T T' log log'}, T.serialAt ((w.join name).place m.cwd).location = some log →
      T'.serialAt ((w.join name).place m.cwd).location = some log' →
      Counterpart m.cwd w name T T' (next (.ok log)) (next (.ok log'))) :
  let x := Machine.step s (.ask (.openEnd (w.join name)) next) m
  let x' := Machine.step s (.ask (.openEnd (w.join name)) next) m'
  InStep m.cwd w name view x.1 x'.1 x.2.tree x'.2.tree ∧ Stays m.cwd w m.tree x.2.tree
  := by
  rcases Machine.openEnd_cases (s := s) hview hcwd h.agree hname with
    ⟨e, he, he'⟩ | ⟨log, log', T, T', hlog, hlog', hserial, hserial', hagree, hchange⟩
  · rw [Machine.step, Machine.step, he, he']
    exact h.next (ChangesIn.refl _ _ _).stays h.agree (.same (refused e))
  · rw [Machine.step, Machine.step, hlog, hlog']
    exact h.next hchange.stays hagree (opened hserial hserial')

/-- Jobs that are in step stay in step, and change nothing outside their directory. -/
theorem InStep.step (h : InStep m.cwd w name view job job' m.tree m'.tree)
    (hname : Path.IsName name) (hview : ∀ k, w.Realm m.cwd k → view k) (hcwd : m'.cwd = m.cwd)
    (hprograms : s.programs.Confined m.cwd w view) :
  let x := Machine.step s job m
  let x' := Machine.step s job' m'
  InStep m.cwd w name view x.1 x'.1 x.2.tree x'.2.tree ∧ Stays m.cwd w m.tree x.2.tree
  := by
  cases h.jobs with
  | same homely =>
    cases homely with
    | done a => exact ⟨h, (ChangesIn.refl _ _ _).stays⟩
    | @ask action next homely rest =>
      obtain ⟨hanswer, hagree⟩ := Machine.agree_of_homely (s := s) hview hcwd h.agree homely
      have hstays : Stays m.cwd w m.tree (Machine.answer s m action).2.tree := by
        rcases homely with homely | hconsult
        · exact (Machine.changesIn_of_homely (s := s) homely).stays
        · cases action with
          | consult package => exact (ChangesIn.refl _ _ _).stays
          | _ => cases hconsult
      rw [Machine.step, Machine.step, hanswer]
      exact h.next hstays hagree (.same (rest _))
    | start invocation more inside refused opened rest =>
      apply h.openEnd hname hview hcwd refused
      intro T T' log log' hlog hlog'
      rw [opened, opened]
      exact .started inside rest hlog hlog'
    | extend bytes more refused opened rest =>
      apply h.openEnd hname hview hcwd refused
      intro T T' log log' hlog hlog'
      rw [opened, opened]
      exact .extending rest hlog hlog'
  | @started invocation more log log' inside rest opened opened' =>
    have hstarts {T : Tree} {log : Handle}
        (hlog : T.serialAt ((w.join name).place m.cwd).location = some log) :
        ({ invocation with output := some log } : Invocation).StartsIn m.cwd w T
          ((w.join name).place m.cwd).location :=
      ⟨inside, Path.isInside_join m.cwd w hname, log, rfl, hlog⟩
    have hstays := hprograms.stays (hstarts opened)
    have hresult := (hprograms.same (hstarts opened) (hstarts opened') rfl h.agree).1
    have hagree := hprograms.agreeOn (hstarts opened) (hstarts opened') rfl h.agree
    have hanswer (m : Machine) (i : Invocation) : Machine.answer s m (.launch i)
        = ((s.programs i m.cwd m.tree).1, { m with tree := (s.programs i m.cwd m.tree).2 }) := rfl
    rw [Machine.step, Machine.step, hanswer, hanswer, hcwd, ← hresult]
    exact h.next hstays hagree (.same (rest _))
  | @extending bytes more log log' rest opened opened' =>
    have hagree := h.agree.append opened opened' bytes
    have hchange : ChangesIn m.cwd w m.tree (m.tree.append log bytes) :=
      .of_ne hname fun k hk => Tree.lookup_append_of_ne opened bytes hk
    exact h.next hchange.stays hagree (.same (rest _))

end Job

end Bindery
