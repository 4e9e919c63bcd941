import Bindery.Proofs.Tree.Opening

/-!
# Trees that agree at some locations

Two trees agree at some locations if they show the same there (`AgreeOn`): the same nodes, up
to the serial numbers of files.  A path whose way and place are at such locations (`Path.Within`)
cannot tell the trees apart: what it names can be looked at, read, opened, written and removed in
both with the same result (`AgreeOn.node`, `AgreeOn.read`, `AgreeOn.openFile`, `AgreeOn.write`,
`AgreeOn.remove`), and the trees go on agreeing.
-/

namespace Bindery

/-- The node up to the serial number of a file. -/
def Node.shown : Node → Node
  | .dir mode => .dir mode
  | .file _ mode bytes => .file 0 mode bytes

theorem Tree.isDir_shown (n : Node) :
  n.shown.isDir = n.isDir
  := by cases n <;> rfl

/-! ### Ways -/

/-- The locations that steps lead to, one after another. -/
def Location.stops (l : Location) : List String → List Location
  | [] => []
  | segment :: segments => l.after segment :: Location.stops (l.after segment) segments

theorem Location.stops_append (l : Location) (before after : List String) :
  l.stops (before ++ after)
    = l.stops before ++ Location.stops (before.foldl Location.after l) after
  := by
  induction before generalizing l with
  | nil => rfl
  | cons segment before ih => exact congrArg (l.after segment :: ·) (ih (l.after segment))

/-- The place of the path and all stops on the way there are at locations of a kind. -/
def Path.Within (base : Location) (p : Path) (on : Location → Prop) : Prop :=
  on (p.place base).location
    ∧ ∀ k ∈ Location.stops (if p.isAbsolute then [] else base) p.segments, on k

namespace Tree

variable {T T' S opened : Tree} {l k base : Location} {p : Path}
  {emptied : Bool} {mode serial serial' : Nat} {bytes : Bytes} {e : OsError}

/-- What is on the way to a place below another consists of directories. -/
theorem isDirAt_of_walk {segments : List String} {last : String}
    (h : T.walk l (segments ++ [last]) = .ok k) :
  ∀ stop ∈ l.stops segments, T.isDirAt stop = true
  := by
  generalize hall : segments ++ [last] = all at h
  fun_induction walk T l all generalizing segments with
  | case1 => simp at hall
  | case2 l only =>
    obtain ⟨rfl, -⟩ | ⟨rest, -, hrest⟩ := List.append_eq_cons_iff.mp hall
    · exact List.forall_mem_nil _
    · simp at hrest
  | case3 => cases h
  | case4 => cases h
  | case5 => cases h
  | case6 l segment more hmore next hstep mode hnode ih =>
    obtain ⟨-, hlast⟩ | ⟨rest, rfl, hrest⟩ := List.append_eq_cons_iff.mp hall
    · exact absurd (List.cons.inj hlast).2.symm hmore
    · obtain rfl := eq_after_of_stepFrom hstep
      rw [Location.stops, List.forall_mem_cons, isDirAt, hnode]
      exact ⟨rfl, ih hrest.symm h⟩

/-- A walk is the same in trees with nodes of the same sort at its stops. -/
theorem walk_of_stops {segments : List String}
    (h : ∀ stop ∈ l.stops segments,
      (T'.lookup stop).map Node.isDir = (T.lookup stop).map Node.isDir) :
  T'.walk l segments = T.walk l segments
  := by
  induction segments generalizing l with
  | nil => rfl
  | cons segment segments ih =>
    cases segments with
    | nil => rfl
    | cons next rest =>
      rw [walk, walk]
      · cases hstep : stepFrom l segment with
        | error e => rfl
        | ok k =>
          obtain rfl := eq_after_of_stepFrom hstep
          obtain ⟨hfirst, hrest⟩ := List.forall_mem_cons.mp h
          have hwalk := ih hrest
          dsimp only
          cases hnode : T.lookup (l.after segment) with
          | none =>
            rw [hnode, Option.map_none, Option.map_eq_none_iff] at hfirst
            rw [hfirst]
          | some n =>
            rw [hnode] at hfirst
            obtain ⟨n', hn', hsame⟩ := Option.map_eq_some_iff.mp hfirst
            rw [hn']
            cases n with
            | dir mode =>
              cases n' with
              | dir mode' => exact hwalk
              | file => cases hsame
            | file =>
              cases n' with
              | dir mode' => cases hsame
              | file => rfl
      all_goals exact fun h => by cases h

/-- Why a file cannot be opened depends on where its path leads and on the sort of node there. -/
theorem openFile_eq_error_of_sort (hresolve : T'.resolve base p = T.resolve base p)
    (hsort : (T'.lookup (p.place base).location).map Node.isDir
      = (T.lookup (p.place base).location).map Node.isDir)
    (h : T.openFile base p emptied mode = .error e) :
  T'.openFile base p emptied mode = .error e
  := by
  unfold Tree.openFile at h ⊢
  rw [hresolve]
  cases hplace : T.resolve base p with
  | error e' =>
    rw [hplace] at h
    exact h
  | ok place =>
    obtain rfl := eq_place_of_resolve hplace
    rw [hplace] at h
    dsimp only at h ⊢
    cases hn : T.lookup (p.place base).location with
    | none =>
      rw [hn, Option.map_none, Option.map_eq_none_iff] at hsort
      rw [hn] at h
      rw [hsort]
      dsimp only at h ⊢
      split at h
      · next hslash =>
        rw [if_pos hslash]
        exact h
      · cases h
    | some n =>
      rw [hn] at hsort h
      obtain ⟨n', hn', hsame⟩ := Option.map_eq_some_iff.mp hsort
      rw [hn']
      cases n with
      | dir m =>
        cases n' with
        | dir m' => exact h
        | file => cases hsame
      | file =>
        cases n' with
        | dir m' => cases hsame
        | file =>
          dsimp only at h ⊢
          split at h
          · next hslash =>
            rw [if_pos hslash]
            exact h
          · cases h

/-- What a tree shows at a location, which is everything but the serial number of a file. -/
def shown (T : Tree) (l : Location) : Option Node :=
  (T.lookup l).map Node.shown

/-- What is shown at a location says what sort of node is there. -/
theorem sort_eq_of_shown (h : T.shown l = T'.shown l) :
  (T'.lookup l).map Node.isDir = (T.lookup l).map Node.isDir
  := by
  have hsort := congrArg (Option.map Node.isDir) h.symm
  simpa only [shown, Option.map_map, Function.comp_def, isDir_shown] using hsort

theorem isDirAt_of_sort (h : (T'.lookup l).map Node.isDir = (T.lookup l).map Node.isDir) :
  T'.isDirAt l = T.isDirAt l
  := by
  revert h
  unfold isDirAt
  rcases T.lookup l with _ | n <;> rcases T'.lookup l with _ | n' <;> simp

theorem isDirAt_of_shown (h : T.shown l = T'.shown l) :
  T'.isDirAt l = T.isDirAt l
  := isDirAt_of_sort (sort_eq_of_shown h)

/-- Files that show the same have the same permission bits and hold the same. -/
theorem file_congr {s s' m m' : Nat} {b b' : Bytes} (h : T.shown l = T'.shown l)
    (hfile : T.lookup l = some (.file s m b)) (hfile' : T'.lookup l = some (.file s' m' b')) :
  m = m' ∧ b = b'
  := by
  rw [shown, shown, hfile, hfile'] at h
  injection h with h
  injection h with _ hmode hbytes
  exact ⟨hmode, hbytes⟩

theorem shown_of_opens {opened' : Tree} (h : T.shown l = T'.shown l)
    (hopens : T.Opens l emptied mode serial opened)
    (hopens' : T'.Opens l emptied mode serial' opened') :
  opened.shown l = opened'.shown l
  := by
  have hsome := congrArg Option.isSome h
  rw [shown, shown, Option.isSome_map, Option.isSome_map] at hsome
  have hl := hopens.ne_nil
  cases hopens with
  | old found =>
    cases hopens' with
    | old found' =>
      obtain ⟨rfl, rfl⟩ := file_congr h found found'
      rw [shown, shown, lookup_set hl (admits_of_lookup found _ _),
        lookup_set hl (admits_of_lookup found' _ _), if_pos rfl, if_pos rfl]
      rfl
    | new missing' => simp [found, missing'] at hsome
  | new missing =>
    cases hopens' with
    | old found' => simp [missing, found'] at hsome
    | new missing' => simp [shown, lookup_addFile hl, Node.shown]

theorem shown_of_append (h : T.shown l = T'.shown l) (hl : T.serialAt l = some serial)
    (hl' : T'.serialAt l = some serial') (bytes : Bytes) :
  (T.append serial bytes).shown l = (T'.append serial' bytes).shown l
  := by
  obtain ⟨mode, old, hfile⟩ := exists_file_of_serialAt hl
  obtain ⟨mode', old', hfile'⟩ := exists_file_of_serialAt hl'
  obtain ⟨rfl, rfl⟩ := file_congr h hfile hfile'
  rw [shown, shown, lookup_append_self hfile, lookup_append_self hfile']
  rfl

/-! ### Trees that agree -/

/-- Two trees show the same at some locations. -/
structure AgreeOn (on : Location → Prop) (T T' : Tree) : Prop where
  shown : ∀ k, on k → T.shown k = T'.shown k

variable {on : Location → Prop}

namespace AgreeOn

theorem resolve (h : AgreeOn on T T') (hp : p.Within base on) :
  T'.resolve base p = T.resolve base p
  := by
  have hwalk : T'.walk (if p.isAbsolute then [] else base) p.segments
      = T.walk (if p.isAbsolute then [] else base) p.segments := by
    apply walk_of_stops
    intro stop hstop
    exact sort_eq_of_shown (h.shown stop (hp.2 stop hstop))
  unfold Tree.resolve
  rw [hwalk]

/-- Looking a path up gives the same in both trees, up to the serial number of a file. -/
theorem node (h : AgreeOn on T T') (hp : p.Within base on) :
  (∃ e, T.node base p = .error e ∧ T'.node base p = .error e)
    ∨ ∃ n n', T.node base p = .ok ((p.place base).location, n)
      ∧ T'.node base p = .ok ((p.place base).location, n')
      ∧ T.lookup (p.place base).location = some n
      ∧ T'.lookup (p.place base).location = some n' ∧ n'.shown = n.shown
  := by
  unfold Tree.node
  rw [h.resolve hp]
  cases hplace : T.resolve base p with
  | error e => exact Or.inl ⟨e, rfl, rfl⟩
  | ok place =>
    obtain rfl := eq_place_of_resolve hplace
    have hshown := (h.shown _ hp.1).symm
    unfold Tree.shown at hshown
    dsimp only
    cases hn : T.lookup (p.place base).location with
    | none =>
      rw [hn, Option.map_none, Option.map_eq_none_iff] at hshown
      rw [hshown]
      exact Or.inl ⟨_, rfl, rfl⟩
    | some n =>
      rw [hn] at hshown
      obtain ⟨n', hn', hsame⟩ := Option.map_eq_some_iff.mp hshown
      have hdir : n'.isDir = n.isDir := by rw [← isDir_shown, hsame, isDir_shown]
      rw [hn']
      dsimp only
      rw [hdir]
      split
      · exact Or.inl ⟨_, rfl, rfl⟩
      · exact Or.inr ⟨n, n', rfl, rfl, rfl, rfl, hsame⟩

/-- What is known of a node that a path names is the same in both trees, if it is known of what they
show. -/
theorem map_node {α : Type} {f : Node → α} (hf : ∀ n, f n.shown = f n) (h : AgreeOn on T T')
    (hp : p.Within base on) :
  ((T'.node base p).map fun (_, n) => f n) = (T.node base p).map fun (_, n) => f n
  := by
  rcases h.node hp with ⟨e, he, he'⟩ | ⟨n, n', hn, hn', -, -, hsame⟩
  · rw [he, he']
  · have hsame' : f n' = f n := by rw [← hf n', hsame, hf]
    rw [hn, hn']
    exact congrArg Except.ok hsame'

/-- Reading a file gives the same in both trees. -/
theorem read (h : AgreeOn on T T') (hp : p.Within base on) :
  T'.read base p = T.read base p
  := by
  unfold Tree.read
  rcases h.node hp with ⟨e, he, he'⟩ | ⟨n, n', hn, hn', -, -, hsame⟩
  · rw [he, he']
  · rw [hn, hn']
    cases n <;> cases n' <;> cases hsame <;> rfl

theorem opens {opened' : Tree} (h : AgreeOn on T T')
    (hopens : T.Opens l emptied mode serial opened)
    (hopens' : T'.Opens l emptied mode serial' opened') :
  AgreeOn on opened opened'
  := by
  constructor
  intro k hk
  by_cases hkl : k = l
  · subst hkl
    exact shown_of_opens (h.shown k hk) hopens hopens'
  · rw [Tree.shown, Tree.shown, hopens.lookup_of_ne hkl, hopens'.lookup_of_ne hkl]
    exact h.shown k hk

/-- Opening a file fails in both trees alike, or in none. -/
theorem openFile (h : AgreeOn on T T') (hp : p.Within base on) (emptied : Bool) (mode : Nat) :
  (∃ e, T.openFile base p emptied mode = .error e ∧ T'.openFile base p emptied mode = .error e)
    ∨ ∃ serial opened serial' opened', T.openFile base p emptied mode = .ok (serial, opened)
      ∧ T'.openFile base p emptied mode = .ok (serial', opened')
      ∧ T.Opens (p.place base).location emptied mode serial opened
      ∧ T'.Opens (p.place base).location emptied mode serial' opened'
      ∧ AgreeOn on opened opened'
  := by
  have hresolve := h.resolve hp
  have hshown := h.shown _ hp.1
  cases hopen : T.openFile base p emptied mode with
  | error e =>
    left
    exact ⟨e, rfl, openFile_eq_error_of_sort hresolve (sort_eq_of_shown hshown) hopen⟩
  | ok found =>
    obtain ⟨serial, opened⟩ := found
    obtain ⟨hroom, hopens⟩ := openFile_eq_ok_iff.mp hopen
    have hdir := isDirAt_of_shown hshown
    rw [hopens.isDirAt_eq_false] at hdir
    obtain ⟨serial', opened', hopens'⟩ := exists_opens hdir emptied mode
    right
    refine ⟨serial, opened, serial', opened', rfl, ?_, hopens, hopens', h.opens hopens hopens'⟩
    exact openFile_eq_ok_iff.mpr ⟨⟨hresolve.trans hroom.1, hroom.2⟩, hopens'⟩

/-- Adding bytes to a file that is at the same location in both trees. -/
theorem append (h : AgreeOn on T T') (hl : T.serialAt l = some serial)
    (hl' : T'.serialAt l = some serial') (bytes : Bytes) :
  AgreeOn on (T.append serial bytes) (T'.append serial' bytes)
  := by
  constructor
  intro k hk
  by_cases hkl : k = l
  · subst hkl
    exact shown_of_append (h.shown k hk) hl hl' bytes
  · rw [Tree.shown, Tree.shown, lookup_append_of_ne hl bytes hkl,
      lookup_append_of_ne hl' bytes hkl]
    exact h.shown k hk

/-- Writing a file fails in both trees alike, or in none. -/
theorem write (h : AgreeOn on T T') (hp : p.Within base on) (bytes : Bytes) :
  (∃ e, T.write base p bytes = .error e ∧ T'.write base p bytes = .error e)
    ∨ ∃ S S', T.write base p bytes = .ok S ∧ T'.write base p bytes = .ok S' ∧ AgreeOn on S S'
  := by
  unfold Tree.write
  rcases h.openFile hp true newFileMode with
    ⟨e, he, he'⟩ | ⟨serial, opened, serial', opened', ho, ho', hopens, hopens', hopened⟩
  · left
    use e
    rw [he, he']
    exact ⟨rfl, rfl⟩
  · right
    use opened.append serial bytes, opened'.append serial' bytes
    rw [ho, ho']
    exact ⟨rfl, rfl, hopened.append hopens.serialAt_self hopens'.serialAt_self bytes⟩

theorem erase (h : AgreeOn on T T') (hl : l ≠ []) :
  AgreeOn on (T.erase l) (T'.erase l)
  := by
  constructor
  intro k hk
  rw [Tree.shown, Tree.shown, lookup_erase hl, lookup_erase hl]
  split
  · rfl
  · exact h.shown k hk

/-- Removing a file fails in both trees alike, or in none. -/
theorem remove (h : AgreeOn on T T') (hp : p.Within base on) :
  (∃ e, T.remove base p = .error e ∧ T'.remove base p = .error e)
    ∨ (T.remove base p = .ok (T.erase (p.place base).location)
      ∧ T'.remove base p = .ok (T'.erase (p.place base).location)
      ∧ T.isDirAt (p.place base).location = false)
  := by
  unfold Tree.remove
  rcases h.node hp with ⟨e, he, he'⟩ | ⟨n, n', hn, hn', hl, -, hsame⟩
  · left
    use e
    rw [he, he']
    exact ⟨rfl, rfl⟩
  · rw [hn, hn']
    cases n with
    | dir m =>
      left
      cases n' with
      | dir m' => exact ⟨_, rfl, rfl⟩
      | file => cases hsame
    | file s m b =>
      right
      cases n' with
      | dir m' => cases hsame
      | file s' m' b' =>
        rw [isDirAt, hl]
        exact ⟨rfl, rfl, rfl⟩

end AgreeOn

end Tree

end Bindery
