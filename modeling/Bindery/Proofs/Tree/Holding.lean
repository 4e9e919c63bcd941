import Bindery.Proofs.Path.Extension
import Bindery.Proofs.Tree.Beside

/-!
# What a location holds

`Tree.holding` is what a location shows to someone who reads it: nothing, a directory, or the bytes
of a file.  A change of the tree `Retains` it if it stays the same, but that a directory may be made
where nothing was.  Making directories does so only on the way to their place (`Path.stops`), and
opening, writing and removing files change only their own locations.  `copyUpTo` is a copy that is
broken off after some bytes.  A file that is renamed is found under its new name
(`holding_of_rename`), leaves nothing under the old one (`holding_source_of_rename`), and is all
that changes (`lookup_of_rename`).
-/

namespace Bindery

/-- What is seen at a location. -/
inductive Holding where
  | nothing
  | directory
  | file (bytes : Bytes)
deriving DecidableEq, Repr

/-- What is seen of a node. -/
def Node.holding : Node → Holding
  | dir _ => .directory
  | file _ _ bytes => .file bytes

namespace Path

/-! ### Ways -/

/-- The locations that a path leads to, one after another. -/
def stops (base : Location) (p : Path) : List Location :=
  Location.stops (if p.isAbsolute then [] else base) p.segments

/-- Single dots add no stops. -/
theorem stops_filter_subset (l : Location) (segments : List String) :
  l.stops (segments.filter (· != ".")) ⊆ l.stops segments
  := by
  induction segments generalizing l with
  | nil => exact List.Subset.refl _
  | cons segment segments ih =>
    by_cases hdot : segment = "."
    · subst hdot
      exact List.subset_cons_of_subset l (ih l)
    · have hkept : (segment != ".") = true := bne_iff_ne.mpr hdot
      rw [List.filter_cons, if_pos hkept]
      exact List.cons_subset_cons _ (ih _)

theorem stops_parts_subset (base : Location) (p : Path) :
  Location.stops (if p.isAbsolute then [] else base) p.parts ⊆ p.stops base
  := by
  rw [stops]
  rcases p.parts_cases with hparts | ⟨rest, hsegments, hparts⟩
  · rw [hparts]
    exact stops_filter_subset _ _
  · rw [hparts, hsegments]
    exact List.cons_subset_cons _ (stops_filter_subset _ rest)

theorem of_mem_prefix_parts {p : Path} {outer : List String} (h : outer <+: p.parts) :
  ∀ part ∈ outer, part.toList ≠ [] ∧ '/' ∉ part.toList
  := by
  intro part hpart
  exact of_mem_segments (mem_segments_of_mem_parts (h.subset hpart))

/-- The way to a directory on the way to a place is part of the way. -/
theorem Encloses.stops_subset {p q : Path} (h : q.Encloses p) (base : Location) :
  q.stops base ⊆ p.stops base
  := by
  rcases h with rfl | ⟨outer, houter, rfl⟩
  · exact List.Subset.refl _
  · obtain ⟨rest, hrest⟩ := houter
    have hparts := of_mem_prefix_parts (p := p) ⟨rest, hrest⟩
    rw [stops, segments_ofParts _ hparts, isAbsolute_ofParts _ hparts]
    apply List.Subset.trans _ (stops_parts_subset base p)
    rw [← hrest, Location.stops_append]
    exact List.subset_append_left _ _

theorem location_mem_stops {p : Path} (h : p.segments ≠ []) (base : Location) :
  (p.place base).location ∈ p.stops base
  := by
  rw [place, stops]
  dsimp only
  generalize (if p.isAbsolute then [] else base) = l
  generalize p.segments = segments at h
  induction segments generalizing l with
  | nil => exact absurd rfl h
  | cons segment segments ih =>
    rw [List.foldl_cons, Location.stops, List.mem_cons]
    cases segments with
    | nil => exact Or.inl rfl
    | cons next rest => exact Or.inr (ih _ (List.cons_ne_nil next rest))

end Path

namespace Tree

variable {T T' S : Tree} {l k base : Location} {p q : Path} {bytes : Bytes}

/-! ### What is seen -/

/-- What is seen at a location. -/
def holding (T : Tree) (l : Location) : Holding :=
  (T.lookup l).elim .nothing Node.holding

theorem holding_of_lookup_eq (h : T'.lookup l = T.lookup l) :
  T'.holding l = T.holding l
  := by rw [holding, h, holding]

theorem holding_eq_nothing_iff :
  T.holding l = .nothing ↔ T.lookup l = none
  := by
  unfold holding
  rcases T.lookup l with _ | (_ | _) <;> simp [Node.holding]

theorem holding_eq_file_iff :
  T.holding l = .file bytes ↔ ∃ serial mode, T.lookup l = some (.file serial mode bytes)
  := by
  unfold holding
  rcases T.lookup l with _ | (_ | _) <;> simp [Node.holding]

theorem holding_eq_file_of_file? (h : T'.file? l = T.file? l) :
  T'.holding l = .file bytes ↔ T.holding l = .file bytes
  := by
  have hfile (S : Tree) : S.holding l = .file bytes
      ↔ (S.file? l).map Node.holding = some (.file bytes) := by
    rw [file?, holding]
    rcases S.lookup l with _ | (_ | _) <;> simp [Node.holding, Node.isDir]
  rw [hfile, hfile, h]

/-- A location shows what it showed in another tree; or, if `way` holds, a directory instead of
nothing. -/
def Retains (way : Prop) (l : Location) (T T' : Tree) : Prop :=
  T'.holding l = T.holding l ∨ way ∧ T.holding l = .nothing ∧ T'.holding l = .directory

theorem Retains.refl (way : Prop) (l : Location) (T : Tree) :
  Retains way l T T
  := Or.inl rfl

theorem Retains.trans {way way' : Prop} (h : Retains way l T T') (h' : Retains way' l T' S)
    (hway : way' → way) :
  Retains way l T S
  := by
  rcases h' with hsame | ⟨hway', hnothing, hdir⟩
  · rw [Retains, hsame]
    exact h
  · rcases h with hsame | ⟨-, -, hdir'⟩
    · exact Or.inr ⟨hway hway', hsame.symm.trans hnothing, hdir⟩
    · rw [hdir'] at hnothing
      cases hnothing

/-! ### Making directories -/

theorem retains_makeDir (hmake : T.makeDir base p = .ok S) (l : Location) :
  Retains (l ∈ p.stops base) l T S
  := by
  obtain ⟨hnamed, hnone, rfl⟩ := set_of_makeDir hmake
  have hne := ne_nil_of_lookup_eq_none hnone
  have hstop : (p.place base).location ∈ p.stops base := by
    apply Path.location_mem_stops
    intro hnil
    simp [Path.place, hnil] at hnamed
  rw [Retains, holding, lookup_set_dir hne]
  split
  · next hl =>
    rw [hl]
    exact Or.inr ⟨hstop, holding_eq_nothing_iff.mpr hnone, rfl⟩
  · exact Or.inl rfl

/-- Making directories changes a location only by making a directory there, on the way to their
place. -/
theorem retains_makeDirs (T : Tree) (base : Location) (p : Path) (l : Location) :
  Retains (l ∈ p.stops base) l T (T.makeDirs base p).2
  := by
  apply makeDirs_induct (P := Retains (l ∈ p.stops base) l T) p
  · intro T' S q hq h hmake
    apply h.trans (retains_makeDir hmake l)
    intro hstop
    exact hq.stops_subset base hstop
  · exact Retains.refl _ l T

theorem isDirAt_makeDir (hmake : T.makeDir base p = .ok S) (h : T.isDirAt l = true) :
  S.isDirAt l = true
  := by
  obtain ⟨-, hnone, rfl⟩ := set_of_makeDir hmake
  rw [isDirAt, lookup_set_dir (ne_nil_of_lookup_eq_none hnone)]
  split
  · rfl
  · exact h

/-- Directories stay when others are made. -/
theorem isDirAt_makeDirs (base : Location) (p : Path) (h : T.isDirAt l = true) :
  (T.makeDirs base p).2.isDirAt l = true
  := makeDirs_induct (P := fun S => S.isDirAt l = true) p
    (fun _ h hmake => isDirAt_makeDir hmake h) h

/-- Directories stay when a file is removed. -/
theorem isDirAt_erase (hk : T.isDirAt k = false) (l : Location) :
  (T.erase k).isDirAt l = T.isDirAt l
  := by
  rw [isDirAt, lookup_erase (ne_nil_of_isDirAt hk)]
  split
  · next hl =>
    rw [hl, hk]
    rfl
  · rfl

/-! ### Paths without a file name -/

/-- All that a location is in, and what is there itself, are directories. -/
def IsHome (T : Tree) (l : Location) : Prop :=
  ∀ k, k <+: l → T.isDirAt k = true

theorem isHome_nil (T : Tree) :
  T.IsHome []
  := by
  intro k hk
  rw [List.prefix_nil.mp hk, isDirAt_nil]

theorem IsHome.after {segment : String} (h : T.IsHome l) (hdir : T.isDirAt (l.after segment)) :
  T.IsHome (l.after segment)
  := by
  unfold Location.after at hdir ⊢
  split
  · exact h
  · split
    · intro k hk
      exact h k (hk.trans (List.dropLast_prefix l))
    · next hdot hdots =>
      rw [if_neg hdot, if_neg hdots] at hdir
      intro k hk
      rcases List.prefix_concat_iff.mp hk with rfl | hk
      · exact hdir
      · exact h k hk

/-- A walk from a directory ends at a directory unless its last step has a name. -/
theorem IsHome.walk {segments : List String} (h : T.IsHome l) (hwalk : T.walk l segments = .ok k) :
  T.IsHome k ∨ ∃ outer name, segments = outer ++ [name] ∧ name ≠ "." ∧ name ≠ ".."
  := by
  fun_induction Tree.walk T l segments with
  | case1 l =>
    cases hwalk
    exact Or.inl h
  | case2 l last =>
    obtain rfl := eq_after_of_stepFrom hwalk
    by_cases hname : last = "." ∨ last = ".."
    · left
      apply h.after
      rcases hname with rfl | rfl
      · exact h l (List.prefix_refl l)
      · exact h _ (List.dropLast_prefix l)
    · rw [not_or] at hname
      exact Or.inr ⟨[], last, rfl, hname⟩
  | case3 => cases hwalk
  | case4 => cases hwalk
  | case5 => cases hwalk
  | case6 l segment segments _ next hstep mode hnode ih =>
    obtain rfl := eq_after_of_stepFrom hstep
    have hdir : T.isDirAt (l.after segment) = true := by
      rw [isDirAt, hnode]
      rfl
    rcases ih (h.after hdir) hwalk with hhome | ⟨outer, name, rfl, hname⟩
    · exact Or.inl hhome
    · exact Or.inr ⟨segment :: outer, name, rfl, hname⟩

/-- A path without a file name leads to a directory. -/
theorem IsHome.isDirAt_of_no_fileName (h : T.IsHome base) (hname : p.fileName? = none)
    {place : Place} (hplace : T.resolve base p = .ok place) :
  T.isDirAt (p.place base).location = true
  := by
  obtain ⟨-, rfl, hwalk⟩ := resolve_eq_ok_iff.mp hplace
  have hstart : T.IsHome (if p.isAbsolute then [] else base) := by
    split
    · exact T.isHome_nil
    · exact h
  rcases hstart.walk hwalk with hhome | ⟨outer, name, hsegments, hdot, hdots⟩
  · exact hhome _ (List.prefix_refl _)
  · have hmem : name ∈ p.segments := by simp [hsegments]
    obtain ⟨hnonempty, hslash⟩ := Path.of_mem_segments hmem
    have hisName : Path.IsName name := ⟨hnonempty, hslash, hdot, hdots⟩
    rw [Path.fileName?, Path.getLast?_parts hsegments hisName] at hname
    simp [hdot, hdots] at hname

/-! ### Copying -/

/-- The tree when a copy is broken off after some bytes. -/
def copyUpTo (T : Tree) (base : Location) (source target : Path) (n : Nat) : Tree :=
  match T.node base source with
  | .ok (l, .file _ mode _) =>
    match T.openFile base target true mode with
    | .ok (serial, opened) => opened.append serial ((opened.contents l).take n)
    | .error _ => T
  | _ => T

/-- As far as it gets, a copy changes nothing but the file that it writes. -/
theorem copyUpTo_cases (T : Tree) (base : Location) (source target : Path) (n : Nat) :
  T.copyUpTo base source target n = T
    ∨ ∃ mode serial opened written,
      T.openFile base target true mode = .ok (serial, opened)
        ∧ T.copyUpTo base source target n = opened.append serial written
  := by
  unfold copyUpTo
  split
  · next l serial mode old _ =>
    split
    · next hopen => exact Or.inr ⟨mode, _, _, _, hopen, rfl⟩
    · exact Or.inl rfl
  · exact Or.inl rfl

/-- Opening keeps files in their places. -/
theorem Opens.exists_file {emptied : Bool} {mode serial s m : Nat} {opened : Tree}
    (h : T.Opens l emptied mode serial opened) (hfile : T.lookup k = some (.file s m bytes)) :
  ∃ s m bytes, opened.lookup k = some (.file s m bytes)
  := by
  by_cases hk : k = l
  · subst hk
    obtain ⟨mode, hlookup⟩ := h.lookup_self
    exact ⟨serial, mode, _, hlookup⟩
  · rw [h.lookup_of_ne hk]
    exact ⟨s, m, bytes, hfile⟩

/-- A copy writes what its source holds once its target is opened. -/
theorem exists_opened_of_copy {source target : Path} (h : T.copy base source target = .ok S) :
  ∃ mode serial opened s bytes, T.node base source = .ok ((source.place base).location,
      .file s mode bytes)
    ∧ T.openFile base target true mode = .ok (serial, opened)
    ∧ S = opened.append serial (opened.contents (source.place base).location)
  := by
  unfold Tree.copy at h
  split at h
  · cases h
  · cases h
  · next l s mode bytes hnode =>
    obtain ⟨hnamed, hlookup⟩ := named_of_node hnode
    obtain rfl := hnamed.eq
    split at h
    · cases h
    · next serial opened hopen =>
      obtain ⟨-, hopens⟩ := openFile_eq_ok_iff.mp hopen
      obtain ⟨s', m', found, hfound⟩ := hopens.exists_file hlookup
      rw [hfound] at h
      injection h with h
      refine ⟨mode, serial, opened, s, bytes, hnode, hopen, ?_⟩
      rw [contents, hfound, ← h]

/-- A copy that is not broken off is one that gets far enough. -/
theorem exists_copyUpTo_of_copy {source target : Path} (h : T.copy base source target = .ok S) :
  ∃ n, S = T.copyUpTo base source target n
  := by
  obtain ⟨mode, serial, opened, s, bytes, hnode, hopen, rfl⟩ := exists_opened_of_copy h
  use (opened.contents (source.place base).location).length
  rw [copyUpTo, hnode]
  dsimp only
  rw [hopen]
  dsimp only
  rw [List.take_length]

/-- A copy to another place holds what its source held. -/
theorem holding_of_copy {source target : Path} (h : T.copy base source target = .ok S)
    (hne : (source.place base).location ≠ (target.place base).location) :
  ∃ bytes, T.holding (source.place base).location = .file bytes
    ∧ S.holding (target.place base).location = .file bytes
  := by
  obtain ⟨mode, serial, opened, s, bytes, hnode, hopen, rfl⟩ := exists_opened_of_copy h
  obtain ⟨-, hopens⟩ := openFile_eq_ok_iff.mp hopen
  obtain ⟨-, hlookup⟩ := named_of_node hnode
  obtain ⟨mode', hopened⟩ := hopens.lookup_self
  use bytes
  rw [holding_eq_file_iff, holding_eq_file_iff, contents, hopens.lookup_of_ne hne, hlookup]
  exact ⟨⟨s, mode, rfl⟩, serial, mode', lookup_append_self hopened bytes⟩

/-! ### Renaming -/

/-- A file that gets another name is moved, unless it has that name already. -/
theorem moved_of_rename {source target : Path} {serial mode : Nat}
    (h : T.rename base source target = .ok S)
    (hfile : T.lookup (source.place base).location = some (.file serial mode bytes)) :
  (source.place base).location = (target.place base).location ∧ S = T
    ∨ T.isDirAt (target.place base).location = false
      ∧ S = (T.erase (source.place base).location).set (target.place base).location
        (.file serial mode bytes)
  := by
  unfold Tree.rename at h
  split at h
  · cases h
  · cases h
  · next old new hold hnew =>
    obtain rfl := eq_place_of_resolve hold
    obtain rfl := eq_place_of_resolve hnew
    dsimp only at h
    rw [hfile] at h
    dsimp only at h
    split at h
    · cases h
    split at h
    · cases h
    split at h
    · cases h
    next hdir =>
    split at h
    · next hsame =>
      injection h with h
      exact Or.inl ⟨hsame, h.symm⟩
    · injection h with h
      exact Or.inr ⟨eq_false_of_ne_true hdir, h.symm⟩

/-- A file that is moved keeps its number. -/
theorem admits_of_moved {serial mode : Nat} (h : T.lookup l = some (.file serial mode bytes))
    (k : Location) :
  (T.erase l).Admits k (.file serial mode bytes)
  := admits_erase (admits_of_lookup h mode bytes) k

/-- A file that gets another name is found under it. -/
theorem holding_of_rename {source target : Path} (h : T.rename base source target = .ok S)
    (hfile : T.holding (source.place base).location = .file bytes) :
  S.holding (target.place base).location = .file bytes
  := by
  obtain ⟨serial, mode, hlookup⟩ := holding_eq_file_iff.mp hfile
  rcases moved_of_rename h hlookup with ⟨hsame, rfl⟩ | ⟨hdir, rfl⟩
  · rw [← hsame, hfile]
  · rw [holding, lookup_set (ne_nil_of_isDirAt hdir) (admits_of_moved hlookup _), if_pos rfl]
    rfl

theorem isDirAt_of_lookup_file {serial mode : Nat}
    (h : T.lookup l = some (.file serial mode bytes)) :
  T.isDirAt l = false
  := by
  rw [isDirAt, h]
  rfl

/-- A file that gets another name leaves nothing behind. -/
theorem holding_source_of_rename {source target : Path} (h : T.rename base source target = .ok S)
    (hfile : T.holding (source.place base).location = .file bytes)
    (hne : (source.place base).location ≠ (target.place base).location) :
  S.holding (source.place base).location = .nothing
  := by
  obtain ⟨serial, mode, hlookup⟩ := holding_eq_file_iff.mp hfile
  rcases moved_of_rename h hlookup with ⟨hsame, -⟩ | ⟨hdir, rfl⟩
  · exact absurd hsame hne
  · have hsource := ne_nil_of_isDirAt (isDirAt_of_lookup_file hlookup)
    rw [holding_eq_nothing_iff, lookup_set (ne_nil_of_isDirAt hdir) (admits_of_moved hlookup _),
      if_neg hne, lookup_erase hsource, if_pos rfl]

/-- Giving a file another name changes no location but its old and its new one. -/
theorem lookup_of_rename {source target : Path} (h : T.rename base source target = .ok S)
    (hfile : T.holding (source.place base).location = .file bytes)
    (hsource : l ≠ (source.place base).location) (htarget : l ≠ (target.place base).location) :
  S.lookup l = T.lookup l
  := by
  obtain ⟨serial, mode, hlookup⟩ := holding_eq_file_iff.mp hfile
  rcases moved_of_rename h hlookup with ⟨-, rfl⟩ | ⟨hdir, rfl⟩
  · rfl
  · have hnil := ne_nil_of_isDirAt (isDirAt_of_lookup_file hlookup)
    rw [lookup_set (ne_nil_of_isDirAt hdir) (admits_of_moved hlookup _), if_neg htarget,
      lookup_erase hnil, if_neg hsource]

/-! ### What a tree keeps -/

variable {cwd : Location} {way : Prop} {T₀ : Tree}

/-- The current directory is there, and a location retains what it showed. -/
structure Keeps (cwd l : Location) (way : Prop) (T₀ T : Tree) : Prop where
  home : T.IsHome cwd
  retains : Retains way l T₀ T

namespace Keeps

theorem refl (hhome : T.IsHome cwd) (l : Location) (way : Prop) :
  Keeps cwd l way T T
  := ⟨hhome, Retains.refl way l T⟩

theorem trans {way' : Prop} (h : Keeps cwd l way T₀ T) (h' : Keeps cwd l way' T S)
    (hway : way' → way) :
  Keeps cwd l way T₀ S
  := ⟨h'.home, h.retains.trans h'.retains hway⟩

theorem of_lookup_eq (h : Keeps cwd l way T₀ T)
    (hdirs : ∀ k, T.isDirAt k = true → S.isDirAt k = true) (hl : S.lookup l = T.lookup l) :
  Keeps cwd l way T₀ S
  := by
  constructor
  · intro k hk
    exact hdirs k (h.home k hk)
  · rw [Retains, holding_of_lookup_eq hl]
    exact h.retains

theorem makeDirs (h : Keeps cwd l way T₀ T) (hway : l ∈ p.stops cwd → way) :
  Keeps cwd l way T₀ (T.makeDirs cwd p).2
  := by
  constructor
  · intro k hk
    exact isDirAt_makeDirs cwd p (h.home k hk)
  · exact h.retains.trans (retains_makeDirs T cwd p l) hway

/-- A file of another place is opened, and bytes are added to it. -/
theorem opens {emptied : Bool} {mode serial : Nat} {opened : Tree} (h : Keeps cwd l way T₀ T)
    (hopens : T.Opens k emptied mode serial opened) (hne : k ≠ l) :
  Keeps cwd l way T₀ opened
  := h.of_lookup_eq (fun k hk => (hopens.isDirAt k).trans hk) (hopens.lookup_of_ne hne.symm)

theorem append {serial : Nat} (h : Keeps cwd l way T₀ T) (hserial : T.serialAt k = some serial)
    (hne : k ≠ l) (bytes : Bytes) :
  Keeps cwd l way T₀ (T.append serial bytes)
  := h.of_lookup_eq (fun k hk => (isDirAt_append T serial bytes k).trans hk)
    (lookup_append_of_ne hserial bytes hne.symm)

theorem write (h : Keeps cwd l way T₀ T) (hwrite : T.write cwd p bytes = .ok S)
    (hne : (p.place cwd).location ≠ l) :
  Keeps cwd l way T₀ S
  := by
  obtain ⟨serial, opened, hopen, rfl⟩ := write_eq_ok_iff.mp hwrite
  obtain ⟨-, hopens⟩ := openFile_eq_ok_iff.mp hopen
  exact (h.opens hopens hne).append hopens.serialAt_self hne bytes

theorem remove (h : Keeps cwd l way T₀ T) (hremove : T.remove cwd p = .ok S)
    (hne : (p.place cwd).location ≠ l) :
  Keeps cwd l way T₀ S
  := by
  obtain ⟨k, hnamed, hfile, rfl⟩ := exists_erase_of_remove hremove
  obtain rfl := hnamed.eq
  have hnil := ne_nil_of_isDirAt hfile
  apply h.of_lookup_eq fun k hk => (isDirAt_erase hfile k).trans hk
  rw [lookup_erase hnil, if_neg hne.symm]

theorem copyUpTo (h : Keeps cwd l way T₀ T) {source target : Path}
    (hne : (target.place cwd).location ≠ l) (n : Nat) :
  Keeps cwd l way T₀ (T.copyUpTo cwd source target n)
  := by
  rcases copyUpTo_cases T cwd source target n with
    hsame | ⟨mode, serial, opened, written, hopen, hcopied⟩
  · rw [hsame]
    exact h
  · obtain ⟨-, hopens⟩ := openFile_eq_ok_iff.mp hopen
    rw [hcopied]
    exact (h.opens hopens hne).append hopens.serialAt_self hne written

end Keeps

/-- No file can be opened at a path without a file name. -/
theorem IsHome.openFile_ne_ok (h : T.IsHome base) (hname : p.fileName? = none) {emptied : Bool}
    {mode : Nat} {found : Nat × Tree} :
  T.openFile base p emptied mode ≠ .ok found
  := by
  intro hopen
  obtain ⟨hroom, hopens⟩ := openFile_eq_ok_iff.mp hopen
  have hdir := h.isDirAt_of_no_fileName hname hroom.1
  rw [hopens.isDirAt_eq_false] at hdir
  cases hdir

end Tree

end Bindery
