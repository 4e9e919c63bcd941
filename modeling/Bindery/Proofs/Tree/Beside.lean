import Bindery.Proofs.Tree.Alike
import Bindery.Proofs.Tree.Written

/-!
# A tree with one more file

A tree is `Beside` another at a location if it has a file there with certain bytes, and looks like
the other one everywhere else.  A path that does not lead there or through there
(`Path.Avoids`) cannot tell the two trees apart: what it names can be looked at, read, written and
removed in both with the same result (`Beside.node`, `Beside.read`, `Beside.write`,
`Beside.remove`), and the trees stay beside each other.
-/

namespace Bindery

/-! ### Ways that avoid a location -/

/-- Neither the place of the path nor any stop on the way there is at the location. -/
def Path.Avoids (base : Location) (p : Path) (l : Location) : Prop :=
  (p.place base).location ≠ l
    ∧ l ∉ Location.stops (if p.isAbsolute then [] else base) p.segments

instance (base : Location) (p : Path) (l : Location) : Decidable (p.Avoids base l) :=
  inferInstanceAs (Decidable (_ ∧ _))

theorem Path.Avoids.within {base l : Location} {p : Path} (h : p.Avoids base l) :
  p.Within base fun k => ¬ k = l
  := by
  use h.1
  rintro k hk rfl
  exact h.2 hk

namespace Tree

variable {T T' S : Tree} {l k base : Location} {p : Path} {bytes : Bytes}

/-- A name in a directory avoids another name there, at which there is a place for a file. -/
theorem avoids_join {name other : String} (hname : Path.IsName name) (hother : Path.IsName other)
    (hne : name ≠ other) (hroom : T.HasRoom base (p.join other))
    (hfile : T.isDirAt ((p.join other).place base).location = false) :
  (p.join name).Avoids base ((p.join other).place base).location
  := by
  have hlocation : ((p.join name).place base).location
      ≠ ((p.join other).place base).location := by
    rw [Path.location_join _ _ hname, Path.location_join _ _ hother]
    intro h
    have hsame := List.append_cancel_left h
    injection hsame with hsame
    exact hne hsame
  obtain ⟨-, -, hwalk⟩ := resolve_eq_ok_iff.mp hroom.1
  rw [Path.isAbsolute_join p hother, Path.segments_join p hother] at hwalk
  use hlocation
  rw [Path.isAbsolute_join p hname, Path.segments_join p hname, Location.stops_append,
    List.mem_append, not_or]
  constructor
  · intro hstop
    rw [isDirAt_of_walk hwalk _ hstop] at hfile
    cases hfile
  · rw [Location.stops, Location.stops, List.mem_singleton]
    rw [Path.location_join _ _ hname, Path.place] at hlocation
    rw [Location.after, if_neg hname.notDot, if_neg hname.notDots]
    exact hlocation.symm

/-- A name in a directory avoids another name there under which a file can be written. -/
theorem avoids_of_write {name other : String} (hname : Path.IsName name)
    (hother : Path.IsName other) (hne : name ≠ other)
    (hwrite : T.write base (p.join other) bytes = .ok S) :
  (p.join name).Avoids base ((p.join other).place base).location
  := by
  obtain ⟨serial, opened, hopen, -⟩ := write_eq_ok_iff.mp hwrite
  obtain ⟨hroom, hopens⟩ := openFile_eq_ok_iff.mp hopen
  exact avoids_join hname hother hne hroom hopens.isDirAt_eq_false

/-! ### Trees beside each other -/

/-- The second tree has a file with certain bytes at the location, and looks like the first one
everywhere else. -/
structure Beside (l : Location) (bytes : Bytes) (T T' : Tree) : Prop where
  alike : Alike (· = l) T T'
  file : ∃ serial mode, T'.lookup l = some (.file serial mode bytes)

/-- Writing a file makes a tree that is beside the old one. -/
theorem beside_write (hwrite : T.write base p bytes = .ok S) :
  Beside (p.place base).location bytes T S
  := by
  constructor
  · constructor
    · intro k hk
      rw [shown, shown, lookup_write_of_ne hwrite hk]
    · intro k
      rw [isDirAt_write hwrite]
  · obtain ⟨-, hfile⟩ := read_eq_ok_iff.mp (read_write hwrite)
    exact hfile

variable {old : Bytes}

theorem Beside.agreeOn (h : Beside l old T T') :
  AgreeOn (fun k => ¬ k = l) T T'
  := h.alike.agreeOn

/-- Reading a file gives the same in both trees. -/
theorem Beside.read (h : Beside l old T T') (hp : p.Avoids base l) :
  T'.read base p = T.read base p
  := h.agreeOn.read hp.within

/-- Opening a file fails in both trees alike, or in none. -/
theorem Beside.openFile (h : Beside l old T T') (hp : p.Avoids base l) (emptied : Bool)
    (mode : Nat) :
  (∃ e, T.openFile base p emptied mode = .error e ∧ T'.openFile base p emptied mode = .error e)
    ∨ ∃ serial opened serial' opened', T.openFile base p emptied mode = .ok (serial, opened)
      ∧ T'.openFile base p emptied mode = .ok (serial', opened')
      ∧ opened.serialAt (p.place base).location = some serial
      ∧ opened'.serialAt (p.place base).location = some serial' ∧ Beside l old opened opened'
  := by
  rcases h.agreeOn.openFile hp.within emptied mode with
    hfail | ⟨serial, opened, serial', opened', ho, ho', hopens, hopens', -⟩
  · exact Or.inl hfail
  · right
    refine ⟨serial, opened, serial', opened', ho, ho', hopens.serialAt_self,
      hopens'.serialAt_self, h.alike.opens hopens hopens', ?_⟩
    obtain ⟨s, m, hfile⟩ := h.file
    use s, m
    rw [hopens'.lookup_of_ne (Ne.symm hp.1), hfile]

/-- Adding bytes to a file at another location keeps the trees beside each other. -/
theorem Beside.append {serial serial' : Nat} (h : Beside l old T T') (hk : k ≠ l)
    (hserial : T.serialAt k = some serial) (hserial' : T'.serialAt k = some serial')
    (bytes : Bytes) :
  Beside l old (T.append serial bytes) (T'.append serial' bytes)
  := by
  use h.alike.append hserial hserial' bytes
  obtain ⟨s, m, hfile⟩ := h.file
  use s, m
  rw [lookup_append_of_ne hserial' bytes (Ne.symm hk), hfile]

/-- Writing a file fails in both trees alike, or in none. -/
theorem Beside.write (h : Beside l old T T') (hp : p.Avoids base l) (bytes : Bytes) :
  (∃ e, T.write base p bytes = .error e ∧ T'.write base p bytes = .error e)
    ∨ ∃ S S', T.write base p bytes = .ok S ∧ T'.write base p bytes = .ok S' ∧ Beside l old S S'
  := by
  unfold Tree.write
  rcases h.openFile hp true newFileMode with
    ⟨e, he, he'⟩ | ⟨serial, opened, serial', opened', ho, ho', hserial, hserial', hopened⟩
  · left
    use e
    rw [he, he']
    exact ⟨rfl, rfl⟩
  · right
    use opened.append serial bytes, opened'.append serial' bytes
    rw [ho, ho']
    exact ⟨rfl, rfl, hopened.append hp.1 hserial hserial' bytes⟩

theorem Beside.erase (h : Beside l old T T') (hk : k ≠ l) (hnil : k ≠ []) :
  Beside l old (T.erase k) (T'.erase k)
  := by
  constructor
  · apply (h.agreeOn.erase hnil).alike
    intro j
    rw [isDirAt, isDirAt, lookup_erase hnil, lookup_erase hnil]
    split
    · rfl
    · exact h.alike.dirs j
  · obtain ⟨s, m, hfile⟩ := h.file
    use s, m
    rw [lookup_erase hnil, if_neg (Ne.symm hk), hfile]

/-- Removing a file fails in both trees alike, or in none. -/
theorem Beside.remove (h : Beside l old T T') (hp : p.Avoids base l) :
  (∃ e, T.remove base p = .error e ∧ T'.remove base p = .error e)
    ∨ ∃ S S', T.remove base p = .ok S ∧ T'.remove base p = .ok S' ∧ Beside l old S S'
  := by
  rcases h.agreeOn.remove hp.within with hfail | ⟨hremove, hremove', hdir⟩
  · exact Or.inl hfail
  · exact Or.inr ⟨_, _, hremove, hremove', h.erase hp.1 (ne_nil_of_isDirAt hdir)⟩

end Tree

end Bindery
