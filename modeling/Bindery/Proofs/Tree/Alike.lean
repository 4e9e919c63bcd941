import Bindery.Proofs.Tree.Agree

/-!
# Trees that look alike

Two trees are `Alike` off some locations if they have the same nodes everywhere else, up to
the serial numbers of files, and the same directories.  Opening and writing files keeps this
(`Alike.openFile`, `Alike.append`, `Alike.write`).
-/

namespace Bindery

namespace Tree

variable {T T' S opened : Tree} {l k base : Location} {p : Path}
  {emptied : Bool} {mode serial : Nat} {bytes : Bytes}

/-- Two trees show the same off some locations, and have the same directories. -/
structure Alike (off : Location → Prop) (T T' : Tree) : Prop where
  shown : ∀ k, ¬ off k → T.shown k = T'.shown k
  dirs : ∀ k, T.isDirAt k = T'.isDirAt k

variable {off : Location → Prop}

theorem Alike.symm (h : Alike off T T') :
  Alike off T' T
  := ⟨fun k hk => (h.shown k hk).symm, fun k => (h.dirs k).symm⟩

theorem Alike.mono {more : Location → Prop} (h : Alike off T T') (hoff : ∀ k, off k → more k) :
  Alike more T T'
  := ⟨fun k hk => h.shown k (mt (hoff k) hk), h.dirs⟩

theorem Alike.agreeOn (h : Alike off T T') :
  AgreeOn (fun k => ¬ off k) T T'
  := ⟨h.shown⟩

theorem AgreeOn.alike (h : AgreeOn (fun k => ¬ off k) T T')
    (hdirs : ∀ k, T.isDirAt k = T'.isDirAt k) :
  Alike off T T'
  := ⟨h.shown, hdirs⟩

theorem Alike.lookup_isSome (h : Alike off T T') (hl : ¬ off l) :
  (T.lookup l).isSome = (T'.lookup l).isSome
  := by
  have hshown := congrArg Option.isSome (h.shown l hl)
  rwa [Tree.shown, Tree.shown, Option.isSome_map, Option.isSome_map] at hshown

theorem Alike.opens {serial' : Nat} {opened' : Tree} (h : Alike off T T')
    (hopens : T.Opens l emptied mode serial opened)
    (hopens' : T'.Opens l emptied mode serial' opened') :
  Alike off opened opened'
  := by
  apply (h.agreeOn.opens hopens hopens').alike
  intro k
  rw [hopens.isDirAt, hopens'.isDirAt, h.dirs]

theorem Alike.append {serial' : Nat} (h : Alike off T T') (hl : T.serialAt l = some serial)
    (hl' : T'.serialAt l = some serial') (bytes : Bytes) :
  Alike off (T.append serial bytes) (T'.append serial' bytes)
  := by
  apply (h.agreeOn.append hl hl' bytes).alike
  intro k
  rw [isDirAt_append, isDirAt_append, h.dirs]

/-- What can be opened in one of two trees that look alike can be opened in the other. -/
theorem Alike.openFile (h : Alike off T T')
    (hopen : T.openFile base p emptied mode = .ok (serial, opened)) :
  ∃ serial' opened', T'.openFile base p emptied mode = .ok (serial', opened')
    ∧ T.Opens (p.place base).location emptied mode serial opened
    ∧ T'.Opens (p.place base).location emptied mode serial' opened'
    ∧ Alike off opened opened'
  := by
  obtain ⟨hroom, hopens⟩ := openFile_eq_ok_iff.mp hopen
  have hdir := hopens.isDirAt_eq_false
  rw [h.dirs] at hdir
  obtain ⟨serial', opened', hopens'⟩ := exists_opens hdir emptied mode
  have hroom' := (hasRoom_congr h.dirs base p).mp hroom
  refine ⟨serial', opened', ?_, hopens, hopens', h.opens hopens hopens'⟩
  apply openFile_eq_ok_iff.mpr
  exact ⟨hroom', hopens'⟩

/-- What can be written in one of two trees that look alike can be written in the other. -/
theorem Alike.write (h : Alike off T T') (hwrite : T.write base p bytes = .ok S) :
  ∃ S', T'.write base p bytes = .ok S' ∧ Alike off S S'
  := by
  obtain ⟨serial, opened, hopen, rfl⟩ := write_eq_ok_iff.mp hwrite
  obtain ⟨serial', opened', hopen', hopens, hopens', halike⟩ := h.openFile hopen
  use opened'.append serial' bytes, write_eq_ok_iff.mpr ⟨serial', opened', hopen', rfl⟩
  exact halike.append hopens.serialAt_self hopens'.serialAt_self bytes

end Tree

end Bindery
