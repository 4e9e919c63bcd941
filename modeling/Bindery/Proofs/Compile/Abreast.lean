import Bindery.Proofs.Compile.Verdict
import Bindery.Proofs.Tree.Alike

/-!
# Compiling side by side

The steps of compiling on two trees that look alike off the log and the artifact (`SetOut`), by
a compiler that only appends to the log and does not depend on what the log held before
(`Blind`).  Clearing away the artifact leaves trees that look alike off the log.  From there on
a pass that runs to its end on one of them does so on the other, and adds the same bytes to the
log (`Abreast`).
-/

namespace Bindery.Compile

open Bindery.Tree

/-! ### Trees in two runs -/

/-- The trees look alike off a location, where both have a file with certain bytes. -/
structure Abreast (l : Location) (T T' : Tree) (b b' : Bytes) : Prop where
  alike : Alike (· = l) T T'
  file : ∃ serial mode, T.lookup l = some (.file serial mode b)
  file' : ∃ serial mode, T'.lookup l = some (.file serial mode b')

/-- The location of the log. -/
abbrev Task.logPlace (t : Task) (cwd : Location) : Location :=
  (t.log.place cwd).location

/-- What the compiler does does not depend on what the log held before, and it only appends to
it. -/
def Blind (p : Programs) (cwd : Location) (t : Task) : Prop :=
  ∀ {T T' : Tree} {b b' : Bytes} {log log' : Handle}, Abreast (t.logPlace cwd) T T' b b' →
    T.serialAt (t.logPlace cwd) = some log → T'.serialAt (t.logPlace cwd) = some log' →
    (p (t.invocation log) cwd T).1 = (p (t.invocation log') cwd T').1
      ∧ ∃ out, Abreast (t.logPlace cwd) (p (t.invocation log) cwd T).2
        (p (t.invocation log') cwd T').2 (b ++ out) (b' ++ out)

variable {p : Programs} {c : Course} {cwd : Location} {t : Task} {T T' S : Tree} {e : Ending}
  {l : Location} {b b' : Bytes}

theorem Abreast.symm (h : Abreast l T T' b b') :
  Abreast l T' T b' b
  := ⟨h.alike.symm, h.file', h.file⟩

/-- Opening a file at the location in both trees. -/
theorem abreast_of_opens {mode log log' : Nat} {opened opened' : Tree} (h : Alike (· = l) T T')
    (hopens : T.Opens l false mode log opened) (hopens' : T'.Opens l false mode log' opened') :
  Abreast l opened opened' (T.contents l) (T'.contents l)
  := by
  constructor
  · exact h.opens hopens hopens'
  · obtain ⟨_, hfile⟩ := hopens.lookup_kept
    exact ⟨_, _, hfile⟩
  · obtain ⟨_, hfile⟩ := hopens'.lookup_kept
    exact ⟨_, _, hfile⟩

theorem contents_of_lookup {serial mode : Nat} (h : T.lookup l = some (.file serial mode b)) :
  T.contents l = b
  := by
  rw [contents, h]

theorem Abreast.contents (h : Abreast l T T' b b') :
  T.contents l = b
  := by
  obtain ⟨serial, mode, hfile⟩ := h.file
  exact contents_of_lookup hfile

/-- Adding bytes to the files at the location in both trees. -/
theorem Abreast.append {log log' : Nat} (h : Abreast l T T' b b')
    (hlog : T.serialAt l = some log) (hlog' : T'.serialAt l = some log') (out : Bytes) :
  Abreast l (T.append log out) (T'.append log' out) (b ++ out) (b' ++ out)
  := by
  obtain ⟨mode, old, hfile⟩ := exists_file_of_serialAt hlog
  obtain ⟨mode', old', hfile'⟩ := exists_file_of_serialAt hlog'
  have hold : old = b := (contents_of_lookup hfile).symm.trans h.contents
  have hold' : old' = b' := (contents_of_lookup hfile').symm.trans h.symm.contents
  subst hold hold'
  constructor
  · exact h.alike.append hlog hlog' out
  · exact ⟨_, _, lookup_append_self hfile out⟩
  · exact ⟨_, _, lookup_append_self hfile' out⟩

/-! ### Clearing away in two runs -/

variable {artifact : Path} {T₁ : Tree} {k : Location}

theorem Cleared.isDirAt (h : Cleared T cwd artifact T₁) (k : Location) :
  T₁.isDirAt k = T.isDirAt k
  := by
  rcases h with h | ⟨-, rfl⟩
  · obtain ⟨l, -, hl, rfl⟩ := exists_erase_of_remove h
    have hnil : l ≠ [] := ne_nil_of_isDirAt hl
    by_cases hk : k = l
    · rw [hk, hl, Tree.isDirAt, lookup_erase hnil, if_pos rfl]
      rfl
    · rw [Tree.isDirAt, lookup_erase hnil, if_neg hk, Tree.isDirAt]
  · rfl

/-- Nothing is left at the location of the artifact. -/
theorem Cleared.lookup_of_named (h : Cleared T cwd artifact T₁) (hk : T.Named cwd artifact k) :
  T₁.lookup k = none
  := by
  rcases h with h | ⟨h, rfl⟩
  · obtain ⟨l, hnamed, hl, rfl⟩ := exists_erase_of_remove h
    rw [hk.eq, ← hnamed.eq, lookup_erase (ne_nil_of_isDirAt hl), if_pos rfl]
  · exact lookup_eq_none_of_remove h hk

theorem Cleared.lookup_of_not_named (h : Cleared T cwd artifact T₁)
    (hk : ¬ T.Named cwd artifact k) :
  T₁.lookup k = T.lookup k
  := by
  rcases h with h | ⟨-, rfl⟩
  · obtain ⟨l, hnamed, hl, rfl⟩ := exists_erase_of_remove h
    have hkl : k ≠ l := by
      rintro rfl
      exact hk hnamed
    rw [lookup_erase (ne_nil_of_isDirAt hl), if_neg hkl]
  · rfl

/-- The trees look alike off the log and the artifact, and the artifact can be cleared away in
both or in none. -/
structure SetOut (cwd : Location) (t : Task) (T T' : Tree) : Prop where
  alike : Alike (fun k => T.Named cwd t.log k ∨ T.Named cwd t.artifact k) T T'
  clears : (∃ T₁, Cleared T cwd t.artifact T₁) ↔ ∃ T₁, Cleared T' cwd t.artifact T₁

theorem SetOut.symm (h : SetOut cwd t T T') :
  SetOut cwd t T' T
  := by
  constructor
  · apply h.alike.symm.mono
    rintro k (hk | hk)
    · exact Or.inl ((named_congr h.alike.dirs _ _ _).mp hk)
    · exact Or.inr ((named_congr h.alike.dirs _ _ _).mp hk)
  · exact h.clears.symm

/-- Without the artifact, the trees look alike off the log. -/
theorem Cleared.alike (h : Cleared T cwd t.artifact T₁) (hT : SetOut cwd t T T') :
  ∃ T₁', Cleared T' cwd t.artifact T₁' ∧ Alike (· = t.logPlace cwd) T₁ T₁'
  := by
  obtain ⟨T₁', h'⟩ := hT.clears.mp ⟨T₁, h⟩
  use T₁', h'
  constructor
  · intro k hk
    by_cases hnamed : T.Named cwd t.artifact k
    · have hnamed' := (named_congr hT.alike.dirs _ _ _).mp hnamed
      rw [Tree.shown, Tree.shown, h.lookup_of_named hnamed, h'.lookup_of_named hnamed']
    · have hnamed' := mt (named_congr hT.alike.dirs _ _ _).mpr hnamed
      rw [Tree.shown, Tree.shown, h.lookup_of_not_named hnamed, h'.lookup_of_not_named hnamed']
      apply hT.alike.shown
      rintro (hlog | hartifact)
      · exact hk hlog.eq
      · exact hnamed hartifact
  · intro k
    rw [h.isDirAt, h'.isDirAt, hT.alike.dirs]

/-! ### Passes in two runs -/

theorem Ends.abreast (h : Ends p cwd t T e S) (hp : Blind p cwd t)
    (hT : Alike (· = t.logPlace cwd) T T') :
  ∃ S' out, Ends p cwd t T' e S' ∧ Abreast (t.logPlace cwd) S S'
    (T.contents (t.logPlace cwd) ++ out) (T'.contents (t.logPlace cwd) ++ out)
  := by
  obtain ⟨log, opened, hopen, hrun, he⟩ := h
  obtain ⟨log', opened', hopen', hopens, hopens', -⟩ := hT.openFile hopen
  have hopened := abreast_of_opens hT hopens hopens'
  obtain ⟨hresult, out, hended⟩ := hp hopened hopens.serialAt_self hopens'.serialAt_self
  rw [hrun] at hresult hended
  refine ⟨_, out, ⟨log', opened', hopen', ?_, he⟩, hended⟩
  exact Prod.ext hresult.symm rfl

theorem Signed.abreast (h : Signed cwd t T e S) (hT : Abreast (t.logPlace cwd) T T' b b') :
  ∃ S' out, Signed cwd t T' e S' ∧ Abreast (t.logPlace cwd) S S' (b ++ out) (b' ++ out)
  := by
  by_cases he : e = .exited 0
  · rw [Signed, if_pos he] at h
    subst h
    use T', []
    rw [Signed, if_pos he, List.append_nil, List.append_nil]
    exact ⟨rfl, hT⟩
  · rw [Signed, if_neg he] at h
    obtain ⟨log, opened, hopen, rfl⟩ := h
    obtain ⟨log', opened', hopen', hopens, hopens', -⟩ := hT.alike.openFile hopen
    have hopened := abreast_of_opens hT.alike hopens hopens'
    rw [hT.contents, hT.symm.contents] at hopened
    refine ⟨_, _, ?_, hopened.append hopens.serialAt_self hopens'.serialAt_self _⟩
    rw [Signed, if_neg he]
    exact ⟨log', opened', hopen', rfl⟩

/-- A pass that runs to its end in one of two trees that look alike off the log does so in the
other, and the log gets the same bytes in both. -/
theorem Completes.abreast (h : Completes p cwd t T e S) (hp : Blind p cwd t)
    (hT : Alike (· = t.logPlace cwd) T T') :
  ∃ S' out, Completes p cwd t T' e S' ∧ Abreast (t.logPlace cwd) S S'
    (T.contents (t.logPlace cwd) ++ out) (T'.contents (t.logPlace cwd) ++ out)
  := by
  obtain ⟨ended, hends, hsigned⟩ := h
  obtain ⟨ended', out, hends', hended⟩ := hends.abreast hp hT
  obtain ⟨S', line, hsigned', hS⟩ := hsigned.abreast hended
  rw [List.append_assoc, List.append_assoc] at hS
  exact ⟨S', out ++ line, ⟨ended', hends', hsigned'⟩, hS⟩

/-- The log of a pass that runs to its end can be opened before. -/
theorem Completes.hasRoom (h : Completes p cwd t T e S) :
  T.HasRoom cwd t.log
  := by
  obtain ⟨ended, ⟨log, opened, hopen, -⟩, -⟩ := h
  exact (openFile_eq_ok_iff.mp hopen).1

/-- What the log got after its first bytes is the same in trees that are abreast. -/
theorem Abreast.drop_bytesAt {out : Bytes}
    (h : Abreast (t.logPlace cwd) T T' (b ++ out) (b' ++ out)) :
  (T.bytesAt cwd t.log).drop b.length = (T'.bytesAt cwd t.log).drop b'.length
  := by
  by_cases hroom : T.HasRoom cwd t.log
  · have hroom' := (hasRoom_congr h.alike.dirs cwd t.log).mp hroom
    rw [bytesAt_of_hasRoom hroom, bytesAt_of_hasRoom hroom', h.contents, h.symm.contents,
      List.drop_left, List.drop_left]
  · have hroom' := mt (hasRoom_congr h.alike.dirs cwd t.log).mpr hroom
    rw [bytesAt_of_not_hasRoom hroom, bytesAt_of_not_hasRoom hroom', List.drop_nil,
      List.drop_nil]

/-- An artifact is there in both of two trees that are abreast, or in none. -/
theorem Abreast.exists? (h : Abreast l T T' b b') (artifact : Path) :
  T.exists? cwd artifact = T'.exists? cwd artifact
  := by
  apply exists?_congr h.alike.dirs
  by_cases hl : (artifact.place cwd).location = l
  · obtain ⟨_, _, hfile⟩ := h.file
    obtain ⟨_, _, hfile'⟩ := h.file'
    rw [hl, hfile, hfile']
    rfl
  · exact h.alike.lookup_isSome hl

end Bindery.Compile
