import Bindery.Proofs.Compile.Verdict
import Bindery.Proofs.Tree.Opening

/-!
# Who makes the artifact

An old artifact is cleared away before the first pass, and unless the log is where the artifact
is expected, nothing but the compiler can put one there afterwards.  So a compilation succeeds
only if one of its calls of the compiler makes the artifact (`Succeeds.exists_creates`).
-/

namespace Bindery

namespace Tree

variable {T T' opened : Tree} {base : Location} {p q : Path}

theorem exists?_eq_false_of_lookup (h : T.lookup (p.place base).location = none) :
  T.exists? base p = false
  := by
  unfold exists? node
  cases hplace : T.resolve base p with
  | error cause => rfl
  | ok place =>
    obtain rfl := eq_place_of_resolve hplace
    dsimp only
    rw [h]
    rfl

/-- Opening a file elsewhere makes nothing. -/
theorem exists?_of_openFile {emptied : Bool} {mode serial : Nat}
    (hopen : T.openFile base q emptied mode = .ok (serial, opened))
    (hne : (p.place base).location ≠ (q.place base).location) :
  opened.exists? base p = T.exists? base p
  := by
  obtain ⟨-, hopens⟩ := openFile_eq_ok_iff.mp hopen
  exact exists?_congr hopens.isDirAt (by rw [hopens.lookup_of_ne hne])

theorem exists?_append (T : Tree) (serial : Nat) (bytes : Bytes) (base : Location) (p : Path) :
  (T.append serial bytes).exists? base p = T.exists? base p
  := exists?_congr (isDirAt_append T serial bytes) (by rw [lookup_append, Option.isSome_map])

end Tree

namespace Compile

variable {c : Course} {p : Programs} {cwd : Location} {t : Task} {T T' : Tree} {e : Ending}

/-- Nothing is left where an old artifact was cleared away. -/
theorem Cleared.exists?_eq_false {artifact : Path} (h : Cleared T cwd artifact T') :
  T'.exists? cwd artifact = false
  := by
  rcases h with hremove | ⟨hmissing, rfl⟩
  · obtain ⟨k, hnamed, hfile, rfl⟩ := Tree.exists_erase_of_remove hremove
    apply Tree.exists?_eq_false_of_lookup
    rw [← hnamed.eq, Tree.lookup_erase (Tree.ne_nil_of_isDirAt hfile), if_pos rfl]
  · unfold Tree.remove at hmissing
    unfold Tree.exists?
    cases hnode : T'.node cwd artifact with
    | error cause => rfl
    | ok found =>
      obtain ⟨l, n⟩ := found
      rw [hnode] at hmissing
      cases n <;> cases hmissing

/-- A call of the compiler makes the artifact. -/
def Creates (p : Programs) (cwd : Location) (t : Task) : Prop :=
  ∃ log T, T.exists? cwd t.artifact = false
    ∧ (p (t.invocation log) cwd T).2.exists? cwd t.artifact = true

/-- If there is an artifact after a pass and was none before, the compiler made it. -/
theorem Completes.creates (h : Completes p cwd t T e T')
    (hapart : (t.artifact.place cwd).location ≠ (t.log.place cwd).location)
    (hbefore : T.exists? cwd t.artifact = false) (hafter : T'.exists? cwd t.artifact = true) :
  Creates p cwd t
  := by
  obtain ⟨ended, ⟨log, opened, hopen, hrun, -⟩, hsigned⟩ := h
  refine ⟨log, opened, ?_, ?_⟩
  · rw [Tree.exists?_of_openFile hopen hapart, hbefore]
  · rw [hrun]
    unfold Signed at hsigned
    split at hsigned
    · rw [← hsigned, hafter]
    · obtain ⟨log', opened', hopen', rfl⟩ := hsigned
      rw [Tree.exists?_append, Tree.exists?_of_openFile hopen' hapart] at hafter
      exact hafter

/-- If there is an artifact after some passes, the compiler made it in one of them. -/
theorem Reaches.exists_creates {endings : List Ending} (h : Reaches c cwd t T endings T')
    (hapart : (t.artifact.place cwd).location ≠ (t.log.place cwd).location)
    (hexists : T'.exists? cwd t.artifact = true) :
  ∃ n < endings.length, Creates (c n) cwd t
  := by
  induction h with
  | start cleared =>
    rw [cleared.exists?_eq_false] at hexists
    cases hexists
  | @pass before T₁ T₂ _ earlier last ih =>
    rw [List.length_append, List.length_singleton]
    by_cases hbefore : T₁.exists? cwd t.artifact = true
    · obtain ⟨n, hn, hcreates⟩ := ih hbefore
      exact ⟨n, Nat.lt_succ_of_lt hn, hcreates⟩
    · use before.length, Nat.lt_succ_self _
      exact last.creates hapart (eq_false_of_ne_true hbefore) hexists

/-- A compilation succeeds only if the compiler makes the artifact in one of the passes. -/
theorem Succeeds.exists_creates (h : Succeeds c cwd t T e)
    (hapart : (t.artifact.place cwd).location ≠ (t.log.place cwd).location) :
  ∃ n < compilerPasses, Creates (c n) cwd t
  := by
  obtain ⟨e₁, T₁, T₂, reached, last, -, hexists⟩ := h
  exact (reached.pass last).exists_creates hapart hexists

end Compile

end Bindery
