import Mathlib.Logic.Function.Iterate
import Bindery.Outline.Turns
import Bindery.Proofs.Outline.Balance

/-!
# Where turns end

A loop has no answer exactly if its condition holds after every number of turns
(`Loop.run?_eq_none_iff`).  The turns that open lists always end, and so do those that close all
of them; but those that close lists down to a depth end only if the depth is not below that of an
outline without open lists.  A step in turns that ends is the step of the outline (`item?_eq`).  So
an item of a level, written in turns, is written at all exactly if the depth that it asks for is
less than `2 ^ 63`, and then the outline is at that depth (`turns_end_iff`).
-/

namespace Bindery

/-! ### Loops -/

namespace Loop

variable {σ : Type} {l : Loop σ} {start state : σ}

theorem run?_of_true (h : l.condition start = true) :
  l.run? start = l.run? (l.turn start)
  := by rw [run?, if_pos h]

theorem run?_of_false (h : l.condition start = false) :
  l.run? start = some start
  := by rw [run?, if_neg (Bool.not_eq_true _ ▸ h)]

/-- A loop ends with the first state that does not meet its condition. -/
theorem run?_eq_some {n : Nat} (hgo : ∀ k < n, l.condition (l.turn^[k] start) = true)
    (hend : l.condition (l.turn^[n] start) = false) :
  l.run? start = some (l.turn^[n] start)
  := by
  induction n generalizing start with
  | zero => exact run?_of_false hend
  | succ n ih =>
    have hstart : l.condition start = true := hgo 0 n.succ_pos
    rw [run?_of_true hstart]
    apply ih
    · intro k hk
      exact hgo (k + 1) (Nat.succ_lt_succ hk)
    · exact hend

/-- A loop ends if its condition fails to hold after some number of turns. -/
theorem run?_ne_none {n : Nat} (hend : l.condition (l.turn^[n] start) = false) :
  l.run? start ≠ none
  := by
  induction n generalizing start with
  | zero =>
    have hstart : l.condition start = false := hend
    rw [run?_of_false hstart]
    exact Option.some_ne_none start
  | succ n ih =>
    cases hstart : l.condition start with
    | true =>
      rw [run?_of_true hstart]
      exact ih hend
    | false =>
      rw [run?_of_false hstart]
      exact Option.some_ne_none start

/-- A loop that ends has taken some number of turns. -/
theorem exists_of_run? (h : l.run? start = some state) :
  ∃ n, l.condition (l.turn^[n] start) = false
  := by
  refine run?.partial_correctness l (fun start _ => ∃ n, l.condition (l.turn^[n] start) = false)
    ?_ start state h
  intro loop ih start state h
  split at h
  · obtain ⟨n, hn⟩ := ih (l.turn start) state h
    exact ⟨n + 1, hn⟩
  · next hend => exact ⟨0, eq_false_of_ne_true hend⟩

/-- A loop has no end exactly if its condition holds after every number of turns. -/
theorem run?_eq_none_iff :
  l.run? start = none ↔ ∀ n, l.condition (l.turn^[n] start) = true
  := by
  constructor
  · intro h n
    by_contra hend
    exact run?_ne_none (eq_false_of_ne_true hend) h
  · intro hgo
    cases h : l.run? start with
    | none => rfl
    | some state =>
      obtain ⟨n, hn⟩ := exists_of_run? h
      rw [hgo n] at hn
      cases hn

end Loop

namespace Outline

/-! ### Turns of an outline -/

namespace Draft

variable (d : Draft)

theorem iterate_openList (n : Nat) :
  openList^[n] d
    = { outline := { d.outline with opened := d.outline.opened + n }
        written := List.replicate n openMarker ++ d.written }
  := by
  induction n with
  | zero => rfl
  | succ n ih =>
    rw [Function.iterate_succ_apply', ih]
    rfl

/-- Turns that close lists close one each until no list is open, and then none. -/
theorem iterate_closeList (n : Nat) :
  closeList^[n] d
    = { outline := { d.outline with opened := d.outline.opened - n }
        written := List.replicate (min n d.outline.opened) closeMarker ++ d.written }
  := by
  induction n with
  | zero => simp
  | succ n ih =>
    rw [Function.iterate_succ_apply', ih, closeList]
    dsimp only
    split
    · next hopen =>
      have hmin : min (n + 1) d.outline.opened = min n d.outline.opened + 1 := by omega
      rw [hmin, List.replicate_succ]
      rfl
    · next hnone =>
      have hmin : min (n + 1) d.outline.opened = min n d.outline.opened := by omega
      have hopened : d.outline.opened - n = d.outline.opened - (n + 1) := by omega
      rw [hmin, hopened]

/-- Opening lists comes to an end. -/
theorem run?_opening (target : Int) :
  (opening target).run? d = some (openList^[(target - d.outline.depth).toNat] d)
  := by
  apply Loop.run?_eq_some
  · intro k hk
    dsimp only [opening]
    rw [iterate_openList, decide_eq_true_iff]
    dsimp only [depth] at hk ⊢
    omega
  · dsimp only [opening]
    rw [iterate_openList, decide_eq_false_iff_not]
    dsimp only [depth]
    omega

/-- Closing all lists comes to an end. -/
theorem run?_closingAll :
  closingAll.run? d = some (closeList^[d.outline.opened] d)
  := by
  apply Loop.run?_eq_some
  · intro k hk
    dsimp only [closingAll]
    rw [iterate_closeList, decide_eq_true_iff]
    exact Nat.sub_pos_of_lt hk
  · dsimp only [closingAll]
    rw [iterate_closeList, decide_eq_false_iff_not]
    dsimp only
    omega

/-- Closing lists comes to an end at a depth that an outline can have. -/
theorem run?_closing {target : Int} (h : -1 ≤ target) :
  (closing target).run? d = some (closeList^[(d.outline.depth - target).toNat] d)
  := by
  apply Loop.run?_eq_some
  · intro k hk
    dsimp only [closing]
    rw [iterate_closeList, decide_eq_true_iff]
    dsimp only [depth] at hk ⊢
    omega
  · dsimp only [closing]
    rw [iterate_closeList, decide_eq_false_iff_not]
    dsimp only [depth]
    omega

/-- No turns lead below the depth of an outline without open lists. -/
theorem run?_closing_eq_none {target : Int} (h : target < -1) :
  (closing target).run? d = none
  := by
  apply Loop.run?_eq_none_iff.mpr
  intro n
  dsimp only [closing]
  rw [iterate_closeList, decide_eq_true_iff]
  dsimp only [depth]
  omega

end Draft

/-! ### Steps in turns -/

variable {o o' : Outline} {out : List String} {maxDepth level : Nat}

theorem finish?_eq (o : Outline) :
  o.finish? = some o.finish
  := by
  rw [finish?, Draft.run?_closingAll, Draft.iterate_closeList]
  simp [Draft.finished, finish]

theorem plain?_eq (o : Outline) (text : String) :
  o.plain? text = some (o.plain text)
  := by
  rw [plain?, Draft.run?_closingAll, Draft.iterate_closeList]
  simp [Draft.finished, plain, finish]

/-- What is written on the way to a depth that an outline can have. -/
theorem finished_of_turns (o : Outline) {target : Int} (h : -1 ≤ target) (lines : List String) :
  let d := Draft.openList^[(target - o.depth).toNat] { outline := o }
  let toOpen := (target - o.depth).toNat
  let toClose := min o.opened (o.depth - target).toNat
  (Draft.closeList^[(d.outline.depth - target).toNat] d).finished lines
    = (List.replicate toOpen openMarker ++ List.replicate toClose closeMarker ++ lines,
      { o with opened := o.opened + toOpen - toClose })
  := by
  dsimp only
  rw [Draft.iterate_closeList, Draft.iterate_openList]
  dsimp only [Draft.finished, depth]
  generalize htoOpen : (target - (o.opened - 1)).toNat = toOpen
  have htoClose : min ((o.opened + toOpen : Nat) - 1 - target).toNat (o.opened + toOpen)
      = min o.opened ((o.opened : Int) - 1 - target).toNat := by
    omega
  have hopened : o.opened + toOpen - ((o.opened + toOpen : Nat) - 1 - target).toNat
      = o.opened + toOpen - min o.opened ((o.opened : Int) - 1 - target).toNat := by
    omega
  rw [htoClose, hopened, List.append_nil, List.reverse_append, List.reverse_replicate,
    List.reverse_replicate]

/-- An item is written in turns as it is written at once, if the turns end. -/
theorem item?_eq (o : Outline) (level : Nat) (text : String) :
  o.item? level text = if -1 ≤ o.target level then some (o.item level text) else none
  := by
  rw [item?, Draft.run?_opening, Option.bind_eq_bind, Option.bind_some]
  by_cases h : -1 ≤ o.target level
  · rw [if_pos h, Draft.run?_closing _ h, Option.bind_some, Option.pure_def,
      finished_of_turns o h, item]
  · rw [if_neg h, Draft.run?_closing_eq_none _ (Int.lt_of_not_ge h), Option.bind_none]

/-- What an outline writes in a step taken in turns, and the outline after it. -/
def perform? (o : Outline) : Step → Option (List String × Outline)
  | .emit level? text => o.emit? level? text
  | .item level text => o.item? level text
  | .plain text => o.plain? text
  | .finish => o.finish?

/-- A step in turns that ends is the step. -/
theorem eq_perform_of_perform? {s : Step} {r : List String × Outline} (h : o.perform? s = some r) :
  r = o.perform s
  := by
  have hitem {level text} (h : o.item? level text = some r) : r = o.item level text := by
    rw [item?_eq] at h
    split at h
    · exact (Option.some.inj h).symm
    · cases h
  have hplain {text} (h : o.plain? text = some r) : r = o.plain text := by
    rw [plain?_eq] at h
    exact (Option.some.inj h).symm
  cases s with
  | emit level? text =>
    cases level? with
    | none => exact hplain h
    | some level => exact hitem h
  | item level text => exact hitem h
  | plain text => exact hplain h
  | finish =>
    have hfinish : some o.finish = some r := o.finish?_eq.symm.trans h
    exact (Option.some.inj hfinish).symm

/-- The outlines that steps in turns lead to from a new one. -/
inductive Reachable (maxDepth : Nat) : Outline → Prop where
  | new : Reachable maxDepth (ofMaxDepth maxDepth)
  | step {o o' : Outline} {s : Step} {out : List String} (before : Reachable maxDepth o)
      (h : o.perform? s = some (out, o')) : Reachable maxDepth o'

theorem Reachable.maxDepth_eq (h : Reachable maxDepth o) :
  o.maxDepth = max maxDepth 1
  := by
  induction h with
  | new => rfl
  | @step o o' s out _ h ih =>
    have ho : o' = (o.perform s).2 := congrArg Prod.snd (eq_perform_of_perform? h)
    rw [ho, maxDepth_perform, ih]

/-! ### Words -/

theorem signedWord_lt {n : Nat} (h : 2 ^ 63 ≤ n) (hn : n + 1 < 2 ^ 64) :
  signedWord n < -1
  := by
  have hword : signedWord n = n - (UInt64.size : Int) := by
    unfold signedWord
    rw [← Int.sub_bmod_right]
    apply Int.bmod_eq_of_le
    all_goals
      simp only [UInt64.size]
      omega
  rw [hword]
  simp only [UInt64.size]
  omega

/-- The depth that a level asks for is the depth of some outline exactly if it is a word without a
sign. -/
theorem le_target_iff (h : o.maxDepth < 2 ^ 64) :
  -1 ≤ o.target level ↔ min level (o.maxDepth - 1) < 2 ^ 63
  := by
  have hword : min level (o.maxDepth - 1) + 1 < 2 ^ 64 := by omega
  rw [target]
  generalize min level (o.maxDepth - 1) = n at hword ⊢
  rcases Nat.lt_or_ge n (2 ^ 63) with hlt | hge
  · rw [signedWord_of_lt hlt]
    omega
  · have hneg := signedWord_lt hge hword
    omega

/-! ### Steps that end -/

/-- The turns that lead to an item end exactly if the outline is then at the depth of the item. -/
theorem item?_eq_some_iff (h : o.maxDepth < 2 ^ 64) {text : String} {r : List String × Outline} :
  o.item? level text = some r
    ↔ min level (o.maxDepth - 1) < 2 ^ 63 ∧ r = o.item level text
  := by
  rw [item?_eq, Option.ite_none_right_eq_some, le_target_iff h, Option.some.injEq,
    eq_comm (a := r)]

/-- Whatever was written before, the turns that lead to an item end exactly if the depth that its
level asks for is less than `2 ^ 63`, and then the outline is at that depth.  The turns that lead
to content outside every list always end, with no list open. -/
theorem turns_end_iff (h : maxDepth < 2 ^ 64) (ho : Reachable maxDepth o) (level : Nat)
    (text : String) :
  ((∃ out o', o.emit? (some level) text = some (out, o'))
      ↔ min level (max maxDepth 1 - 1) < 2 ^ 63)
    ∧ (∀ out o', o.emit? (some level) text = some (out, o') →
      o'.depth = (min level (max maxDepth 1 - 1) : Nat))
    ∧ ∃ out o', o.emit? none text = some (out, o') ∧ o'.depth = -1
  := by
  have hmax := ho.maxDepth_eq
  have hitem (r) : o.emit? (some level) text = some r
      ↔ min level (max maxDepth 1 - 1) < 2 ^ 63 ∧ r = o.item level text := by
    rw [← hmax]
    exact item?_eq_some_iff (by omega)
  refine ⟨⟨?_, ?_⟩, ?_, ?_⟩
  · rintro ⟨out, o', hsome⟩
    exact ((hitem _).mp hsome).1
  · intro hlt
    exact ⟨_, _, (hitem _).mpr ⟨hlt, rfl⟩⟩
  · intro out o' hsome
    obtain ⟨hlt, heq⟩ := (hitem _).mp hsome
    rw [← hmax] at hlt ⊢
    rw [item_eq_of_lt hlt, Prod.mk.injEq] at heq
    rw [heq.2, depth, openedAt]
    dsimp only
    omega
  · exact ⟨_, _, plain?_eq o text, rfl⟩

/-- With two lists open, turns lead to an item of the lowest level, and to none of the level
`2 ^ 63`. -/
theorem turns_end_iff_limits :
  let o : Outline := { maxDepth := 2 ^ 64 - 1, opened := 2 }
  2 ^ 64 - 1 < 2 ^ 64 ∧ Reachable (2 ^ 64 - 1) o
    ∧ (∃ out o', o.emit? (some 0) "b" = some (out, o') ∧ o'.depth = 0)
    ∧ ¬ ∃ out o', o.emit? (some (2 ^ 63)) "b" = some (out, o')
  := by
  intro o
  have hmax : 2 ^ 64 - 1 < 2 ^ 64 := by decide
  have hfirst : (ofMaxDepth (2 ^ 64 - 1)).item? 1 "a"
      = some ([openMarker, openMarker, "\\item a"], o) :=
    (item?_eq_some_iff hmax).mpr ⟨by decide, by decide⟩
  have hreach : Reachable (2 ^ 64 - 1) o := .step (s := .item 1 "a") .new hfirst
  have hlow := turns_end_iff hmax hreach 0 "b"
  have hhigh := turns_end_iff hmax hreach (2 ^ 63) "b"
  obtain ⟨out, o', hsome⟩ := hlow.1.mpr (by decide)
  exact ⟨hmax, hreach, ⟨out, o', hsome, hlow.2.1 out o' hsome⟩, mt hhigh.1.mp (by decide)⟩

/-- The depth `2 ^ 63` is never reached.  Its word stands for a negative number, which is less than
the depth of an outline after every number of turns that close lists. -/
theorem endless_turns :
  let o := ofMaxDepth (2 ^ 64 - 1)
  Reachable (2 ^ 64 - 1) o ∧ o.emit? (some (2 ^ 63)) "a" = none
    ∧ ∀ n, o.target (2 ^ 63) < (Draft.closeList^[n] { outline := o }).outline.depth
  := by
  intro o
  have hneg : o.target (2 ^ 63) < -1 := by decide
  refine ⟨.new, ?_, fun n => ?_⟩
  · change o.item? (2 ^ 63) "a" = none
    rw [item?_eq, if_neg (Int.not_le.mpr hneg)]
  · rw [Draft.iterate_closeList]
    dsimp only [depth]
    omega

end Outline

end Bindery
