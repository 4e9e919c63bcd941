import Mathlib.Algebra.Group.Nat.Defs
import Mathlib.Tactic.Use
import Bindery.Outline
import Bindery.Proofs.Text.Single

/-!
# What outlines write

Every line that an `Outline` writes is a single line if the text that it was given is
(`isSingleLine_item`, `isSingleLine_plain`).  An item opens or closes the lists between the current
depth and its own, and never both (`item_eq`).
-/

namespace Bindery.Outline

open Text (IsSingleLine)

variable {text : String}

/-! ### Lines -/

theorem isSingleLine_finish (o : Outline) :
  ∀ line ∈ o.finish.1, IsSingleLine line.toList
  := by
  intro line hline
  rw [List.eq_of_mem_replicate hline]
  decide

theorem isSingleLine_plain (o : Outline) (h : IsSingleLine text.toList) :
  ∀ line ∈ (o.plain text).1, IsSingleLine line.toList
  := by
  intro line hline
  rcases List.mem_append.mp hline with hline | hline
  · exact o.isSingleLine_finish line hline
  · rw [List.mem_singleton.mp hline]
    exact h

theorem isSingleLine_item (o : Outline) (level : Nat) (h : IsSingleLine text.toList) :
  ∀ line ∈ (o.item level text).1, IsSingleLine line.toList
  := by
  intro line hline
  simp only [item, List.mem_append, List.mem_singleton] at hline
  rcases hline with (hline | hline) | rfl
  · rw [List.eq_of_mem_replicate hline]
    decide
  · rw [List.eq_of_mem_replicate hline]
    decide
  · rw [itemLine, String.toList_append, Text.isSingleLine_append]
    exact ⟨by decide, h⟩

/-! ### Depths -/

theorem signedWord_of_lt {n : Nat} (h : n < 2 ^ 63) :
  signedWord n = n
  := by
  unfold signedWord
  apply Int.bmod_eq_of_le
  · omega
  · simp only [UInt64.size]
    omega

/-- The number of lists that are open at an item of a level. -/
def openedAt (o : Outline) (level : Nat) : Nat :=
  min level (o.maxDepth - 1) + 1

/-- Writing an item closes the lists that are deeper than it, or opens those that are missing, if
its depth is a word without a sign. -/
theorem item_eq_of_lt {o : Outline} {level : Nat} (h : min level (o.maxDepth - 1) < 2 ^ 63)
    (text : String) :
  o.item level text
    = (List.replicate (o.openedAt level - o.opened) openMarker
        ++ List.replicate (o.opened - o.openedAt level) closeMarker ++ [itemLine text],
      { o with opened := o.openedAt level })
  := by
  have htarget : o.target level = (min level (o.maxDepth - 1) : Nat) := signedWord_of_lt h
  have htoOpen : (o.target level - o.depth).toNat = o.openedAt level - o.opened := by
    rw [htarget, depth, openedAt]
    omega
  have htoClose : min o.opened (o.depth - o.target level).toNat
      = o.opened - o.openedAt level := by
    rw [htarget, depth, openedAt]
    omega
  have hopened : o.opened + (o.openedAt level - o.opened) - (o.opened - o.openedAt level)
      = o.openedAt level := by
    omega
  simp only [item, htoOpen, htoClose, hopened]

theorem item_eq {o : Outline} (h : o.maxDepth ≤ 2 ^ 63) (level : Nat) (text : String) :
  o.item level text
    = (List.replicate (o.openedAt level - o.opened) openMarker
        ++ List.replicate (o.opened - o.openedAt level) closeMarker ++ [itemLine text],
      { o with opened := o.openedAt level })
  := item_eq_of_lt (by omega) text

end Bindery.Outline
