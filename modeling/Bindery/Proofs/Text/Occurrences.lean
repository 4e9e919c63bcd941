import Mathlib.Algebra.GroupWithZero.Nat
import Mathlib.Data.List.Infix

/-!
# Words in a text

`occurrences word text` counts the places at which a word begins in a text.  A character that is
not part of the word parts a text in two (`occurrences_append_cons`), so that a word without line
feeds stands in a written text as often as in its lines (`occurrences_flatMap`).  A word that stands
in a text has a first place there (`exists_first`).
-/

namespace Bindery.Text

/-- How often the word stands in the text. -/
def occurrences (word text : List Char) : Nat :=
  text.tails.countP word.isPrefixOf

variable {word : List Char} {c : Char}

/-- A word begins before a character that is not part of it only if it ends there. -/
theorem prefix_append_cons_iff (hc : c ∉ word) (before after : List Char) :
  word <+: before ++ c :: after ↔ word <+: before
  := by
  constructor
  · intro h
    rcases Nat.lt_or_ge before.length word.length with hlt | hle
    · -- The character would be part of the word.
      have hlength : (before ++ [c]).length ≤ word.length := by
        rw [List.length_append]
        exact hlt
      have hstart : before ++ [c] <+: before ++ c :: after := by
        rw [List.append_cons before c after]
        apply List.prefix_append
      have hshort := List.prefix_of_prefix_length_le hstart h hlength
      exact absurd (hshort.subset (List.mem_append_right before List.mem_cons_self)) hc
    · exact List.prefix_of_prefix_length_le h (List.prefix_append before _) hle
  · intro h
    exact h.trans (List.prefix_append before _)

theorem occurrences_cons (word text : List Char) (c : Char) :
  occurrences word (c :: text)
    = occurrences word text + if word <+: c :: text then 1 else 0
  := by
  simp [occurrences, List.countP_cons]

theorem occurrences_nil (hword : word ≠ []) :
  occurrences word [] = 0
  := by
  simpa [occurrences] using hword

theorem occurrences_eq_zero_iff {text : List Char} :
  occurrences word text = 0 ↔ ¬ word <:+: text
  := by
  simp only [occurrences, List.countP_eq_zero, List.infix_iff_prefix_suffix, List.mem_tails,
    List.isPrefixOf_iff_prefix, not_exists, not_and]
  constructor
  · intro h rest hstart hsuffix
    exact h rest hsuffix hstart
  · intro h rest hsuffix hstart
    exact h rest hstart hsuffix

/-- Words do not reach over a character that is not part of them. -/
theorem occurrences_append_cons (hword : word ≠ []) (hc : c ∉ word) (before after : List Char) :
  occurrences word (before ++ c :: after) = occurrences word before + occurrences word after
  := by
  induction before with
  | nil =>
    have hstart := prefix_append_cons_iff hc [] after
    rw [List.nil_append, List.prefix_nil] at hstart
    rw [List.nil_append, occurrences_cons, if_neg (mt hstart.mp hword), occurrences_nil hword,
      Nat.add_comm]
  | cons d before ih =>
    have hstart := prefix_append_cons_iff hc (d :: before) after
    rw [List.cons_append] at hstart ⊢
    simp only [occurrences_cons, ih, hstart]
    omega

/-- A word stands in lines that each end with the same character, which is not part of it, as
often as in all of the lines together. -/
theorem occurrences_flatMap (hword : word ≠ []) (hc : c ∉ word) (lines : List (List Char)) :
  occurrences word (lines.flatMap (· ++ [c])) = (lines.map (occurrences word)).sum
  := by
  induction lines with
  | nil => exact occurrences_nil hword
  | cons line lines ih =>
    rw [List.flatMap_cons, List.append_assoc, List.singleton_append,
      occurrences_append_cons hword hc, ih, List.map_cons, List.sum_cons]

/-- A word that stands in a text has a first place there. -/
theorem exists_first {text : List Char} (hword : word ≠ []) (h : word <:+: text) :
  ∃ before after, text = before ++ word ++ after ∧ ¬ word <:+: (before ++ word).dropLast
  := by
  induction text with
  | nil => exact absurd (List.infix_nil.mp h) hword
  | cons c text ih =>
    by_cases hstart : word <+: c :: text
    · obtain ⟨after, hafter⟩ := hstart
      refine ⟨[], after, hafter.symm, fun hshort => ?_⟩
      have hlength := hshort.length_le
      have hpos := List.length_pos_of_ne_nil hword
      rw [List.nil_append, List.length_dropLast] at hlength
      omega
    · obtain ⟨before, after, rfl, hfirst⟩ := ih ((List.infix_cons_iff.mp h).resolve_left hstart)
      refine ⟨c :: before, after, rfl, fun hearlier => ?_⟩
      have hne : before ++ word ≠ [] := List.append_ne_nil_of_right_ne_nil before hword
      rw [List.cons_append, List.dropLast_cons_of_ne_nil hne, List.infix_cons_iff] at hearlier
      refine hearlier.elim (fun hearlier => hstart (hearlier.trans ?_)) hfirst
      apply List.cons_prefix_cons.mpr
      exact ⟨rfl, (List.dropLast_prefix _).trans (List.prefix_append _ after)⟩

end Bindery.Text
