import Mathlib.Data.List.Chain
import Bindery.Escape
import Bindery.Proofs.Text.Single

/-!
# What escaped text is like

Text without line feeds is on a single line once it is escaped or its control characters are
dropped (`isSingleLine_escape`, `isSingleLine_stripControls`).  In escaped text no backslash
begins the markers of an environment (`isTame_escape`): a text is `IsTame` if none of its
backslashes is followed by the first letter of `\begin` or of `\end`.
-/

namespace Bindery.Escape

open Text (IsLineChar IsSingleLine)

/-! ### Single characters -/

theorem escapeChar_of_replacement {c : Char} {spelling : String} (kept : isStripped c = false)
    (h : replacement? c = some spelling) :
  escapeChar c = spelling.toList
  := by
  rw [escapeChar, kept, h]
  rfl

theorem escapeChar_of_none {c : Char} (kept : isStripped c = false)
    (h : replacement? c = none) :
  escapeChar c = [c]
  := by
  rw [escapeChar, kept, h]
  rfl

/-! ### Single lines -/

theorem isSingleLine_replacement {c : Char} {spelling : String}
    (h : replacement? c = some spelling) :
  IsSingleLine spelling.toList
  := by
  unfold replacement? at h
  split at h <;> cases h <;> decide

/-- A character that is kept and is no line feed may stand in a line. -/
theorem isLineChar_of_not_isStripped {c : Char} (h : isStripped c = false) (hc : c ≠ '\n') :
  IsLineChar c
  := by
  refine ⟨hc, ?_, ?_⟩
  · rintro rfl
    exact absurd h (by decide)
  · rintro rfl
    exact absurd h (by decide)

variable {cs : List Char}

theorem isSingleLine_escape (h : '\n' ∉ cs) :
  IsSingleLine (escape cs)
  := by
  intro c hc
  obtain ⟨d, hd, hc⟩ := List.mem_flatMap.mp hc
  unfold escapeChar at hc
  split at hc
  · cases hc
  · next hkept =>
    split at hc
    · next spelling hspelling => exact isSingleLine_replacement hspelling c hc
    · rw [List.mem_singleton.mp hc]
      apply isLineChar_of_not_isStripped (eq_false_of_ne_true hkept)
      rintro rfl
      exact h hd

theorem isSingleLine_stripControls (h : '\n' ∉ cs) :
  IsSingleLine (stripControls cs)
  := by
  intro c hc
  obtain ⟨hmem, hkept⟩ := List.mem_filter.mp hc
  apply isLineChar_of_not_isStripped (by simpa using hkept)
  rintro rfl
  exact h hmem

theorem isSingleLine_quoteChar {c : Char} (h : IsLineChar c) :
  IsSingleLine (quoteChar c)
  := by
  unfold quoteChar
  split
  · decide
  · decide
  · decide
  · rintro d hd
    rw [List.mem_singleton.mp hd]
    exact h

theorem isSingleLine_smartQuotes (h : IsSingleLine cs) :
  IsSingleLine (smartQuotes cs)
  := by
  intro c hc
  obtain ⟨d, hd, hc⟩ := List.mem_flatMap.mp hc
  exact isSingleLine_quoteChar (h d hd) c hc

/-! ### Commands that begin or end something -/

/-- The second character may follow the first: after a backslash there is no first letter of
`begin` or `end`. -/
def MayFollow (c d : Char) : Prop :=
  c = '\\' → d ≠ 'b' ∧ d ≠ 'e'

instance (c d : Char) : Decidable (MayFollow c d) :=
  inferInstanceAs (Decidable (_ → _))

/-- No backslash of the text is followed by the first letter of `begin` or `end`. -/
def IsTame (cs : List Char) : Prop :=
  cs.IsChain MayFollow

instance (cs : List Char) : Decidable (IsTame cs) :=
  inferInstanceAs (Decidable (List.IsChain _ _))

/-- Two tame texts are tame together if the first does not end with a backslash. -/
theorem IsTame.append {cs ds : List Char} (hcs : IsTame cs) (hds : IsTame ds)
    (hlast : '\\' ∉ cs.getLast?) :
  IsTame (cs ++ ds)
  := by
  apply List.isChain_append.mpr
  refine ⟨hcs, hds, ?_⟩
  rintro c hc d _ rfl
  exact absurd hc hlast

/-- A character that begins neither word keeps a text tame. -/
theorem IsTame.concat {cs : List Char} (hcs : IsTame cs) {c : Char} (hc : c ≠ 'b' ∧ c ≠ 'e') :
  IsTame (cs ++ [c])
  := by
  apply List.isChain_append.mpr
  refine ⟨hcs, List.isChain_singleton c, ?_⟩
  rintro _ _ d hd -
  obtain rfl : c = d := Option.some.inj hd
  exact hc

theorem IsTame.of_infix {cs ds : List Char} (h : IsTame cs) (hds : ds <:+: cs) :
  IsTame ds
  := List.IsChain.infix h hds

theorem isTame_replacement {c : Char} {spelling : String} (h : replacement? c = some spelling) :
  IsTame spelling.toList ∧ '\\' ∉ spelling.toList.getLast?
  := by
  unfold replacement? at h
  split at h <;> cases h <;> decide

theorem isTame_escapeChar (c : Char) :
  IsTame (escapeChar c) ∧ '\\' ∉ (escapeChar c).getLast?
  := by
  unfold escapeChar
  split
  · decide
  · split
    · next spelling hspelling => exact isTame_replacement hspelling
    · next hnone =>
      refine ⟨List.isChain_singleton c, ?_⟩
      rintro ⟨⟩
      cases hnone

/-- Escaped text is tame. -/
theorem isTame_escape (cs : List Char) :
  IsTame (escape cs)
  := by
  induction cs with
  | nil => exact List.isChain_nil
  | cons c cs ih =>
    obtain ⟨hc, hlast⟩ := isTame_escapeChar c
    exact hc.append ih hlast

/-- Only a backslash is spelled with a backslash at its end, and only the letters themselves with
the letters in front. -/
theorem mayFollow_quoteChar {c d : Char} (h : MayFollow c d) :
  ∀ x ∈ (quoteChar c).getLast?, ∀ y ∈ (quoteChar d).head?, MayFollow x y
  := by
  rintro x hx y hy rfl
  have hc : c = '\\' := by
    unfold quoteChar at hx
    split at hx <;> simp_all
  have hd := h hc
  unfold quoteChar at hy
  split at hy
  case h_4 =>
    obtain rfl : _ = y := Option.some.inj hy
    exact hd
  all_goals
    obtain rfl : _ = y := Option.some.inj hy
    decide

/-- Spelling quotes keeps a text tame. -/
theorem isTame_smartQuotes (h : IsTame cs) :
  IsTame (smartQuotes cs)
  := by
  rw [IsTame, smartQuotes, List.flatMap_def, List.isChain_flatten]
  · constructor
    · intro text htext
      obtain ⟨c, -, rfl⟩ := List.mem_map.mp htext
      unfold quoteChar
      split
      · decide
      · decide
      · decide
      · exact List.isChain_singleton _
    · exact List.isChain_map_of_isChain quoteChar (fun c d => mayFollow_quoteChar) h
  · intro hmem
    obtain ⟨c, -, hc⟩ := List.mem_map.mp hmem
    unfold quoteChar at hc
    split at hc <;> cases hc

end Bindery.Escape
