import Bindery.Proofs.Escape
import Bindery.Proofs.Text.Replace
import Mathlib.Data.List.Nodup

/-!
# Reading escaped text back

No spelling of a reserved character begins with that of another one (`spelling_prefixFree`), and
none begins with a character that is not reserved.  So escaped text is read back from left to right,
one spelling after another: `unescape` finds the text again, but for the control characters that
were dropped (`unescape_escape`).  Hence texts are escaped to the same text exactly if they differ
in dropped characters only, and a second time changes nothing exactly if the first time has spelled
out nothing (`escape_lossless`).
-/

namespace Bindery.Escape

variable {cs : List Char} {c d : Char}

/-! ### Dropped characters -/

theorem escape_cons (c : Char) (cs : List Char) :
  escape (c :: cs) = escapeChar c ++ escape cs
  := List.flatMap_cons

theorem stripControls_cons_of_stripped (h : isStripped c = true) (cs : List Char) :
  stripControls (c :: cs) = stripControls cs
  := List.filter_cons_of_neg (by rw [h]; decide)

theorem stripControls_cons_of_kept (h : isStripped c = false) (cs : List Char) :
  stripControls (c :: cs) = c :: stripControls cs
  := List.filter_cons_of_pos (by rw [h]; rfl)

theorem escapeChar_of_stripped (h : isStripped c = true) :
  escapeChar c = []
  := if_pos h

/-- A spelling has no characters that are dropped. -/
theorem isStripped_of_mem_spelling :
  ∀ c ∈ reserved, ∀ d ∈ escapeChar c, isStripped d = false
  := by
  have hkept : ∀ spelling ∈ reserved.map escapeChar, spelling.any isStripped = false := by decide
  intro c hc d hd
  have hspelling := hkept _ (List.mem_map_of_mem hc)
  exact Bool.eq_false_iff.mpr (List.any_eq_false.mp hspelling d hd)

/-- A character that is kept and not reserved stands for itself. -/
theorem escapeChar_of_not_mem_reserved (hkept : isStripped c = false) (hc : c ∉ reserved) :
  escapeChar c = [c]
  := by
  rw [mem_reserved_iff, Option.not_isSome_iff_eq_none] at hc
  exact escapeChar_of_none hkept hc

theorem isStripped_of_mem_escapeChar (h : d ∈ escapeChar c) :
  isStripped d = false
  := by
  by_cases hreserved : c ∈ reserved
  · exact isStripped_of_mem_spelling c hreserved d h
  · cases hkept : isStripped c with
    | true =>
      rw [escapeChar_of_stripped hkept] at h
      cases h
    | false =>
      rw [escapeChar_of_not_mem_reserved hkept hreserved, List.mem_singleton] at h
      rw [h, hkept]

/-- Nothing is dropped from escaped text. -/
theorem stripControls_escape (cs : List Char) :
  stripControls (escape cs) = escape cs
  := by
  apply List.filter_eq_self.mpr
  intro d hd
  obtain ⟨c, -, hd⟩ := List.mem_flatMap.mp hd
  rw [isStripped_of_mem_escapeChar hd]
  rfl

/-- What is dropped makes no difference to escaped text. -/
theorem escape_stripControls (cs : List Char) :
  escape (stripControls cs) = escape cs
  := by
  induction cs with
  | nil => rfl
  | cons c cs ih =>
    cases hkept : isStripped c with
    | true =>
      rw [stripControls_cons_of_stripped hkept, ih, escape_cons, escapeChar_of_stripped hkept]
      rfl
    | false => rw [stripControls_cons_of_kept hkept, escape_cons, ih, escape_cons]

/-! ### Reading spellings -/

/-- A spelling with which another one begins is the same. -/
theorem spelling_prefixFree :
  ∀ c ∈ reserved, ∀ d ∈ reserved, escapeChar c <+: escapeChar d → c = d
  := by
  have hfree : ∀ s ∈ reserved.map escapeChar, ∀ t ∈ reserved.map escapeChar, s <+: t → s = t := by
    decide
  have hnodup : (reserved.map escapeChar).Nodup := by decide
  intro c hc d hd h
  have heq := hfree _ (List.mem_map_of_mem hc) _ (List.mem_map_of_mem hd) h
  exact List.inj_on_of_nodup_map hnodup hc hd heq

/-- A spelling begins with a backslash, and that is not all of it. -/
theorem spelling_begins :
  ∀ c ∈ reserved, ['\\'] <+: escapeChar c ∧ 1 < (escapeChar c).length
  := by
  have hbegins : ∀ spelling ∈ reserved.map escapeChar,
      ['\\'] <+: spelling ∧ 1 < spelling.length := by decide
  exact List.forall_mem_map.mp hbegins

/-- The reserved character whose spelling a text begins with. -/
def spelled? (text : List Char) : Option Char :=
  reserved.find? fun c => (escapeChar c).isPrefixOf text

/-- The text with every spelling of a reserved character replaced by the character. -/
def unescape (text : List Char) : List Char :=
  Text.replaceWhere (fun rest => (spelled? rest).map fun c => ((escapeChar c).length, [c])) 0 text

theorem spelled?_spelling (hc : c ∈ reserved) (rest : List Char) :
  spelled? (escapeChar c ++ rest) = some c
  := by
  cases hfound : spelled? (escapeChar c ++ rest) with
  | none =>
    have hnot := List.find?_eq_none.mp hfound c hc
    rw [List.isPrefixOf_iff_prefix] at hnot
    exact absurd (List.prefix_append _ _) hnot
  | some d =>
    have hd : d ∈ reserved := List.mem_of_find?_eq_some hfound
    have hprefix := List.find?_some hfound
    rw [List.isPrefixOf_iff_prefix] at hprefix
    -- Of two spellings that the same text begins with, one begins with the other.
    rcases List.prefix_or_prefix_of_prefix hprefix (List.prefix_append _ _) with h | h
    · rw [spelling_prefixFree d hd c hc h]
    · rw [spelling_prefixFree c hc d hd h]

theorem spelled?_cons (hc : c ≠ '\\') (rest : List Char) :
  spelled? (c :: rest) = none
  := by
  apply List.find?_eq_none.mpr
  intro d hd hprefix
  rw [List.isPrefixOf_iff_prefix] at hprefix
  have hbegins := (spelling_begins d hd).1.trans hprefix
  exact hc (List.cons_prefix_cons.mp hbegins).1.symm

theorem unescape_spelling (hc : c ∈ reserved) (rest : List Char) :
  unescape (escapeChar c ++ rest) = c :: unescape rest
  := by
  have hspelled := spelled?_spelling hc rest
  obtain ⟨-, hlength⟩ := spelling_begins c hc
  cases hchars : escapeChar c with
  | nil =>
    rw [hchars] at hlength
    cases hlength
  | cons d ds =>
    rw [hchars, List.cons_append] at hspelled
    rw [unescape, List.cons_append, Text.replaceWhere, hspelled]
    dsimp only [Option.map_some]
    rw [hchars, Text.replaceWhere_drop, List.length_cons, Nat.add_sub_cancel, List.drop_left]
    rfl

theorem unescape_cons (hc : c ≠ '\\') (rest : List Char) :
  unescape (c :: rest) = c :: unescape rest
  := by
  rw [unescape, Text.replaceWhere, spelled?_cons hc]
  rfl

/-- Escaped text is read back as the text without the characters that are dropped. -/
theorem unescape_escape (cs : List Char) :
  unescape (escape cs) = stripControls cs
  := by
  induction cs with
  | nil => rfl
  | cons c cs ih =>
    rw [escape_cons]
    cases hkept : isStripped c with
    | true =>
      rw [escapeChar_of_stripped hkept, List.nil_append, ih, stripControls_cons_of_stripped hkept]
    | false =>
      rw [stripControls_cons_of_kept hkept, ← ih]
      by_cases hreserved : c ∈ reserved
      · exact unescape_spelling hreserved _
      · rw [escapeChar_of_not_mem_reserved hkept hreserved]
        apply unescape_cons
        rintro rfl
        exact hreserved (by decide)

/-! ### Nothing else is lost -/

/-- Texts are escaped to the same text exactly if they differ in dropped characters only. -/
theorem escape_eq_escape_iff (a b : List Char) :
  escape a = escape b ↔ stripControls a = stripControls b
  := by
  constructor
  · intro h
    rw [← unescape_escape, h, unescape_escape]
  · intro h
    rw [← escape_stripControls, h, escape_stripControls]

theorem length_stripControls_le (cs : List Char) :
  (stripControls cs).length ≤ (escape cs).length
  := by
  induction cs with
  | nil => exact Nat.le_refl 0
  | cons c cs ih =>
    rw [escape_cons, List.length_append]
    cases hkept : isStripped c with
    | true =>
      rw [stripControls_cons_of_stripped hkept]
      omega
    | false =>
      have hlength : 1 ≤ (escapeChar c).length := by
        by_cases hreserved : c ∈ reserved
        · exact (spelling_begins c hreserved).2.le
        · rw [escapeChar_of_not_mem_reserved hkept hreserved, List.length_singleton]
      rw [stripControls_cons_of_kept hkept, List.length_cons]
      omega

/-- Escaping drops characters, and does no more, exactly if no reserved one is kept. -/
theorem escape_eq_stripControls_iff (cs : List Char) :
  escape cs = stripControls cs ↔ ∀ c ∈ stripControls cs, c ∉ reserved
  := by
  induction cs with
  | nil => exact iff_of_true rfl (List.forall_mem_nil _)
  | cons c cs ih =>
    rw [escape_cons]
    cases hkept : isStripped c with
    | true =>
      rw [escapeChar_of_stripped hkept, stripControls_cons_of_stripped hkept]
      exact ih
    | false =>
      rw [stripControls_cons_of_kept hkept, List.forall_mem_cons, ← ih]
      by_cases hreserved : c ∈ reserved
      · refine iff_of_false (fun h => ?_) fun h => h.1 hreserved
        -- A spelling is longer than the character, and nothing makes up for that.
        have hlength := congrArg List.length h
        have hspelling := (spelling_begins c hreserved).2
        have hrest := length_stripControls_le cs
        rw [List.length_append, List.length_cons] at hlength
        omega
      · rw [escapeChar_of_not_mem_reserved hkept hreserved, List.singleton_append,
          List.cons.injEq]
        exact and_congr_left' (iff_of_true rfl hreserved)

/-- Escaped text can be read back but for the control characters that were dropped: texts are
escaped to the same text exactly if they are the same without these.  Escaping once more changes
nothing exactly if no reserved character was kept. -/
theorem escape_lossless :
  (∀ cs, unescape (escape cs) = stripControls cs)
    ∧ (∀ a b, escape a = escape b ↔ stripControls a = stripControls b)
    ∧ ∀ cs, escape (escape cs) = escape cs ↔ ∀ c ∈ stripControls cs, c ∉ reserved
  := by
  refine ⟨unescape_escape, escape_eq_escape_iff, fun cs => ?_⟩
  rw [escape_eq_escape_iff, stripControls_escape]
  exact escape_eq_stripControls_iff cs

end Bindery.Escape
