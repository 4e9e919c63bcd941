import Mathlib.Data.List.Infix
import Mathlib.Tactic.Use
import Bindery.Proofs.Notebook.Inline
import Bindery.Proofs.Typesetting.Block

/-!
# Spans in typeset text

The delimiters of spans stand in no block of typeset text but as literal characters, so that
typeset text can be cut at them (`Typeset.cut`).  What stands between the delimiters of a span is
then typeset, even if it opens groups that it does not close, and putting it into a command keeps
the text typeset (`Typeset.convert`).  So a line of markdown is typeset (`typeset_inline`).
-/

namespace Bindery.Typesetting

open Escape (isStripped replacement? escapeChar escapeChar_of_replacement escapeChar_of_none)
open Notebook (Span)

/-- The characters that the delimiters of spans are made of. -/
def IsDelimiter (c : Char) : Prop :=
  c = '\x60' ∨ c = '*'

instance (c : Char) : Decidable (IsDelimiter c) :=
  inferInstanceAs (Decidable (_ ∨ _))

variable {n k m : Nat} {block text before after : List Char} {d : Char}

/-! ### Cutting at delimiters -/

theorem not_isDelimiter_of_replacement {c : Char} {spelling : String}
    (h : replacement? c = some spelling) :
  ∀ d ∈ spelling.toList, ¬ IsDelimiter d
  := by
  unfold replacement? at h
  split at h <;> cases h <;> decide

theorem not_isDelimiter_of_mem_formats :
  ∀ name ∈ formats, ∀ d ∈ '\\' :: name ++ ['{'], ¬ IsDelimiter d
  := by decide

/-- A block is a delimiter, or holds none. -/
theorem Block.delimiter_or_not (h : Block n block k) :
  (∃ d, IsDelimiter d ∧ block = [d] ∧ k = n) ∨ ∀ d ∈ block, ¬ IsDelimiter d
  := by
  cases h with
  | literal c kept =>
    cases hspelling : replacement? c with
    | some spelling =>
      right
      rw [escapeChar_of_replacement kept hspelling]
      exact not_isDelimiter_of_replacement hspelling
    | none =>
      rw [escapeChar_of_none kept hspelling]
      by_cases hc : IsDelimiter c
      · left
        exact ⟨c, hc, rfl, rfl⟩
      · right
        simpa using hc
  | opening hname =>
    right
    exact not_isDelimiter_of_mem_formats _ hname
  | closing =>
    right
    decide

theorem Block.ne_nil (h : Block n block k) :
  block ≠ []
  := by
  cases h with
  | literal c kept =>
    cases hspelling : replacement? c with
    | some spelling =>
      rw [escapeChar_of_replacement kept hspelling]
      unfold replacement? at hspelling
      split at hspelling <;> cases hspelling <;> decide
    | none =>
      rw [escapeChar_of_none kept hspelling]
      apply List.cons_ne_nil
  | opening => simp
  | closing => simp

/-- Typeset text can be cut in front of a delimiter. -/
theorem Typeset.cut (h : Typeset n text m) (hd : IsDelimiter d)
    (htext : text = before ++ d :: after) :
  ∃ k, Typeset n before k ∧ Typeset k after m
  := by
  induction h generalizing before with
  | nil => simp at htext
  | @cons n k m block rest head tail ih =>
    rcases head.delimiter_or_not with ⟨e, he, rfl, rfl⟩ | hnone
    · cases before with
      | nil =>
        obtain ⟨-, hrest⟩ := List.cons.inj htext
        subst hrest
        exact ⟨_, .nil, tail⟩
      | cons b before =>
        obtain ⟨rfl, hrest⟩ := List.cons.inj htext
        obtain ⟨k, hbefore, hafter⟩ := ih hrest
        exact ⟨k, .cons head hbefore, hafter⟩
    · rcases List.append_eq_append_iff.mp htext with ⟨rest', rfl, hrest⟩ | ⟨inner, rfl, hafter⟩
      · obtain ⟨k, hbefore, hafter⟩ := ih hrest
        exact ⟨k, .cons head hbefore, hafter⟩
      · cases inner with
        | nil =>
          have hrest : rest = [] ++ d :: after := hafter.symm
          obtain ⟨k, hbefore, hafter⟩ := ih hrest
          refine ⟨k, ?_, hafter⟩
          rw [List.append_nil] at head
          rw [← List.append_nil before]
          exact .cons head hbefore
        | cons e inner =>
          obtain ⟨rfl, -⟩ := List.cons.inj hafter
          exact absurd hd (hnone d (by simp))

theorem Typeset.eq_of_nil (h : Typeset n [] m) :
  n = m
  := by
  generalize htext : [] = text at h
  cases h with
  | nil => rfl
  | cons head tail => exact absurd (List.append_eq_nil_iff.mp htext.symm).1 head.ne_nil

/-- Delimiters in front of typeset text can be dropped. -/
theorem Typeset.drop {delimiter : List Char} (hdelimiter : ∀ d ∈ delimiter, IsDelimiter d)
    (h : Typeset n (delimiter ++ text) m) :
  Typeset n text m
  := by
  induction delimiter with
  | nil => exact h
  | cons d delimiter ih =>
    obtain ⟨hd, hrest⟩ := List.forall_mem_cons.mp hdelimiter
    have htext : d :: delimiter ++ text = [] ++ d :: (delimiter ++ text) := rfl
    obtain ⟨k, hnil, hafter⟩ := h.cut hd htext
    obtain rfl := hnil.eq_of_nil
    exact ih hrest hafter

/-! ### Converting spans -/

/-- The delimiter stands on both sides of the content of a span, and is made of delimiters. -/
structure IsDelimited (s : Span) : Prop where
  nonempty : s.delimiter ≠ []
  delimiter : ∀ d ∈ s.delimiter, IsDelimiter d
  content : ∀ text content, s.content? text = some content → content ++ s.delimiter <+: text

/-- Text in which no stretch begins that is to be replaced stays as it is. -/
theorem replaceWhere_append {find : List Char → Option (Nat × List Char)} {before : List Char}
    (h : ∀ c ∈ before, ∀ text, find (c :: text) = none) (after : List Char) :
  Text.replaceWhere find 0 (before ++ after) = before ++ Text.replaceWhere find 0 after
  := by
  induction before with
  | nil => rfl
  | cons c before ih =>
    obtain ⟨hc, hbefore⟩ := List.forall_mem_cons.mp h
    rw [List.cons_append, Text.replaceWhere, hc, ih hbefore]
    rfl

variable {s : Span}

/-- No span begins with a character that is no delimiter. -/
theorem IsDelimited.find_eq_none (hs : IsDelimited s) {c : Char} (hc : ¬ IsDelimiter c)
    (text : List Char) :
  s.find (c :: text) = none
  := by
  unfold Span.find
  split
  · next hprefix =>
    rw [List.isPrefixOf_iff_prefix] at hprefix
    cases hdelimiter : s.delimiter with
    | nil => exact absurd hdelimiter hs.nonempty
    | cons d rest =>
      rw [hdelimiter] at hprefix
      obtain ⟨rfl, -⟩ := List.cons_prefix_cons.mp hprefix
      apply absurd _ hc
      apply hs.delimiter
      rw [hdelimiter]
      apply List.mem_cons_self
  · rfl

/-- A span that is found stands between its delimiters. -/
theorem IsDelimited.exists_of_find (hs : IsDelimited s) {length : Nat} {new : List Char}
    (h : s.find text = some (length, new)) :
  ∃ content rest, text = s.delimiter ++ (content ++ (s.delimiter ++ rest))
    ∧ 0 < length ∧ text.drop length = rest
    ∧ new = '\\' :: s.command ++ '{' :: content ++ ['}']
  := by
  unfold Span.find at h
  split at h
  · next hprefix =>
    obtain ⟨content, hcontent, heq⟩ := Option.map_eq_some_iff.mp h
    injection heq with hlength hnew
    obtain ⟨after, rfl⟩ := List.isPrefixOf_iff_prefix.mp hprefix
    rw [List.drop_left] at hcontent
    obtain ⟨rest, rfl⟩ := hs.content _ _ hcontent
    have hpos := List.length_pos_of_ne_nil hs.nonempty
    have hspan : length = (s.delimiter ++ (content ++ s.delimiter)).length := by
      simp only [List.length_append]
      omega
    refine ⟨content, rest, by simp, by omega, ?_, hnew.symm⟩
    rw [hspan, ← List.append_assoc s.delimiter (content ++ s.delimiter), List.drop_left]
  · cases h

/-- A text begins with a character that stays as it is, or with a span, whose command takes over
what stands between its delimiters. -/
theorem IsDelimited.convert_cases (hs : IsDelimited s) (c : Char) (cs : List Char) :
  s.convert (c :: cs) = c :: s.convert cs
    ∨ ∃ content rest, c :: cs = s.delimiter ++ (content ++ (s.delimiter ++ rest))
      ∧ rest.length < (c :: cs).length
      ∧ s.convert (c :: cs) = '\\' :: s.command ++ '{' :: content ++ ['}'] ++ s.convert rest
  := by
  rw [Span.convert, Text.replaceWhere]
  split
  · next length new hfind =>
    right
    obtain ⟨content, rest, htext, hpos, hdrop, rfl⟩ := hs.exists_of_find hfind
    have hskip : cs.drop (length - 1) = rest := by
      rw [← hdrop, ← List.drop_succ_cons (a := c), Nat.sub_add_cancel hpos]
    refine ⟨content, rest, htext, ?_, ?_⟩
    · rw [← hskip, List.length_drop, List.length_cons]
      omega
    · rw [Text.replaceWhere_drop, hskip]
      rfl
  · exact Or.inl rfl

/-- Text that holds a span is typeset up to the span, inside of it and after it. -/
theorem IsDelimited.cut (hs : IsDelimited s) {content rest : List Char}
    (h : Typeset n (s.delimiter ++ (content ++ (s.delimiter ++ rest))) m) :
  ∃ k, Typeset n content k ∧ Typeset k rest m
  := by
  have hcontent := h.drop hs.delimiter
  cases hdelimiter : s.delimiter with
  | nil => exact absurd hdelimiter hs.nonempty
  | cons d delimiter =>
    have hall := hs.delimiter
    rw [hdelimiter] at hall hcontent
    obtain ⟨hd, hmore⟩ := List.forall_mem_cons.mp hall
    obtain ⟨k, hbefore, hafter⟩ := hcontent.cut hd rfl
    exact ⟨k, hbefore, hafter.drop hmore⟩

/-- Turning spans into commands keeps text typeset. -/
theorem Typeset.convert (h : Typeset n text m) (hs : IsDelimited s)
    (hcommand : s.command ∈ formats) :
  Typeset n (s.convert text) m
  := by
  induction hlength : text.length using Nat.strongRecOn generalizing n m text with
  | ind length ih =>
    subst hlength
    cases h with
    | nil => exact .nil
    | @cons _ k _ block text head tail =>
      have hpos := List.length_pos_of_ne_nil head.ne_nil
      have hrest := ih text.length (by rw [List.length_append]; omega) tail rfl
      rcases head.delimiter_or_not with ⟨d, hd, rfl, rfl⟩ | hnone
      · rcases hs.convert_cases d text with heq | ⟨content, rest, htext, hlength, heq⟩
        · rw [List.singleton_append, heq]
          exact .cons head hrest
        · have htypeset := Typeset.cons head tail
          rw [List.singleton_append, htext] at htypeset
          obtain ⟨k, hcontent, hafter⟩ := hs.cut htypeset
          rw [List.singleton_append, heq]
          exact (hcontent.inFormat hcommand).append (ih _ hlength hafter rfl)
      · rw [Span.convert, replaceWhere_append fun c hc => hs.find_eq_none (hnone c hc)]
        exact .cons head hrest

/-! ### Lines of markdown -/

theorem isDelimited_code :
  IsDelimited Span.code
  where
  nonempty := by decide
  delimiter := by decide
  content _ _ := Span.prefix_of_code

theorem isDelimited_bold :
  IsDelimited Span.bold
  where
  nonempty := by decide
  delimiter := by decide
  content _ _ := Span.prefix_of_bold

theorem isDelimited_italic :
  IsDelimited Span.italic
  where
  nonempty := by decide
  delimiter := by decide
  content _ _ := Span.prefix_of_italic

/-- A line of markdown is typeset, whatever it says. -/
theorem typeset_inline (n : Nat) (text : List Char) :
  Typeset n (Notebook.inline text) n
  := by
  have hcode := (typeset_escape n text).convert isDelimited_code (by decide)
  have hbold := hcode.convert isDelimited_bold (by decide)
  have hitalic := hbold.convert isDelimited_italic (by decide)
  exact hitalic.smartQuotes

end Bindery.Typesetting
