import Bindery.Proofs.Typesetting.Span

/-!
# What spans leave of a line

A text is `Respelled` if some of its delimiters are taken away and the marks of commands, their
openings and closing braces, may stand in the places of others, while every other character stays.
Turning spans of one kind into commands respells a text (`respelled_convert`), and so does one kind
after another, because marks hold no delimiters (`Respelled.trans`).  Hence a typeset line is the
escaped one, respelled (`respelled_inline`).
-/

namespace Bindery.Notebook

open Escape (escape smartQuotes quoteChar)
open Typesetting (IsDelimiter IsDelimited)

/-- The openings of the commands that stand for spans, and the brace that closes them. -/
def spanMarks : List (List Char) :=
  ["\\texttt\x7b".toList, "\\textbf\x7b".toList, "\\textit\x7b".toList, "\x7d".toList]

/-- The new text is the old one, of which delimiters may be lost or turned into marks. -/
inductive Respelled : List Char → List Char → Prop where
  | nil : Respelled [] []
  | keep {old new : List Char} (c : Char) (h : Respelled old new) : Respelled (c :: old) (c :: new)
  | lose {old new : List Char} {d : Char} (hd : IsDelimiter d) (h : Respelled old new) :
    Respelled (d :: old) new
  | turn {old new mark : List Char} {d : Char} (hd : IsDelimiter d) (hmark : mark ∈ spanMarks)
      (h : Respelled old new) : Respelled (d :: old) (mark ++ new)

variable {old new newer mark : List Char} {s : Span}

/-! ### Marks -/

/-- Marks are written in ASCII and hold no delimiters. -/
theorem ascii_of_mem_spanMarks (hmark : mark ∈ spanMarks) :
  ∀ c ∈ mark, c.toNat < 128 ∧ ¬ IsDelimiter c
  := by
  have hall : (spanMarks.all fun mark => mark.all fun c =>
      decide (c.toNat < 128 ∧ ¬ IsDelimiter c)) = true := by decide
  have hmark := List.all_eq_true.mp hall mark hmark
  intro c hc
  exact of_decide_eq_true (List.all_eq_true.mp hmark c hc)

theorem not_isDelimiter_of_mem_spanMarks (hmark : mark ∈ spanMarks) :
  ∀ c ∈ mark, ¬ IsDelimiter c
  := fun c hc => (ascii_of_mem_spanMarks hmark c hc).2

theorem smartQuotes_of_mem_spanMarks (hmark : mark ∈ spanMarks) :
  smartQuotes mark = mark
  := Typesetting.smartQuotes_eq_self fun c hc => (ascii_of_mem_spanMarks hmark c hc).1

/-! ### Respelling a text -/

theorem respelled_refl (text : List Char) :
  Respelled text text
  := by
  induction text with
  | nil => exact .nil
  | cons c text ih => exact .keep c ih

theorem Respelled.append {old' new' : List Char} (h : Respelled old new)
    (h' : Respelled old' new') :
  Respelled (old ++ old') (new ++ new')
  := by
  induction h with
  | nil => exact h'
  | keep c _ ih => exact .keep c ih
  | lose hd _ ih => exact .lose hd ih
  | turn hd hmark _ ih =>
    rw [List.append_assoc]
    exact .turn hd hmark ih

/-- What holds no delimiter is not respelled. -/
theorem Respelled.exists_of_append {before : List Char} (hnone : ∀ c ∈ before, ¬ IsDelimiter c)
    (h : Respelled (before ++ old) new) :
  ∃ rest, new = before ++ rest ∧ Respelled old rest
  := by
  induction before generalizing new with
  | nil => exact ⟨new, rfl, h⟩
  | cons c before ih =>
    obtain ⟨hc, hbefore⟩ := List.forall_mem_cons.mp hnone
    cases h with
    | keep _ h =>
      obtain ⟨rest, rfl, hrest⟩ := ih hbefore h
      exact ⟨rest, rfl, hrest⟩
    | lose hd => exact absurd hd hc
    | turn hd => exact absurd hd hc

/-- A respelled text can be respelled again. -/
theorem Respelled.trans (h : Respelled old new) (h' : Respelled new newer) :
  Respelled old newer
  := by
  induction h generalizing newer with
  | nil => exact h'
  | keep c _ ih =>
    cases h' with
    | keep _ h' => exact .keep c (ih h')
    | lose hd h' => exact .lose hd (ih h')
    | turn hd hmark h' => exact .turn hd hmark (ih h')
  | lose hd _ ih => exact .lose hd (ih h')
  | turn hd hmark _ ih =>
    -- A mark stays as it is, because none of its characters is a delimiter.
    obtain ⟨rest, rfl, hrest⟩ := h'.exists_of_append (not_isDelimiter_of_mem_spanMarks hmark)
    exact .turn hd hmark (ih hrest)

/-- Spelling quotes keeps a text respelled, for no quote is a delimiter or part of a mark. -/
theorem Respelled.smartQuotes (h : Respelled old new) :
  Respelled (Escape.smartQuotes old) (Escape.smartQuotes new)
  := by
  have hdelimiter {d : Char} (hd : IsDelimiter d) : quoteChar d = [d] := by
    rcases hd with rfl | rfl <;> rfl
  induction h with
  | nil => exact .nil
  | keep c _ ih => exact (respelled_refl (quoteChar c)).append ih
  | lose hd _ ih =>
    rw [Escape.smartQuotes, List.flatMap_cons, hdelimiter hd]
    exact .lose hd ih
  | turn hd hmark _ ih =>
    rw [Escape.smartQuotes, List.flatMap_cons, hdelimiter hd, Escape.smartQuotes_append,
      smartQuotes_of_mem_spanMarks hmark]
    exact .turn hd hmark ih

/-! ### Spans -/

/-- All of the delimiter of a span is lost, but for one character that turns into a mark. -/
theorem respelled_delimiter (hs : IsDelimited s) (hmark : mark ∈ spanMarks) :
  Respelled s.delimiter mark
  := by
  have hlost {ds : List Char} (hds : ∀ d ∈ ds, IsDelimiter d) : Respelled ds [] := by
    induction ds with
    | nil => exact .nil
    | cons d ds ih =>
      obtain ⟨hd, hds⟩ := List.forall_mem_cons.mp hds
      exact .lose hd (ih hds)
  obtain ⟨d, ds, hdelimiter⟩ := List.exists_cons_of_ne_nil hs.nonempty
  have hall := hs.delimiter
  rw [hdelimiter] at hall ⊢
  obtain ⟨hd, hds⟩ := List.forall_mem_cons.mp hall
  rw [← List.append_nil mark]
  exact .turn hd hmark (hlost hds)

/-- Turning spans into commands respells a text. -/
theorem respelled_convert (hs : IsDelimited s) (hopening : '\\' :: s.command ++ ['{'] ∈ spanMarks)
    (text : List Char) :
  Respelled text (s.convert text)
  := by
  induction hlength : text.length using Nat.strongRecOn generalizing text with
  | ind length ih =>
    subst hlength
    cases text with
    | nil => exact .nil
    | cons c text =>
      rcases hs.convert_cases c text with heq | ⟨content, rest, htext, hlength, heq⟩
      · rw [heq]
        exact .keep c (ih text.length (Nat.lt_succ_self _) text rfl)
      · have hrest := ih rest.length hlength rest rfl
        have hclosing : ['}'] ∈ spanMarks := by decide
        have hcommand : s.convert (c :: text)
            = ('\\' :: s.command ++ ['{']) ++ (content ++ (['}'] ++ s.convert rest)) := by
          rw [heq]
          simp
        rw [hcommand, htext]
        exact (respelled_delimiter hs hopening).append
          ((respelled_refl content).append ((respelled_delimiter hs hclosing).append hrest))

/-! ### Typeset lines -/

/-- What is respelled keeps all characters but delimiters, in their order. -/
theorem Respelled.sublist (h : Respelled old new) :
  (old.filter fun c => ¬ IsDelimiter c).Sublist new
  := by
  induction h with
  | nil => exact .slnil
  | keep c _ ih =>
    by_cases hc : IsDelimiter c
    · rw [List.filter_cons_of_neg (by simpa using hc)]
      exact ih.cons c
    · rw [List.filter_cons_of_pos (by simpa using hc)]
      exact ih.cons_cons c
  | lose hd _ ih =>
    rw [List.filter_cons_of_neg (by simpa using hd)]
    exact ih
  | turn hd _ _ ih =>
    rw [List.filter_cons_of_neg (by simpa using hd)]
    exact ih.trans (List.sublist_append_right _ _)

/-- Typesetting a line takes only delimiters away, and adds only marks, each in the place of a
delimiter.  So the escaped line with its quotes spelled is, without its asterisks and backticks, a
subsequence of the typeset one. -/
theorem respelled_inline (text : List Char) :
  let spelled := smartQuotes (escape text)
  Respelled spelled (inline text)
    ∧ (spelled.filter fun c => ¬ IsDelimiter c).Sublist (inline text)
  := by
  have hcode := respelled_convert Typesetting.isDelimited_code (by decide) (escape text)
  have hbold := hcode.trans (respelled_convert Typesetting.isDelimited_bold (by decide) _)
  have hitalic := hbold.trans (respelled_convert Typesetting.isDelimited_italic (by decide) _)
  exact ⟨hitalic.smartQuotes, hitalic.smartQuotes.sublist⟩

end Bindery.Notebook
