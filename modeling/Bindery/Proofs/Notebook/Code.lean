import Bindery.Deck.Render
import Bindery.Proofs.Escape.Unescape
import Bindery.Proofs.Typesetting.Span

/-!
# Code in a line of markdown

Code spans are found first, and then bold and italic spans are looked for in all of the text, code
included.  Text is `Woven` from some codes if they stand in it as arguments of `\texttt`, in order,
and none of them holds an asterisk.  No span of emphasis begins or ends in such a code, so that
emphasis leaves it as it is (`Woven.convert`): every code span of a line is literal that holds no
asterisk, and only such a code is literal in whatever line it stands (`literal_code`).
-/

namespace Bindery.Notebook

open Escape (escape escapeChar smartQuotes quoteChar)
open Deck (inCommand)
open Typesetting (IsDelimiter IsDelimited)
open scoped Typesetting

/-! ### Code spans -/

/-- The contents of the code spans of a text.  Code stands between a backtick and the next one, and
is not empty; `skip` characters belong to the last span. -/
def codesFrom : Nat → List Char → List (List Char)
  | _, [] => []
  | skip + 1, _ :: cs => codesFrom skip cs
  | 0, c :: cs =>
    if c = '\x60' then
      match Span.code.content? cs with
      | some code => code :: codesFrom (code.length + 1) cs
      | none => codesFrom 0 cs
    else codesFrom 0 cs

/-- The contents of the code spans of a text, from left to right. -/
def codes (text : List Char) : List (List Char) :=
  codesFrom 0 text

/-- Typeset code. -/
def typesetCode (code : List Char) : List Char :=
  inCommand "texttt" code

/-- The codes that hold no asterisk. -/
def plainCodes (text : List Char) : List (List Char) :=
  (codes text).filter fun code => !code.contains '*'

theorem codesFrom_drop (skip : Nat) (cs : List Char) :
  codesFrom skip cs = codesFrom 0 (cs.drop skip)
  := by
  induction skip generalizing cs with
  | zero => rfl
  | succ skip ih =>
    cases cs with
    | nil => rfl
    | cons c cs => exact ih cs

/-- A code span is found at a backtick. -/
theorem find_code (c : Char) (cs : List Char) :
  Span.code.find (c :: cs) = if c = '\x60' then
    (Span.code.content? cs).map fun code => (code.length + 2, typesetCode code) else none
  := by
  by_cases hc : c = '\x60'
  · subst hc
    rfl
  · rw [Span.find, if_neg hc, if_neg]
    simpa [Span.code] using Ne.symm hc

/-! ### Texts with codes in them -/

/-- The text is made of typeset codes without asterisks, in this order, and of other characters. -/
inductive Woven : List (List Char) → List Char → Prop where
  | nil : Woven [] []
  | char {codes : List (List Char)} {text : List Char} (c : Char) (h : Woven codes text) :
    Woven codes (c :: text)
  | code {codes : List (List Char)} {code text : List Char} (hcode : '*' ∉ code)
      (h : Woven codes text) :
    Woven (code :: codes) (typesetCode code ++ text)

variable {first second : List (List Char)} {text more before after : List Char} {s : Span}

theorem Woven.chars (chars : List Char) (h : Woven first text) :
  Woven first (chars ++ text)
  := by
  induction chars with
  | nil => exact h
  | cons c chars ih => exact .char c ih

theorem Woven.append (h : Woven first text) (hmore : Woven second more) :
  Woven (first ++ second) (text ++ more)
  := by
  induction h with
  | nil => exact hmore
  | char c _ ih => exact .char c ih
  | code hcode _ ih =>
    rw [List.append_assoc]
    exact .code hcode ih

theorem not_mem_inCommand {c : Char} {command : String}
    (hcommand : c ∉ '\\' :: '{' :: '}' :: command.toList) (h : c ∉ text) :
  c ∉ inCommand command text
  := by
  simp only [List.mem_cons, not_or] at hcommand
  simp only [inCommand, List.cons_append, List.mem_cons, List.mem_append, List.not_mem_nil,
    or_false, not_or]
  exact ⟨hcommand.1, ⟨hcommand.2.2.2, hcommand.2.1, h⟩, hcommand.2.2.1⟩

theorem not_mem_typesetCode {code : List Char} (h : '*' ∉ code) :
  '*' ∉ typesetCode code
  := not_mem_inCommand (by decide) h

/-- A text with codes in it can be cut at an asterisk, which stands in none of them. -/
theorem Woven.cut (h : Woven first text) (htext : text = before ++ '*' :: after) :
  ∃ left right, first = left ++ right ∧ Woven left before ∧ Woven right after
  := by
  induction h generalizing before with
  | nil => simp at htext
  | char c h ih =>
    cases before with
    | nil =>
      obtain ⟨rfl, rfl⟩ := List.cons.inj htext
      exact ⟨[], _, rfl, .nil, h⟩
    | cons b before =>
      obtain ⟨rfl, hrest⟩ := List.cons.inj htext
      obtain ⟨left, right, rfl, hleft, hright⟩ := ih hrest
      exact ⟨left, right, rfl, .char c hleft, hright⟩
  | @code codes code text hcode h ih =>
    rcases List.append_eq_append_iff.mp htext with ⟨rest, rfl, hrest⟩ | ⟨inner, hcut, hafter⟩
    · obtain ⟨left, right, rfl, hleft, hright⟩ := ih hrest
      exact ⟨code :: left, right, rfl, .code hcode hleft, hright⟩
    · cases inner with
      | nil =>
        have hrest : _ = [] ++ '*' :: after := hafter.symm
        obtain ⟨left, right, rfl, hleft, hright⟩ := ih hrest
        rw [List.append_nil] at hcut
        refine ⟨code :: left, right, rfl, ?_, hright⟩
        rw [← hcut, ← List.append_nil (typesetCode code)]
        exact .code hcode hleft
      | cons d inner =>
        obtain ⟨rfl, -⟩ := List.cons.inj hafter
        apply absurd _ (not_mem_typesetCode hcode)
        rw [hcut]
        simp

theorem Woven.eq_nil (h : Woven first []) :
  first = []
  := by
  generalize htext : [] = text at h
  cases h with
  | nil => rfl
  | char => cases htext
  | code => cases htext

/-- Asterisks in front of a text are in no code. -/
theorem Woven.drop {stars : List Char} (hstars : ∀ d ∈ stars, d = '*')
    (h : Woven first (stars ++ text)) :
  Woven first text
  := by
  induction stars with
  | nil => exact h
  | cons d stars ih =>
    obtain ⟨rfl, hrest⟩ := List.forall_mem_cons.mp hstars
    have htext : '*' :: stars ++ text = [] ++ '*' :: (stars ++ text) := rfl
    obtain ⟨left, right, rfl, hleft, hright⟩ := h.cut htext
    obtain rfl := hleft.eq_nil
    exact ih hrest hright

/-! ### Emphasis -/

/-- A kind of span between asterisks. -/
structure IsEmphasis (s : Span) : Prop extends IsDelimited s where
  star : ∀ d ∈ s.delimiter, d = '*'
  command : '*' ∉ s.command

theorem isEmphasis_bold :
  IsEmphasis Span.bold
  where
  toIsDelimited := Typesetting.isDelimited_bold
  star := by decide
  command := by decide

theorem isEmphasis_italic :
  IsEmphasis Span.italic
  where
  toIsDelimited := Typesetting.isDelimited_italic
  star := by decide
  command := by decide

/-- Emphasis begins with an asterisk. -/
theorem IsEmphasis.find_eq_none (hs : IsEmphasis s) {c : Char} (hc : c ≠ '*') (text : List Char) :
  s.find (c :: text) = none
  := by
  rw [Span.find, if_neg]
  rw [List.isPrefixOf_iff_prefix]
  intro hprefix
  cases hdelimiter : s.delimiter with
  | nil => exact hs.nonempty hdelimiter
  | cons d rest =>
    rw [hdelimiter] at hprefix
    obtain ⟨rfl, -⟩ := List.cons_prefix_cons.mp hprefix
    apply hc
    apply hs.star
    rw [hdelimiter]
    apply List.mem_cons_self

/-- A text that begins with a span of emphasis can be cut at the asterisks. -/
theorem Woven.cut_span {content rest : List Char} (hs : IsEmphasis s)
    (h : Woven first (s.delimiter ++ (content ++ (s.delimiter ++ rest)))) :
  ∃ left right, first = left ++ right ∧ Woven left content ∧ Woven right rest
  := by
  obtain ⟨d, stars, hdelimiter⟩ := List.exists_cons_of_ne_nil hs.nonempty
  have hstar := hs.star
  have hcontent := h.drop hs.star
  rw [hdelimiter] at hstar hcontent
  obtain ⟨rfl, hstars⟩ := List.forall_mem_cons.mp hstar
  obtain ⟨left, right, rfl, hleft, hright⟩ := hcontent.cut rfl
  exact ⟨left, right, rfl, hleft, hright.drop hstars⟩

/-- A command keeps the codes of its argument. -/
theorem Woven.inCommand (h : Woven first text) (command : List Char) :
  Woven first ('\\' :: command ++ '{' :: text ++ ['}'])
  := by
  have hparts : '\\' :: command ++ '{' :: text ++ ['}']
      = ('\\' :: command ++ ['{']) ++ (text ++ ['}']) := by simp
  have hclose : Woven (first ++ []) (text ++ ['}']) := h.append (.char '}' .nil)
  rw [List.append_nil] at hclose
  rw [hparts]
  exact hclose.chars _

/-- Turning emphasis into commands leaves codes without asterisks as they are. -/
theorem Woven.convert (h : Woven first text) (hs : IsEmphasis s) :
  Woven first (s.convert text)
  := by
  induction hlength : text.length using Nat.strongRecOn generalizing first text with
  | ind length ih =>
    subst hlength
    cases h with
    | nil => exact .nil
    | @char _ text c h =>
      rcases hs.convert_cases c text with heq | ⟨content, rest, htext, hlength, heq⟩
      · rw [heq]
        exact .char c (ih text.length (Nat.lt_succ_self _) h rfl)
      · have hwoven := Woven.char c h
        rw [htext] at hwoven
        obtain ⟨left, right, rfl, hleft, hright⟩ := hwoven.cut_span hs
        rw [heq]
        exact (hleft.inCommand s.command).append (ih rest.length hlength hright rfl)
    | @code codes code text hcode h =>
      have hfind : ∀ c ∈ typesetCode code, ∀ text, s.find (c :: text) = none :=
        fun c hc => hs.find_eq_none (ne_of_mem_of_not_mem hc (not_mem_typesetCode hcode))
      have hlength : text.length < (typesetCode code ++ text).length := by
        rw [List.length_append]
        exact Nat.lt_add_of_pos_left (Nat.succ_pos _)
      rw [Span.convert, Typesetting.replaceWhere_append hfind]
      exact .code hcode (ih text.length hlength h rfl)

/-! ### Lines -/

/-- Once code spans are turned into commands, the codes stand in the text. -/
theorem woven_codesFrom (skip : Nat) (text : List Char) :
  Woven ((codesFrom skip text).filter fun code => !code.contains '*')
    (Text.replaceWhere Span.code.find skip text)
  := by
  fun_induction codesFrom skip text with
  | case1 => exact .nil
  | case2 skip c cs ih => exact ih
  | case3 cs code hcode ih =>
    rw [Text.replaceWhere, find_code, if_pos rfl, hcode]
    change Woven _ (typesetCode code ++ Text.replaceWhere Span.code.find (code.length + 1) cs)
    by_cases hstar : '*' ∈ code
    · rw [List.filter_cons_of_neg (by simpa using hstar)]
      exact ih.chars _
    · rw [List.filter_cons_of_pos (by simpa using hstar)]
      exact .code hstar ih
  | case4 cs hcode ih =>
    rw [Text.replaceWhere, find_code, if_pos rfl, hcode]
    exact .char _ ih
  | case5 c cs hc ih =>
    rw [Text.replaceWhere, find_code, if_neg hc]
    exact .char c ih

/-- Spelling a character as a quote makes no asterisks and loses none. -/
theorem count_smartQuotes (cs : List Char) :
  (smartQuotes cs).count '*' = cs.count '*'
  := by
  induction cs with
  | nil => rfl
  | cons c cs ih =>
    rw [smartQuotes, List.flatMap_cons, List.count_append, List.count_cons, Nat.add_comm]
    refine congrArg₂ (· + ·) ih ?_
    unfold quoteChar
    split
    · decide
    · decide
    · decide
    · rw [List.count_singleton]

theorem smartQuotes_typesetCode (code : List Char) :
  smartQuotes (typesetCode code) = typesetCode (smartQuotes code)
  := by
  have hparts (code : List Char) :
      typesetCode code = "\\texttt\x7b".toList ++ (code ++ ['}']) := rfl
  have hopen : smartQuotes "\\texttt\x7b".toList = "\\texttt\x7b".toList := by decide
  rw [hparts, hparts, Escape.smartQuotes_append, Escape.smartQuotes_append, hopen]
  rfl

/-- Codes stay where they are when quotes are spelled, in them as elsewhere. -/
theorem Woven.smartQuotes (h : Woven first text) :
  Woven (first.map Escape.smartQuotes) (Escape.smartQuotes text)
  := by
  induction h with
  | nil => exact .nil
  | char c _ ih => exact ih.chars (quoteChar c)
  | @code _ code _ hcode _ ih =>
    rw [Escape.smartQuotes_append, smartQuotes_typesetCode]
    refine .code ?_ ih
    rw [← List.count_eq_zero] at hcode ⊢
    rwa [count_smartQuotes]

/-- The codes of a line without asterisks stand in the typeset line, in order. -/
theorem woven_inline (text : List Char) :
  Woven ((plainCodes (escape text)).map Escape.smartQuotes) (inline text)
  := by
  have hcode : Woven (plainCodes (escape text)) (Span.code.convert (escape text)) :=
    woven_codesFrom 0 (escape text)
  exact ((hcode.convert isEmphasis_bold).convert isEmphasis_italic).smartQuotes

/-! ### Codes with asterisks -/

/-- Turning emphasis into commands changes nothing, or takes the asterisks of a span away. -/
theorem convert_eq_or_count_le (hs : IsEmphasis s) (text : List Char) :
  s.convert text = text
    ∨ (s.convert text).count '*' + 2 * s.delimiter.length ≤ text.count '*'
  := by
  induction hlength : text.length using Nat.strongRecOn generalizing text with
  | ind length ih =>
    subst hlength
    cases text with
    | nil => exact Or.inl rfl
    | cons c text =>
      rcases hs.convert_cases c text with heq | ⟨content, rest, htext, hlength, heq⟩
      · rw [heq]
        refine (ih text.length (Nat.lt_succ_self _) text rfl).imp (congrArg _) fun hrest => ?_
        rw [List.count_cons, List.count_cons]
        omega
      · right
        have hdelimiter : s.delimiter.count '*' = s.delimiter.length :=
          List.count_eq_length.mpr fun d hd => (hs.star d hd).symm
        have hcommand : s.command.count '*' = 0 := List.count_eq_zero.mpr hs.command
        have hrest : (s.convert rest).count '*' ≤ rest.count '*' := by
          rcases ih rest.length hlength rest rfl with hrest | hrest
          · rw [hrest]
          · omega
        have hnew : (s.convert (c :: text)).count '*'
            = content.count '*' + (s.convert rest).count '*' := by
          rw [heq]
          simp [hcommand]
        have hold : (c :: text).count '*'
            = content.count '*' + rest.count '*' + 2 * s.delimiter.length := by
          rw [htext]
          simp only [List.count_append, hdelimiter]
          omega
        omega

/-- A character is spelled without delimiters, or it is one and is spelled as itself. -/
theorem escapeChar_cases (c : Char) :
  (IsDelimiter c ∧ escapeChar c = [c]) ∨ ¬ IsDelimiter c ∧ ∀ d ∈ escapeChar c, ¬ IsDelimiter d
  := by
  by_cases hstrip : Escape.isStripped c
  · right
    rw [Escape.escapeChar_of_stripped hstrip]
    refine ⟨?_, List.forall_mem_nil _⟩
    rintro (rfl | rfl) <;> revert hstrip <;> decide
  · rw [Bool.not_eq_true] at hstrip
    cases hspelling : Escape.replacement? c with
    | some spelling =>
      right
      rw [Escape.escapeChar_of_replacement hstrip hspelling]
      refine ⟨?_, Typesetting.not_isDelimiter_of_replacement hspelling⟩
      rintro (rfl | rfl) <;> cases hspelling
    | none =>
      rw [Escape.escapeChar_of_none hstrip hspelling, List.forall_mem_singleton]
      by_cases hc : IsDelimiter c
      · exact Or.inl ⟨hc, rfl⟩
      · exact Or.inr ⟨hc, hc⟩

/-- Escaped text on both sides of a delimiter is escaped. -/
theorem exists_of_escape {d : Char} (hd : IsDelimiter d) (h : escape text = before ++ d :: after) :
  ∃ left right, before = escape left ∧ after = escape right
  := by
  induction text generalizing before with
  | nil => simp [escape] at h
  | cons c text ih =>
    rw [Escape.escape_cons] at h
    rcases List.append_eq_append_iff.mp h with ⟨rest, rfl, hrest⟩ | ⟨inner, hinner, hafter⟩
    · obtain ⟨left, right, rfl, rfl⟩ := ih hrest
      exact ⟨c :: left, right, (Escape.escape_cons c left).symm, rfl⟩
    · cases inner with
      | nil =>
        have hrest : escape text = [] ++ d :: after := hafter.symm
        obtain ⟨left, right, hleft, rfl⟩ := ih hrest
        refine ⟨[c], right, ?_, rfl⟩
        rw [Escape.escape_cons, hinner, List.append_nil]
        exact (List.append_nil before).symm
      | cons e inner =>
        -- The delimiter is the character itself.
        obtain ⟨rfl, hrest⟩ := List.cons.inj hafter
        rcases escapeChar_cases c with ⟨-, heq⟩ | ⟨-, hnone⟩
        · rw [heq] at hinner
          cases before with
          | nil =>
            obtain ⟨rfl, rfl⟩ := List.cons.inj hinner
            exact ⟨[], text, rfl, hrest⟩
          | cons => simp at hinner
        · exact absurd hd (hnone d (by simp [hinner]))

/-- Code stands between backticks, and holds none. -/
theorem exists_of_mem_codesFrom {code : List Char} {skip : Nat} (h : code ∈ codesFrom skip text) :
  ∃ before after, text = before ++ '\x60' :: (code ++ '\x60' :: after) ∧ '\x60' ∉ code
  := by
  fun_induction codesFrom skip text with
  | case1 => cases h
  | case2 skip c cs ih =>
    obtain ⟨before, after, rfl, htick⟩ := ih h
    exact ⟨c :: before, after, rfl, htick⟩
  | case3 cs content hcontent ih =>
    rcases List.mem_cons.mp h with rfl | h
    · obtain ⟨after, hafter⟩ := Span.prefix_of_code hcontent
      refine ⟨[], after, ?_, Span.not_mem_of_code hcontent⟩
      rw [← hafter]
      simp [Span.code]
    · obtain ⟨before, after, rfl, htick⟩ := ih h
      exact ⟨_ :: before, after, rfl, htick⟩
  | case4 cs hcontent ih =>
    obtain ⟨before, after, rfl, htick⟩ := ih h
    exact ⟨_ :: before, after, rfl, htick⟩
  | case5 c cs hc ih =>
    obtain ⟨before, after, rfl, htick⟩ := ih h
    exact ⟨c :: before, after, rfl, htick⟩

/-- The codes of escaped text are escaped. -/
theorem exists_escape_of_mem_codes {code : List Char} (h : code ∈ codes (escape text)) :
  ∃ raw, code = escape raw ∧ '\x60' ∉ code
  := by
  obtain ⟨before, after, htext, htick⟩ := exists_of_mem_codesFrom h
  obtain ⟨-, behind, -, hbehind⟩ := exists_of_escape (Or.inl rfl) htext
  obtain ⟨raw, -, hraw, -⟩ := exists_of_escape (Or.inl rfl) hbehind.symm
  exact ⟨raw, hraw, htick⟩

/-- A lone asterisk in front of a code span: with an asterisk of the code it makes emphasis. -/
def starred (code : List Char) : List Char :=
  '*' :: 'a' :: '\x60' :: code ++ ['\x60']

theorem escape_starred (code : List Char) :
  escape (starred code) = starred (escape code)
  := by
  have hparts (code : List Char) : starred code = ['*', 'a', '\x60'] ++ (code ++ ['\x60']) := rfl
  have hopen : escape ['*', 'a', '\x60'] = ['*', 'a', '\x60'] := by decide
  have hclose : escape ['\x60'] = ['\x60'] := by decide
  rw [hparts, hparts, Escape.escape_append, Escape.escape_append, hopen, hclose]

theorem code_content {code : List Char} (htick : '\x60' ∉ code) (hne : code ≠ []) :
  Span.code.content? (code ++ ['\x60']) = some code
  := by
  have htake : (code ++ ['\x60']).takeWhile (· != '\x60') = code := by
    rw [List.takeWhile_append_of_pos, List.takeWhile_cons_of_neg (by simp), List.append_nil]
    intro c hc
    rw [bne_iff_ne]
    exact ne_of_mem_of_not_mem hc htick
  change (Span.before? '\x60' (code ++ ['\x60'])).filter _ = _
  rw [Span.before?, if_pos (by simp), htake]
  simpa using hne

theorem codes_starred {code : List Char} (htick : '\x60' ∉ code) (hne : code ≠ []) :
  codes (starred code) = [code]
  := by
  change codesFrom 0 ('\x60' :: (code ++ ['\x60'])) = [code]
  rw [codesFrom, if_pos rfl, code_content htick hne]
  change code :: codesFrom (code.length + 1) _ = [code]
  rw [codesFrom_drop, List.drop_of_length_le (by simp), codesFrom]

theorem convert_code_starred {code : List Char} (htick : '\x60' ∉ code) (hne : code ≠ []) :
  Span.code.convert (starred code) = '*' :: 'a' :: typesetCode code
  := by
  have htexttt : Text.replaceWhere Span.code.find 0 ('\x60' :: (code ++ ['\x60']))
      = typesetCode code := by
    rw [Text.replaceWhere, find_code, if_pos rfl, code_content htick hne]
    change typesetCode code ++ Text.replaceWhere Span.code.find (code.length + 1) _ = _
    rw [Text.replaceWhere_drop, List.drop_of_length_le (by simp)]
    exact List.append_nil _
  rw [← htexttt]
  rfl

/-- An italic span begins at an asterisk with a letter behind it, if another asterisk follows. -/
theorem convert_italic_ne {rest : List Char} (hend : '*' ∈ rest) :
  Span.italic.convert ('*' :: 'a' :: rest) ≠ '*' :: 'a' :: rest
  := by
  have hbefore : Span.before? '*' ('a' :: rest) = some ('a' :: rest.takeWhile (· != '*')) := by
    rw [Span.before?, if_pos (by simpa using hend), List.takeWhile_cons_of_pos (by decide)]
  have hcontent : Span.italic.content? ('a' :: rest)
      = some ('a' :: rest.takeWhile (· != '*')) := by
    change (Span.before? '*' ('a' :: rest)).filter _ = _
    rw [hbefore]
    rfl
  have hfind : Span.italic.find ('*' :: 'a' :: rest)
      = (Span.italic.content? ('a' :: rest)).map fun content =>
        (content.length + 2, '\\' :: "textit".toList ++ '{' :: content ++ ['}']) := rfl
  rw [hcontent] at hfind
  rw [Span.convert, Text.replaceWhere, hfind]
  intro heq
  exact absurd (List.cons.inj heq).1 (by decide)

/-- Emphasis that begins in front of a code takes asterisks of it away. -/
theorem count_emphasis_lt {code : List Char} (hstar : '*' ∈ code) :
  (Span.italic.convert (Span.bold.convert ('*' :: 'a' :: code))).count '*' < code.count '*'
  := by
  have hbold : Span.bold.convert ('*' :: 'a' :: code) = '*' :: 'a' :: Span.bold.convert code := rfl
  have hcount (rest : List Char) : ('*' :: 'a' :: rest).count '*' = rest.count '*' + 1 := by
    rw [List.count_cons_self, List.count_cons_of_ne (by decide)]
  have hstrong := convert_eq_or_count_le isEmphasis_bold code
  have hitalic := convert_eq_or_count_le isEmphasis_italic ('*' :: 'a' :: Span.bold.convert code)
  rw [hcount] at hitalic
  rw [hbold]
  -- An asterisk that bold spans leave in the code is the end of an italic span.
  by_cases hend : '*' ∈ Span.bold.convert code
  · have hle : (Span.bold.convert code).count '*' ≤ code.count '*' := by
      rcases hstrong with heq | hle
      · rw [heq]
      · omega
    have hlost := hitalic.resolve_left (convert_italic_ne hend)
    change _ + 2 ≤ _ at hlost
    omega
  -- Where they leave none, they have taken away at least four.
  · have hnone := List.count_eq_zero.mpr hend
    have hlost := hstrong.resolve_left fun heq => hend (heq.symm ▸ hstar)
    change _ + 4 ≤ _ at hlost
    rcases hitalic with heq | hle
    · rw [heq, hcount]
      omega
    · omega

/-- A code that holds no asterisk is literal in every line, and a code that holds one is not.  The
codes of a line stand in the typeset line as arguments of `\texttt`, in order and apart from the
spelling of quotes unchanged, as far as they hold no asterisk; and for each code that holds one
there is a line, with this code alone, of which emphasis takes a part of the code away. -/
theorem literal_code (text : List Char) :
  Woven ((plainCodes (escape text)).map smartQuotes) (inline text)
    ∧ ∀ code ∈ codes (escape text), '*' ∈ code → ∃ other, codes (escape other) = [code]
      ∧ ¬ typesetCode (smartQuotes code) <:+: inline other
  := by
  refine ⟨woven_inline text, fun code hcode hstar => ?_⟩
  obtain ⟨raw, rfl, htick⟩ := exists_escape_of_mem_codes hcode
  have hne : escape raw ≠ [] := List.ne_nil_of_mem hstar
  use starred raw
  rw [escape_starred]
  refine ⟨codes_starred htick hne, fun hinfix => ?_⟩
  have hcount := hinfix.sublist.count_le '*'
  rw [inline, escape_starred, convert_code_starred htick hne, ← smartQuotes_typesetCode,
    count_smartQuotes, count_smartQuotes] at hcount
  have hmem : '*' ∈ typesetCode (escape raw) := by
    simp [typesetCode, inCommand, hstar]
  exact absurd hcount (Nat.not_le_of_lt (count_emphasis_lt hmem))

/-- Emphasis within a code takes its asterisks away. -/
theorem code_emphasized :
  codes (escape "\x60a*b*c\x60".toList) = ["a*b*c".toList]
    ∧ inline "\x60a*b*c\x60".toList = typesetCode "a\\textit\x7bb\x7dc".toList
  := by
  decide

end Bindery.Notebook
