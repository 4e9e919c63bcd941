import Mathlib.Tactic.Use
import Bindery.Deck.Render
import Bindery.Proofs.Typesetting.Reading
import Bindery.Proofs.Typesetting.Span

/-!
# What the typesetter makes of text

Whatever a text says, the typesetter finds no markup in it: not in the escaped text, not in a run
or a title of a slide, and not in a line of markdown (`harmless_typeset`).  Each block is read as
tokens of its own, whatever follows it, so that typeset text is read block by block
(`Typeset.readsAs`).
-/

namespace Bindery.Typesetting

open Escape (isStripped replacement? escapeChar escapeChar_of_replacement escapeChar_of_none escape)
open Deck (inCommand inCommandIf titleLines)

variable {A : Alphabet} {named : List Char → Prop} {n k m : Nat} {block text more : List Char}
  {tokens rest : List Token}

/-! ### Reading blocks -/

theorem isLetter_of_isAlpha {c : Char} (h : c.isAlpha) :
  A.isLetter c = true
  := by
  have hascii : c.toNat < 128 := by
    rcases (Bool.or_eq_true _ _).mp h with hupper | hlower
    · have hbound : c.val ≤ 'Z'.val := (of_decide_eq_true hupper).2
      exact Nat.lt_of_le_of_lt (UInt32.le_iff_toNat_le.mp hbound) (by decide)
    · have hbound : c.val ≤ 'z'.val := of_decide_eq_true ((Bool.and_eq_true _ _).mp hlower).2
      exact Nat.lt_of_le_of_lt (UInt32.le_iff_toNat_le.mp hbound) (by decide)
  rw [A.isLetter_ascii c hascii, h]

theorem isLetter_of_not_isAlpha {c : Char} (hascii : c.toNat < 128) (h : c.isAlpha = false) :
  A.isLetter c = false
  := by
  rw [A.isLetter_ascii c hascii, h]

/-- A command and the brace that opens its argument. -/
theorem read_opening {name : List Char} (hne : name ≠ []) (hname : ∀ c ∈ name, c.isAlpha)
    (more : List Char) :
  A.read ('\\' :: name ++ '{' :: more) = .command name :: .char '{' :: A.read more
  := by
  have hbrace : A.isLetter '{' = false := isLetter_of_not_isAlpha (by decide) rfl
  have hletters : ∀ c ∈ name, A.isLetter c = true := fun c hc => isLetter_of_isAlpha (hname c hc)
  rw [List.cons_append, Alphabet.read_word hne hletters hbrace, A.read_char (by decide)]

/-- What the spelling of a reserved character is read as. -/
inductive IsSpelling : List Char → List Token → Prop where
  | symbol {c : Char} (hascii : c.toNat < 128) (hc : c.isAlpha = false) :
    IsSpelling ['\\', c] [.command [c]]
  | accent {c : Char} (hascii : c.toNat < 128) (hc : c.isAlpha = false) :
    IsSpelling ['\\', c, '{', '}'] [.command [c], .char '{', .char '}']
  | word (name : List Char) (hne : name ≠ []) (hname : ∀ c ∈ name, c.isAlpha) :
    IsSpelling ('\\' :: name ++ ['{', '}']) [.command name, .char '{', .char '}']

theorem exists_isSpelling {c : Char} {spelling : String} (h : replacement? c = some spelling) :
  ∃ tokens, IsSpelling spelling.toList tokens
  := by
  unfold replacement? at h
  split at h <;> cases h
  case h_8 => exact ⟨_, .word "textasciitilde".toList (by decide) (by decide)⟩
  case h_9 => exact ⟨_, .accent (c := '^') (by decide) rfl⟩
  case h_10 => exact ⟨_, .word "textbackslash".toList (by decide) (by decide)⟩
  case h_11 => exact ⟨_, .word "textless".toList (by decide) (by decide)⟩
  case h_12 => exact ⟨_, .word "textgreater".toList (by decide) (by decide)⟩
  case h_13 => exact ⟨_, .word "textbar".toList (by decide) (by decide)⟩
  all_goals exact ⟨_, .symbol (by decide) rfl⟩

theorem IsSpelling.read_append {spelling : List Char} {tokens : List Token}
    (h : IsSpelling spelling tokens) (more : List Char) :
  A.read (spelling ++ more) = tokens ++ A.read more
  := by
  cases h with
  | symbol hascii hc =>
    exact Alphabet.read_symbol (isLetter_of_not_isAlpha hascii hc) more
  | accent hascii hc =>
    simp [Alphabet.read_symbol (isLetter_of_not_isAlpha (A := A) hascii hc)]
  | @word name hne hname =>
    have hparts : '\\' :: name ++ ['{', '}'] ++ more = '\\' :: name ++ '{' :: ('}' :: more) := by
      simp
    rw [hparts, read_opening hne hname, A.read_char (by decide)]
    rfl

theorem IsSpelling.braces {spelling : List Char} {tokens : List Token}
    (h : IsSpelling spelling tokens) (n : Nat) :
  braces n tokens = some n
  := by
  cases h <;> rfl

theorem IsSpelling.not_mem_active {spelling : List Char} {tokens : List Token}
    (h : IsSpelling spelling tokens) {c : Char} (hc : .char c ∈ tokens) :
  c ∉ active
  := by
  cases h with
  | symbol => simp at hc
  | accent | word =>
    have hbrace : c = '{' ∨ c = '}' := by simpa using hc
    rcases hbrace with rfl | rfl <;> decide

/-- A control sequence of the table, or one that sets text in a format. -/
def IsLiteral (A : Alphabet) (name : List Char) : Prop :=
  Spells A name ∨ name ∈ formats

/-- The text is read as certain tokens, whatever follows it. -/
structure ReadsAs (A : Alphabet) (named : List Char → Prop) (n : Nat) (text : List Char)
    (tokens : List Token) (m : Nat) : Prop where
  read : ∀ more, A.read (text ++ more) = tokens ++ A.read more
  commands : ∀ name, .command name ∈ tokens → named name
  chars : ∀ c, .char c ∈ tokens → c ∉ active
  braces : braces n tokens = some m

theorem ReadsAs.append (h : ReadsAs A named n text tokens k)
    (hmore : ReadsAs A named k more rest m) :
  ReadsAs A named n (text ++ more) (tokens ++ rest) m
  := by
  constructor
  · intro after
    rw [List.append_assoc, h.read, hmore.read, List.append_assoc]
  · intro name hname
    exact (List.mem_append.mp hname).elim (h.commands name) (hmore.commands name)
  · intro c hc
    exact (List.mem_append.mp hc).elim (h.chars c) (hmore.chars c)
  · rw [braces_append, h.braces]
    exact hmore.braces

theorem ReadsAs.mono {other : List Char → Prop} (h : ReadsAs A named n text tokens m)
    (hnamed : ∀ name, named name → other name) :
  ReadsAs A other n text tokens m
  := ⟨h.read, fun name hname => hnamed name (h.commands name hname), h.chars, h.braces⟩

theorem readsAs_closing (n : Nat) :
  ReadsAs A named (n + 1) ['}'] [.char '}'] n
  where
  read := A.read_char (by decide)
  commands := by simp
  chars := by simp [active]
  braces := rfl

theorem reserved_of_active :
  ∀ c ∈ active, c ∈ Escape.reserved
  := by decide

theorem alpha_of_mem_formats :
  ∀ name ∈ formats, name ≠ [] ∧ ∀ c ∈ name, c.isAlpha
  := by decide

theorem readsAs_literal (n : Nat) {c : Char} (kept : isStripped c = false) :
  ∃ tokens, ReadsAs A (IsLiteral A) n (escapeChar c) tokens n
  := by
  cases hspelling : replacement? c with
  | some spelling =>
    obtain ⟨tokens, h⟩ := exists_isSpelling hspelling
    use tokens
    rw [escapeChar_of_replacement kept hspelling]
    constructor
    · exact h.read_append
    · intro name hname
      left
      use c, spelling, hspelling
      have hread : A.read spelling.toList = tokens := by simpa using h.read_append (A := A) []
      rw [hread]
      exact hname
    · intro d
      exact h.not_mem_active
    · exact h.braces n
  | none =>
    use [.char c]
    rw [escapeChar_of_none kept hspelling]
    have hplain : ∀ d, (replacement? d).isSome → c ≠ d := by
      rintro d hd rfl
      rw [hspelling] at hd
      cases hd
    constructor
    · exact A.read_char (hplain _ rfl)
    · simp
    · intro d hd hactive
      obtain rfl : d = c := by simpa using hd
      have hreserved := reserved_of_active d hactive
      rw [Escape.mem_reserved_iff, hspelling] at hreserved
      cases hreserved
    · have hopen := hplain '{' rfl
      have hclose := hplain '}' rfl
      simp [Typesetting.braces, Token.braces, hopen, hclose]

theorem Block.readsAs (h : Block n block k) :
  ∃ tokens, ReadsAs A (IsLiteral A) n block tokens k
  := by
  cases h with
  | literal c kept => exact readsAs_literal n kept
  | @opening _ name hname =>
    obtain ⟨hne, halpha⟩ := alpha_of_mem_formats name hname
    use [.command name, .char '{']
    constructor
    · intro more
      have hparts : '\\' :: name ++ ['{'] ++ more = '\\' :: name ++ '{' :: more := by simp
      rw [hparts, read_opening hne halpha]
      rfl
    · intro other hother
      obtain rfl : other = name := by simpa using hother
      exact Or.inr hname
    · intro c hc
      obtain rfl : c = '{' := by simpa using hc
      decide
    · rfl
  | closing => exact ⟨_, readsAs_closing k⟩

/-- Typeset text is read as such. -/
theorem Typeset.readsAs (h : Typeset n text m) :
  ∃ tokens, ReadsAs A (IsLiteral A) n text tokens m
  := by
  induction h with
  | nil => exact ⟨[], fun _ => rfl, by simp, by simp, rfl⟩
  | cons head _ ih =>
    obtain ⟨first, hfirst⟩ := head.readsAs (A := A)
    obtain ⟨rest, hrest⟩ := ih
    exact ⟨first ++ rest, hfirst.append hrest⟩

/-! ### Control characters -/

/-- The control characters that are kept: tab, line feed, and those above the ASCII range. -/
def StaysControl (c : Char) : Prop :=
  c = '\t' ∨ c = '\n' ∨ 0x80 ≤ c.toNat

instance (c : Char) : Decidable (StaysControl c) :=
  inferInstanceAs (Decidable (_ ∨ _))

/-- The control characters of the text are among those that are kept. -/
def IsClean (text : List Char) : Prop :=
  ∀ c ∈ text, IsControl c → StaysControl c

instance (text : List Char) : Decidable (IsClean text) :=
  inferInstanceAs (Decidable (∀ c ∈ text, _))

theorem IsClean.append (h : IsClean text) (hmore : IsClean more) :
  IsClean (text ++ more)
  := List.forall_mem_append.mpr ⟨h, hmore⟩

theorem staysControl_of_not_isStripped {c : Char} (kept : isStripped c = false)
    (h : IsControl c) :
  StaysControl c
  := by
  have hnat : ∀ d e : Char, d ≤ e ↔ d.toNat ≤ e.toNat := fun _ _ => Iff.rfl
  simp only [isStripped, Bool.or_eq_false_iff, Bool.and_eq_false_iff, decide_eq_false_iff_not,
    beq_eq_false_iff_ne, hnat, ne_eq, ← Char.toNat_inj] at kept
  simp only [StaysControl, ← Char.toNat_inj]
  simp at kept ⊢
  unfold IsControl at h
  omega

theorem isClean_of_replacement {c : Char} {spelling : String}
    (h : replacement? c = some spelling) :
  IsClean spelling.toList
  := by
  unfold replacement? at h
  split at h <;> cases h <;> decide

theorem isClean_of_mem_formats :
  ∀ name ∈ formats, IsClean ('\\' :: name ++ ['{'])
  := by decide

theorem Block.isClean (h : Block n block k) :
  IsClean block
  := by
  cases h with
  | literal c kept =>
    cases hspelling : replacement? c with
    | some spelling =>
      rw [escapeChar_of_replacement kept hspelling]
      exact isClean_of_replacement hspelling
    | none =>
      rw [escapeChar_of_none kept hspelling]
      rintro d hd hcontrol
      obtain rfl := List.mem_singleton.mp hd
      exact staysControl_of_not_isStripped kept hcontrol
  | opening hname => exact isClean_of_mem_formats _ hname
  | closing => decide

theorem Typeset.isClean (h : Typeset n text m) :
  IsClean text
  := by
  induction h with
  | nil => decide
  | cons head _ ih => exact head.isClean.append ih

/-! ### Harmless text -/

theorem ReadsAs.harmless (h : ReadsAs A named 0 text tokens 0) (hclean : IsClean text) :
  Harmless A named StaysControl text
  := by
  have hread : A.read text = tokens := by simpa using h.read []
  constructor
  · rw [hread]
    exact h.commands
  · rw [hread]
    exact h.chars
  · rw [hread]
    exact h.braces
  · exact hclean

/-- Typeset text that closes its groups is harmless. -/
theorem Typeset.harmless (h : Typeset 0 text 0) :
  Harmless A (IsLiteral A) StaysControl text
  := by
  obtain ⟨tokens, htokens⟩ := h.readsAs (A := A)
  exact htokens.harmless h.isClean

theorem typeset_literal (n : Nat) (text : List Char) :
  Typeset n (Deck.literal text) n
  := (typeset_escape n text).smartQuotes

theorem Typeset.inCommandIf (h : Typeset n text m) (condition : Bool) {command : String}
    (hcommand : command.toList ∈ formats) :
  Typeset n (Deck.inCommandIf condition command text) m
  := by
  cases condition with
  | false => exact h
  | true => exact h.inFormat hcommand

/-- A run is typeset, in whatever formats. -/
theorem typeset_run {r : Deck.Run} (n : Nat) (h : text ∈ r.render?) :
  Typeset n text n
  := by
  unfold Deck.Run.render? at h
  dsimp only at h
  split at h
  · cases h
  · obtain rfl := Option.some.inj h
    have hbold : "textbf".toList ∈ formats := by decide
    have hitalic : "textit".toList ∈ formats := by decide
    have hunderline : "underline".toList ∈ formats := by decide
    have hliteral := typeset_literal n (Deck.joinLines r.text)
    exact ((hliteral.inCommandIf _ hbold).inCommandIf _ hitalic).inCommandIf _ hunderline

/-- A literal control sequence, or the one that begins a section. -/
def IsTitle (A : Alphabet) (name : List Char) : Prop :=
  IsLiteral A name ∨ name = "section".toList

/-- The wrapper of a title with the text in it is harmless. -/
theorem harmless_section (h : Typeset 0 text 0) :
  Harmless A (IsTitle A) StaysControl (inCommand "section*" text)
  := by
  have hparts : inCommand "section*" text = "\\section*\x7b".toList ++ (text ++ ['}']) := by
    rw [inCommand, List.append_assoc]
    rfl
  have hopening : ReadsAs A (IsTitle A) 0 "\\section*\x7b".toList
      [.command "section".toList, .char '*', .char '{'] 1 := by
    constructor
    · intro more
      have hstar : A.isLetter '*' = false := isLetter_of_not_isAlpha (by decide) rfl
      have hletters : ∀ c ∈ "section".toList, A.isLetter c = true := by
        intro c hc
        apply isLetter_of_isAlpha
        revert c
        decide
      change A.read ('\\' :: ("section".toList ++ '*' :: '{' :: more)) = _
      rw [Alphabet.read_word (by decide) hletters hstar, A.read_char (by decide),
        A.read_char (by decide)]
      rfl
    · intro name hname
      right
      simpa using hname
    · simp [active]
    · rfl
  obtain ⟨tokens, htokens⟩ := h.lift.readsAs (A := A)
  have hbody : ReadsAs A (IsTitle A) 1 text tokens 1 := htokens.mono fun name => Or.inl
  rw [hparts]
  apply (hopening.append (hbody.append (readsAs_closing 0))).harmless
  exact IsClean.append (by decide) (h.isClean.append (by decide))

/-- No text brings in markup: whether it is escaped, set as a run of a slide in any formats, as
the title of a slide or as a line of markdown, the typesetter finds nothing in it but literal
control sequences and formats, no active characters, and groups that are closed. -/
theorem harmless_typeset (A : Alphabet) (x : List Char) :
  Harmless A (IsLiteral A) StaysControl (escape x)
    ∧ (∀ r : Deck.Run, r.text = x → ∀ text ∈ r.render?, Harmless A (IsLiteral A) StaysControl text)
    ∧ (∀ line ∈ titleLines x, Harmless A (IsTitle A) StaysControl line.toList)
    ∧ Harmless A (IsLiteral A) StaysControl (Notebook.inline x)
  := by
  refine ⟨(typeset_escape 0 x).harmless, ?_, ?_, (typeset_inline 0 x).harmless⟩
  · rintro r - text htext
    exact (typeset_run 0 htext).harmless
  · intro line hline
    rcases List.mem_cons.mp hline with rfl | hline
    · rw [String.toList_ofList]
      exact harmless_section (typeset_literal 0 x)
    · obtain rfl := List.mem_singleton.mp hline
      have hempty : Typeset 0 [] 0 := .nil
      obtain ⟨tokens, htokens⟩ := hempty.readsAs (A := A)
      exact (htokens.mono fun name => Or.inl).harmless (by decide)

/-- Spans that cross are harmless, in a line of markdown and as plain text of a slide. -/
theorem harmless_typeset_crossing :
  Harmless .ascii (IsLiteral .ascii) StaysControl "\\textbf\x7b\x60a*b\x60\\_c*\x7d".toList
    ∧ Harmless .ascii (IsTitle .ascii) StaysControl "\\section*\x7b\x60a*b\x60\\_c*\x7d".toList
    ∧ Harmless .ascii (IsLiteral .ascii) StaysControl
      "\\texttt\x7ba\\textit\x7bb\x7d\\_c\x7d".toList
  := by
  obtain ⟨-, hrun, htitle, hline⟩ := harmless_typeset .ascii "\x60a*b\x60_c*".toList
  refine ⟨?_, ?_, ?_⟩
  · exact hrun { text := "\x60a*b\x60_c*".toList, bold := true } rfl _ (by decide)
  · exact htitle "\\section*\x7b\x60a*b\x60\\_c*\x7d" (by decide)
  · exact hline

/-- Control characters above the ASCII range are not removed, so that those in escaped text are
not only tabs and line feeds. -/
theorem next_line_stays :
  ¬ Harmless .ascii (IsLiteral .ascii) (fun c => c = '\t' ∨ c = '\n') (escape ['\u0085'])
  := by
  intro h
  have hnext : '\u0085' = '\t' ∨ '\u0085' = '\n' := h.controls '\u0085' (by decide) (by decide)
  revert hnext
  decide

end Bindery.Typesetting
