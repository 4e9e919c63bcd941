import Bindery.Proofs.Escape

/-!
# Typeset text

Text is `Typeset` if it is made of blocks: characters as they are escaped, the openings of
formatting commands, and closing braces.  It leads from a number of open groups to another.  What
is escaped is typeset (`typeset_escape`), and spelling quotes and setting it in a format keep it
typeset (`Typeset.smartQuotes`, `Typeset.inFormat`).
-/

namespace Bindery.Typesetting

open Escape (isStripped replacement? escapeChar escapeChar_of_replacement escapeChar_of_none escape
  quoteChar smartQuotes)

/-- What holds of every character of a text is decided along the text, not over all characters. -/
scoped instance (priority := 2000) decidableForallMem {p : Char → Prop} [DecidablePred p]
    (text : List Char) : Decidable (∀ c ∈ text, p c) :=
  List.decidableBAll p text

/-- The commands that set text in a format. -/
def formats : List (List Char) :=
  ["textbf".toList, "textit".toList, "underline".toList, "texttt".toList]

/-- A piece of typeset text, with the number of open groups before and after it. -/
inductive Block : Nat → List Char → Nat → Prop where
  | literal {opened : Nat} (c : Char) (kept : isStripped c = false) :
    Block opened (escapeChar c) opened
  | opening {opened : Nat} {name : List Char} (hname : name ∈ formats) :
    Block opened ('\\' :: name ++ ['{']) (opened + 1)
  | closing {opened : Nat} : Block (opened + 1) ['}'] opened

/-- Text that is made of blocks leads from a number of open groups to another. -/
inductive Typeset : Nat → List Char → Nat → Prop where
  | nil {opened : Nat} : Typeset opened [] opened
  | cons {n k m : Nat} {block text : List Char} (head : Block n block k)
      (tail : Typeset k text m) : Typeset n (block ++ text) m

variable {n k m : Nat} {block text more : List Char}

/-! ### Putting text together -/

theorem Block.lift (h : Block n block k) :
  Block (n + 1) block (k + 1)
  := by
  cases h with
  | literal c kept => exact .literal c kept
  | opening hname => exact .opening hname
  | closing => exact .closing

/-- Typeset text is typeset in a further group. -/
theorem Typeset.lift (h : Typeset n text m) :
  Typeset (n + 1) text (m + 1)
  := by
  induction h with
  | nil => exact .nil
  | cons head _ ih => exact .cons head.lift ih

theorem Block.typeset (h : Block n block k) :
  Typeset n block k
  := by
  rw [← List.append_nil block]
  exact .cons h .nil

theorem Typeset.append (h : Typeset n text k) (hmore : Typeset k more m) :
  Typeset n (text ++ more) m
  := by
  induction h with
  | nil => exact hmore
  | cons head _ ih =>
    rw [List.append_assoc]
    exact .cons head (ih hmore)

/-- Typeset text is typeset as the argument of a command. -/
theorem Typeset.inFormat {name : List Char} (hname : name ∈ formats) (h : Typeset n text m) :
  Typeset n ('\\' :: name ++ '{' :: text ++ ['}']) m
  := by
  have hparts : '\\' :: name ++ '{' :: text ++ ['}']
      = ('\\' :: name ++ ['{']) ++ (text ++ ['}']) := by simp
  rw [hparts]
  exact .cons (.opening hname) (h.lift.append Block.closing.typeset)

/-- Escaped text is typeset. -/
theorem typeset_escape (n : Nat) (cs : List Char) :
  Typeset n (escape cs) n
  := by
  induction cs with
  | nil => exact .nil
  | cons c cs ih =>
    rw [escape, List.flatMap_cons]
    by_cases kept : isStripped c
    · rw [escapeChar, if_pos kept]
      exact ih
    · exact .cons (.literal c (eq_false_of_ne_true kept)) ih

/-! ### Quotes -/

/-- Only characters outside the ASCII range are spelled as quotes. -/
theorem quoteChar_eq_self {c : Char} (h : c.toNat < 128) :
  quoteChar c = [c]
  := by
  unfold quoteChar
  split
  case h_4 => rfl
  all_goals exact absurd h (by decide)

theorem smartQuotes_eq_self {cs : List Char} (h : ∀ c ∈ cs, c.toNat < 128) :
  smartQuotes cs = cs
  := by
  induction cs with
  | nil => rfl
  | cons c cs ih =>
    obtain ⟨hc, hcs⟩ := List.forall_mem_cons.mp h
    rw [smartQuotes, List.flatMap_cons, quoteChar_eq_self hc]
    exact congrArg (c :: ·) (ih hcs)

theorem ascii_of_replacement {c : Char} {spelling : String} (h : replacement? c = some spelling) :
  ∀ d ∈ spelling.toList, d.toNat < 128
  := by
  unfold replacement? at h
  split at h <;> cases h <;> decide

theorem ascii_of_mem_formats :
  ∀ name ∈ formats, ∀ c ∈ name, c.toNat < 128
  := by decide

/-- A character that is spelled as a quote is typeset. -/
theorem typeset_quoteChar {c : Char} (kept : isStripped c = false) (h : replacement? c = none) :
  Typeset n (quoteChar c) n
  := by
  have hplain {d : Char} (kept : isStripped d = false) (h : replacement? d = none) :
      Block n [d] n := by
    rw [← escapeChar_of_none kept h]
    exact .literal d kept
  unfold quoteChar
  split
  · have hquote := hplain (d := '\x60') (by decide) rfl
    exact .cons hquote hquote.typeset
  · have hquote := hplain (d := '\x27') (by decide) rfl
    exact .cons hquote hquote.typeset
  · have hcomma := hplain (d := ',') (by decide) rfl
    exact .cons hcomma hcomma.typeset
  · exact (hplain kept h).typeset

/-- A block is typeset after spelling its quotes. -/
theorem Block.smartQuotes (h : Block n block k) :
  Typeset n (Escape.smartQuotes block) k
  := by
  have hself (h : Block n block k) (hascii : ∀ c ∈ block, c.toNat < 128) :
      Typeset n (Escape.smartQuotes block) k := by
    rw [smartQuotes_eq_self hascii]
    exact h.typeset
  cases h with
  | literal c kept =>
    cases hspelling : replacement? c with
    | some spelling =>
      apply hself (.literal c kept)
      rw [escapeChar_of_replacement kept hspelling]
      exact ascii_of_replacement hspelling
    | none =>
      rw [escapeChar_of_none kept hspelling, Escape.smartQuotes, List.flatMap_singleton]
      exact typeset_quoteChar kept hspelling
  | opening hname =>
    apply hself (.opening hname)
    rw [List.cons_append, List.forall_mem_cons, List.forall_mem_append]
    exact ⟨by decide, ascii_of_mem_formats _ hname, by decide⟩
  | closing =>
    apply hself .closing
    decide

/-- Spelling quotes keeps text typeset. -/
theorem Typeset.smartQuotes (h : Typeset n text m) :
  Typeset n (Escape.smartQuotes text) m
  := by
  induction h with
  | nil => exact .nil
  | cons head _ ih =>
    rw [Escape.smartQuotes_append]
    exact head.smartQuotes.append ih

end Bindery.Typesetting
