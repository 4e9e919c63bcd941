import Bindery.Escape

/-!
# Text as the typesetter reads it

The typesetter reads a backslash with the letters after it, or with one other character, as a
control sequence, and everything else character by character (`Alphabet.read`).  Which characters
outside the ASCII range are letters is a matter of the typesetter, so that it is left to an
`Alphabet`.  `braces` follows how many groups are open, and `Harmless` says of a text that nothing
in it is read as markup but the control sequences of a given list.
-/

namespace Bindery.Typesetting

/-- What the typesetter reads in one step. -/
inductive Token where
  | command (name : List Char)
  | char (c : Char)
deriving DecidableEq, Repr

/-- The characters that make up the names of control sequences. -/
structure Alphabet where
  isLetter : Char → Bool
  /-- Of the ASCII characters these are the letters. -/
  isLetter_ascii : ∀ c, c.toNat < 128 → isLetter c = c.isAlpha

namespace Alphabet

/-- The alphabet without letters outside the ASCII range. -/
def ascii : Alphabet where
  isLetter := Char.isAlpha
  isLetter_ascii _ _ := rfl

variable (A : Alphabet)

/-- The tokens of a text. -/
def read : List Char → List Token
  | [] => []
  | c :: cs =>
    if c = '\\' then
      let letters := cs.takeWhile A.isLetter
      if letters.isEmpty then .command (cs.take 1) :: read (cs.drop 1)
      else .command letters :: read (cs.dropWhile A.isLetter)
    else .char c :: read cs
termination_by text => text.length
decreasing_by
  · simp only [List.length_drop, List.length_cons]
    omega
  · have hrest : (cs.dropWhile A.isLetter).length ≤ cs.length :=
      (List.dropWhile_suffix A.isLetter).length_le
    simp only [List.length_cons]
    omega
  · simp only [List.length_cons]
    omega

@[simp]
theorem read_nil :
  A.read [] = []
  := by rw [read]

@[simp]
theorem read_char {c : Char} (hc : c ≠ '\\') (cs : List Char) :
  A.read (c :: cs) = .char c :: A.read cs
  := by rw [read, if_neg hc]

variable {A}

/-- A backslash in front of a character that is no letter makes a control sequence with it. -/
theorem read_symbol {c : Char} (hc : A.isLetter c = false) (cs : List Char) :
  A.read ('\\' :: c :: cs) = .command [c] :: A.read cs
  := by
  have hletters : ((c :: cs).takeWhile A.isLetter).isEmpty = true := by simp [hc]
  rw [read, if_pos rfl]
  dsimp only
  rw [if_pos hletters]
  rfl

/-- A backslash in front of letters makes a control sequence with all of them. -/
theorem read_word {name : List Char} (hne : name ≠ []) (hname : ∀ c ∈ name, A.isLetter c)
    {c : Char} (hc : A.isLetter c = false) (cs : List Char) :
  A.read ('\\' :: (name ++ c :: cs)) = .command name :: A.read (c :: cs)
  := by
  have htake : (name ++ c :: cs).takeWhile A.isLetter = name := by
    rw [List.takeWhile_append_of_pos hname, List.takeWhile_cons_of_neg (by simp [hc]),
      List.append_nil]
  have hdrop : (name ++ c :: cs).dropWhile A.isLetter = c :: cs := by
    rw [List.dropWhile_append_of_pos hname, List.dropWhile_cons_of_neg (by simp [hc])]
  rw [read, if_pos rfl]
  dsimp only
  rw [htake, hdrop, if_neg (by simpa using hne)]

end Alphabet

/-! ### Groups -/

/-- The number of open groups after a token; a brace cannot close a group that is not open. -/
def Token.braces (opened : Nat) : Token → Option Nat
  | command _ => some opened
  | char c =>
    if c = '{' then some (opened + 1)
    else if c = '}' then if opened = 0 then none else some (opened - 1)
    else some opened

/-- The number of open groups after tokens, if every brace closes a group that is open. -/
def braces (opened : Nat) (tokens : List Token) : Option Nat :=
  tokens.foldlM Token.braces opened

theorem braces_append (opened : Nat) (tokens more : List Token) :
  braces opened (tokens ++ more) = (braces opened tokens).bind fun n => braces n more
  := by
  rw [braces, List.foldlM_append]
  rfl

/-- Groups that are open before a token stay open. -/
theorem Token.braces_add {token : Token} {opened closed : Nat}
    (h : token.braces opened = some closed) (n : Nat) :
  token.braces (n + opened) = some (n + closed)
  := by
  cases token with
  | command name =>
    cases h
    rfl
  | char c =>
    simp only [braces] at h ⊢
    split at h
    · next hopen =>
      cases h
      rw [if_pos hopen, Nat.add_assoc]
    · next hopen =>
      rw [if_neg hopen]
      split at h
      · next hclose =>
        rw [if_pos hclose]
        split at h
        · cases h
        · next hpos =>
          cases h
          rw [if_neg (by omega), Nat.add_sub_assoc (Nat.pos_of_ne_zero hpos)]
      · next hclose =>
        cases h
        rw [if_neg hclose]

/-- Groups that are open before tokens stay open. -/
theorem braces_add {opened closed : Nat} {tokens : List Token}
    (h : braces opened tokens = some closed) (n : Nat) :
  braces (n + opened) tokens = some (n + closed)
  := by
  induction tokens generalizing opened with
  | nil =>
    cases h
    rfl
  | cons token tokens ih =>
    obtain ⟨next, hnext, hrest⟩ := Option.bind_eq_some_iff.mp h
    exact Option.bind_eq_some_iff.mpr ⟨n + next, Token.braces_add hnext n, ih hrest⟩

/-! ### Harmless text -/

/-- A control character. -/
def IsControl (c : Char) : Prop :=
  c.toNat < 0x20 ∨ 0x7f ≤ c.toNat ∧ c.toNat < 0xa0

instance (c : Char) : Decidable (IsControl c) :=
  inferInstanceAs (Decidable (_ ∨ _))

/-- The characters that mean something to the typesetter wherever they stand, apart from the
backslash and the braces. -/
def active : List Char :=
  ['&', '%', '$', '#', '_', '~', '^', '<', '>', '|']

/-- Nothing in the text is read as markup but control sequences with certain names and groups
that are opened and closed, and there are no control characters but certain ones. -/
structure Harmless (A : Alphabet) (named : List Char → Prop) (kept : Char → Prop)
    (text : List Char) : Prop where
  commands : ∀ name, .command name ∈ A.read text → named name
  chars : ∀ c, .char c ∈ A.read text → c ∉ active
  balanced : braces 0 (A.read text) = some 0
  controls : ∀ c ∈ text, IsControl c → kept c

/-- The name of a control sequence by which a reserved character is spelled. -/
def Spells (A : Alphabet) (name : List Char) : Prop :=
  ∃ c spelling, Escape.replacement? c = some spelling ∧ .command name ∈ A.read spelling.toList

end Bindery.Typesetting
