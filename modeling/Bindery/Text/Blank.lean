/-!
# White space

`isBlank` is the Unicode property `White_Space`, and `trimStart`, `trimEnd` and `trim` remove
such characters from the ends of a text.  A text is handled as its list of characters, and
`isBlankText` says that nothing is left of it after trimming.
-/

namespace Bindery.Text

/-- The characters of the Unicode property `White_Space`. -/
def isBlank (c : Char) : Bool :=
  ('\t' ≤ c && c ≤ '\x0d') || c == ' ' || c == '\u0085' || c == '\u00a0' || c == '\u1680'
    || ('\u2000' ≤ c && c ≤ '\u200a') || c == '\u2028' || c == '\u2029' || c == '\u202f'
    || c == '\u205f' || c == '\u3000'

/-- The text without the white space it starts with. -/
def trimStart (cs : List Char) : List Char :=
  cs.dropWhile isBlank

/-- The text without the white space it ends with. -/
def trimEnd (cs : List Char) : List Char :=
  (cs.reverse.dropWhile isBlank).reverse

/-- The text without the white space at either end. -/
def trim (cs : List Char) : List Char :=
  trimEnd (trimStart cs)

/-- A text of white space only. -/
def isBlankText (cs : List Char) : Bool :=
  cs.all isBlank

/-- Nothing is left after trimming the start of a text exactly if it is blank. -/
theorem trimStart_eq_nil_iff {cs : List Char} :
  trimStart cs = [] ↔ isBlankText cs
  := by
  induction cs with
  | nil => simp [trimStart, isBlankText]
  | cons c cs ih =>
    by_cases h : isBlank c
    · have hs : trimStart (c :: cs) = trimStart cs := by simp [trimStart, h]
      rw [hs, ih]
      simp [isBlankText, h]
    · simp [trimStart, isBlankText, h]

end Bindery.Text
