/-!
# Lines of a text

`splitWhere p` cuts a text at every character that satisfies `p` and drops that character;
`concat_splitWhere` says that nothing else is lost.  `lines` cuts at line feeds, takes one
carriage return off the end of a line that a line feed closes, and yields no line after a
final line feed.  `joinWith` puts texts back together with a separator.
-/

namespace Bindery.Text

/-- The stretches of a text between the characters that satisfy `p`, of which there is always
one more than there are such characters. -/
def splitWhere (p : Char → Bool) : List Char → List (List Char)
  | [] => [[]]
  | c :: cs =>
    if p c then [] :: splitWhere p cs
    else match splitWhere p cs with
      | [] => [[c]]
      | s :: ss => (c :: s) :: ss

theorem splitWhere_ne_nil (p : Char → Bool) (cs : List Char) :
  splitWhere p cs ≠ []
  := by
  cases cs with
  | nil => simp [splitWhere]
  | cons c cs =>
    rw [splitWhere]
    split
    · simp
    · split <;> simp

/-- Splitting loses the characters it cuts at and no other. -/
theorem concat_splitWhere (p : Char → Bool) (cs : List Char) :
  (splitWhere p cs).flatten = cs.filter (fun c => !p c)
  := by
  induction cs with
  | nil => rfl
  | cons c cs ih =>
    rw [splitWhere]
    split
    · next h => simp [ih, h]
    · next h =>
      split
      · next hs => exact absurd hs (splitWhere_ne_nil p cs)
      · next s ss hs =>
        rw [hs] at ih
        simp [h, ← ih]

/-- No stretch holds a character that the text was cut at. -/
theorem not_of_mem_splitWhere {p : Char → Bool} {cs s : List Char} (h : s ∈ splitWhere p cs) :
  ∀ c ∈ s, p c = false
  := by
  intro c hc
  have hm : c ∈ (splitWhere p cs).flatten := List.mem_flatten.2 ⟨s, h, hc⟩
  rw [concat_splitWhere, List.mem_filter] at hm
  simpa using hm.2

/-- The text without a carriage return at its end. -/
def dropReturn (cs : List Char) : List Char :=
  if cs.getLast? = some '\x0d' then cs.dropLast else cs

/-- The lines among the stretches between line feeds: the last stretch counts only if it holds
something, and it alone keeps a carriage return at its end. -/
def closeLines : List (List Char) → List (List Char)
  | [] => []
  | [s] => if s.isEmpty then [] else [s]
  | s :: ss => dropReturn s :: closeLines ss

/-- The lines of a text. -/
def lines (cs : List Char) : List (List Char) :=
  closeLines (splitWhere (· == '\n') cs)

/-- The texts with `sep` between each two. -/
def joinWith (sep : List Char) (texts : List (List Char)) : List Char :=
  sep.intercalate texts

end Bindery.Text
