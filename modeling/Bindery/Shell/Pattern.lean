/-!
# Patterns

A pattern is a text in which an asterisk stands for any text, a question mark for any character
and brackets for one of several characters, unless they are quoted.  `isMatch` decides whether a
text matches.
-/

namespace Bindery.Shell

/-- Characters, each with whether it is quoted. -/
abbrev Pattern : Type := List (Char × Bool)

namespace Pattern

/-- The text of a pattern. -/
def text (p : Pattern) : List Char :=
  p.map Prod.fst

/-- Some character of the pattern does not stand for itself. -/
def isActive (p : Pattern) : Bool :=
  p.any fun (c, isQuoted) => !isQuoted && (c == '*' || c == '?' || c == '[')

/-- The ends of a text, the longest first. -/
def ends : List Char → List (List Char)
  | [] => [[]]
  | c :: cs => (c :: cs) :: ends cs

/-- What stands between brackets, and what follows them. -/
def bracket? (p : Pattern) : Option (List Char × Pattern) :=
  let first := p.take 1
  let rest := p.drop 1
  let inner := rest.takeWhile fun (c, isQuoted) => isQuoted || c != ']'
  if inner.length = rest.length then none
  else some ((first ++ inner).map Prod.fst, rest.drop (inner.length + 1))

/-- The character is one of those listed, of which some are ranges. -/
def isListed (c : Char) : List Char → Bool
  | a :: '-' :: b :: rest => (a ≤ c && c ≤ b) || isListed c rest
  | a :: rest => a == c || isListed c rest
  | [] => false

/-- The character is one that the text between brackets allows. -/
def isAllowed (c : Char) (between : List Char) : Bool :=
  match between with
  | '!' :: rest => !isListed c rest
  | '^' :: rest => !isListed c rest
  | _ => isListed c between

/-- A text matches a pattern.  Every step takes a character of the pattern, so its length bounds
the number of steps. -/
def isMatchFrom : Nat → Pattern → List Char → Bool
  | 0, p, cs => p.isEmpty && cs.isEmpty
  | _ + 1, [], cs => cs.isEmpty
  | fuel + 1, (p, isQuoted) :: ps, cs =>
    if !isQuoted && p == '*' then (ends cs).any (isMatchFrom fuel ps)
    else match cs with
      | [] => false
      | c :: cs =>
        if !isQuoted && p == '?' then isMatchFrom fuel ps cs
        else if !isQuoted && p == '[' then
          match bracket? ps with
          | some (between, ps) => isAllowed c between && isMatchFrom fuel ps cs
          | none => c == '[' && isMatchFrom fuel ps cs
        else c == p && isMatchFrom fuel ps cs

/-- A text matches a pattern. -/
def isMatch (p : Pattern) (cs : List Char) : Bool :=
  isMatchFrom (p.length + 1) p cs

/-- The beginnings of a text, the shortest first. -/
def starts (cs : List Char) : List (List Char) :=
  (List.range (cs.length + 1)).map cs.take

/-- The text without the start that matches a pattern. -/
def dropStart (p : Pattern) (longest : Bool) (cs : List Char) : List Char :=
  let candidates := if longest then (starts cs).reverse else starts cs
  match candidates.find? p.isMatch with
  | some start => cs.drop start.length
  | none => cs

/-- The text without the end that matches a pattern. -/
def dropEnd (p : Pattern) (longest : Bool) (cs : List Char) : List Char :=
  let candidates := if longest then ends cs else (ends cs).reverse
  match candidates.find? p.isMatch with
  | some stop => cs.take (cs.length - stop.length)
  | none => cs

end Pattern

end Bindery.Shell
