import Bindery.Shell.Text

/-!
# Arithmetic in scripts

`evaluate` computes an integer expression with the usual operators and their precedences, and
lists the variables that the expression sets.  Integers have 64 bits.  Comparisons and logical
operators yield one for yes and zero for no.
-/

namespace Bindery.Shell.Arithmetic

/-- Why an expression has no value. -/
inductive Fault where
  | noPrimary
  | notEnded
  | divisionByZero
  /-- A variable in the expression holds no number. -/
  | noNumber (text : List Char)
deriving DecidableEq, Repr

/-- The wording of a fault of an expression. -/
def Fault.message (expression : List Char) : Fault → List Char
  | noPrimary => within "expecting primary"
  | notEnded => within "expecting EOF"
  | divisionByZero => within "division by zero"
  | noNumber text => ofString "Illegal number: " ++ text
where
  /-- What is wrong, and with which expression. -/
  within (what : String) : List Char :=
    ofString ("arithmetic expression: " ++ what ++ ": \"") ++ expression ++ ['\x22']

/-- The operators between two operands, those that bind least first. -/
def levels : List (List String) := [
  ["||"], ["&&"], ["|"], ["^"], ["&"], ["==", "!="], ["<=", ">=", "<", ">"], ["<<", ">>"],
  ["+", "-"], ["*", "/", "%"]]

/-- The operators that set a variable, each with the operator that makes the new value. -/
def settings : List (String × Option String) := [
  ("=", none), ("+=", some "+"), ("-=", some "-"), ("*=", some "*"), ("/=", some "/"),
  ("%=", some "%"), ("<<=", some "<<"), (">>=", some ">>"), ("&=", some "&"), ("^=", some "^"),
  ("|=", some "|")]

/-- All operators of more than one character. -/
def longOperators : List String :=
  ["<<=", ">>=", "||", "&&", "<<", ">>", "==", "!=", "<=", ">=", "+=", "-=", "*=", "/=", "%=",
    "&=", "^=", "|="]

/-- Yes as one and no as zero. -/
def ofBool (b : Bool) : Int :=
  if b then 1 else 0

/-- An integer as it is kept in 64 bits. -/
def wrap (n : Int) : Int :=
  n.bmod UInt64.size

/-- An operator on the bits of integers. -/
def bitwise (f : Nat → Nat → Nat) (a b : Int) : Int :=
  wrap (f (a.emod UInt64.size).toNat (b.emod UInt64.size).toNat)

/-- The value of an operator; a division by zero has none. -/
def compute? (operator : String) (a b : Int) : Option Int :=
  match operator with
  | "||" => some (ofBool (a ≠ 0 || b ≠ 0))
  | "&&" => some (ofBool (a ≠ 0 && b ≠ 0))
  | "|" => some (bitwise Nat.lor a b)
  | "^" => some (bitwise Nat.xor a b)
  | "&" => some (bitwise Nat.land a b)
  | "==" => some (ofBool (a = b))
  | "!=" => some (ofBool (a ≠ b))
  | "<=" => some (ofBool (a ≤ b))
  | ">=" => some (ofBool (a ≥ b))
  | "<" => some (ofBool (a < b))
  | ">" => some (ofBool (a > b))
  | "<<" => some (wrap (a.shiftLeft (b.emod 64).toNat))
  | ">>" => some (a.shiftRight (b.emod 64).toNat)
  | "+" => some (wrap (a + b))
  | "-" => some (wrap (a - b))
  | "*" => some (wrap (a * b))
  | "/" => if b = 0 then none else some (wrap (a.tdiv b))
  | "%" => if b = 0 then none else some (wrap (a.tmod b))
  | _ => none

/-- The value of a digit in a base, if it is one. -/
def digit? (base : Nat) (c : Char) : Option Nat :=
  let n := if c.isDigit then c.toNat - 48 else c.toLower.toNat - 87
  if c.isAlphanum && n < base then some n else none

/-- The number of a numeral in base eight, ten or sixteen. -/
def numeral? (cs : List Char) : Option Int :=
  let read (base : Nat) (cs : List Char) : Option Int :=
    (cs.foldlM (fun n c => (digit? base c).map (base * n + ·)) 0).map Int.ofNat
  match cs with
  | [] => none
  | '0' :: 'x' :: rest => if rest.isEmpty then none else read 16 rest
  | '0' :: rest => read 8 rest
  | _ => read 10 cs

/-- The integer that a text spells; nothing but blanks spells zero. -/
def integer? (text : List Char) : Option Int :=
  match trimBlanks text with
  | [] => some 0
  | '-' :: rest => (numeral? rest).map (-·)
  | '+' :: rest => numeral? rest
  | rest => numeral? rest

/-- The integer that a text spells, or zero. -/
def valueOf (text : List Char) : Int :=
  (integer? text).getD 0

/-- Where an evaluation stands. -/
structure Point where
  /-- What is still to be read. -/
  rest : List Char
  /-- The variables that the expression has set, the latest first. -/
  changes : List (List Char × Int) := []

/-- A step of an evaluation. -/
abbrev Step (α : Type) : Type :=
  StateT Point (Except Fault) α

/-- The operator that comes next, if it is one of those listed and no other begins with it. -/
def operator? (listed : List String) : Step (Option String) := do
  let point ← get
  let rest := point.rest.dropWhile isBlank
  let long := longOperators.find? fun o => o.toList.isPrefixOf rest
  match listed.find? fun o => o.toList.isPrefixOf rest && long.all (· == o) with
  | none => return none
  | some o =>
    set { point with rest := rest.drop o.toList.length }
    return some o

/-- The name or number that comes next. -/
def nameOrNumber : Step (List Char) := do
  let point ← get
  let isPart (c : Char) : Bool := c.isAlphanum || c == '_'
  let rest := point.rest.dropWhile isBlank
  set { point with rest := rest.dropWhile isPart }
  return rest.takeWhile isPart

/-- The value of a variable, of which `lookup` knows the text before the evaluation. -/
def variableValue (lookup : List Char → List Char) (name : List Char) : Step Int := do
  match (← get).changes.find? fun entry => entry.1 = name with
  | some (_, value) => return value
  | none =>
    match integer? (lookup name) with
    | some value => return value
    | none => throw (.noNumber (lookup name))

/-- The value of an operator. -/
def apply (operator : String) (a b : Int) : Step Int :=
  match compute? operator a b with
  | some value => return value
  | none => throw .divisionByZero

mutual

/-- The value of an expression, which may set a variable. -/
def expression (lookup : List Char → List Char) : Nat → Step Int
  | 0 => throw .noPrimary
  | fuel + 1 => do
    let start ← get
    let name ← nameOrNumber
    match ← operator? (settings.map Prod.fst) with
    | none =>
      set start
      choice lookup fuel
    | some setting =>
      if name.isEmpty || name.head?.any Char.isDigit then throw .noPrimary
      let value ← expression lookup fuel
      let value ← match (settings.lookup setting).join with
        | none => pure value
        | some operator => do apply operator (← variableValue lookup name) value
      modify fun point => { point with changes := (name, value) :: point.changes }
      return value

/-- The value of a condition with two alternatives, or of a chain of operators. -/
def choice (lookup : List Char → List Char) : Nat → Step Int
  | 0 => throw .noPrimary
  | fuel + 1 => do
    let condition ← operand lookup fuel levels
    match ← operator? ["?"] with
    | none => return condition
    | some _ =>
      let before := (← get).changes
      let first ← expression lookup fuel
      let afterFirst := (← get).changes
      if (← operator? [":"]).isNone then throw .noPrimary
      modify fun point => { point with changes := before }
      let second ← choice lookup fuel
      if condition = 0 then return second
      else
        modify fun point => { point with changes := afterFirst }
        return first

/-- The value of a chain of operators of the first level, after its first operand. -/
def chain (lookup : List Char → List Char) : Nat → List (List String) → Int → Step Int
  | 0, _, _ => throw .noPrimary
  | _ + 1, [], a => return a
  | fuel + 1, level :: levels, a => do
    match ← operator? level with
    | none => return a
    | some operator =>
      let b ← operand lookup fuel levels
      chain lookup fuel (level :: levels) (← apply operator a b)

/-- The value of an operand made of operators of the levels. -/
def operand (lookup : List Char → List Char) : Nat → List (List String) → Step Int
  | 0, _ => throw .noPrimary
  | fuel + 1, level :: levels => do
    let a ← operand lookup fuel levels
    chain lookup fuel (level :: levels) a
  | fuel + 1, [] => do
    match ← operator? ["(", "-", "+", "!", "~"] with
    | some "(" =>
      let a ← expression lookup fuel
      if (← operator? [")"]).isNone then throw .noPrimary
      return a
    | some "-" => return wrap (-(← operand lookup fuel []))
    | some "!" => return ofBool ((← operand lookup fuel []) = 0)
    | some "~" => return -(← operand lookup fuel []) - 1
    | some _ => operand lookup fuel []
    | none =>
      let text ← nameOrNumber
      match text with
      | [] => throw .noPrimary
      | c :: _ =>
        if c.isDigit then
          match numeral? text with
          | some value => return wrap value
          | none => throw .notEnded
        else variableValue lookup text

end

/-- The value of an expression and the variables it sets, the latest first; an empty expression
is zero.  Operands are nested no deeper than the text is long, with a step for each level. -/
def evaluate (lookup : List Char → List Char) (text : List Char) :
    Except Fault (Int × List (List Char × Int)) :=
  if text.all isBlank then .ok (0, [])
  else do
    let (value, point) ← (expression lookup (14 * text.length + 28)).run { rest := text }
    if point.rest.all isBlank then return (value, point.changes) else throw .notEnded

end Bindery.Shell.Arithmetic
