import Bindery.Shell.Arithmetic
import Bindery.Shell.Utility.Basic

/-!
# Utilities on names, numbers and time

`basename` and `dirname` take a path apart, `seq` counts, `expr` computes, and `sleep` lets time
pass.
-/

namespace Bindery.Shell.Utility

/-! ### Names -/

/-- The text without the slashes at its end. -/
def dropSlashes (text : List Char) : List Char :=
  let kept := (text.reverse.dropWhile (· == '/')).reverse
  if kept.isEmpty && !text.isEmpty then ['/'] else kept

/-- Prints the last part of a path, perhaps without its ending. -/
def basename : Utility := fun c =>
  match (Call.options c.arguments).2 with
  | [] => c.complain "basename: missing operand" 1
  | path :: rest =>
    let path := dropSlashes path
    let name := if path = ['/'] then path else lastPart path
    let ending := rest.head?.getD []
    let name := if ending.isSuffixOf name && ending.length < name.length then
        name.take (name.length - ending.length) else name
    c.print (name ++ ['\n']) 0

/-- Prints a path without its last part. -/
def dirname : Utility := fun c =>
  match (Call.options c.arguments).2 with
  | [] => c.complain "dirname: missing operand" 1
  | path :: _ =>
    let path := dropSlashes path
    let rest := path.reverse.dropWhile (· != '/')
    let dir := if path = ['/'] then path
      else if rest.isEmpty then ['.'] else dropSlashes rest.reverse
    c.print (dir ++ ['\n']) 0

/-! ### Numbers -/

/-- The integers from one to another. -/
def seq : Utility := fun c =>
  match c.arguments.map Arithmetic.valueOf with
  | [last] => c.print (numbers 1 1 last) 0
  | [first, last] => c.print (numbers first 1 last) 0
  | [first, step, last] => c.print (numbers first step last) 0
  | _ => c.complain "seq: missing operand" 1
where
  /-- The lines of the numbers. -/
  numbers (first step last : Int) : List Char :=
    let count := if step = 0 then 0 else ((last - first) / step + 1).toNat
    (List.range count).flatMap fun (i : Nat) => decimal (first + step * (i : Int)) ++ ['\n']

/-- The operators of `expr`, those that bind least first. -/
def exprLevels : List (List String) :=
  [["|"], ["&"], ["<", "<=", "=", "==", "!=", ">=", ">"], ["+", "-"], ["*", "/", "%"]]

/-- The integer that a text spells. -/
def exprInteger? (text : List Char) : Option Int :=
  match text with
  | '-' :: rest => if rest.isEmpty || !rest.all Char.isDigit then none
    else some (-Arithmetic.valueOf (rest.dropWhile (· == '0')))
  | _ => if text.isEmpty || !text.all Char.isDigit then none
    else some (Arithmetic.valueOf (text.dropWhile (· == '0')))

/-- A value that counts as no. -/
def isNull (text : List Char) : Bool :=
  text.isEmpty || exprInteger? text == some 0

/-- The value of an operator of `expr`. -/
def exprApply (operator : String) (a b : List Char) : Option (List Char) :=
  let compare (onNumbers : Int → Int → Bool) (onTexts : List Char → List Char → Bool) :
      Option (List Char) :=
    let holds := match exprInteger? a, exprInteger? b with
      | some x, some y => onNumbers x y
      | _, _ => onTexts a b
    some (if holds then ['1'] else ['0'])
  let arithmetic : Option (List Char) := do
    return decimal (← Arithmetic.compute? operator (← exprInteger? a) (← exprInteger? b))
  match operator with
  | "|" => some (if !isNull a then a else if !isNull b then b else ['0'])
  | "&" => some (if isNull a || isNull b then ['0'] else a)
  | "<" => compare (· < ·) Text.isBefore
  | "<=" => compare (· ≤ ·) fun x y => !Text.isBefore y x
  | "=" => compare (· == ·) (· == ·)
  | "==" => compare (· == ·) (· == ·)
  | "!=" => compare (· != ·) (· != ·)
  | ">=" => compare (· ≥ ·) fun x y => !Text.isBefore x y
  | ">" => compare (· > ·) fun x y => Text.isBefore y x
  | _ => arithmetic

/-- The value of a function of `expr` for the arguments that follow it, if it is one, and what is
left of them. -/
def exprFunction? (name : List Char) (rest : List (List Char)) :
    Option (Option (List Char × List (List Char))) :=
  let number (text : List Char) : Nat := (Arithmetic.valueOf text).toNat
  match String.ofList name, rest with
  | "length", text :: rest => some (some (decimal text.length, rest))
  | "length", [] => some none
  | "substr", text :: first :: count :: rest =>
    some (some ((text.drop (number first - 1)).take (number count), rest))
  | "substr", _ => some none
  | "index", text :: set :: rest =>
    some (some (decimal ((text.findIdx? set.contains).elim 0 (· + 1)), rest))
  | "index", _ => some none
  | "match", _ => some none
  | _, _ => none

mutual

/-- A chain of operators of a level, after its first operand. -/
def exprChain : Nat → List (List String) → List Char → List (List Char) →
    Option (List Char × List (List Char))
  | 0, _, _, _ => none
  | _ + 1, [], a, rest => some (a, rest)
  | _ + 1, _ :: _, a, [] => some (a, [])
  | fuel + 1, level :: levels, a, operator :: rest =>
    if level.contains (String.ofList operator) then do
      let (b, rest) ← exprOperand fuel levels rest
      exprChain fuel (level :: levels) (← exprApply (String.ofList operator) a b) rest
    else some (a, operator :: rest)

/-- An operand made of operators of the levels. -/
def exprOperand : Nat → List (List String) → List (List Char) →
    Option (List Char × List (List Char))
  | 0, _, _ => none
  | fuel + 1, level :: levels, rest => do
    let (a, rest) ← exprOperand fuel levels rest
    exprChain fuel (level :: levels) a rest
  | _ + 1, [], [] => none
  | fuel + 1, [], a :: rest =>
    if a = ['('] then do
      let (b, rest) ← exprOperand fuel exprLevels rest
      match rest with
      | [')'] :: rest => some (b, rest)
      | _ => none
    else if a = ['+'] then
      match rest with
      | b :: rest => some (b, rest)
      | [] => none
    else (exprFunction? a rest).getD (some (a, rest))

end

/-- Prints the value of an expression; the status says whether it counts as no. -/
def expr : Utility := fun c =>
  let arguments := if c.arguments.head? = some ['-', '-'] then c.arguments.drop 1
    else c.arguments
  match exprOperand (8 * arguments.length + 16) exprLevels arguments with
  | some (value, []) => c.print (value ++ ['\n']) (if isNull value then 1 else 0)
  | _ => c.complain "expr: syntax error" 2

/-! ### Time -/

/-- A duration in milliseconds: a decimal number of seconds, or of the unit that follows it. -/
def duration? (text : List Char) : Option Nat :=
  let (unit, number) := match text.reverse with
    | 's' :: rest => (1, rest.reverse)
    | 'm' :: rest => (60, rest.reverse)
    | 'h' :: rest => (3600, rest.reverse)
    | 'd' :: rest => (86400, rest.reverse)
    | _ => (1, text)
  let whole := number.takeWhile Char.isDigit
  let rest := number.drop whole.length
  let value (ds : List Char) : Nat := ds.foldl (fun n d => 10 * n + (d.toNat - 48)) 0
  match rest with
  | [] => if whole.isEmpty then none else some (1000 * unit * value whole)
  | '.' :: fraction =>
    if fraction.all Char.isDigit && !(whole.isEmpty && fraction.isEmpty) then
      some (1000 * unit * value whole
        + unit * value ((fraction ++ ['0', '0', '0']).take 3))
    else none
  | _ => none

/-- Lets time pass. -/
def sleep : Utility := fun c =>
  if c.arguments = ["--help".toList] || c.arguments = ["--version".toList] then c.finish 0
  else if c.arguments.isEmpty then c.complain "sleep: missing operand" 1
  else match c.arguments.mapM duration? with
    | some times => { c.finish 0 with elapsed := times.foldl (· + ·) 0 }
    | none =>
      c.complain ("sleep: invalid time interval '" ++ stringOf (c.arguments.head?.getD []) ++ "'")
        1

end Bindery.Shell.Utility
