import Bindery.Shell.Utility.Basic

/-!
# The utility that tests conditions

`test` decides a condition about texts, integers and files; its status tells the answer.
`bracket` is the same with its condition between brackets.
-/

namespace Bindery.Shell.Utility

/-- The answer of a test, or what is wrong with it. -/
abbrev Answer : Type := Except String Bool

/-- An integer in a test. -/
def testInteger (text : List Char) : Except String Int :=
  let body := trimBlanks text
  let (sign, digits) := match body with
    | '-' :: rest => (-1, rest)
    | '+' :: rest => (1, rest)
    | _ => ((1 : Int), body)
  if digits.isEmpty || !digits.all Char.isDigit then
    .error ("Illegal number: " ++ stringOf text)
  else .ok (sign * (digits.foldl (fun n d => 10 * n + (d.toNat - 48)) 0 : Nat))

/-- A test of a single argument. -/
def unary? (c : Call) (operator argument : List Char) : Option Bool :=
  let node := (c.tree.node c.cwd (pathOf argument)).toOption.map Prod.snd
  match String.ofList operator with
  | "-n" => some !argument.isEmpty
  | "-z" => some argument.isEmpty
  | "-e" => some node.isSome
  | "-f" => some (node.any fun n => !n.isDir)
  | "-d" => some (node.any Node.isDir)
  | "-r" => some node.isSome
  | "-w" => some node.isSome
  | "-x" => some (node.any fun n => n.isDir || n.isExecutable)
  | "-s" => some (node.any fun n => n.isDir || n.size != 0)
  | "-L" => some false
  | "-h" => some false
  | "-p" => some false
  | "-S" => some false
  | "-b" => some false
  | "-c" => some (argument = nullFile)
  | "-t" => some false
  | _ => none

/-- A test of two arguments. -/
def binary? (operator a b : List Char) : Option Answer :=
  let compare (p : Int → Int → Bool) : Answer := do return p (← testInteger a) (← testInteger b)
  match String.ofList operator with
  | "=" => some (.ok (a == b))
  | "==" => some (.ok (a == b))
  | "!=" => some (.ok (a != b))
  | "-eq" => some (compare (· == ·))
  | "-ne" => some (compare (· != ·))
  | "-lt" => some (compare (· < ·))
  | "-le" => some (compare (· ≤ ·))
  | "-gt" => some (compare (· > ·))
  | "-ge" => some (compare (· ≥ ·))
  | _ => none

mutual

/-- A test of alternatives, and the arguments that follow it. -/
def anyOf (c : Call) : Nat → List (List Char) → Except String (Bool × List (List Char))
  | 0, _ => .error "argument expected"
  | fuel + 1, arguments => do
    let (a, rest) ← allOf c fuel arguments
    match rest with
    | ['-', 'o'] :: rest =>
      let (b, rest) ← anyOf c fuel rest
      return (a || b, rest)
    | _ => return (a, rest)

/-- A test of several conditions, and the arguments that follow it. -/
def allOf (c : Call) : Nat → List (List Char) → Except String (Bool × List (List Char))
  | 0, _ => .error "argument expected"
  | fuel + 1, arguments => do
    let (a, rest) ← condition c fuel arguments
    match rest with
    | ['-', 'a'] :: rest =>
      let (b, rest) ← allOf c fuel rest
      return (a && b, rest)
    | _ => return (a, rest)

/-- A single condition, and the arguments that follow it. -/
def condition (c : Call) : Nat → List (List Char) → Except String (Bool × List (List Char))
  | 0, _ => .error "argument expected"
  | fuel + 1, arguments =>
    match arguments with
    | [] => .error "argument expected"
    | [a] => .ok (!a.isEmpty, [])
    | a :: operator :: rest =>
      match rest, rest.head?.bind (binary? operator a) with
      | _ :: rest, some answer => answer.map (·, rest)
      | _, _ =>
        if a = ['!'] then (condition c fuel (operator :: rest)).map fun (b, rest) => (!b, rest)
        else if a = ['('] then do
          let (b, rest) ← anyOf c fuel (operator :: rest)
          match rest with
          | [')'] :: rest => return (b, rest)
          | _ => .error "closing paren expected"
        else match unary? c a operator with
          | some b => .ok (b, rest)
          | none => .ok (!a.isEmpty, operator :: rest)

end

/-- Tests a condition under a name; the status says whether it holds. -/
def testAs (name : String) (c : Call) (arguments : List (List Char)) : Effect :=
  if arguments.isEmpty then c.finish 1
  else match anyOf c (4 * arguments.length + 8) arguments with
    | .ok (b, []) => c.finish (if b then 0 else 1)
    | .ok (_, argument :: _) =>
      c.complain (name ++ ": " ++ stringOf argument ++ ": unexpected operator") 2
    | .error message => c.complain (name ++ ": " ++ message) 2

/-- Tests a condition. -/
def test : Utility := fun c =>
  testAs "test" c c.arguments

/-- Tests a condition between brackets. -/
def bracket : Utility := fun c =>
  if c.arguments.getLast? = some [']'] then testAs "[" c c.arguments.dropLast
  else c.complain "[: missing ]" 2

end Bindery.Shell.Utility
