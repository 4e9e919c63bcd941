import Bindery.Shell.Arithmetic
import Bindery.Shell.Utility.Basic

/-!
# Utilities that print

`echo` and `printf` print their arguments, with escapes resolved (`unescape`), and `pwd` the
current directory.
-/

namespace Bindery.Shell.Utility

/-! ### Escapes -/

/-- The value of up to so many octal digits, and what follows them. -/
def octal : Nat → Nat → List Char → Nat × List Char
  | 0, n, cs => (n, cs)
  | _ + 1, n, [] => (n, [])
  | width + 1, n, c :: cs =>
    if '0' ≤ c && c ≤ '7' then octal width (8 * n + (c.toNat - 48)) cs else (n, c :: cs)

/-- The character of a number, taken modulo 256. -/
def byteChar (n : Nat) : Char :=
  Char.ofNat (n % 256)

/-- The character of an escape that is a single letter. -/
def letterEscape? (c : Char) : Option Char :=
  match c with
  | 'a' => some '\x07'
  | 'b' => some '\x08'
  | 'f' => some '\x0c'
  | 'n' => some '\n'
  | 'r' => some '\x0d'
  | 't' => some '\t'
  | 'v' => some '\x0b'
  | '\\' => some '\\'
  | _ => none

/-- The text with its escapes resolved, and whether it ends the output.  An octal escape begins
with a zero if `needsZero` holds. -/
def unescape (needsZero : Bool) : Nat → List Char → List Char × Bool
  | 0, cs => (cs, false)
  | _ + 1, [] => ([], false)
  | fuel + 1, '\\' :: c :: cs =>
    if c = 'c' then ([], true)
    else match letterEscape? c with
      | some d =>
        let (text, stops) := unescape needsZero fuel cs
        (d :: text, stops)
      | none =>
        if c = '0' || (!needsZero && '1' ≤ c && c ≤ '7') then
          let (n, cs) := octal (if needsZero then 3 else 2) (c.toNat - 48) cs
          let (text, stops) := unescape needsZero fuel cs
          (byteChar n :: text, stops)
        else
          let (text, stops) := unescape needsZero fuel cs
          ('\\' :: c :: text, stops)
  | fuel + 1, c :: cs =>
    let (text, stops) := unescape needsZero fuel cs
    (c :: text, stops)

/-! ### Lines -/

/-- Prints its arguments, as a part of the shell: escapes are resolved. -/
def echo : Utility := fun c =>
  let (isOpen, arguments) := match c.arguments with
    | ['-', 'n'] :: rest => (true, rest)
    | arguments => (false, arguments)
  let line := Text.joinWith [' '] arguments
  let (text, stops) := unescape true (line.length + 1) line
  c.print (if isOpen || stops then text else text ++ ['\n']) 0

/-- Prints its arguments, as a program: escapes are resolved only on demand. -/
def echoProgram : Utility := fun c =>
  let isOption (argument : List Char) : Bool :=
    match argument with
    | '-' :: d :: ds => (d :: ds).all fun o => o == 'n' || o == 'e' || o == 'E'
    | _ => false
  let letters := (c.arguments.takeWhile isOption).flatten
  let line := Text.joinWith [' '] (c.arguments.dropWhile isOption)
  let (text, stops) :=
    if letters.contains 'e' then unescape true (line.length + 1) line else (line, false)
  c.print (if letters.contains 'n' || stops then text else text ++ ['\n']) 0

/-- Prints the current directory. -/
def pwd : Utility := fun c =>
  c.print (ofString ("/" ++ "/".intercalate c.cwd ++ "\n")) 0

/-! ### Formats -/

/-- A text brought to a width. -/
def pad (left zeros : Bool) (width : Nat) (text : List Char) : List Char :=
  let fill := List.replicate (width - text.length) (if zeros && !left then '0' else ' ')
  if left then text ++ fill else fill ++ text

/-- The text of a directive for an argument. -/
def directive (letter : Char) (argument : List Char) : List Char :=
  let value := Arithmetic.valueOf argument
  match letter with
  | 'd' => decimal value
  | 'i' => decimal value
  | 'u' => decimal value
  | 'x' => Nat.toDigits 16 value.toNat
  | 'X' => (Nat.toDigits 16 value.toNat).map Char.toUpper
  | 'o' => Nat.toDigits 8 value.toNat
  | 'c' => argument.take 1
  | 'b' => (unescape true (argument.length + 1) argument).1
  | _ => argument

/-- The text of a format for its arguments, and the arguments that are left. -/
def format : Nat → List (List Char) → List Char → List Char × List (List Char)
  | 0, arguments, _ => ([], arguments)
  | _ + 1, arguments, [] => ([], arguments)
  | fuel + 1, arguments, '%' :: '%' :: cs =>
    let (text, arguments) := format fuel arguments cs
    ('%' :: text, arguments)
  | fuel + 1, arguments, '%' :: cs =>
    let flags := cs.takeWhile fun c => c == '-' || c == '0' || c == '+' || c == ' ' || c == '#'
    let cs := cs.drop flags.length
    let width := cs.takeWhile Char.isDigit
    let cs := cs.drop width.length
    let (precision, cs) := match cs with
      | '.' :: rest => (some (rest.takeWhile Char.isDigit), rest.dropWhile Char.isDigit)
      | _ => (none, cs)
    match cs with
    | [] => (['%'], arguments)
    | letter :: cs =>
      let body := directive letter (arguments.head?.getD [])
      let body := match precision with
        | some p => if letter = 's' then body.take (Arithmetic.valueOf p).toNat else body
        | none => body
      let zeros := flags.contains '0' && letter != 's' && letter != 'c'
      let body := pad (flags.contains '-') zeros (Arithmetic.valueOf width).toNat body
      let (text, arguments) := format fuel (arguments.drop 1) cs
      (body ++ text, arguments)
  | fuel + 1, arguments, '\\' :: c :: cs =>
    let (head, cs) := match letterEscape? c with
      | some d => ([d], cs)
      | none =>
        if c = '\x22' then ([c], cs)
        else if '0' ≤ c && c ≤ '7' then
          let (n, cs) := octal 2 (c.toNat - 48) cs
          ([byteChar n], cs)
        else (['\\', c], cs)
    let (text, arguments) := format fuel arguments cs
    (head ++ text, arguments)
  | fuel + 1, arguments, c :: cs =>
    let (text, arguments) := format fuel arguments cs
    (c :: text, arguments)

/-- The text of a format that is used again as long as it takes arguments. -/
def formatAll (text : List Char) : Nat → List (List Char) → List Char
  | 0, _ => []
  | fuel + 1, arguments =>
    let (out, rest) := format (text.length + 1) arguments text
    if rest.isEmpty || rest.length = arguments.length then out
    else out ++ formatAll text fuel rest

/-- Prints its arguments in a format. -/
def printf : Utility := fun c =>
  let arguments := if c.arguments.head? = some ['-', '-'] then c.arguments.drop 1
    else c.arguments
  match arguments with
  | [] => c.complain "printf: usage: printf format [arg ...]" 2
  | text :: arguments => c.print (formatAll text (arguments.length + 1) arguments) 0

end Bindery.Shell.Utility
