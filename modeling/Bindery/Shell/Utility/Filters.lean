import Bindery.Shell.Arithmetic
import Bindery.Shell.Utility.Printing

/-!
# Filters

Utilities that print what they make of the files named, or of their input.
-/

namespace Bindery.Shell.Utility

/-- Prints files. -/
def cat : Utility := fun c =>
  let (_, names) := Call.options c.arguments
  let names := if names.isEmpty then [['-']] else names
  let e := names.foldl (fun (e : Effect) name =>
    match c.content name with
    | .ok text => e.say text
    | .error cause => e.complain ("cat: " ++ stringOf name ++ ": " ++ reason cause) 1)
    (c.finish 0)
  { e with input := if names.contains ['-'] then [] else c.input }

/-- Prints the input, and writes it to files. -/
def tee : Utility := fun c =>
  let (letters, names) := Call.options c.arguments
  let e := c.forEach "tee" names fun tree name =>
    match tree.openFile c.cwd (pathOf name) (!letters.contains 'a') newFileMode with
    | .ok (serial, tree) => .ok (tree.append serial (toBytes c.input))
    | .error cause => .error (stringOf name ++ ": " ++ reason cause)
  { e.say c.input with input := [] }

/-- The text of all files named, or the input. -/
def allText (c : Call) (names : List (List Char)) : Except OsError (List Char) :=
  if names.isEmpty then .ok c.input
  else (names.mapM c.content).map List.flatten

/-- Prints what a function makes of the files named, or of the input. -/
def filter (c : Call) (name : String) (names : List (List Char))
    (f : List Char → List Char) : Effect :=
  match allText c names with
  | .ok text => { c.print (f text) 0 with input := if names.isEmpty then [] else c.input }
  | .error cause =>
    c.complain (name ++ ": " ++ stringOf (names.head?.getD []) ++ ": " ++ reason cause) 1

/-! ### Counting -/

/-- The number of words of a text. -/
def wordCount (text : List Char) : Nat :=
  ((Text.splitWhere Char.isWhitespace text).filter fun w => !w.isEmpty).length

/-- The counts of a text that the letters ask for: lines, words and bytes. -/
def chosenCounts (letters text : List Char) : List Nat :=
  let counts := [('l', text.count '\n'), ('w', wordCount text), ('c', text.length),
    ('m', text.length)]
  (if letters.isEmpty then counts.take 3
    else counts.filter fun (letter, _) => letters.contains letter).map Prod.snd

/-- Counts lines, words and bytes. -/
def wc : Utility := fun c =>
  let (letters, names) := Call.options c.arguments
  let line (width : Nat) (label text : List Char) : List Char :=
    let numbers := (chosenCounts letters text).map fun (n : Nat) =>
      pad false false width (decimal n)
    Text.joinWith [' '] numbers ++ label ++ ['\n']
  if names.isEmpty then
    let width := if letters.length = 1 then 1 else 7
    { c.print (line width [] c.input) 0 with input := [] }
  else match names.mapM c.content with
    | .error cause =>
      c.complain ("wc: " ++ stringOf (names.head?.getD []) ++ ": " ++ reason cause) 1
    | .ok texts =>
      let width := (decimal texts.flatten.length).length
      let width := if texts.length = 1 && letters.length = 1 then 1 else width
      let lines := (names.zip texts).flatMap fun (name, text) => line width (' ' :: name) text
      c.print (lines ++ if texts.length = 1 then []
        else line width (ofString " total") texts.flatten) 0

/-! ### Characters -/

/-- The characters of a set in which some are ranges. -/
def charSet : Nat → List Char → List Char
  | 0, _ => []
  | _ + 1, [] => []
  | fuel + 1, a :: '-' :: b :: rest =>
    ((List.range (b.toNat + 1 - a.toNat)).map fun i => Char.ofNat (a.toNat + i))
      ++ charSet fuel rest
  | fuel + 1, a :: rest => a :: charSet fuel rest

/-- The set that an argument names. -/
def setOf (argument : List Char) : List Char :=
  let range (a b : Char) : List Char := charSet 2 [a, '-', b]
  match String.ofList argument with
  | "[:space:]" => [' ', '\t', '\n', '\x0b', '\x0c', '\x0d']
  | "[:upper:]" => range 'A' 'Z'
  | "[:lower:]" => range 'a' 'z'
  | "[:digit:]" => range '0' '9'
  | "[:alpha:]" => range 'A' 'Z' ++ range 'a' 'z'
  | "[:alnum:]" => range '0' '9' ++ range 'A' 'Z' ++ range 'a' 'z'
  | _ =>
    let text := (unescape false (argument.length + 1) argument).1
    charSet (text.length + 1) text

/-- The text in which equal neighbours from a set are one. -/
def squeeze (set : List Char) : List Char → List Char
  | a :: b :: rest =>
    if a = b && set.contains a then squeeze set (b :: rest) else a :: squeeze set (b :: rest)
  | rest => rest

/-- Replaces or removes characters. -/
def tr : Utility := fun c =>
  let (letters, sets) := Call.options c.arguments
  let old := setOf (sets.head?.getD [])
  let new := setOf ((sets.drop 1).head?.getD [])
  let isListed (x : Char) : Bool := old.contains x != (letters.contains 'c')
  let map (x : Char) : Char :=
    if !isListed x then x
    else match if letters.contains 'c' then none else old.idxOf? x with
      | some i => (new[i]?).getD (new.getLast?.getD x)
      | none => new.getLast?.getD x
  filter c "tr" [] fun text =>
    if letters.contains 'd' then text.filter fun x => !isListed x
    else
      let text := if new.isEmpty then text else text.map map
      if letters.contains 's' then squeeze (if new.isEmpty then old else new) text else text

/-! ### Lines -/

/-- The lines of a text, each with its line feed. -/
def closedLines (text : List Char) : List (List Char) :=
  let parts := Text.splitWhere (· == '\n') text
  let last := parts.getLast?.getD []
  parts.dropLast.map (· ++ ['\n']) ++ (if last.isEmpty then [] else [last])

/-- How much of a text an argument asks for. -/
structure Amount where
  /-- Bytes are counted, and not lines. -/
  isBytes : Bool
  /-- The count. -/
  count : List Char

/-- The amount that the arguments ask for, and the files. -/
def amountOf : List (List Char) → Amount × List (List Char)
  | ['-', 'n'] :: n :: rest => (⟨false, n⟩, rest)
  | ['-', 'c'] :: n :: rest => (⟨true, n⟩, rest)
  | ('-' :: 'n' :: n) :: rest => (⟨false, n⟩, rest)
  | ('-' :: 'c' :: n) :: rest => (⟨true, n⟩, rest)
  | ('-' :: n) :: rest => if n.isEmpty then (⟨false, ['1', '0']⟩, ['-'] :: rest)
    else (⟨false, n⟩, rest)
  | rest => (⟨false, ['1', '0']⟩, rest)

/-- The pieces of a text that an amount counts. -/
def Amount.pieces (a : Amount) (text : List Char) : List (List Char) :=
  if a.isBytes then text.map ([·]) else closedLines text

/-- Prints the beginning; a negative count is what is left out at the end. -/
def head : Utility := fun c =>
  let (amount, names) := amountOf c.arguments
  filter c "head" names fun text =>
    let pieces := amount.pieces text
    let count := match amount.count with
      | '-' :: n => pieces.length - (Arithmetic.valueOf n).toNat
      | n => (Arithmetic.valueOf n).toNat
    (pieces.take count).flatten

/-- Prints the end; a count with a plus sign is where it begins. -/
def tail : Utility := fun c =>
  let (amount, names) := amountOf c.arguments
  filter c "tail" names fun text =>
    let pieces := amount.pieces text
    let left := match amount.count with
      | '+' :: n => (Arithmetic.valueOf n).toNat - 1
      | n => pieces.length - (Arithmetic.valueOf n).toNat
    (pieces.drop left).flatten

/-- Lines with their line feeds. -/
def ofLines (lines : List (List Char)) : List Char :=
  lines.flatMap (· ++ ['\n'])

/-- Sorts lines. -/
def sort : Utility := fun c =>
  let (letters, names) := Call.options c.arguments
  filter c "sort" names fun text =>
    let lines := (Text.lines text).mergeSort fun a b =>
      if letters.contains 'n' then
        let x := Arithmetic.valueOf (a.takeWhile Char.isDigit)
        let y := Arithmetic.valueOf (b.takeWhile Char.isDigit)
        x < y || (x = y && !Text.isBefore b a)
      else !Text.isBefore b a
    let lines := if letters.contains 'u' then lines.eraseDups else lines
    ofLines (if letters.contains 'r' then lines.reverse else lines)

/-- The lines of which none equals the one before. -/
def withoutRepeats : List (List Char) → List (List Char)
  | a :: b :: rest => if a = b then withoutRepeats (b :: rest) else a :: withoutRepeats (b :: rest)
  | rest => rest

/-- Leaves out lines that repeat the one before. -/
def uniq : Utility := fun c =>
  filter c "uniq" (Call.options c.arguments).2 fun text =>
    ofLines (withoutRepeats (Text.lines text))

/-- The line contains a text. -/
def contains (text : List Char) : List Char → Bool
  | [] => text.isEmpty
  | c :: cs => text.isPrefixOf (c :: cs) || contains text cs

/-- The line contains a text, in which a circumflex and a dollar sign at its ends stand for the
ends of the line if `marks` holds. -/
def isFound (marks : Bool) (sought line : List Char) : Bool :=
  let atStart := marks && sought.head? = some '^'
  let sought := if atStart then sought.drop 1 else sought
  let atEnd := marks && sought.getLast? = some '$'
  let sought := if atEnd then sought.dropLast else sought
  let sought := if marks then sought.filter (· != '\\') else sought
  if sought = ['.'] && marks then !line.isEmpty
  else if atStart && atEnd then line == sought
  else if atStart then sought.isPrefixOf line
  else if atEnd then sought.isSuffixOf line
  else contains sought line

/-- Prints the lines that contain a text. -/
def grep : Utility := fun c =>
  let (letters, rest) := Call.options c.arguments
  match rest with
  | [] => c.complain "usage: grep [OPTION]... PATTERNS [FILE]..." 2
  | sought :: names =>
    match allText c names with
    | .error cause =>
      c.complain ("grep: " ++ stringOf (names.head?.getD []) ++ ": " ++ reason cause) 2
    | .ok text =>
      let fold (cs : List Char) : List Char :=
        if letters.contains 'i' then cs.map Char.toLower else cs
      let found := (Text.lines text).filter fun line =>
        isFound (!letters.contains 'F') (fold sought) (fold line) != letters.contains 'v'
      let out := if letters.contains 'q' then []
        else if letters.contains 'c' then decimal found.length ++ ['\n']
        else ofLines found
      let input := if names.isEmpty then [] else c.input
      { c.print out (if found.isEmpty then 1 else 0) with input }

/-! ### Fields of lines -/

/-- The positions that a list of numbers and ranges asks for hold the given one. -/
def isChosen (list : List Char) (position : Nat) : Bool :=
  (Text.splitWhere (· == ',') list).any fun range =>
    let number (text : List Char) : Nat := (Arithmetic.valueOf text).toNat
    let first := range.takeWhile (· != '-')
    let last := range.drop (first.length + 1)
    if first.length = range.length then number first = position
    else (first.isEmpty || number first ≤ position) && (last.isEmpty || position ≤ number last)

/-- The chosen items, of which the first has position one. -/
def chosen {α : Type} (list : List Char) (items : List α) : List α :=
  (items.zipIdx 1).filterMap fun (item, position) =>
    if isChosen list position then some item else none

/-- How a line is cut. -/
structure Cutting where
  /-- What separates fields. -/
  separator : Char := '\t'
  /-- The list of fields. -/
  fields : Option (List Char) := none
  /-- The list of characters. -/
  chars : List Char := []

/-- How the arguments ask for lines to be cut, and the files. -/
def cuttingOf (cutting : Cutting) : List (List Char) → Cutting × List (List Char)
  | ['-', letter] :: value :: rest => cuttingOf (set letter value) rest
  | ('-' :: letter :: value) :: rest => cuttingOf (set letter value) rest
  | rest => (cutting, rest)
where
  /-- The cutting with an option. -/
  set (letter : Char) (value : List Char) : Cutting :=
    match letter with
    | 'd' => { cutting with separator := value.head?.getD '\t' }
    | 'f' => { cutting with fields := some value }
    | _ => { cutting with chars := value }

/-- Prints parts of lines. -/
def cut : Utility := fun c =>
  let (cutting, names) := cuttingOf {} c.arguments
  filter c "cut" names fun text =>
    ofLines ((Text.lines text).map fun line =>
      match cutting.fields with
      | none => chosen cutting.chars line
      | some list =>
        if line.contains cutting.separator then
          Text.joinWith [cutting.separator]
            (chosen list (Text.splitWhere (· == cutting.separator) line))
        else line)

end Bindery.Shell.Utility
