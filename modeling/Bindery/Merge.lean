import Bindery.Dialogue
import Bindery.Document

/-!
# Merging fragments

`merge` joins fragments, in order, into one document.  Whether a package is available is a
question to the surroundings, so merging is a `Dialogue` whose questions are package names
(`Inquiry`).  A declaration enters the preamble once; a package request enters it only if no
earlier declaration loads one of its packages and all of them are available, and otherwise a
diagnostic records it.  Only a line that is not a single line of text (`LineFault`) makes
merging fail, and then before any question is asked.
-/

namespace Bindery

/-- A computation that asks whether packages are available. -/
abbrev Inquiry (α : Type) : Type :=
  Dialogue String (fun _ => Bool) α

/-- Why a string is not a single line of text. -/
inductive LineFault where
  | lineBreak
  | nul
deriving DecidableEq, Repr

/-- The wording of a line fault. -/
def LineFault.message : LineFault → String
  | lineBreak => "contains a line break"
  | nul => "contains a NUL byte"

/-- The fault of a line; a line break is reported before a NUL. -/
def LineFault.of? (line : List Char) : Option LineFault :=
  if line.contains '\n' || line.contains '\x0d' then some .lineBreak
  else if line.contains '\x00' then some .nul
  else none

/-- The first faulty line of a fragment. -/
structure MalformedFragment where
  origin : String
  /-- The number of the line, counted from one over declarations and then content. -/
  line : Nat
  fault : LineFault
deriving DecidableEq, Repr

/-- The number, counted from `first`, and the fault of the first faulty line. -/
def firstFault? (first : Nat) : List String → Option (Nat × LineFault)
  | [] => none
  | line :: lines =>
    match LineFault.of? line.toList with
    | some fault => some (first, fault)
    | none => firstFault? (first + 1) lines

/-- The first faulty line of a fragment, if it has one. -/
def Fragment.malformed? (f : Fragment) : Option MalformedFragment :=
  (firstFault? 1 f.allLines).map fun (line, fault) => { origin := f.origin, line, fault }

namespace Merge

/-- Asks about packages from left to right up to the first that is not available. -/
def allAvailable : List String → Inquiry Bool
  | [] => pure true
  | name :: names => do
    if ← Dialogue.question name then allAvailable names else return false

/-- Takes one preamble line of a source into the document. -/
def addDeclaration (origin : String) (d : Document) (line : String) : Inquiry Document :=
  match LineClass.of line with
  | .discarded => pure d
  | .other => pure (if d.declares line then d else d.declare (.plain line))
  | .unparseable => pure (d.note (.unparseable origin line))
  | .request name =>
    if d.declares line then pure d
    else match d.loader? name with
      | some kept => pure (d.note (.conflict origin name kept line))
      | none => do
        if ← allAvailable (packages name) then return d.declare (.request name line)
        else return d.note (.unavailable origin name line)

/-- The content that a fragment adds: its lines without boundary markers, and an empty line. -/
def bodyOf (f : Fragment) : List String :=
  (f.body.filter fun line => !isBoundary line.toList) ++ [""]

/-- Takes one fragment into the document. -/
def addFragment (d : Document) (f : Fragment) : Inquiry Document := do
  let d ← f.preamble.foldlM (addDeclaration f.origin) d
  return d.appendBody (bodyOf f)

end Merge

/-- Merges fragments, in order, into one document. -/
def merge (fragments : List Fragment) : Inquiry (Except MalformedFragment Document) :=
  match fragments.findSome? Fragment.malformed? with
  | some malformed => pure (.error malformed)
  | none => .ok <$> fragments.foldlM Merge.addFragment Document.empty

end Bindery
