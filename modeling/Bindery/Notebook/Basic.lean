import Bindery.Json.Parsed

/-!
# Notebooks

A `Notebook` is a list of cells: markdown, code with the outputs of running it, and others that
are not typeset.  An output can come in several representations, one for each media type; a
`Bundle` keeps those that are text.  `Notebook.ofBytes?` reads a notebook.
-/

namespace Bindery

/-- The representations of an output that are text, by media type. -/
abbrev Bundle : Type := List (String × String)

namespace Bundle

/-- The representation of a media type. -/
def text? (b : Bundle) (media : String) : Option String :=
  (b.find? fun entry => entry.1 = media).map Prod.snd

/-- Puts the representation of a media type in the place of an earlier one, which also goes if
the new one is no text. -/
def put (b : Bundle) (media : String) (text : Option String) : Bundle :=
  let others := b.filter fun entry => entry.1 ≠ media
  match text with
  | none => others
  | some text => others ++ [(media, text)]

end Bundle

/-- An output of a code cell. -/
inductive Output where
  /-- Text that was printed, if any. -/
  | stream (text : Option String)
  /-- A value that was shown. -/
  | rich (bundle : Bundle)
  | error (name value : String)
  /-- An output that is not typeset. -/
  | other
deriving DecidableEq, Repr

/-- A cell of a notebook. -/
inductive Cell where
  | markdown (source : String)
  | code (source : String) (outputs : List Output)
  /-- A cell that is not typeset. -/
  | other
deriving DecidableEq, Repr

/-- A notebook. -/
structure Notebook where
  cells : List Cell
deriving DecidableEq, Repr

namespace Notebook

open Json (Parsed)

/-- A text, given as a string or as an array of strings to be joined. -/
def multiline? : Parsed → Option String
  | .str value => value
  | .arr items => (items.mapM Parsed.text?).map String.join
  | _ => none

/-- The text of a representation: a string, or the strings in an array. -/
def bundleText? : Parsed → Option String
  | .str value => value
  | .arr items => some (String.join (items.filterMap Parsed.text?))
  | _ => none

/-- A member that may be missing or null. -/
def optional? {α : Type} (read : Parsed → Option α) : Option Parsed → Option (Option α)
  | none => some none
  | some .null => some none
  | some value => (read value).map some

/-- A member that may be missing, but not null. -/
def withDefault? {α : Type} (read : Parsed → Option α) (default : α) : Option Parsed → Option α
  | none => some default
  | some value => read value

/-- How deep the values in a bundle may be nested. -/
def maxBundleDepth : Nat := 121

/-- The representations of an output. -/
def bundle? : Parsed → Option Bundle
  | .obj members => do
    guard (Parsed.membersUsable maxBundleDepth members)
    return members.foldl (fun b (key, value) => b.put (key.getD "") (bundleText? value)) []
  | _ => none

/-- An output of a code cell. -/
def output? (value : Parsed) : Option Output := do
  match ← value.record? ["output_type", "text", "data", "ename", "evalue"] with
  | [kind, text, data, ename, evalue] =>
    let kind ← (← kind).text?
    let text ← optional? multiline? text
    let bundle ← withDefault? bundle? [] data
    let ename ← optional? Parsed.text? ename
    let evalue ← optional? Parsed.text? evalue
    return match kind with
    | "stream" => .stream text
    | "execute_result" => .rich bundle
    | "display_data" => .rich bundle
    | "error" => .error (ename.getD "Error") (evalue.getD "")
    | _ => .other
  | _ => none

/-- The outputs of a code cell. -/
def outputs? (value : Parsed) : Option (List Output) := do
  (← value.items?).mapM output?

/-- A cell. -/
def cell? (value : Parsed) : Option Cell := do
  match ← value.record? ["cell_type", "source", "outputs"] with
  | [kind, source, outputs] =>
    let kind ← (← kind).text?
    let source ← withDefault? multiline? "" source
    let outputs ← withDefault? outputs? [] outputs
    return match kind with
    | "markdown" => .markdown source
    | "code" => .code source outputs
    | _ => .other
  | _ => none

/-- The notebook that a value describes. -/
def ofParsed? (value : Parsed) : Option Notebook := do
  match ← value.record? ["cells"] with
  | [cells] =>
    let cells ← (← (← cells).items?).mapM cell?
    return { cells }
  | _ => none

/-- The notebook in a file. -/
def ofBytes? (bytes : Bytes) : Option Notebook := do
  ofParsed? (← Parsed.ofBytes? bytes)

end Notebook

end Bindery
