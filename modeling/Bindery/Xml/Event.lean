import Bindery.Xml.Piece

/-!
# Events of an XML text

`Event.ofText?` reads an XML text as a sequence of tags and character data.  An end tag has to
name the element that is open, but elements may stay open at the end.  References in text are
resolved (`unescape?`); a tag keeps its attributes as they are written, and
`Tag.attribute?` resolves the one that it looks up.
-/

namespace Bindery.Xml

/-! ### References -/

/-- The characters with a name. -/
def entities : List (String × Char) :=
  [("lt", '<'), ("gt", '>'), ("amp", '&'), ("apos", '\x27'), ("quot", '\x22')]

/-- The value of a digit, which is below the base. -/
def digitBelow? (base : Nat) (c : Char) : Option Nat :=
  let value? :=
    if '0' ≤ c && c ≤ '9' then some (c.toNat - 48)
    else if 'a' ≤ c && c ≤ 'f' then some (c.toNat - 87)
    else if 'A' ≤ c && c ≤ 'F' then some (c.toNat - 55)
    else none
  value?.filter (· < base)

/-- The number that digits spell. -/
def numeral? (base : Nat) (digits : List Char) : Option Nat :=
  if digits.isEmpty then none
  else digits.foldlM (fun n c => (digitBelow? base c).map fun d => base * n + d) 0

/-- The character of a number other than zero. -/
def character? (n : Nat) : Option Char :=
  if n ≠ 0 ∧ (n < 0xd800 ∨ 0xdfff < n ∧ n < 0x110000) then some (Char.ofNat n) else none

/-- The character that a reference names: what stands between ampersand and semicolon. -/
def reference? : List Char → Option Char
  | '#' :: 'x' :: digits => (numeral? 16 digits).bind character?
  | '#' :: digits => (numeral? 10 digits).bind character?
  | name => (entities.find? fun entity => entity.1.toList = name).map Prod.snd

/-- The text with its references resolved.  `opened` holds what has been read of a reference, the
latest character first. -/
def unescapeFrom? (opened : Option (List Char)) : List Char → Option (List Char)
  | [] => if opened.isSome then none else some []
  | c :: cs =>
    match opened with
    | none =>
      if c = '&' then unescapeFrom? (some []) cs
      else (unescapeFrom? none cs).map (c :: ·)
    | some read =>
      if c = ';' then do
        let character ← reference? read.reverse
        return character :: (← unescapeFrom? none cs)
      else if c = '&' then none
      else unescapeFrom? (some (c :: read)) cs

/-- The text with its references resolved. -/
def unescape? (text : List Char) : Option (List Char) :=
  unescapeFrom? none text

/-! ### Tags -/

/-- A name without what precedes its first colon. -/
def localName (name : List Char) : List Char :=
  if name.contains ':' then (name.dropWhile (· != ':')).drop 1 else name

/-- A tag. -/
structure Tag where
  name : List Char
  /-- The attributes, with their values as they are written. -/
  attributes : List (List Char × List Char)
deriving DecidableEq, Repr

/-- What the next character of the attributes belongs to. -/
inductive AttributeMode where
  | gap
  | key (read : List Char)
  /-- After a key and white space. -/
  | named (key : List Char)
  /-- After an equals sign. -/
  | value (key : List Char)
  | quoted (key : List Char) (quote : Char) (read : List Char)
  /-- In something that is no attribute, up to white space. -/
  | skipped
deriving DecidableEq, Repr

/-- The state of reading attributes. -/
structure AttributeScan where
  mode : AttributeMode := .gap
  /-- The keys so far. -/
  keys : List (List Char) := []
  /-- The attributes that are complete, the latest first. -/
  attributes : List (List Char × List Char) := []
deriving DecidableEq, Repr

namespace AttributeScan

/-- Reads an equals sign after a key; only the first of equal keys counts. -/
def equals (s : AttributeScan) (key : List Char) : AttributeScan :=
  if s.keys.contains key then { s with mode := .skipped }
  else { s with mode := .value key, keys := key :: s.keys }

/-- Reads one character. -/
def step (s : AttributeScan) (c : Char) : AttributeScan :=
  match s.mode with
  | .gap => if isSpace c then s else { s with mode := .key [c] }
  | .key read =>
    if c = '=' then s.equals read.reverse
    else if isSpace c then { s with mode := .named read.reverse }
    else { s with mode := .key (c :: read) }
  | .named key =>
    if isSpace c then s
    else if c = '=' then s.equals key
    else { s with mode := .key [c] }
  | .value key =>
    if isSpace c then s
    else if c = '\x22' || c = '\x27' then { s with mode := .quoted key c [] }
    else { s with mode := .skipped }
  | .quoted key quote read =>
    if c = quote then { s with mode := .gap, attributes := (key, read.reverse) :: s.attributes }
    else { s with mode := .quoted key quote (c :: read) }
  | .skipped => if isSpace c then { s with mode := .gap } else s

end AttributeScan

namespace Tag

/-- The tag with the given content. -/
def ofContent (content : List Char) : Tag where
  name := content.takeWhile (!isSpace ·)
  attributes := ((content.dropWhile (!isSpace ·)).foldl AttributeScan.step {}).attributes.reverse

/-- The value of the first attribute of a local name. -/
def attribute? (t : Tag) (name : String) : Option (List Char) := do
  let (_, value) ← t.attributes.find? fun (key, _) => localName key = name.toList
  unescape? value

end Tag

/-! ### Events -/

/-- An event. -/
inductive Event where
  | start (tag : Tag)
  /-- An element without content. -/
  | empty (tag : Tag)
  | stop (name : List Char)
  | text (content : List Char)
deriving DecidableEq, Repr

/-- The state of reading events: the names of the open elements, and the events so far, both
with the latest first. -/
abbrev Reading : Type := List (List Char) × List Event

/-- Reads the content of a tag. -/
def stepTagContent? (opened : List (List Char)) (events : List Event) (content : List Char) :
    Option Reading :=
  match content with
  | '/' :: rest =>
    let name := (rest.reverse.dropWhile isSpace).reverse
    let name := if name.isEmpty then rest else name
    match opened with
    | [] => none
    | expected :: opened => if name = expected then some (opened, .stop name :: events) else none
  | _ =>
    if content.getLast? = some '/' then
      some (opened, .empty (Tag.ofContent content.dropLast) :: events)
    else
      let tag := Tag.ofContent content
      some (tag.name :: opened, .start tag :: events)

/-- Reads one piece. -/
def stepPiece? : Reading → Piece → Option Reading
  | (opened, events), .tag content => stepTagContent? opened events content
  | (opened, events), .text content =>
    (unescape? content).map fun text => (opened, .text text :: events)
  | (opened, events), .literal content => some (opened, .text content :: events)

/-- The events of a text. -/
def Event.ofText? (text : List Char) : Option (List Event) := do
  let pieces ← Piece.ofText? text
  let (_, events) ← pieces.foldlM stepPiece? ([], [])
  return events.reverse

end Bindery.Xml
