import Bindery.Json.Token

/-!
# Values of a JSON text

A `Parsed` value is a JSON value as its text spells it: members are kept in order and with
repetitions, and strings and numbers may lack a value.  `Parsed.ofBytes?` reads the one value
of a text; how deep values are nested does not matter to it.
-/

namespace Bindery.Json

/-- A value as its text spells it. -/
inductive Parsed where
  | null
  | bool (value : Bool)
  | number (finite : Bool)
  | str (value : Option String)
  | arr (items : List Parsed)
  | obj (members : List (Option String × Parsed))
deriving Inhabited, Repr

namespace Parsed

/-- A value that has begun and waits for a value inside it.  What it holds so far is kept with
the latest first. -/
inductive Frame where
  | arr (items : List Parsed)
  | obj (members : List (Option String × Parsed)) (key : Option String)

/-- What the next token has to be, inside the given frames. -/
inductive State where
  /-- The start of a value. -/
  | value (frames : List Frame)
  /-- The first item of an array, or its end. -/
  | opened (frames : List Frame)
  /-- The first key of an object, or its end. -/
  | firstKey (frames : List Frame)
  /-- A key. -/
  | key (frames : List Frame) (members : List (Option String × Parsed))
  /-- The colon after a key. -/
  | colon (frames : List Frame) (members : List (Option String × Parsed)) (key : Option String)
  /-- A comma, or the end of what the value is in. -/
  | after (frames : List Frame) (value : Parsed)

/-- Reads the token at the start of a value. -/
def begin? (frames : List Frame) : Token → Option State
  | .null => some (.after frames .null)
  | .bool value => some (.after frames (.bool value))
  | .number finite => some (.after frames (.number finite))
  | .str value => some (.after frames (.str value))
  | .openArr => some (.opened frames)
  | .openObj => some (.firstKey frames)
  | _ => none

/-- Reads the token after a value. -/
def next? : List Frame → Parsed → Token → Option State
  | .arr items :: frames, value, .comma => some (.value (.arr (value :: items) :: frames))
  | .arr items :: frames, value, .closeArr =>
    some (.after frames (.arr (value :: items).reverse))
  | .obj members key :: frames, value, .comma => some (.key frames ((key, value) :: members))
  | .obj members key :: frames, value, .closeObj =>
    some (.after frames (.obj ((key, value) :: members).reverse))
  | _, _, _ => none

/-- Reads one token. -/
def State.step : State → Token → Option State
  | value frames, token => begin? frames token
  | opened frames, .closeArr => some (.after frames (.arr []))
  | opened frames, token => begin? (.arr [] :: frames) token
  | firstKey frames, .closeObj => some (.after frames (.obj []))
  | firstKey frames, .str k => some (.colon frames [] k)
  | firstKey _, _ => none
  | key frames members, .str k => some (.colon frames members k)
  | key _ _, _ => none
  | colon frames members k, .colon => some (.value (.obj members k :: frames))
  | colon _ _ _, _ => none
  | after frames v, token => next? frames v token

/-- The value that the tokens spell. -/
def ofTokens? (tokens : List Token) : Option Parsed := do
  match ← tokens.foldlM State.step (.value []) with
  | .after [] value => some value
  | _ => none

/-- The value of a JSON text. -/
def ofBytes? (bytes : Bytes) : Option Parsed := do
  ofTokens? (← tokens? bytes)

/-- The text of a string. -/
def text? : Parsed → Option String
  | str value => value
  | _ => none

/-- The items of an array. -/
def items? : Parsed → Option (List Parsed)
  | arr items => some items
  | _ => none

mutual

/-- Every string in a value is Unicode text, every number is in range, and values are nested at
most so deep. -/
def isUsable (depth : Nat) : Parsed → Bool
  | null => true
  | bool _ => true
  | number finite => finite
  | str value => value.isSome
  | arr items => 0 < depth && areUsable (depth - 1) items
  | obj members => 0 < depth && membersUsable (depth - 1) members

/-- All of the values are usable. -/
def areUsable (depth : Nat) : List Parsed → Bool
  | [] => true
  | item :: items => isUsable depth item && areUsable depth items

/-- All keys and values of the members are usable. -/
def membersUsable (depth : Nat) : List (Option String × Parsed) → Bool
  | [] => true
  | (key, value) :: members => key.isSome && isUsable depth value && membersUsable depth members

end

/-! ### Records -/

/-- The members of a record with the given fields, in the order of the fields.  A record is
written as an object, where no field is repeated and other members do not count, or as an array
of the first of its fields. -/
def record? (fields : List String) : Parsed → Option (List (Option Parsed))
  | arr items =>
    if items.length ≤ fields.length then
      some (items.map some ++ List.replicate (fields.length - items.length) none)
    else none
  | obj members => do
    let keys ← members.mapM Prod.fst
    guard (fields.all fun field => keys.count field ≤ 1)
    return fields.map fun field =>
      (members.find? fun member => member.1 == some field).map Prod.snd
  | _ => none

end Parsed

end Bindery.Json
