import Bindery.Text.Utf8

/-!
# Tokens of a JSON text

`tokens?` cuts the bytes of a JSON text into tokens, one byte at a time (`Reading.step`).  Two
kinds of token can be well formed and yet have no value: a string that is not Unicode text, and
a number beyond the range of double precision.  Whether that matters depends on where the
token stands, so a token only records it.
-/

namespace Bindery.Json

/-- A token. -/
inductive Token where
  | openArr
  | closeArr
  | openObj
  | closeObj
  | comma
  | colon
  | null
  | bool (value : Bool)
  /-- A number, which may be too large for double precision. -/
  | number (finite : Bool)
  /-- A string, which may be no Unicode text. -/
  | str (value : Option String)
deriving DecidableEq, Repr

/-- The byte of an ASCII character. -/
def byte (c : Char) : UInt8 :=
  UInt8.ofNat c.toNat

/-- The value of a decimal digit. -/
def digit? (b : UInt8) : Option Nat :=
  if byte '0' ≤ b ∧ b ≤ byte '9' then some (b.toNat - 48) else none

/-- The value of a hexadecimal digit. -/
def hexDigit? (b : UInt8) : Option Nat :=
  if byte '0' ≤ b ∧ b ≤ byte '9' then some (b.toNat - 48)
  else if byte 'a' ≤ b ∧ b ≤ byte 'f' then some (b.toNat - 87)
  else if byte 'A' ≤ b ∧ b ≤ byte 'F' then some (b.toNat - 55)
  else none

/-- The characters between tokens. -/
def isGap (b : UInt8) : Bool :=
  b == 0x20 || b == 0x0a || b == 0x0d || b == 0x09

/-! ### Strings -/

/-- Where in a string the next byte stands. -/
inductive StrPhase where
  | plain
  /-- After a backslash. -/
  | escape
  /-- Among the four digits of a code unit. -/
  | unit (missing value : Nat)
deriving DecidableEq, Repr

/-- The part of a string that has been read. -/
structure StrReading where
  /-- The UTF-8 bytes so far, the latest first. -/
  bytes : Bytes := []
  /-- Every surrogate so far, but for an open one, has its partner. -/
  sound : Bool := true
  /-- A leading surrogate that waits for its partner. -/
  surrogate : Option Nat := none
  phase : StrPhase := .plain
deriving DecidableEq, Repr

namespace StrReading

/-- A string with one more piece of text, which is no surrogate. -/
def push (s : StrReading) (bytes : Bytes) : StrReading :=
  { bytes := bytes.reverse ++ s.bytes
    sound := s.sound && s.surrogate.isNone
    surrogate := none
    phase := .plain }

/-- A string with one more code unit. -/
def pushUnit (s : StrReading) (unit : Nat) : StrReading :=
  match s.surrogate with
  | some lead =>
    if 0xdc00 ≤ unit ∧ unit ≤ 0xdfff then
      ({ s with surrogate := none } : StrReading).push
        (Text.utf8 [Char.ofNat (0x10000 + (lead - 0xd800) * 0x400 + (unit - 0xdc00))])
    else { s with sound := false, surrogate := none, phase := .plain }
  | none =>
    if 0xd800 ≤ unit ∧ unit ≤ 0xdbff then { s with surrogate := some unit, phase := .plain }
    else if 0xdc00 ≤ unit ∧ unit ≤ 0xdfff then { s with sound := false, phase := .plain }
    else s.push (Text.utf8 [Char.ofNat unit])

/-- The byte that a short escape stands for. -/
def escaped? (b : UInt8) : Option UInt8 :=
  if b = byte '\x22' ∨ b = byte '\\' ∨ b = byte '/' then some b
  else if b = byte 'b' then some 0x08
  else if b = byte 'f' then some 0x0c
  else if b = byte 'n' then some 0x0a
  else if b = byte 'r' then some 0x0d
  else if b = byte 't' then some 0x09
  else none

/-- Reads one byte of a string that does not end it. -/
def step (s : StrReading) (b : UInt8) : Option StrReading :=
  match s.phase with
  | .plain =>
    if b < 0x20 then none
    else if b = byte '\\' then some { s with phase := .escape }
    else some (s.push [b])
  | .escape =>
    if b = byte 'u' then some { s with phase := .unit 4 0 }
    else (escaped? b).map fun e => s.push [e]
  | .unit missing value =>
    (hexDigit? b).map fun d =>
      let value := 16 * value + d
      if missing ≤ 1 then s.pushUnit value else { s with phase := .unit (missing - 1) value }

/-- The text of a string that has ended, if it is Unicode text. -/
def value (s : StrReading) : Option String :=
  if s.sound && s.surrogate.isNone then (Text.decode? s.bytes.reverse).map String.ofList
  else none

end StrReading

/-! ### Numbers -/

/-- Where in a number the next byte stands. -/
inductive NumPhase where
  /-- After the minus sign. -/
  | sign
  /-- After a leading zero. -/
  | zero
  /-- Among the digits before the point. -/
  | whole
  /-- After the point. -/
  | point
  | fraction
  /-- After the exponent mark. -/
  | mark
  /-- After the sign of the exponent. -/
  | markSign
  | exponent
deriving DecidableEq, Repr

/-- The part of a number that has been read: up to its sign it is `significand` times ten to
the power `scale`, before the exponent is taken into account. -/
structure NumReading where
  phase : NumPhase
  significand : Nat := 0
  scale : Int := 0
  /-- The significand does not take any more digits of this stretch. -/
  isFull : Bool := false
  exponent : Nat := 0
  /-- The exponent has a minus sign. -/
  shrinks : Bool := false
deriving DecidableEq, Repr

namespace NumReading

/-- One more digit before the point.  The significand keeps to 64 bits; digits that do not fit
count only for the scale. -/
def pushWhole (n : NumReading) (d : Nat) : NumReading :=
  if !n.isFull && 10 * n.significand + d < UInt64.size then
    { n with phase := .whole, significand := 10 * n.significand + d }
  else { n with phase := .whole, isFull := true, scale := n.scale + 1 }

/-- One more digit after the point. -/
def pushFraction (n : NumReading) (d : Nat) : NumReading :=
  if !n.isFull && 10 * n.significand + d < UInt64.size then
    { n with phase := .fraction, significand := 10 * n.significand + d, scale := n.scale - 1 }
  else { n with phase := .fraction, isFull := true }

/-- One more digit of the exponent. -/
def pushExponent (n : NumReading) (d : Nat) : NumReading :=
  { n with phase := .exponent, exponent := 10 * n.exponent + d }

/-- Begins the digits after the point, or the exponent. -/
def turn? (n : NumReading) (b : UInt8) : Option NumReading :=
  if b = byte '.' ∧ (n.phase = .zero ∨ n.phase = .whole) then
    some { n with phase := .point, isFull := false }
  else if (b = byte 'e' ∨ b = byte 'E') ∧ n.phase ≠ .sign then some { n with phase := .mark }
  else none

/-- Reads one byte of a number; there is no result if the byte does not belong to it. -/
def step? (n : NumReading) (b : UInt8) : Option NumReading :=
  match n.phase with
  | .sign =>
    (digit? b).map fun d => if d = 0 then { n with phase := .zero } else n.pushWhole d
  | .zero => n.turn? b
  | .whole =>
    match digit? b with
    | some d => some (n.pushWhole d)
    | none => n.turn? b
  | .point => (digit? b).map n.pushFraction
  | .fraction =>
    match digit? b with
    | some d => some (n.pushFraction d)
    | none => n.turn? b
  | .mark =>
    if b = byte '+' then some { n with phase := .markSign }
    else if b = byte '-' then some { n with phase := .markSign, shrinks := true }
    else (digit? b).map n.pushExponent
  | .markSign => (digit? b).map n.pushExponent
  | .exponent => (digit? b).map n.pushExponent

/-- The number may end here. -/
def isComplete (n : NumReading) : Bool :=
  n.phase == .zero || n.phase == .whole || n.phase == .fraction || n.phase == .exponent

/-- The nearest number with 53 significant bits, the even one of two. -/
def roundDouble (n : Nat) : Nat :=
  if n < 1 <<< 53 then n
  else
    let unit := 1 <<< (Nat.log2 n - 52)
    let rest := n % unit
    let below := n - rest
    if 2 * rest < unit || (2 * rest = unit && below / unit % 2 = 0) then below
    else below + unit

/-- The least integer that is rounded to infinity. -/
def overflow : Nat := 1 <<< 1024 - 1 <<< 970

/-- The number is in the range of double precision: significand and power of ten are rounded,
and then their product. -/
def isFinite (n : NumReading) : Bool :=
  let power := if n.shrinks then n.scale - n.exponent else n.scale + n.exponent
  n.significand = 0 || power ≤ 0
    || (power ≤ 308 && roundDouble n.significand * roundDouble (Nat.pow 10 power.toNat) < overflow)

end NumReading

/-! ### Tokens -/

/-- What the next byte belongs to. -/
inductive Reading where
  /-- A new token. -/
  | gap
  | str (s : StrReading)
  | number (n : NumReading)
  /-- A word, of which some bytes are still to come. -/
  | word (rest : Bytes) (token : Token)
deriving DecidableEq, Repr

/-- A number that begins. -/
def beginNumber? (b : UInt8) : Option NumReading :=
  if b = byte '-' then some { phase := .sign }
  else ({ phase := .sign } : NumReading).step? b

/-- The token of a single byte. -/
def Token.ofByte? (b : UInt8) : Option Token :=
  if b = byte '[' then some .openArr
  else if b = byte ']' then some .closeArr
  else if b = byte '{' then some .openObj
  else if b = byte '}' then some .closeObj
  else if b = byte ',' then some .comma
  else if b = byte ':' then some .colon
  else none

/-- A word that begins. -/
def beginWord? (b : UInt8) : Option Reading :=
  if b = byte 'n' then some (.word (Text.utf8 ['u', 'l', 'l']) .null)
  else if b = byte 't' then some (.word (Text.utf8 ['r', 'u', 'e']) (.bool true))
  else if b = byte 'f' then some (.word (Text.utf8 ['a', 'l', 's', 'e']) (.bool false))
  else none

/-- The state of reading: what the next byte belongs to, and the tokens that are complete, the
latest first. -/
abbrev Scan : Type := Reading × List Token

/-- Reads a byte at the start of a token. -/
def startToken (tokens : List Token) (b : UInt8) : Option Scan :=
  if isGap b then some (.gap, tokens)
  else if b = byte '\x22' then some (.str {}, tokens)
  else match Token.ofByte? b with
    | some token => some (.gap, token :: tokens)
    | none =>
      match beginNumber? b with
      | some n => some (.number n, tokens)
      | none => (beginWord? b).map fun word => (word, tokens)

/-- Reads one byte. -/
def Scan.step : Scan → UInt8 → Option Scan
  | (.gap, tokens), b => startToken tokens b
  | (.str s, tokens), b =>
    if s.phase = .plain ∧ b = byte '\x22' then some (.gap, .str s.value :: tokens)
    else (s.step b).map fun s => (.str s, tokens)
  | (.number n, tokens), b =>
    match n.step? b with
    | some n => some (.number n, tokens)
    | none => if n.isComplete then startToken (.number n.isFinite :: tokens) b else none
  | (.word [] token, tokens), b => startToken (token :: tokens) b
  | (.word (next :: rest) token, tokens), b =>
    if b ≠ next then none
    else if rest.isEmpty then some (.gap, token :: tokens)
    else some (.word rest token, tokens)

/-- The tokens at the end of the text. -/
def Scan.finish : Scan → Option (List Token)
  | (.gap, tokens) => some tokens.reverse
  | (.number n, tokens) =>
    if n.isComplete then some (.number n.isFinite :: tokens).reverse else none
  | (.str _, _) => none
  | (.word .., _) => none

/-- The tokens of a JSON text. -/
def tokens? (bytes : Bytes) : Option (List Token) := do
  let scan ← bytes.foldlM Scan.step (.gap, [])
  scan.finish

end Bindery.Json
