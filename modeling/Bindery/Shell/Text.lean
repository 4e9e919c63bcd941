import Bindery.OsError
import Bindery.Path
import Bindery.Text.Utf8

/-!
# Texts of scripts

Inside a shell a text is a list of characters of which each stands for one byte.  `ofString` and
`stringOf` go between such texts and strings, `ofBytes` and `toBytes` between them and bytes.
-/

namespace Bindery.Shell

/-- The text of bytes. -/
def ofBytes (bytes : Bytes) : List Char :=
  bytes.map fun b => Char.ofNat b.toNat

/-- The bytes of a text. -/
def toBytes (text : List Char) : Bytes :=
  text.map fun c => UInt8.ofNat c.toNat

/-- The text of a string. -/
def ofString (s : String) : List Char :=
  ofBytes (Text.utf8 s.toList)

/-- The string of a text. -/
def stringOf (text : List Char) : String :=
  String.ofList (Text.decodeLossy (toBytes text))

/-- The path that a text names. -/
def pathOf (text : List Char) : Path :=
  ⟨stringOf text⟩

/-- Why the machine refused, without its number. -/
def reason (e : OsError) : String :=
  String.ofList ((e.message.toList.takeWhile (· != '(')).reverse.dropWhile (· == ' ')).reverse

/-- The file that holds nothing and throws away what is written to it. -/
def nullFile : List Char := "/dev/null".toList

/-- An integer in decimal. -/
def decimal (n : Int) : List Char :=
  (toString n).toList

/-- The characters that separate words in most places. -/
def isBlank (c : Char) : Bool :=
  c == ' ' || c == '\t' || c == '\n'

/-- A text without blanks at its ends. -/
def trimBlanks (text : List Char) : List Char :=
  ((text.dropWhile isBlank).reverse.dropWhile isBlank).reverse

/-- The first text comes before the second in the order of their bytes. -/
def Text.isBefore : List Char → List Char → Bool
  | [], b => !b.isEmpty
  | _, [] => false
  | x :: a, y :: b => x < y || (x = y && isBefore a b)

/-- What follows the last slash of a text. -/
def lastPart (text : List Char) : List Char :=
  (text.reverse.takeWhile (· != '/')).reverse

end Bindery.Shell
