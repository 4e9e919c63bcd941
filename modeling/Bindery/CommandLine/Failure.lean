import Bindery.Report
import Bindery.Text.Lines

/-!
# Failures of a run

A `Failure` says what failed and why, one cause behind the other.  `Failure.report` writes it:
the causes are indented, and numbered if there are several.  A run comes to a `Halt` where
something fails, or where a line cannot be printed.
-/

namespace Bindery

/-- Why a run of the program failed. -/
structure Failure where
  /-- What failed. -/
  subject : String
  /-- The causes, each behind the one before. -/
  causes : List String := []
deriving DecidableEq, Repr

namespace Failure

/-- The failure of a request. -/
def ofRequest (subject : String) (e : RequestError) : Failure where
  subject := subject
  causes := e.message :: (e.cause?.map OsError.message).toList

/-- So many blanks. -/
def blanks (n : Nat) : List Char :=
  List.replicate n ' '

/-- A text whose first line follows a mark, and whose other lines are indented as far. -/
def hang (mark : List Char) (text : String) : List Char :=
  mark ++ Text.joinWith ('\n' :: blanks mark.length)
    (Text.splitWhere (· == '\n') text.toList)

/-- The mark of a cause with a number. -/
def numberMark (number : Nat) : List Char :=
  let digits := (toString number).toList
  blanks (5 - digits.length) ++ digits ++ [':', ' ']

/-- The causes as they are reported. -/
def causeLines : List String → List (List Char)
  | [] => []
  | [cause] => [hang (blanks 4) cause]
  | causes => causes.zipIdx.map fun (cause, number) => hang (numberMark number) cause

/-- The failure as it is reported. -/
def report (f : Failure) : String :=
  let causes := (causeLines f.causes).flatMap fun line => '\n' :: line
  "Error: " ++ f.subject ++ (if f.causes.isEmpty then "" else "\n\nCaused by:")
    ++ String.ofList causes ++ "\n"

end Failure

/-- Why a run of the program halts before its end. -/
inductive Halt where
  /-- Something failed, and that is to be reported. -/
  | failed (failure : Failure)
  /-- A line could not be printed, which breaks the run off at once. -/
  | panicked
deriving DecidableEq, Repr

end Bindery
