import Bindery.Action
import Bindery.Source

/-!
# Reading sources

`SourceFile.read` takes a source in under the name of its file.  `readSource` reads a source
that is about to be extracted; what the machine refuses to read is `SourceError.unreadable`.
-/

namespace Bindery

/-- Reads a source as it is handed in. -/
def SourceFile.read (kind : SourceKind) (path : Path) : Job (Except OsError SourceFile) := do
  match ← act (.read path) with
  | .error e => return .error e
  | .ok bytes => return .ok { kind, name := path.nameForReports, bytes }

/-- Reads a source to extract it. -/
def readSource (path : Path) : Job (Except SourceError Bytes) := do
  match ← act (.read path) with
  | .error e => return .error (.unreadable path.nameForReports e.message)
  | .ok bytes => return .ok bytes

end Bindery
