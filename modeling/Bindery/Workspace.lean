import Bindery.Action
import Bindery.Report

/-!
# Working directories

Everything that a request writes goes into one directory, the `Workspace`: its sources, the
files that belong to them, the merged document, the log and the artifact.
-/

namespace Bindery

/-- A directory that exists and may be written to. -/
structure Workspace where
  root : Path
deriving DecidableEq, Repr

namespace Workspace

/-- Makes sure that a directory exists and may be written to. -/
def prepare (root : Path) : Job (Except RequestError Workspace) := do
  match ← act (.makeDirs root) with
  | .error cause => return .error (.workspaceCreate root cause)
  | .ok () =>
    match ← act (.stat root) with
    | .error cause => return .error (.workspaceCreate root cause)
    | .ok stat =>
      if stat.isWritable then return .ok ⟨root⟩
      else return .error (.workspaceNotWritable root)

/-- Writes a file of the given name in the directory. -/
def write (w : Workspace) (name : String) (bytes : Bytes) : Job (Except RequestError Path) := do
  let path := w.root.join name
  match ← act (.write path bytes) with
  | .error cause => return .error (.writeFailed path cause)
  | .ok () => return .ok path

/-- Keeps the source of the given kind and number. -/
def persist (w : Workspace) (kind : SourceKind) (index : Nat) (bytes : Bytes) :
    Job (Except RequestError Path) :=
  w.write (kind.fileName index) bytes

/-- Writes the merged document. -/
def writeMerged (w : Workspace) (name text : String) : Job (Except RequestError Path) :=
  w.write name (Text.utf8 text.toList)

end Workspace

end Bindery
