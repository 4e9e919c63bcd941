import Bindery.CommandLine.Run
import Bindery.Machine
import Bindery.Shell.Launch

/-!
# The program

`main` carries `runProgram` out on a machine whose file tree follows the disk.  What an action
names is fetched from the disk before the machine answers, and what the answer changed is stored
afterwards, so that all decisions are the machine's.  A file that begins with the line of an
interpreter can be executed.
-/

namespace Bindery.Disk

/-- The text of a location. -/
def pathText (l : Location) : String :=
  "/" ++ "/".intercalate l

/-- Bytes as the disk takes them. -/
def toDisk (bytes : Bytes) : ByteArray :=
  ⟨bytes.toArray⟩

/-- The permission bits of a file that was fetched. -/
def modeOf (bytes : Bytes) : Nat :=
  if (Shell.interpreter? (Shell.ofBytes bytes)).isSome then 0o755 else newFileMode

/-- The paths that an action names.  A program may also use what its arguments name. -/
def pathsOf (s : Surroundings) : Action → List Path
  | .makeDirs path => [path]
  | .stat path => [path]
  | .read path => [path]
  | .write path _ => [path]
  | .remove path => [path]
  | .openEnd path => [path]
  | .copy source target => [source, target]
  | .rename source target => [source, target]
  | .launch invocation =>
    let directory := invocation.directory.getD ⟨"."⟩
    directory :: (invocation.program :: invocation.arguments).map directory.join
  | .makeTemporary => [Machine.temporaryDir s]
  | .removeAll path => [path]
  | _ => []

/-! ### Fetching -/

/-- The error that the disk gives for reading a directory. -/
def isDirectory : IO.Error → Bool
  | .inappropriateType _ 21 _ => true
  | _ => false

/-- Adds what the disk has at a location. -/
def fetch (t : Tree) (l : Location) : IO Tree := do
  if (t.lookup l).isSome then return t
  match ← (IO.FS.readBinFile (pathText l)).toBaseIO with
  | .ok content =>
    let bytes := content.toList
    return t.addFile l (modeOf bytes) bytes
  | .error e => return if isDirectory e then t.set l (.dir newDirMode) else t

/-- Adds what the disk has on the way of a path and at its end. -/
def fetchAlong (t : Tree) (l : Location) : List String → IO Tree
  | [] => fetch t l
  | segment :: segments => do
    let t ← fetch t l
    match Tree.stepFrom l segment with
    | .ok next => fetchAlong t next segments
    | .error _ => return t

/-- Adds what the disk has of the paths that an action names. -/
def fetchFor (s : Surroundings) (m : Machine) (action : Action) : IO Machine := do
  let tree ← (pathsOf s action).foldlM (fun t p =>
    fetchAlong t (if p.isAbsolute then [] else m.cwd) p.segments) m.tree
  return { m with tree }

/-! ### Storing -/

/-- Stores a node that is new or has changed. -/
def store (old : Tree) (entry : Location × Node) : IO Unit :=
  match old.lookup entry.1, entry.2 with
  | some (.dir _), .dir _ => return
  | _, .dir _ => IO.FS.createDirAll (pathText entry.1)
  | before, .file serial mode bytes =>
    if before = some (.file serial mode bytes) then return
    else IO.FS.writeBinFile (pathText entry.1) (toDisk bytes)

/-- Removes a node that is gone. -/
def discard (new : Tree) (entry : Location × Node) : IO Unit :=
  match entry.2, new.lookup entry.1 with
  | .dir _, some (.dir _) => return
  | .dir _, _ => IO.FS.removeDir (pathText entry.1)
  | .file .., none => IO.FS.removeFile (pathText entry.1)
  | .file .., some (.file ..) => return
  | .file .., some (.dir _) => IO.FS.removeFile (pathText entry.1)

/-- The nodes of a tree, each after the directory it is in. -/
def inOrder (t : Tree) : List (Location × Node) :=
  t.nodes.mergeSort fun a b => a.1.length ≤ b.1.length

/-- Makes the changes from one tree to another on the disk. -/
def storeChanges (old new : Tree) : IO Unit := do
  (inOrder old).reverse.forM (discard new)
  (inOrder new).forM (store old)

/-! ### Jobs -/

/-- Whether something succeeds. -/
def succeeds (attempt : IO Unit) : IO Bool := do
  match ← attempt.toBaseIO with
  | .ok () => return true
  | .error _ => return false

/-- Carries a job out, and keeps the disk in step. -/
def carryOut {α : Type} (s : Surroundings) : Job α → Machine → IO α
  | .done value, _ => return value
  | .ask (.print text) next, m => do
    carryOut s (next (← succeeds (IO.print text))) m
  | .ask (.complain text) next, m => do
    carryOut s (next (← succeeds (IO.eprint text))) m
  | .ask action next, m => do
    let m ← fetchFor s m action
    let (answer, after) := m.answer s action
    storeChanges m.tree after.tree
    carryOut s (next answer) after

/-- The variables of the environment that settings can be given by. -/
def readEnvironment : IO (List (String × String)) :=
  (Setting.all.filterMap Setting.environmentName?).filterMapM fun name => do
    return (← IO.getEnv name).map (name, ·)

/-- The surroundings of a run. -/
def surroundings : IO Surroundings := do
  let temporary := ⟨(← IO.getEnv "TMPDIR").getD "/tmp"⟩
  let temporarySuffix := toString (← IO.rand 100000 999999)
  return { programs := Shell.programs, temporary, temporarySuffix }

end Bindery.Disk

open Bindery Disk in
/-- The program. -/
def main (arguments : List String) : IO UInt32 := do
  let environment ← readEnvironment
  let cwd : Path := ⟨(← IO.currentDir).toString⟩
  let tree ← fetchAlong {} [] cwd.segments
  let job := runProgram arguments fun name => environment.lookup name
  let status ← carryOut (← surroundings) job { tree, cwd := cwd.segments }
  return status.toUInt32
