import Bindery.Action
import Bindery.Tree

/-!
# Machines

A `Machine` is surroundings made of plain data: a file tree, a current directory, and a record
of what was announced, asked and printed.  `Machine.answer` says how it answers each action;
what programs do and which packages the caller has is given to it (`Surroundings`).
`Machine.run` carries a job out.
-/

namespace Bindery

/-- What programs do: the outcome of an invocation, made in a directory, and the tree it
leaves. -/
abbrev Programs : Type :=
  Invocation → Location → Tree → Except OsError Ending × Tree

/-- The part of the surroundings that a job does not change. -/
structure Surroundings where
  programs : Programs
  /-- The caller has a package. -/
  available : String → Bool := fun _ => true
  /-- The directory for temporary directories. -/
  temporary : Path := ⟨"/tmp"⟩
  /-- What makes the name of a temporary directory differ from all others. -/
  temporarySuffix : String := "XXXXXX"

/-- The state of the surroundings. -/
structure Machine where
  tree : Tree
  /-- The current directory. -/
  cwd : Location := []
  /-- What was announced, the latest first. -/
  events : List Event := []
  /-- The packages the caller was asked for, the latest first. -/
  consulted : List String := []
  /-- What was printed on the standard output, the latest first. -/
  printed : List String := []
  /-- What was printed on the standard error output, the latest first. -/
  complaints : List String := []
deriving DecidableEq, Repr

namespace Machine

/-- The machine with another tree, if changing the tree succeeded. -/
def changed (m : Machine) : Except OsError Tree → Except OsError Unit × Machine
  | .error e => (.error e, m)
  | .ok tree => (.ok (), { m with tree })

/-- What is known of a node. -/
def statOf (n : Node) : Stat where
  isDir := n.isDir
  isWritable := n.isWritable
  size := n.size

/-- The temporary directory that a job is given. -/
def temporaryDir (s : Surroundings) : Path :=
  s.temporary.join ("texfuse-" ++ s.temporarySuffix)

/-- The answer to an action, and the machine after it. -/
def answer (s : Surroundings) (m : Machine) : (action : Action) → action.Answer × Machine
  | .makeDirs path =>
    let (result, tree) := m.tree.makeDirs m.cwd path
    (result, { m with tree })
  | .stat path => ((m.tree.node m.cwd path).map fun (_, n) => statOf n, m)
  | .read path => (m.tree.read m.cwd path, m)
  | .write path bytes => m.changed (m.tree.write m.cwd path bytes)
  | .remove path => m.changed (m.tree.remove m.cwd path)
  | .openEnd path =>
    match m.tree.openFile m.cwd path false newFileMode with
    | .error e => (.error e, m)
    | .ok (serial, tree) => (.ok serial, { m with tree })
  | .append handle bytes => (.ok (), { m with tree := m.tree.append handle bytes })
  | .copy source target => m.changed (m.tree.copy m.cwd source target)
  | .rename source target => m.changed (m.tree.rename m.cwd source target)
  | .launch invocation =>
    let (result, tree) := s.programs invocation m.cwd m.tree
    (result, { m with tree })
  | .consult package => (s.available package, { m with consulted := package :: m.consulted })
  | .announce event => ((), { m with events := event :: m.events })
  | .print text => (true, { m with printed := text :: m.printed })
  | .complain text => (true, { m with complaints := text :: m.complaints })
  | .makeTemporary =>
    match m.tree.makeDir m.cwd (temporaryDir s) with
    | .error e => (.error e, m)
    | .ok tree => (.ok (temporaryDir s), { m with tree })
  | .removeAll path => m.changed (m.tree.removeAll m.cwd path)

/-- Carries a job out. -/
def run {α : Type} (s : Surroundings) (job : Job α) (m : Machine) : α × Machine :=
  Dialogue.run (answer s) job m

end Machine

end Bindery
