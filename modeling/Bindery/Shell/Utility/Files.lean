import Bindery.Shell.Utility.Basic

/-!
# Utilities on files

Utilities that make, remove, copy, move and list files and directories.
-/

namespace Bindery.Shell.Utility

/-! ### Making and removing -/

/-- The names among arguments, of which some options take the next argument for themselves. -/
def namesAfter (taking : List Char) : List (List Char) → List (List Char)
  | ['-', letter] :: value :: rest =>
    if taking.contains letter then namesAfter taking rest else namesAfter taking (value :: rest)
  | rest => (Call.options rest).2

/-- Creates files that are missing. -/
def touch : Utility := fun c =>
  let (letters, _) := Call.options c.arguments
  let names := namesAfter ['d', 'r', 't'] c.arguments
  c.forEach "touch" names fun tree name =>
    if tree.exists? c.cwd (pathOf name) || letters.contains 'c' || name = nullFile then .ok tree
    else match tree.openFile c.cwd (pathOf name) false newFileMode with
      | .ok (_, tree) => .ok tree
      | .error cause => .error ("cannot touch '" ++ stringOf name ++ "': " ++ reason cause)

/-- Makes directories. -/
def mkdir : Utility := fun c =>
  let (letters, names) := Call.options c.arguments
  c.forEach "mkdir" names fun tree name =>
    let made := if letters.contains 'p' then
        match tree.makeDirs c.cwd (pathOf name) with
        | (.ok (), tree) => .ok tree
        | (.error cause, _) => .error cause
      else tree.makeDir c.cwd (pathOf name)
    match made with
    | .ok tree => .ok tree
    | .error cause =>
      .error ("cannot create directory '" ++ stringOf name ++ "': " ++ reason cause)

/-- Removes files, and directories on demand. -/
def rm : Utility := fun c =>
  let (letters, names) := Call.options c.arguments
  let deep := letters.contains 'r' || letters.contains 'R'
  c.forEach "rm" names fun tree name =>
    let removed := if deep then tree.removeAll c.cwd (pathOf name)
      else tree.remove c.cwd (pathOf name)
    match removed with
    | .ok tree => .ok tree
    | .error cause =>
      if letters.contains 'f' && (cause = .notFound || cause = .notADirectory) then .ok tree
      else .error ("cannot remove '" ++ stringOf name ++ "': " ++ reason cause)

/-- Removes empty directories. -/
def rmdir : Utility := fun c =>
  let (_, names) := Call.options c.arguments
  c.forEach "rmdir" names fun tree name =>
    let failed (cause : OsError) : Except String Tree :=
      .error ("failed to remove '" ++ stringOf name ++ "': " ++ reason cause)
    match tree.node c.cwd (pathOf name) with
    | .error cause => failed cause
    | .ok (_, .file ..) => failed .notADirectory
    | .ok (l, .dir _) =>
      if (tree.below l).isEmpty then .ok (tree.erase l) else failed .notEmpty

/-! ### Permissions -/

/-- The permission bits of letters. -/
def permissionBits (letters : List Char) : Nat :=
  letters.foldl (fun bits letter =>
    match letter with
    | 'r' => bits ||| 0o444
    | 'w' => bits ||| 0o222
    | 'x' => bits ||| 0o111
    | _ => bits) 0

/-- The permission bits of classes of users. -/
def classBits (classes : List Char) : Nat :=
  if classes.isEmpty || classes.contains 'a' then 0o777
  else classes.foldl (fun bits letter =>
    match letter with
    | 'u' => bits ||| 0o700
    | 'g' => bits ||| 0o070
    | 'o' => bits ||| 0o007
    | _ => bits) 0

/-- The permission bits after a change in octal digits or in letters. -/
def changedMode (old : Nat) (change : List Char) : Nat :=
  if change.all Char.isDigit then change.foldl (fun n d => 8 * n + (d.toNat - 48)) 0
  else
    let classes := change.takeWhile Char.isAlpha
    let mask := classBits classes
    match change.drop classes.length with
    | '+' :: letters => old ||| (permissionBits letters &&& mask)
    | '-' :: letters => old &&& (0o7777 ^^^ (permissionBits letters &&& mask))
    | '=' :: letters => (old &&& (0o7777 ^^^ mask)) ||| (permissionBits letters &&& mask)
    | _ => old

/-- Changes permissions. -/
def chmod : Utility := fun c =>
  match c.arguments with
  | [] => c.complain "chmod: missing operand" 1
  | change :: names =>
    c.forEach "chmod" names fun tree name =>
      match tree.node c.cwd (pathOf name) with
      | .error cause => .error ("cannot access '" ++ stringOf name ++ "': " ++ reason cause)
      | .ok (l, .dir mode) => .ok (tree.set l (.dir (changedMode mode change)))
      | .ok (l, .file serial mode bytes) =>
        .ok (tree.set l (.file serial (changedMode mode change) bytes))

/-! ### Copying and moving -/

/-- Where a file goes: into a directory under its own name, or to a name. -/
def targetOf (c : Call) (tree : Tree) (source target : List Char) : Path :=
  if tree.isDir c.cwd (pathOf target) then
    (pathOf target).join ((pathOf source).fileName?.getD "")
  else pathOf target

/-- Copies a directory with everything in it. -/
def copyTree (c : Call) (tree : Tree) (source target : Path) : Except OsError Tree :=
  match tree.node c.cwd source with
  | .error cause => .error cause
  | .ok (_, .file ..) => tree.copy c.cwd source target
  | .ok (l, .dir _) =>
    match tree.ensureDir c.cwd target with
    | .error cause => .error cause
    | .ok copied =>
      let entries := (tree.below l).mergeSort fun p q => p.1.length ≤ q.1.length
      entries.foldlM (fun (copied : Tree) (k, n) =>
        let name := "/".intercalate (k.drop l.length)
        match n with
        | .dir _ => copied.ensureDir c.cwd (target.join name)
        | .file .. => copied.copy c.cwd (source.join name) (target.join name)) copied

/-- Does something for every argument but the last, with the last as its target. -/
def toTarget (c : Call) (name : String) (act : Tree → List Char → Path → Except String Tree) :
    Effect :=
  let (_, names) := Call.options c.arguments
  match names.getLast? with
  | none => c.complain (name ++ ": missing file operand") 1
  | some target =>
    if names.length < 2 then
      c.complain (name ++ ": missing destination file operand after '" ++ stringOf target ++ "'") 1
    else
      c.forEach name names.dropLast fun tree source =>
        if tree.exists? c.cwd (pathOf source) then
          act tree source (targetOf c tree source target)
        else .error ("cannot stat '" ++ stringOf source ++ "': " ++ reason .notFound)

/-- Copies files. -/
def cp : Utility := fun c =>
  let (letters, _) := Call.options c.arguments
  let deep := letters.contains 'r' || letters.contains 'R' || letters.contains 'a'
  toTarget c "cp" fun tree source target =>
    if tree.isDir c.cwd (pathOf source) && !deep then
      .error ("-r not specified; omitting directory '" ++ stringOf source ++ "'")
    else match copyTree c tree (pathOf source) target with
      | .ok tree => .ok tree
      | .error cause =>
        .error ("cannot create regular file '" ++ target.text ++ "': " ++ reason cause)

/-- Moves files. -/
def mv : Utility := fun c =>
  toTarget c "mv" fun tree source target =>
    match tree.rename c.cwd (pathOf source) target with
    | .ok tree => .ok tree
    | .error cause =>
      .error ("cannot move '" ++ stringOf source ++ "' to '" ++ target.text ++ "': "
        ++ reason cause)

/-! ### Listing -/

/-- The names in a directory that are shown. -/
def shownNames (c : Call) (l : Location) (letters : List Char) : List String :=
  let names := c.tree.namesIn l
  if letters.contains 'a' then [".", ".."] ++ names
  else if letters.contains 'A' then names
  else names.filter fun name => name.toList.head? != some '.'

/-- Lists directories. -/
def ls : Utility := fun c =>
  let (letters, names) := Call.options c.arguments
  let names := if names.isEmpty then [['.']] else names
  names.foldl (fun (e : Effect) name =>
    match c.tree.node c.cwd (pathOf name) with
    | .error cause =>
      e.complain ("ls: cannot access '" ++ stringOf name ++ "': " ++ reason cause) 2
    | .ok (l, .dir _) =>
      if letters.contains 'd' then e.say (name ++ ['\n'])
      else e.say ((shownNames c l letters).flatMap fun name => ofString (name ++ "\n"))
    | .ok (_, .file ..) => e.say (name ++ ['\n'])) (c.finish 0)

end Bindery.Shell.Utility
