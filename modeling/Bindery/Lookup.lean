import Bindery.Action
import Bindery.Config

/-!
# Looking packages up

Whether a package is available can be left to a program that knows the installed files:
`LookupConfig.isAvailable` starts it with the name of the package's file, and success means that
the file was found.  A name that no package can have is not looked up (`isPackageName`).
-/

namespace Bindery

/-- The longest name of a package, in bytes. -/
def maxPackageName : Nat := 128

/-- The characters of package names. -/
def isPackageChar (c : Char) : Bool :=
  ('a' ≤ c && c ≤ 'z') || ('A' ≤ c && c ≤ 'Z') || ('0' ≤ c && c ≤ '9')
    || c == '-' || c == '_' || c == '.' || c == '+'

/-- A name that a package can have; it does not look like an option of a program. -/
def isPackageName (name : String) : Bool :=
  !name.isEmpty && name.utf8ByteSize ≤ maxPackageName && name.toList.all isPackageChar
    && name.toList.head? != some '-'

namespace LookupConfig

/-- The call that looks a package up. -/
def invocation (c : LookupConfig) (name : String) : Invocation where
  program := c.program
  arguments := [name ++ c.suffix]

/-- Looks a package up. -/
def isAvailable (c : LookupConfig) (name : String) : Job Bool := do
  if isPackageName name then
    match ← act (.launch (c.invocation name)) with
    | .ok (.exited code) => return code = 0
    | _ => return false
  else return false

end LookupConfig

end Bindery
