/-!
# Errors of the machine

An `OsError` says why the machine could not do what it was asked; `OsError.message` words it,
with the number that the system gives the error.
-/

namespace Bindery

/-- Why the machine refused. -/
inductive OsError where
  | notFound
  | permissionDenied
  | resourceBusy
  | fileExists
  | crossesDevice
  | notADirectory
  | isADirectory
  | invalidArgument
  | nameTooLong
  | notEmpty
  | notExecutable
  | argumentListTooLong
  /-- The name of a file holds a NUL. -/
  | nulInName
  /-- A program or an argument holds a NUL. -/
  | nulInArgument
  /-- The file to copy is no regular file. -/
  | notRegular
deriving DecidableEq, Repr

/-- The wording of an error. -/
def OsError.message : OsError → String
  | notFound => "No such file or directory (os error 2)"
  | permissionDenied => "Permission denied (os error 13)"
  | resourceBusy => "Device or resource busy (os error 16)"
  | fileExists => "File exists (os error 17)"
  | crossesDevice => "Invalid cross-device link (os error 18)"
  | notADirectory => "Not a directory (os error 20)"
  | isADirectory => "Is a directory (os error 21)"
  | invalidArgument => "Invalid argument (os error 22)"
  | nameTooLong => "File name too long (os error 36)"
  | notEmpty => "Directory not empty (os error 39)"
  | notExecutable => "Exec format error (os error 8)"
  | argumentListTooLong => "Argument list too long (os error 7)"
  | nulInName => "file name contained an unexpected NUL byte"
  | nulInArgument => "nul byte found in provided data"
  | notRegular => "the source path is neither a regular file nor a symlink to a regular file"

end Bindery
