import Bindery.Shell.Arithmetic

/-!
# Signals

A signal is known by its number.  `Signal.of` finds the number that an argument names, and
`Signal.effect` says what a signal does to a process that has not asked for anything else.
-/

namespace Bindery.Shell.Signal

/-- The names of signals. -/
def names : List (String × Nat) := [
  ("EXIT", 0), ("HUP", 1), ("INT", 2), ("QUIT", 3), ("ILL", 4), ("TRAP", 5), ("ABRT", 6),
  ("BUS", 7), ("FPE", 8), ("KILL", 9), ("USR1", 10), ("SEGV", 11), ("USR2", 12), ("PIPE", 13),
  ("ALRM", 14), ("TERM", 15), ("CHLD", 17), ("CONT", 18), ("STOP", 19), ("TSTP", 20),
  ("TTIN", 21), ("TTOU", 22), ("URG", 23), ("WINCH", 28)]

/-- The number of the signal that a text names. -/
def of (text : List Char) : Nat :=
  let name := if "SIG".toList.isPrefixOf text then text.drop 3 else text
  if !name.isEmpty && name.all Char.isDigit then (Arithmetic.valueOf name).toNat
  else (names.lookup (String.ofList (name.map Char.toUpper))).getD 15

/-- What a signal does by itself. -/
inductive Effect where
  | nothing
  /-- The process stops and does not go on. -/
  | stops
  | ends
deriving DecidableEq, Repr

/-- What a signal does to a process that has not asked for anything else. -/
def effect (signal : Nat) : Effect :=
  if [0, 17, 18, 23, 28].contains signal then .nothing
  else if [19, 20, 21, 22].contains signal then .stops
  else .ends

/-- The signals that always have their own effect. -/
def isRelentless (signal : Nat) : Bool :=
  signal = 9 || signal = 19

/-- What a shell reports about a process that a signal ended. -/
def report (signal : Nat) : String :=
  match signal with
  | 1 => "Hangup\n"
  | 2 => ""
  | 3 => "Quit\n"
  | 6 => "Aborted\n"
  | 9 => "Killed\n"
  | 10 => "User defined signal 1\n"
  | 11 => "Segmentation fault\n"
  | 12 => "User defined signal 2\n"
  | 13 => ""
  | 14 => "Alarm clock\n"
  | 15 => "Terminated\n"
  | _ => "Signal " ++ toString signal ++ "\n"

end Bindery.Shell.Signal
