import Bindery.Proofs.Text.Search

/-!
# The excerpt of the log

What the log got during the last pass is read from it as text (`logSince`), and that text is
searched for the sign of a missing file.  The log holds whatever the compiler printed, and it may
have become shorter since the offset was taken.  `logSince?` cuts it with a check that the place
is in it: the check never fails (`logSince?_eq`), for the cut is made at the end of the log if the
offset lies beyond.  And the search is exact (`run_logSince_occurs_iff`): for any bytes, cut
anywhere, the sign is found in the text exactly if its own bytes occur after the cut.
-/

namespace Bindery.Compile

/-! ### Cutting the log -/

/-- The bytes from a place on, if the place is not beyond the end. -/
def bytesFrom? (bytes : Bytes) (start : Nat) : Option Bytes :=
  if start ≤ bytes.length then some (bytes.drop start) else none

/-- The text that the log holds from an offset on, or from its end if that comes first, with a
check that the place of the cut is in the log. -/
def logSince? (log : Path) (offset : Nat) : Job (Option (List Char)) := do
  let bytes := (← act (.read log)).toOption.getD []
  return (bytesFrom? bytes (min offset bytes.length)).map Text.decodeLossy

theorem bytesFrom?_min (bytes : Bytes) (offset : Nat) :
  bytesFrom? bytes (min offset bytes.length) = some (bytes.drop offset)
  := by
  rw [bytesFrom?, if_pos (Nat.min_le_right offset bytes.length), ← List.drop_eq_drop_min]

/-- The check never fails. -/
theorem logSince?_eq (log : Path) (offset : Nat) :
  logSince? log offset = (logSince log offset).bind fun text => .done (some text)
  := by
  unfold logSince? logSince
  simp only [Dialogue.bind_eq, Dialogue.pure_eq, bytesFrom?_min, Option.map_some]
  rw [Dialogue.bind_assoc]
  congr
  funext content
  cases content with
  | error cause =>
    rw [Except.toOption, Option.getD_none, List.drop_nil]
    rfl
  | ok bytes => rfl

/-! ### Searching the excerpt -/

/-- The sign of a missing file occurs in the text of some bytes if it occurs among them. -/
theorem occurs_missingFileSign_iff (bs : Bytes) :
  occurs missingFileSign.toList (Text.decodeLossy bs) = true
    ↔ Text.utf8 missingFileSign.toList <:+: bs
  := by
  have hplain : (missingFileSign.toList.all fun c => decide (Text.IsPlain c)) = true := by decide
  rw [occurs_iff]
  apply Text.infix_decodeLossy_iff
  · intro c hc
    exact of_decide_eq_true (List.all_eq_true.mp hplain c hc)
  · decide +kernel

section Run

variable {σ : Type} (answer : σ → (a : Action) → a.Answer × σ) (w : σ) (log : Path)

/-- The bytes that the log is answered to hold; a log that cannot be read holds none. -/
def contentOf : Bytes :=
  (Except.toOption (answer w (.read log)).1).getD []

theorem run_logSince_eq (offset : Nat) :
  (logSince log offset).run answer w
    = (Text.decodeLossy ((contentOf answer w log).drop offset), (answer w (.read log)).2)
  := by
  unfold logSince contentOf
  have hread : (act (.read log)).run answer w = answer w (.read log) := rfl
  rw [Dialogue.bind_eq, Dialogue.run_bind, hread]
  cases (answer w (.read log)).1 with
  | error cause =>
    rw [Except.toOption, Option.getD_none, List.drop_nil]
    rfl
  | ok bytes => rfl

/-- Whatever the log holds and wherever the excerpt begins, there is a text of it, and the sign
of a missing file is found in that text exactly if its bytes occur in the log from the offset on,
or from the end of the log on if that comes first. -/
theorem run_logSince_occurs_iff (offset : Nat) :
  ∃ text,
    (logSince? log offset).run answer w = (some text, (answer w (.read log)).2)
    ∧ (logSince log offset).run answer w = (text, (answer w (.read log)).2)
    ∧ text = Text.decodeLossy
        ((contentOf answer w log).drop (min offset (contentOf answer w log).length))
    ∧ (occurs missingFileSign.toList text = true
      ↔ Text.utf8 missingFileSign.toList
        <:+: (contentOf answer w log).drop (min offset (contentOf answer w log).length))
  := by
  rw [← List.drop_eq_drop_min]
  use Text.decodeLossy ((contentOf answer w log).drop offset)
  refine ⟨?_, run_logSince_eq answer w log offset, rfl, occurs_missingFileSign_iff _⟩
  rw [logSince?_eq, Dialogue.run_bind, run_logSince_eq]
  rfl

end Run

end Bindery.Compile
