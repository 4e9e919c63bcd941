import Bindery.Extraction
import Bindery.Proofs.Deck.Render
import Bindery.Proofs.Merge.Content
import Bindery.Proofs.Notebook.Lines
import Bindery.Proofs.Source

/-!
# What is extracted from slide decks and notebooks

Whatever a slide deck or a notebook holds, the lines that are extracted from it are single
lines (`SourceKind.split_extract`), if it is kept under the name that its kind and number give it.
-/

namespace Bindery

open Text (IsSingleLine)

/-- Every line of the fragment is a single line. -/
def Fragment.IsSplit (f : Fragment) : Prop :=
  ∀ line ∈ f.allLines, IsSingleLine line.toList

/-- If something is extracted, every line of it is a single line. -/
def Split (result : Except SourceError Extracted) : Prop :=
  ∀ x, result = .ok x → x.fragment.IsSplit

theorem split_error (e : SourceError) :
  Split (.error e)
  := by
  intro x hx
  cases hx

namespace Deck

theorem isSplit_fragment? {origin : String} {bytes : Bytes} {f : Fragment}
    (h : fragment? origin bytes = .ok f) :
  f.IsSplit
  := by
  unfold fragment? at h
  split at h
  · cases h
  · next slides _ =>
    injection h with h
    rw [← h]
    exact isSingleLine_render slides

theorem split_extract (path : Path) :
  (extract path).Always Split
  := by
  apply Dialogue.always_bind.mpr
  apply Dialogue.always_of_forall
  rintro (cause | bytes)
  · cases cause <;> exact split_error _
  · dsimp only
    cases hf : fragment? path.nameForReports bytes with
    | error e => exact split_error e
    | ok f =>
      rintro _ ⟨⟩
      exact isSplit_fragment? hf

end Deck

namespace Notebook

theorem isSingleLine_preamble :
  ∀ line ∈ preamble, IsSingleLine line.toList
  := by
  decide

theorem split_extract {path : Path}
    (hstem : IsSingleLine (path.fileStem?.getD "notebook").toList) (assets : Path) :
  (extract path assets).Always Split
  := by
  apply Dialogue.always_bind.mpr
  apply Dialogue.always_of_forall
  rintro (e | bytes)
  · exact split_error e
  · dsimp only
    cases ofBytes? bytes with
    | none => exact split_error _
    | some notebook =>
      apply Dialogue.always_bind.mpr
      apply ((isSplit_render hstem notebook).interpret _).mono
      rintro piece hpiece _ ⟨⟩
      exact List.forall_mem_append.mpr ⟨isSingleLine_preamble, hpiece⟩

end Notebook

namespace SourceKind

theorem isLineChar_of_isNameChar {c : Char} (h : IsNameChar c) :
  Text.IsLineChar c
  := by
  refine ⟨?_, ?_, ?_⟩
  all_goals
    rintro rfl
    exact absurd h (by decide)

/-- Whatever is extracted from a slide deck or a notebook that is kept in a directory, every line
of it is a single line. -/
theorem split_extract {kind : SourceKind} (hkind : kind ≠ latex) (root assets : Path)
    (index : Nat) :
  (kind.extract (root.join (kind.fileName index)) assets).Always Split
  := by
  cases kind with
  | latex => exact absurd rfl hkind
  | slides => exact Deck.split_extract _
  | notebook =>
    apply Notebook.split_extract
    intro c hc
    exact isLineChar_of_isNameChar (mem_fileStem_join notebook index root _ c hc)

end SourceKind

end Bindery
