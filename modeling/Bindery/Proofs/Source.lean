import Bindery.Source
import Bindery.Proofs.Path
import Bindery.Proofs.Text.Single

/-!
# Names of kept sources

The name under which a source is kept consists of letters, digits, underscores and full stops
(`SourceKind.mem_fileName`), so that it can be joined to the path of a directory.  Sources of
different kinds or numbers have different names (`SourceKind.fileName_inj`).
-/

namespace Bindery

namespace SourceKind

/-- A character of which the names of kept sources are made. -/
def IsNameChar (c : Char) : Prop :=
  c.isAlphanum ∨ c = '_' ∨ c = '.'

instance (c : Char) : Decidable (IsNameChar c) :=
  inferInstanceAs (Decidable (_ ∨ _))

/-- A text that is made of such characters. -/
def IsNameText (text : String) : Prop :=
  ∀ c ∈ text.toList, IsNameChar c

instance (text : String) : Decidable (IsNameText text) :=
  List.decidableBAll IsNameChar text.toList

theorem isNameChar_of_mem_toString {n : Nat} {c : Char} (h : c ∈ (toString n).toList) :
  IsNameChar c
  := by
  rw [Nat.toString_eq_ofList_toDigits, String.toList_ofList] at h
  have hdigit := Nat.isDigit_of_mem_toDigits (by decide) (by decide) h
  left
  simp [Char.isAlphanum, hdigit]

theorem mem_fileName {kind : SourceKind} {index : Nat} :
  ∀ c ∈ (kind.fileName index).toList, IsNameChar c
  := by
  have hstem : IsNameText kind.fileStem := by cases kind <;> decide
  have hextension : IsNameText kind.extension := by cases kind <;> decide
  have hunderscore : IsNameText "_" := by decide
  have hstop : IsNameText "." := by decide
  have hnumber : IsNameText (toString index) := fun c => isNameChar_of_mem_toString
  simp only [fileName, String.toList_append, List.forall_mem_append]
  exact ⟨⟨⟨⟨hstem, hunderscore⟩, hnumber⟩, hstop⟩, hextension⟩

theorem isName_fileName (kind : SourceKind) (index : Nat) :
  Path.IsName (kind.fileName index)
  := by
  have hlong : 3 ≤ (kind.fileName index).toList.length := by
    simp only [fileName, String.toList_append, List.length_append]
    cases kind <;> simp [fileStem, extension]
  apply Path.isName_of_length hlong
  intro hslash
  exact absurd (mem_fileName '/' hslash) (by decide)

/-- No two sources are kept under the same name. -/
theorem fileName_inj {kind kind' : SourceKind} {index index' : Nat}
    (h : kind.fileName index = kind'.fileName index') :
  kind = kind' ∧ index = index'
  := by
  have hhead : (kind.fileName index).toList.head? = (kind'.fileName index').toList.head? := by
    rw [h]
  have hkind : kind = kind' := by
    cases kind <;> cases kind' <;> simp [fileName, fileStem] at hhead <;> rfl
  subst hkind
  use rfl
  have htexts := congrArg String.toList h
  simp only [fileName, String.toList_append] at htexts
  have hstems := List.append_cancel_right (List.append_cancel_right htexts)
  have hnumbers := List.append_cancel_left hstems
  have hread := congrArg (fun digits => Nat.ofDigitChars 10 digits 0) hnumbers
  simpa [Nat.toString_eq_ofList_toDigits] using hread

end SourceKind

namespace Path

theorem stemOf_subset (name : String) :
  (stemOf name).toList ⊆ name.toList
  := by
  unfold stemOf
  dsimp only
  split
  · exact List.Subset.refl _
  · intro c hc
    rw [String.toList_ofList, List.mem_reverse] at hc
    have hc := (List.dropWhile_suffix _).subset (List.mem_of_mem_drop hc)
    exact List.mem_reverse.mp hc

end Path

/-- The stem of a kept source consists of characters of its name. -/
theorem SourceKind.mem_fileStem_join (kind : SourceKind) (index : Nat) (root : Path)
    (default : String) :
  ∀ c ∈ ((root.join (kind.fileName index)).fileStem?.getD default).toList, IsNameChar c
  := by
  intro c hc
  rw [Path.fileStem?, Path.fileName?_join root (kind.isName_fileName index)] at hc
  exact mem_fileName c (Path.stemOf_subset _ hc)

end Bindery
