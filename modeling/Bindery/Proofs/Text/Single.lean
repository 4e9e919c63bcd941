import Mathlib.Data.List.DropRight
import Bindery.Text.Blank
import Bindery.Text.Lines

/-!
# Texts on one line

`IsSingleLine` says that a text holds no line feed, no carriage return and no NUL.  It holds of
a text exactly if it holds of the parts that the text is made of; joining texts and trimming
them adds no characters but those of the separator (`forall_mem_joinWith`, `trim_subset`).
-/

namespace Bindery.Text

/-- A character that may stand in a line: no line feed, no carriage return and no NUL. -/
def IsLineChar (c : Char) : Prop :=
  c ≠ '\n' ∧ c ≠ '\x0d' ∧ c ≠ '\x00'

instance (c : Char) : Decidable (IsLineChar c) :=
  inferInstanceAs (Decidable (_ ∧ _))

/-- A text on one line. -/
def IsSingleLine (cs : List Char) : Prop :=
  ∀ c ∈ cs, IsLineChar c

instance (cs : List Char) : Decidable (IsSingleLine cs) :=
  List.decidableBAll IsLineChar cs

variable {cs ds : List Char}

theorem isSingleLine_nil :
  IsSingleLine []
  := List.forall_mem_nil _

@[simp]
theorem isSingleLine_cons {c : Char} :
  IsSingleLine (c :: cs) ↔ IsLineChar c ∧ IsSingleLine cs
  := List.forall_mem_cons

@[simp]
theorem isSingleLine_append :
  IsSingleLine (cs ++ ds) ↔ IsSingleLine cs ∧ IsSingleLine ds
  := List.forall_mem_append

theorem IsSingleLine.no_feed (h : IsSingleLine cs) :
  '\n' ∉ cs
  := fun hmem => (h _ hmem).1 rfl

theorem IsSingleLine.no_return (h : IsSingleLine cs) :
  '\x0d' ∉ cs
  := fun hmem => (h _ hmem).2.1 rfl

/-- What holds of texts holds of the joined text if it is kept when two are joined. -/
theorem joinWith_induction {P : List Char → Prop} {sep : List Char} (hnil : P [])
    (hjoin : ∀ before after, P before → P after → P (before ++ sep ++ after))
    {texts : List (List Char)} (h : ∀ text ∈ texts, P text) :
  P (joinWith sep texts)
  := by
  induction texts with
  | nil => exact hnil
  | cons text texts ih =>
    obtain ⟨htext, htexts⟩ := List.forall_mem_cons.mp h
    cases texts with
    | nil =>
      rw [joinWith, List.intercalate_singleton]
      exact htext
    | cons next texts =>
      rw [joinWith, List.intercalate_cons_cons]
      exact hjoin text _ htext (ih htexts)

/-- What holds of the characters of texts and of what is between them holds of the characters of
the joined text. -/
theorem forall_mem_joinWith {P : Char → Prop} {sep : List Char} (hsep : ∀ c ∈ sep, P c)
    {texts : List (List Char)} (h : ∀ text ∈ texts, ∀ c ∈ text, P c) :
  ∀ c ∈ joinWith sep texts, P c
  := by
  refine joinWith_induction (List.forall_mem_nil P) (fun before after hbefore hafter => ?_) h
  rw [List.forall_mem_append, List.forall_mem_append]
  exact ⟨⟨hbefore, hsep⟩, hafter⟩

theorem not_mem_joinWith {c : Char} {sep : List Char} (hsep : c ∉ sep)
    {texts : List (List Char)} (h : ∀ text ∈ texts, c ∉ text) :
  c ∉ joinWith sep texts
  := by
  have hsep : ∀ d ∈ sep, d ≠ c := fun _ hd => ne_of_mem_of_not_mem hd hsep
  have htexts : ∀ text ∈ texts, ∀ d ∈ text, d ≠ c :=
    fun text htext _ hd => ne_of_mem_of_not_mem hd (h text htext)
  intro hmem
  exact forall_mem_joinWith hsep htexts c hmem rfl

/-- Texts on one line that are joined by blanks are on one line. -/
theorem isSingleLine_joinWith {texts : List (List Char)}
    (h : ∀ text ∈ texts, IsSingleLine text) :
  IsSingleLine (joinWith [' '] texts)
  := by
  have hblank : IsSingleLine [' '] := by decide
  exact forall_mem_joinWith hblank h

theorem isSingleLine_toString (n : Nat) :
  IsSingleLine (toString n).toList
  := by
  intro c hc
  rw [Nat.toString_eq_ofList_toDigits, String.toList_ofList] at hc
  have hdigit := Nat.isDigit_of_mem_toDigits (by decide) (by decide) hc
  refine ⟨?_, ?_, ?_⟩
  all_goals
    rintro rfl
    exact absurd hdigit (by decide)

theorem trimStart_subset (cs : List Char) :
  trimStart cs ⊆ cs
  := by
  have h : trimStart cs <:+ cs := List.dropWhile_suffix isBlank
  exact h.subset

theorem trimEnd_subset (cs : List Char) :
  trimEnd cs ⊆ cs
  := by
  have h : trimEnd cs <+: cs := List.rdropWhile_prefix isBlank cs
  exact h.subset

theorem trim_subset (cs : List Char) :
  trim cs ⊆ cs
  := List.Subset.trans (trimEnd_subset _) (trimStart_subset cs)

end Bindery.Text
