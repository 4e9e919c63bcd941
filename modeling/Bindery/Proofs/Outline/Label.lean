import Bindery.Proofs.Outline.Balance

/-!
# Labels of items

The typesetter takes a bracket behind `\item`, perhaps after blanks, for the label of the item.  So
it matters what a text begins with (`Beginning`): an outline writes a line with a label only for an
item whose text begins with a bracket (`isLabelled_itemLine`), or for a text outside of the lists
that is such a line itself (`exists_labelled_outputs_iff`).
-/

namespace Bindery.Outline

/-! ### Beginnings of texts -/

/-- What a text begins with after its blanks. -/
inductive Beginning where
  /-- There is nothing but blanks. -/
  | blank
  /-- An opening bracket. -/
  | bracket
  /-- Any other character. -/
  | other
deriving DecidableEq, Repr

/-- What two texts begin with, one after the other. -/
def Beginning.append : Beginning → Beginning → Beginning
  | blank, next => next
  | bracket, _ => bracket
  | other, _ => other

instance : Append Beginning := ⟨Beginning.append⟩

/-- A blank between words. -/
def isSpace (c : Char) : Bool :=
  c == ' ' || c == '\t'

/-- What a character is at the beginning of a text. -/
def beginningOf (c : Char) : Beginning :=
  if isSpace c then .blank else if c = '[' then .bracket else .other

/-- What a text begins with. -/
def beginning : List Char → Beginning
  | [] => .blank
  | c :: cs => beginningOf c ++ beginning cs

theorem beginning_of_other {c : Char} (hc : beginningOf c = .other) (cs : List Char) :
  beginning (c :: cs) = .other
  := by
  rw [beginning, hc]
  rfl

theorem Beginning.append_assoc (a b c : Beginning) :
  a ++ b ++ c = a ++ (b ++ c)
  := by cases a <;> rfl

theorem beginning_append (before after : List Char) :
  beginning (before ++ after) = beginning before ++ beginning after
  := by
  induction before with
  | nil => rfl
  | cons c before ih =>
    rw [List.cons_append, beginning, beginning, ih]
    exact (Beginning.append_assoc _ _ _).symm

/-- Spelling characters in another way does not change what a text begins with, if every spelling
begins as the character does. -/
theorem beginning_flatMap {f : Char → List Char} {text : List Char}
    (h : ∀ c ∈ text, beginning (f c) = beginningOf c) :
  beginning (text.flatMap f) = beginning text
  := by
  induction text with
  | nil => rfl
  | cons c text ih =>
    obtain ⟨hc, htext⟩ := List.forall_mem_cons.mp h
    rw [List.flatMap_cons, beginning_append, hc, ih htext, beginning]

theorem beginning_singleton (c : Char) :
  beginning [c] = beginningOf c
  := by
  rw [beginning]
  cases beginningOf c <;> rfl

/-! ### Labelled lines -/

/-- The typesetter finds a label behind the command of an item. -/
def IsLabelled (line : String) : Prop :=
  "\\item".toList <+: line.toList ∧ beginning (line.toList.drop 5) = .bracket

instance (line : String) : Decidable (IsLabelled line) :=
  inferInstanceAs (Decidable (_ ∧ _))

/-- An item has a label exactly if its text begins with a bracket. -/
theorem isLabelled_itemLine (text : String) :
  IsLabelled (itemLine text) ↔ beginning text.toList = .bracket
  := by
  have hline : (itemLine text).toList = "\\item".toList ++ ' ' :: text.toList := by
    rw [itemLine, String.toList_append]
    rfl
  have hrest : beginning (("\\item".toList ++ ' ' :: text.toList).drop 5)
      = beginning text.toList := rfl
  rw [IsLabelled, hline, hrest]
  exact and_iff_right (List.prefix_append _ _)

theorem not_isLabelled_marker {line : String} (h : line = openMarker ∨ line = closeMarker) :
  ¬ IsLabelled line
  := by rcases h with rfl | rfl <;> decide

namespace Step

/-- The line with the text of a step has a label. -/
def IsLabelled (s : Step) : Prop :=
  ∃ line ∈ s.line?, Outline.IsLabelled line

theorem isLabelled_iff {s : Step} {line : String} (h : s.line? = some line) :
  s.IsLabelled ↔ Outline.IsLabelled line
  := by
  rw [IsLabelled, h]
  simp

theorem isLabelled_item_iff (level : Nat) (text : String) :
  (item level text).IsLabelled ↔ beginning text.toList = .bracket
  := (isLabelled_iff rfl).trans (isLabelled_itemLine text)

theorem isLabelled_plain_iff (text : String) :
  (plain text).IsLabelled ↔ Outline.IsLabelled text
  := isLabelled_iff rfl

theorem not_isLabelled_finish :
  ¬ finish.IsLabelled
  := by
  rintro ⟨line, hline, -⟩
  cases hline

end Step

variable {o : Outline}

theorem exists_labelled_perform_iff (h : o.maxDepth ≤ 2 ^ 63) (s : Step) :
  (∃ line ∈ (o.perform s).1, IsLabelled line) ↔ s.IsLabelled
  := by
  rw [perform_eq h]
  constructor
  · rintro ⟨line, hline, hlabelled⟩
    rw [List.mem_append, List.mem_append] at hline
    rcases hline with (hline | hline) | hline
    · exact absurd hlabelled (not_isLabelled_marker (Or.inl (List.eq_of_mem_replicate hline)))
    · exact absurd hlabelled (not_isLabelled_marker (Or.inr (List.eq_of_mem_replicate hline)))
    · exact ⟨line, Option.mem_toList.mp hline, hlabelled⟩
  · rintro ⟨line, hline, hlabelled⟩
    exact ⟨line, List.mem_append_right _ (Option.mem_toList.mpr hline), hlabelled⟩

/-- Only texts make labels: a line that is written in some steps has a label exactly if the line
with the text of one of them has one. -/
theorem exists_labelled_outputs_iff (h : o.maxDepth ≤ 2 ^ 63) (steps : List Step) :
  (∃ line ∈ (o.outputs steps).flatten, IsLabelled line) ↔ ∃ s ∈ steps, s.IsLabelled
  := by
  induction steps generalizing o with
  | nil => simp [outputs]
  | cons s steps ih =>
    have hrest := ih ((maxDepth_perform o s).trans_le h)
    rw [outputs, List.flatten_cons]
    simp only [List.mem_append, List.mem_cons, or_and_right, exists_or, exists_eq_left]
    rw [exists_labelled_perform_iff h, hrest]

end Bindery.Outline
