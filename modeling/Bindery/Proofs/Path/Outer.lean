import Bindery.Proofs.Path
import Bindery.Proofs.Tree.Place

/-!
# Paths on the way to a place

The text of a path that is put together of the first parts of another is a part of its text
(`text_ofParts_sublist`).  So it can name something if the other one can (`isUsable_ofParts`).
-/

namespace Bindery

open scoped List

namespace Text

theorem intercalate_sublist {α : Type} (separator : List α) {xs ys : List (List α)}
    (h : xs <+ ys) :
  separator.intercalate xs <+ separator.intercalate ys
  := by
  induction h with
  | slnil => exact List.Sublist.refl _
  | @cons xs ys y h ih =>
    cases ys with
    | nil =>
      rw [List.sublist_nil.mp h]
      exact List.nil_sublist _
    | cons y' ys =>
      rw [List.intercalate_cons_cons]
      exact ih.trans (List.sublist_append_right _ _)
  | @cons_cons xs ys y h ih =>
    cases xs with
    | nil =>
      rw [List.intercalate_singleton]
      cases ys with
      | nil =>
        rw [List.intercalate_singleton]
      | cons y' ys =>
        rw [List.intercalate_cons_cons, List.append_assoc]
        exact List.sublist_append_left _ _
    | cons x xs =>
      have hne : ys ≠ [] := by
        rintro rfl
        cases h
      rw [List.intercalate_cons_of_ne_nil (List.cons_ne_nil x xs),
        List.intercalate_cons_of_ne_nil hne]
      exact (List.Sublist.refl _).append ih

theorem utf8ByteSize_le_of_sublist {s t : String} (h : s.toList <+ t.toList) :
  s.utf8ByteSize ≤ t.utf8ByteSize
  := by
  have hlists {xs ys : List Char} (h : xs <+ ys) :
      (String.ofList xs).utf8ByteSize ≤ (String.ofList ys).utf8ByteSize := by
    have hcons (c : Char) (cs : List Char) : (String.ofList (c :: cs)).utf8ByteSize
        = (String.ofList [c]).utf8ByteSize + (String.ofList cs).utf8ByteSize := by
      rw [← List.singleton_append, String.ofList_append, String.utf8ByteSize_append]
    induction h with
    | slnil => exact Nat.le_refl _
    | cons c _ ih =>
      rw [hcons]
      exact ih.trans (Nat.le_add_left _ _)
    | @cons_cons xs ys c _ ih =>
      rw [hcons c xs, hcons c ys]
      exact Nat.add_le_add_left ih _
  have hle := hlists h
  rwa [String.ofList_toList, String.ofList_toList] at hle

end Text

namespace Path

variable {p : Path} {outer : List String}

/-- The stretches of a text that begins with a slash begin with an empty one. -/
private theorem splitWhere_slash (cs : List Char) :
  Text.splitWhere (· == '/') ('/' :: cs) = [] :: Text.splitWhere (· == '/') cs
  := rfl

private theorem intercalate_splitWhere (cs : List Char) :
  ['/'].intercalate (Text.splitWhere (· == '/') cs) = cs
  := by
  rw [Text.splitWhere_eq_splitOnP]
  exact List.intercalate_splitOn '/'

private theorem map_toList_segments (p : Path) :
  p.segments.map String.toList
    = (Text.splitWhere (· == '/') p.text.toList).filter fun s => !s.isEmpty
  := by
  rw [segments, List.map_map]
  simp

/-- The first parts of a path make a text that is found in its text. -/
theorem text_ofParts_sublist (h : outer <+: p.parts) :
  (ofParts p.isAbsolute outer).text.toList <+ p.text.toList
  := by
  have houter : outer.map String.toList <+ p.segments.map String.toList :=
    (h.sublist.trans p.parts_sublist).map _
  rw [map_toList_segments] at houter
  cases habsolute : p.isAbsolute with
  | false =>
    have hall := Text.intercalate_sublist ['/'] (houter.trans List.filter_sublist)
    rw [intercalate_splitWhere] at hall
    simpa [ofParts, String.toList_intercalate] using hall
  | true =>
    obtain ⟨cs, hcs⟩ : ∃ cs, p.text.toList = '/' :: cs := by
      rw [isAbsolute, beq_iff_eq] at habsolute
      exact List.head?_eq_some_iff.mp habsolute
    rw [hcs, splitWhere_slash, List.filter_cons_of_neg (by simp)] at houter
    have hall := Text.intercalate_sublist ['/'] (houter.trans List.filter_sublist)
    rw [intercalate_splitWhere] at hall
    rw [hcs]
    simpa [ofParts, String.toList_intercalate] using hall

/-- A path that is put together of the first parts of another one can name something if that one
can. -/
theorem isUsable_ofParts (hp : p.IsUsable) (h : outer <+: p.parts) (hne : outer ≠ []) :
  (ofParts p.isAbsolute outer).IsUsable
  := by
  have hsublist := text_ofParts_sublist h
  obtain ⟨hnul, -, hshort⟩ := hp
  constructor
  · rw [List.contains_iff_mem] at hnul ⊢
    exact fun hmem => hnul (hsublist.subset hmem)
  · intro hempty
    have hparts : ∀ part ∈ outer, part.toList ≠ [] ∧ '/' ∉ part.toList := by
      intro part hpart
      exact of_mem_segments (mem_segments_of_mem_parts (h.subset hpart))
    have hsegments := segments_ofParts p.isAbsolute hparts
    rw [segments, String.isEmpty_iff.mp hempty] at hsegments
    exact hne hsegments.symm
  · intro hlong
    exact hshort (Nat.lt_of_lt_of_le hlong (Text.utf8ByteSize_le_of_sublist hsublist))

end Path

end Bindery
