import Mathlib.Data.List.DropRight
import Mathlib.Data.List.Nodup
import Mathlib.Data.Option.Basic
import Bindery.Document

/-!
# What a preamble line requests

`Kept line` says of a line without white space around it that it is not to be discarded, and
`LineClass.of_eq_discarded_iff`, `of_eq_request_iff` and `of_eq_other_iff` read the class of a
line off its trimmed text.  `requested line` lists the packages that a line requests, and
`overlaps` compares two lines by them.  No package is requested twice by the fixed
declarations (`fixedPreamble_apart`).
-/

namespace Bindery

/-- Trimmed text does not begin with white space. -/
theorem Text.trimStart_trim (cs : List Char) :
  trimStart (trim cs) = trim cs
  := by
  have hstart := List.head?_dropWhile_not isBlank cs
  have hprefix : trim cs <+: cs.dropWhile isBlank := List.rdropWhile_prefix isBlank _
  cases ht : trim cs with
  | nil => rfl
  | cons c t =>
    obtain ⟨rest, hrest⟩ := hprefix
    rw [← hrest, ht] at hstart
    have hc : isBlank c = false := by simpa using hstart
    rw [trimStart, List.dropWhile_cons_of_neg (by simp [hc])]

/-! ### Line classes -/

/-- The line, which has no white space around it, is not blank, no comment, no document class
and no boundary marker. -/
structure Kept (line : List Char) : Prop where
  not_blank : line ≠ []
  not_comment : line.head? ≠ some '%'
  not_documentClass : ¬ documentClass.toList <+: line
  not_beginDocument : ¬ beginDocument.toList <+: line
  not_endDocument : ¬ endDocument.toList <+: line

theorem isBoundary_trim {cs : List Char} :
  isBoundary (Text.trim cs) = true
    ↔ beginDocument.toList <+: Text.trim cs ∨ endDocument.toList <+: Text.trim cs
  := by
  rw [isBoundary, opensDocument, closesDocument, Text.trimStart_trim]
  simp

/-- The test by which a line is discarded. -/
theorem not_kept_trim_iff {cs : List Char} :
  ¬ Kept (Text.trim cs) ↔
    (Text.trim cs).isEmpty || (Text.trim cs).head? == some '%'
      || documentClass.toList.isPrefixOf (Text.trim cs) || isBoundary (Text.trim cs)
  := by
  simp only [Bool.or_eq_true, List.isEmpty_iff, beq_iff_eq, List.isPrefixOf_iff_prefix,
    isBoundary_trim]
  constructor
  · intro h
    by_contra hn
    simp only [not_or] at hn
    obtain ⟨⟨⟨hblank, hcomment⟩, hclass⟩, hbegin, hend⟩ := hn
    exact h ⟨hblank, hcomment, hclass, hbegin, hend⟩
  · rintro h ⟨hblank, hcomment, hclass, hbegin, hend⟩
    simp [hblank, hcomment, hclass, hbegin, hend] at h

/-- A line that begins with the request of packages is kept. -/
theorem kept_of_usePackage {line : List Char} (h : usePackage.toList <+: line) :
  Kept line
  := by
  obtain ⟨rest, rfl⟩ := h
  constructor <;> simp [usePackage, documentClass, beginDocument, endDocument]

theorem usePackage_of_packageName? {line : List Char} {name : String}
    (h : packageName? line = some name) :
  usePackage.toList <+: line
  := by
  rw [← List.isPrefixOf_iff_prefix]
  by_contra hline
  simp [packageName?, braceArgument?, hline] at h

theorem LineClass.of_eq_discarded_iff {line : String} :
  LineClass.of line = .discarded ↔ ¬ Kept (Text.trim line.toList)
  := by
  rw [not_kept_trim_iff, LineClass.of, LineClass.ofTrimmed]
  split
  · next h => simp only [h]
  · next h =>
    rw [iff_false_right h]
    split
    · split <;> simp
    · simp

/-- A line is a request of packages exactly if a name can be read from it. -/
theorem LineClass.of_eq_request_iff {line name : String} :
  LineClass.of line = .request name ↔ packageName? (Text.trim line.toList) = some name
  := by
  constructor
  · intro h
    rw [LineClass.of, LineClass.ofTrimmed] at h
    split at h
    · cases h
    · split at h
      · split at h
        · next hname => rw [hname]; cases h; rfl
        · cases h
      · cases h
  · intro h
    have huse := usePackage_of_packageName? h
    have hkept := not_kept_trim_iff.not.mp (not_not.mpr (kept_of_usePackage huse))
    rw [LineClass.of, LineClass.ofTrimmed, if_neg hkept,
      if_pos (List.isPrefixOf_iff_prefix.mpr huse), h]

theorem LineClass.of_eq_other_iff {line : String} :
  LineClass.of line = .other ↔
    Kept (Text.trim line.toList) ∧ ¬ usePackage.toList <+: Text.trim line.toList
  := by
  rw [← not_not (a := Kept _), not_kept_trim_iff, ← List.isPrefixOf_iff_prefix, LineClass.of,
    LineClass.ofTrimmed]
  split
  · next h => simp [h]
  · next h =>
    rw [and_iff_right h]
    split
    · next huse => split <;> simp [huse]
    · next huse => simp [huse]

/-! ### Requested packages -/

/-- The packages that a preamble line requests. -/
def requested (line : String) : List String :=
  (packageName? (Text.trim line.toList)).elim [] packages

theorem requested_of_request {line name : String} (h : LineClass.of line = .request name) :
  requested line = packages name
  := by
  rw [requested, LineClass.of_eq_request_iff.mp h]
  rfl

/-- Only a line whose name can be read requests anything. -/
theorem requested_eq_nil {line : String} (h : ∀ name, LineClass.of line ≠ .request name) :
  requested line = []
  := by
  cases hname : packageName? (Text.trim line.toList) with
  | none => rw [requested, hname]; rfl
  | some name => exact absurd (LineClass.of_eq_request_iff.mpr hname) (h name)

/-- Some package is requested by both lines. -/
def overlaps (a b : String) : Bool :=
  (requested a).any fun package => (requested b).contains package

theorem overlaps_eq_false_iff {a b : String} :
  overlaps a b = false ↔ (requested a).Disjoint (requested b)
  := by
  simp [overlaps, List.Disjoint]

/-! ### The fixed declarations -/

theorem trim_of_mem_fixedPreamble :
  ∀ line ∈ fixedPreamble, Text.trim line.toList = line.toList
  := by
  decide +kernel

theorem fixedPreamble_nodup :
  fixedPreamble.Nodup
  := by
  decide +kernel

theorem fixedPreamble_apart :
  fixedPreamble.Pairwise fun a b => (requested a).Disjoint (requested b)
  := by
  have h : (fixedPreamble.flatMap requested).Nodup := by decide +kernel
  exact (List.nodup_flatMap.mp h).2

end Bindery
