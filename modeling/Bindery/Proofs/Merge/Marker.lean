import Bindery.Proofs.Merge.Content
import Bindery.Proofs.Text.Occurrences

/-!
# Markers inside a line

Merging drops the lines that begin with a marker, and no others.  So a marker stands in the text
of a merged document once for itself and once more for each time that it stands inside a line
which the document took over (`occurrences_marker_render`), and each marker stands there exactly
once only if no such line holds one (`markers_once_iff`).
-/

namespace Bindery

open Text (occurrences)

/-- The line holds a marker, wherever in it. -/
def HoldsMarker (line : List Char) : Prop :=
  beginDocument.toList <:+: line ∨ endDocument.toList <:+: line

instance (line : List Char) : Decidable (HoldsMarker line) :=
  inferInstanceAs (Decidable (_ ∨ _))

theorem not_holdsMarker_iff {line : List Char} :
  ¬ HoldsMarker line ↔ ∀ marker ∈ [beginDocument, endDocument], occurrences marker.toList line = 0
  := by
  simp only [HoldsMarker, not_or, List.forall_mem_cons, List.not_mem_nil, false_imp_iff,
    implies_true, and_true, Text.occurrences_eq_zero_iff]

/-- A marker is no part of the fixed declarations, and none of the two is part of the other. -/
theorem occurrences_marker_fixed :
  ∀ marker ∈ [beginDocument, endDocument],
    ((fixedPreamble ++ [beginDocument, endDocument]).map fun line =>
      occurrences marker.toList line.toList).sum = 1
  := by
  decide +kernel

/-- A marker stands in the text of a document once for itself, and else only inside of the lines
that come from the sources. -/
theorem Document.WellFormed.occurrences_marker_render {d : Document} (hd : d.WellFormed) :
  ∀ marker ∈ [beginDocument, endDocument], occurrences marker.toList d.render.toList
    = 1 + (d.custom.map fun x => occurrences marker.toList x.text.toList).sum
      + (d.body.map fun line => occurrences marker.toList line.toList).sum
  := by
  intro marker hmarker
  have hnonempty : marker.toList ≠ [] ∧ '\n' ∉ marker.toList := by
    revert marker
    decide
  have hfixed := occurrences_marker_fixed marker hmarker
  rw [List.map_append, List.sum_append] at hfixed
  rw [toList_render, Text.occurrences_flatMap hnonempty.1 hnonempty.2]
  simp only [allLines, preamble, hd.fixed, List.map_append, List.map_map, List.sum_append,
    List.map_cons, List.map_nil, List.sum_cons, List.sum_nil, Function.comp_def] at hfixed ⊢
  omega

namespace Merge

/-- No line of the body that a fragment adds holds a marker exactly if each line of the fragment
that holds one begins with one. -/
theorem not_holdsMarker_bodyOf_iff (f : Fragment) :
  (∀ line ∈ bodyOf f, ¬ HoldsMarker line.toList)
    ↔ ∀ line ∈ f.body, HoldsMarker line.toList → isBoundary line.toList = true
  := by
  have hempty : ¬ HoldsMarker "".toList := not_holdsMarker_iff.mpr (by decide)
  simp only [bodyOf, List.forall_mem_append, List.forall_mem_singleton, List.mem_filter,
    hempty, not_false_iff, and_true, and_imp]
  apply forall₂_congr
  intro line hline
  cases isBoundary line.toList <;> simp

/-- Whatever a merge is told about packages, each marker stands exactly once in the text that it
ends with only if no directive holds a marker and each body line that holds one begins with
one. -/
theorem markers_once_iff {σ : Type} (answer : σ → String → Bool × σ) (s : σ)
    {fragments : List Fragment} {d : Document}
    (h : ((merge fragments).run answer s).1 = .ok d) :
  (∀ marker ∈ [beginDocument, endDocument], occurrences marker.toList d.render.toList = 1)
    ↔ (∀ x ∈ d.custom, ¬ HoldsMarker x.text.toList)
      ∧ ∀ f ∈ fragments, ∀ line ∈ f.body,
        HoldsMarker line.toList → isBoundary line.toList = true
  := by
  have hd := (merge_always_wellFormed fragments).run_fst answer s d h
  have hgathered := ((merge_always_gathered fragments).run_fst answer s d h).1
  have hcount : ∀ marker ∈ [beginDocument, endDocument],
      occurrences marker.toList d.render.toList = 1
        ↔ (∀ x ∈ d.custom, occurrences marker.toList x.text.toList = 0)
          ∧ ∀ line ∈ d.body, occurrences marker.toList line.toList = 0 := by
    intro marker hmarker
    rw [hd.occurrences_marker_render marker hmarker, Nat.add_assoc, Nat.add_eq_left,
      Nat.add_eq_zero_iff, List.sum_eq_zero_iff_forall_eq_nat, List.sum_eq_zero_iff_forall_eq_nat,
      List.forall_mem_map, List.forall_mem_map]
  have hbody : (∀ f ∈ fragments, ∀ line ∈ f.body,
      HoldsMarker line.toList → isBoundary line.toList = true)
        ↔ ∀ line ∈ d.body, ¬ HoldsMarker line.toList := by
    simp only [hgathered.body, ← not_holdsMarker_bodyOf_iff, List.mem_flatMap]
    constructor
    · rintro hnone line ⟨f, hf, hline⟩
      exact hnone f hf line hline
    · intro hnone f hf line hline
      exact hnone line ⟨f, hf, hline⟩
  rw [hbody, forall₂_congr hcount]
  simp only [not_holdsMarker_iff]
  constructor
  · intro hnone
    exact ⟨fun x hx marker hmarker => (hnone marker hmarker).1 x hx,
      fun line hline marker hmarker => (hnone marker hmarker).2 line hline⟩
  · rintro ⟨hcustom, hbody⟩ marker hmarker
    exact ⟨fun x hx => hcustom x hx marker hmarker,
      fun line hline => hbody line hline marker hmarker⟩

/-- Stray markers that begin a line, behind white space or before other text, are dropped, so that
each marker stands once in the merged text. -/
theorem markers_once_iff_stray :
  let fragments : List Fragment := [
    { origin := "a", preamble := ["\\def\\m\x7b\x7d", "\\begin\x7bdocument\x7d m"],
      body := ["Hello", "  \\end\x7bdocument\x7d m"] },
    { origin := "b", body := ["World"] }]
  let d : Document := {
    fixed := fixedPreamble, custom := [.plain "\\def\\m\x7b\x7d"]
    body := ["Hello", "", "World", ""], diagnostics := [] }
  ((merge fragments).run firstTwo 0).1 = .ok d
    ∧ ∀ marker ∈ [beginDocument, endDocument], occurrences marker.toList d.render.toList = 1
  := by
  intro fragments d
  have h : ((merge fragments).run firstTwo 0).1 = .ok d := by decide +kernel
  use h
  apply (markers_once_iff firstTwo 0 h).mpr
  decide +kernel

/-- A marker at the end of a line is taken over with the line, and a reader that stops at it
misses the second source. -/
theorem end_marker_twice :
  let fragments : List Fragment := [
    { origin := "a.tex", body := ["Hello\\end\x7bdocument\x7d"] },
    { origin := "b.tex", body := ["World"] }]
  let d : Document := {
    fixed := fixedPreamble, custom := []
    body := ["Hello\\end\x7bdocument\x7d", "", "World", ""], diagnostics := [] }
  (merge fragments).runPure (fun _ => true) = .ok d
    ∧ occurrences endDocument.toList d.render.toList = 2
  := by
  intro fragments d
  have h : (merge fragments).runPure (fun _ => true) = .ok d := by decide +kernel
  have hd := (merge_always_wellFormed fragments).runPure _ d h
  use h
  rw [hd.occurrences_marker_render endDocument (by decide)]
  decide +kernel

end Merge

end Bindery
