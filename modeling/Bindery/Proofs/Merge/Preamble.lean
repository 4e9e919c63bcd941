import Mathlib.Data.List.Find
import Bindery.Merge
import Bindery.Proofs.Dialogue
import Bindery.Proofs.Merge.Requested

/-!
# The merged preamble

A document is `WellFormed` if its preamble starts with the fixed declarations, no line occurs
in it twice, no package is requested by two of its lines, and each directive says of itself
what its text says (`Directive.Consistent`).  Taking in a line, and so merging, keeps this,
whatever the answers about packages are.
-/

namespace Bindery

/-! ### Directives -/

/-- The directive says of itself what its text says. -/
structure Directive.Consistent (x : Directive) : Prop where
  kept : Kept (Text.trim x.text.toList)
  kind_iff : x.kind = .capability ↔ usePackage.toList <+: Text.trim x.text.toList
  capability_of_request :
    x.kind = .capability → ∃ name, x.capability = some name
      ∧ packageName? (Text.trim x.text.toList) = some name
  capability_of_other : x.kind = .other → x.capability = none

namespace Directive

@[simp]
theorem text_request (name text : String) :
  (request name text).text = text
  := rfl

@[simp]
theorem text_plain (text : String) :
  (plain text).text = text
  := rfl

theorem consistent_request {line name : String} (h : LineClass.of line = .request name) :
  (request name line).Consistent
  := by
  have hname := LineClass.of_eq_request_iff.mp h
  have huse := usePackage_of_packageName? hname
  constructor
  · exact kept_of_usePackage huse
  · exact iff_of_true rfl huse
  · intro _
    exact ⟨name, rfl, hname⟩
  · intro hkind
    cases hkind

theorem consistent_plain {line : String} (h : LineClass.of line = .other) :
  (plain line).Consistent
  := by
  obtain ⟨hkept, huse⟩ := LineClass.of_eq_other_iff.mp h
  constructor
  · exact hkept
  · exact iff_of_false (by simp [plain]) huse
  · intro hkind
    cases hkind
  · intro _
    rfl

/-- The packages that a consistent directive names are those that its text requests. -/
theorem Consistent.requested_text {x : Directive} (h : x.Consistent) :
  requested x.text = x.capability.elim [] packages
  := by
  cases hkind : x.kind with
  | capability =>
    obtain ⟨name, hcapability, hname⟩ := h.capability_of_request hkind
    rw [requested, hcapability, hname]
  | other =>
    have huse := mt h.kind_iff.mpr (by simp [hkind])
    rw [h.capability_of_other hkind]
    apply requested_eq_nil
    intro name hname
    exact huse (usePackage_of_packageName? (LineClass.of_eq_request_iff.mp hname))

end Directive

/-! ### Well-formed documents -/

/-- The preamble starts with the fixed declarations, declares everything once, and its
directives say of themselves what their texts say. -/
structure Document.WellFormed (d : Document) : Prop where
  fixed : d.fixed = fixedPreamble
  /-- No line occurs twice. -/
  distinct : d.preamble.Nodup
  /-- No package is requested by two lines. -/
  apart : d.preamble.Pairwise fun a b => (requested a).Disjoint (requested b)
  consistent : ∀ x ∈ d.custom, x.Consistent

namespace Document

theorem wellFormed_empty :
  empty.WellFormed
  := by
  have hpreamble : empty.preamble = fixedPreamble := List.append_nil fixedPreamble
  constructor
  · rfl
  · rw [hpreamble]
    exact fixedPreamble_nodup
  · rw [hpreamble]
    exact fixedPreamble_apart
  · intro x hx
    cases hx

@[simp]
theorem preamble_declare (d : Document) (x : Directive) :
  (d.declare x).preamble = d.preamble ++ [x.text]
  := by
  simp [preamble, declare]

/-- The first line that loads a package of a request is the first one that overlaps it. -/
theorem WellFormed.loader?_eq {d : Document} (hd : d.WellFormed) {line name : String}
    (h : LineClass.of line = .request name) :
  d.loader? name = d.preamble.find? fun other => overlaps other line
  := by
  have hline := requested_of_request h
  have hfixed : ∀ other ∈ d.fixed,
      (packageName? other.toList).any (sharesPackage · name) = overlaps other line := by
    intro other hother
    rw [hd.fixed] at hother
    rw [overlaps, requested, trim_of_mem_fixedPreamble other hother, hline]
    cases packageName? other.toList <;> rfl
  have hcustom : ∀ x ∈ d.custom,
      x.capability.any (sharesPackage · name) = overlaps x.text line := by
    intro x hx
    rw [overlaps, (hd.consistent x hx).requested_text, hline]
    cases x.capability <;> rfl
  simp only [loader?, preamble, List.find?_append, List.find?_map]
  rw [List.find?_congr hfixed, List.find?_congr hcustom]
  rfl

/-- One more directive keeps a document well formed if it is consistent, new, and apart from
all lines before. -/
theorem WellFormed.declare {d : Document} (hd : d.WellFormed) {x : Directive}
    (hx : x.Consistent) (hnew : x.text ∉ d.preamble)
    (hapart : ∀ line ∈ d.preamble, (requested line).Disjoint (requested x.text)) :
  (d.declare x).WellFormed
  := by
  constructor
  · exact hd.fixed
  · rw [preamble_declare]
    rw [← List.concat_eq_append]
    exact hd.distinct.concat hnew
  · rw [preamble_declare, List.pairwise_append]
    refine ⟨hd.apart, List.pairwise_singleton _ _, ?_⟩
    intro line hline other hother
    rw [List.mem_singleton.mp hother]
    exact hapart line hline
  · intro y hy
    rcases List.mem_append.mp hy with hy | hy
    · exact hd.consistent y hy
    · rw [List.mem_singleton.mp hy]
      exact hx

theorem WellFormed.note {d : Document} (hd : d.WellFormed) (diagnostic : Diagnostic) :
  (d.note diagnostic).WellFormed
  := ⟨hd.fixed, hd.distinct, hd.apart, hd.consistent⟩

theorem WellFormed.appendBody {d : Document} (hd : d.WellFormed) (lines : List String) :
  (d.appendBody lines).WellFormed
  := ⟨hd.fixed, hd.distinct, hd.apart, hd.consistent⟩

end Document

/-! ### Merging -/

namespace Merge

/-- However the questions about its packages are answered, taking in a line keeps a document
well formed. -/
theorem addDeclaration_wellFormed (origin : String) (d : Document) (line : String)
    (hd : d.WellFormed) :
  (addDeclaration origin d line).Always Document.WellFormed
  := by
  cases h : LineClass.of line with
  | discarded =>
    simp only [addDeclaration, h]
    exact hd
  | unparseable =>
    simp only [addDeclaration, h]
    exact hd.note _
  | other =>
    simp only [addDeclaration, h]
    split
    · exact hd
    · next hnew =>
      apply hd.declare (Directive.consistent_plain h)
      · simpa [Document.declares] using hnew
      · have hline : requested line = [] := requested_eq_nil (by simp [h])
        intro other _
        rw [Directive.text_plain, hline]
        exact List.disjoint_nil_right _
  | request name =>
    simp only [addDeclaration, h, hd.loader?_eq h]
    split
    · exact hd
    · next hnew =>
      split
      · exact hd.note _
      · next hfind =>
        apply Dialogue.always_bind.mpr
        apply Dialogue.always_of_forall
        intro available
        split
        · apply hd.declare (Directive.consistent_request h)
          · simpa [Document.declares] using hnew
          · intro other hother
            have hoverlap := List.find?_eq_none.mp hfind other hother
            exact overlaps_eq_false_iff.mp (by simpa using hoverlap)
        · exact hd.note _

theorem addFragment_wellFormed (d : Document) (f : Fragment) (hd : d.WellFormed) :
  (addFragment d f).Always Document.WellFormed
  := by
  apply Dialogue.always_bind.mpr
  apply (Dialogue.Always.foldlM (addDeclaration_wellFormed f.origin) f.preamble hd).mono
  intro d' hd'
  exact hd'.appendBody _

/-- What taking in well-formed fragments always leads to, merging them leads to if it succeeds. -/
theorem merge_always {fragments : List Fragment} {P : Document → Prop}
    (h : (∀ f ∈ fragments, f.malformed? = none) →
      (fragments.foldlM addFragment .empty).Always P) :
  (merge fragments).Always fun result => ∀ d, result = .ok d → P d
  := by
  rw [merge]
  split
  · intro d hd
    cases hd
  · next hnone =>
    rw [← bind_pure_comp]
    apply Dialogue.always_bind.mpr
    apply (h (List.findSome?_eq_none_iff.mp hnone)).mono
    rintro d hd _ ⟨⟩
    exact hd

/-- Every document that a merge can end with is well formed. -/
theorem merge_always_wellFormed (fragments : List Fragment) :
  (merge fragments).Always fun result => ∀ d, result = .ok d → d.WellFormed
  := by
  apply merge_always
  intro _
  exact Dialogue.Always.foldlM addFragment_wellFormed fragments Document.wellFormed_empty

/-- Whatever a merge is told about packages, also if it is told something else each time, a
document that it ends with has a preamble in which no line and no package is declared twice and
every directive says of itself what its text says. -/
theorem wellFormed_of_merge {σ : Type} (answer : σ → String → Bool × σ) (s : σ)
    {fragments : List Fragment} {d : Document}
    (h : ((merge fragments).run answer s).1 = .ok d) :
  d.WellFormed
  := (merge_always_wellFormed fragments).run_fst answer s d h

/-- Surroundings that have the first two packages they are asked about, and then none. -/
def firstTwo (asked : Nat) (_ : String) : Bool × Nat :=
  (asked < 2, asked + 1)

/-- Of a request with options, one of another package, a macro, a request that shares a package
with the first, and the macro again, the first and the macro are declared. -/
theorem wellFormed_of_merge_firstTwo :
  let d : Document := {
    fixed := fixedPreamble
    custom := [.request "p, q" "\\usepackage[x]\x7bp, q\x7d ", .plain "\\def\\m\x7b\x7d"]
    body := ["", ""]
    diagnostics := [.unavailable "a" "r" "\\usepackage\x7br\x7d",
      .conflict "b" "q" "\\usepackage[x]\x7bp, q\x7d " "\\usepackage\x7bq\x7d"] }
  ((merge [
      { origin := "a", preamble := ["\\usepackage[x]\x7bp, q\x7d ", "\\usepackage\x7br\x7d"] },
      { origin := "b",
        preamble := ["\\def\\m\x7b\x7d", "\\usepackage\x7bq\x7d", "\\def\\m\x7b\x7d"] }]).run
    firstTwo 0).1 = .ok d ∧ d.WellFormed
  := by
  apply (and_iff_left_of_imp (wellFormed_of_merge firstTwo 0)).mpr
  decide +kernel

end Merge

end Bindery
