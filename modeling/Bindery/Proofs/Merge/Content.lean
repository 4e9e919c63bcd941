import Bindery.Proofs.Merge.Preamble
import Bindery.Proofs.Text.Single

/-!
# What merging takes over

A fragment is well formed if each of its lines is a single line (`Fragment.malformed?_eq_none_iff`).
A merged document is `Gathered` from its fragments: all of them are well formed, its body is made
of their bodies, and the text of each of its directives is one of their declaration lines.  So
every line of a merged document is a single line (`Gathered.isSingleLine`).
-/

namespace Bindery

open Text (IsSingleLine)

/-! ### Well-formed fragments -/

theorem LineFault.of?_eq_none_iff {line : List Char} :
  LineFault.of? line = none ↔ IsSingleLine line
  := by
  unfold LineFault.of?
  constructor
  · intro h c hc
    split at h
    · cases h
    rename_i hbreak
    split at h
    · cases h
    rename_i hnul
    refine ⟨?_, ?_, ?_⟩
    · rintro rfl
      simp [hc] at hbreak
    · rintro rfl
      simp [hc] at hbreak
    · rintro rfl
      simp [hc] at hnul
  · intro h
    have hfeed := h.no_feed
    have hreturn := h.no_return
    have hnul : '\x00' ∉ line := fun hmem => (h _ hmem).2.2 rfl
    simp [hfeed, hreturn, hnul]

theorem firstFault?_eq_none_iff {first : Nat} {lines : List String} :
  firstFault? first lines = none ↔ ∀ line ∈ lines, IsSingleLine line.toList
  := by
  induction lines generalizing first with
  | nil => simp [firstFault?]
  | cons line lines ih =>
    rw [firstFault?, List.forall_mem_cons, ← LineFault.of?_eq_none_iff]
    cases LineFault.of? line.toList with
    | none => simp [ih]
    | some fault => simp

/-- A fragment is well formed exactly if each of its lines is a single line. -/
theorem Fragment.malformed?_eq_none_iff {f : Fragment} :
  f.malformed? = none ↔ ∀ line ∈ f.allLines, IsSingleLine line.toList
  := by
  rw [malformed?, Option.map_eq_none_iff, firstFault?_eq_none_iff]

/-- The text of a document is made of its lines, each with a line feed. -/
theorem Document.toList_render (d : Document) :
  d.render.toList = (d.allLines.map String.toList).flatMap (· ++ ['\n'])
  := by
  rw [render, String.toList_join, List.flatMap_map, List.flatMap_map]
  apply List.flatMap_congr
  intro line _
  exact String.toList_append

namespace Merge

/-! ### Merged documents -/

/-- What a document holds comes from the fragments. -/
structure Gathered (fragments : List Fragment) (d : Document) : Prop where
  body : d.body = fragments.flatMap bodyOf
  custom : ∀ x ∈ d.custom, ∃ f ∈ fragments, x.text ∈ f.preamble

/-- The document `d'` is `d` with more directives, each the text of one of the lines. -/
structure Extends (d : Document) (lines : List String) (d' : Document) : Prop where
  body : d'.body = d.body
  custom : ∀ x ∈ d'.custom, x ∈ d.custom ∨ x.text ∈ lines

theorem Extends.refl (d : Document) (lines : List String) :
  Extends d lines d
  := ⟨rfl, fun _ hx => Or.inl hx⟩

theorem Extends.trans {d d' d'' : Document} {lines others : List String}
    (h : Extends d lines d') (h' : Extends d' others d'') :
  Extends d (lines ++ others) d''
  := by
  use h'.body.trans h.body
  intro x hx
  rcases h'.custom x hx with hx | hx
  · apply (h.custom x hx).imp_right
    apply List.mem_append_left
  · right
    apply List.mem_append_right lines hx

theorem extends_declare (d : Document) (x : Directive) :
  Extends d [x.text] (d.declare x)
  := by
  use rfl
  intro y hy
  rcases List.mem_append.mp hy with hy | hy
  · exact Or.inl hy
  · right
    rw [List.mem_singleton.mp hy]
    apply List.mem_cons_self

/-- Taking in a line leaves the body alone, and makes no other directive than one of the line. -/
theorem addDeclaration_always (origin : String) (d : Document) (line : String) :
  (addDeclaration origin d line).Always (Extends d [line])
  := by
  have hnote (diagnostic : Diagnostic) : Extends d [line] (d.note diagnostic) :=
    ⟨rfl, fun _ hx => Or.inl hx⟩
  unfold addDeclaration
  split
  · exact .refl d [line]
  · split
    · exact .refl d [line]
    · exact extends_declare d (.plain line)
  · exact hnote _
  · next name _ =>
    split
    · exact .refl d [line]
    · split
      · exact hnote _
      · apply Dialogue.always_bind.mpr
        apply Dialogue.always_of_forall
        intro available
        cases available with
        | true => exact extends_declare d (.request name line)
        | false => exact hnote _

/-- Taking in a fragment adds its body, and makes no other directives than of its lines. -/
theorem addFragment_always (d : Document) (f : Fragment) :
  (addFragment d f).Always fun d' =>
    d'.body = d.body ++ bodyOf f ∧ ∀ x ∈ d'.custom, x ∈ d.custom ∨ x.text ∈ f.preamble
  := by
  have hstep : ∀ passed d' line, Extends d passed d' →
      (addDeclaration f.origin d' line).Always (Extends d (passed ++ [line])) := by
    intro passed d' line hd'
    apply (addDeclaration_always f.origin d' line).mono
    intro d'' hd''
    exact hd'.trans hd''
  apply Dialogue.always_bind.mpr
  apply (Dialogue.Always.foldlM_append hstep f.preamble (.refl d [])).mono
  intro d' hd'
  refine ⟨?_, hd'.custom⟩
  change d'.body ++ bodyOf f = _
  rw [hd'.body]

/-- Every document that a merge can end with is gathered from its fragments, which are well
formed. -/
theorem merge_always_gathered (fragments : List Fragment) :
  (merge fragments).Always fun result => ∀ d, result = .ok d →
    Gathered fragments d ∧ ∀ f ∈ fragments, f.malformed? = none
  := by
  have hempty : Gathered [] Document.empty := ⟨rfl, fun x hx => absurd hx List.not_mem_nil⟩
  have hstep : ∀ passed d f, Gathered passed d →
      (addFragment d f).Always (Gathered (passed ++ [f])) := by
    intro passed d f hd
    apply (addFragment_always d f).mono
    rintro d' ⟨hbody, hcustom⟩
    constructor
    · simp [hbody, hd.body]
    · intro x hx
      rcases hcustom x hx with hx | hx
      · obtain ⟨g, hg, htext⟩ := hd.custom x hx
        exact ⟨g, List.mem_append_left [f] hg, htext⟩
      · exact ⟨f, List.mem_append_right passed List.mem_cons_self, hx⟩
  apply merge_always
  intro hfragments
  apply (Dialogue.Always.foldlM_append hstep fragments hempty).mono
  intro d hd
  exact ⟨hd, hfragments⟩

/-! ### Lines of a merged document -/

theorem isSingleLine_of_mem_fixedPreamble :
  ∀ line ∈ fixedPreamble, IsSingleLine line.toList
  := by
  decide +kernel

/-- Every line of a document that is gathered from well-formed fragments is a single line. -/
theorem Gathered.isSingleLine {fragments : List Fragment} {d : Document}
    (h : Gathered fragments d) (hfixed : d.fixed = fixedPreamble)
    (hfragments : ∀ f ∈ fragments, f.malformed? = none) :
  ∀ line ∈ d.allLines, IsSingleLine line.toList
  := by
  have hline : ∀ f ∈ fragments, ∀ line ∈ f.allLines, IsSingleLine line.toList :=
    fun f hf => Fragment.malformed?_eq_none_iff.mp (hfragments f hf)
  have hpreamble : ∀ line ∈ d.preamble, IsSingleLine line.toList := by
    intro line hmem
    rcases List.mem_append.mp hmem with hmem | hmem
    · rw [hfixed] at hmem
      exact isSingleLine_of_mem_fixedPreamble line hmem
    · obtain ⟨x, hx, rfl⟩ := List.mem_map.mp hmem
      obtain ⟨f, hf, htext⟩ := h.custom x hx
      exact hline f hf _ (List.mem_append_left f.body htext)
  have hbody : ∀ line ∈ d.body, IsSingleLine line.toList := by
    intro line hmem
    rw [h.body] at hmem
    obtain ⟨f, hf, hmem⟩ := List.mem_flatMap.mp hmem
    rcases List.mem_append.mp hmem with hmem | hmem
    · have hmem := (List.mem_filter.mp hmem).1
      exact hline f hf line (List.mem_append_right f.preamble hmem)
    · rw [List.mem_singleton.mp hmem]
      exact Text.isSingleLine_nil
  simp only [Document.allLines, List.mem_append, List.mem_singleton]
  rintro line (((hmem | rfl) | hmem) | rfl)
  · exact hpreamble line hmem
  · decide
  · exact hbody line hmem
  · decide

end Merge

end Bindery
