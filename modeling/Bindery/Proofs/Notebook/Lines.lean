import Bindery.Notebook.Render
import Bindery.Proofs.Dialogue
import Bindery.Proofs.Notebook.Inline
import Bindery.Proofs.Outline
import Bindery.Proofs.Text.Lines

/-!
# Lines of typeset notebooks

A line of markdown passes no character on that it does not hold (`MarkdownLine.content_of_subset`),
and the lines of a verbatim block are the lines of its text without control characters.  So every
line that a notebook is typeset to is a single line (`isSplit_render`), whatever its cells and
outputs hold and whichever images are saved.
-/

namespace Bindery.Notebook

open Text (IsSingleLine)

/-! ### Verbatim blocks -/

/-- What holds of the characters of a line that are kept, and of the end marker taken apart, holds
of the line in a block. -/
theorem forall_mem_verbatimLine {P : Char → Prop} {line : List Char}
    (hline : ∀ c ∈ Escape.stripControls line, P c) (hmarker : ∀ c ∈ verbatimEndApart.toList, P c) :
  ∀ c ∈ verbatimLine line, P c
  := by
  apply Text.forall_mem_replaceWhere ?_ 0 hline
  intro text length new _ hnew
  split at hnew
  · cases hnew
    exact hmarker
  · cases hnew

theorem isSingleLine_verbatimLine {line : List Char} (h : '\n' ∉ line) :
  IsSingleLine (verbatimLine line)
  := by
  have hmarker : IsSingleLine verbatimEndApart.toList := by decide
  exact forall_mem_verbatimLine (Escape.isSingleLine_stripControls h) hmarker

theorem isSingleLine_verbatim (text : List Char) :
  ∀ line ∈ verbatim text, IsSingleLine line.toList
  := by
  unfold verbatim
  split
  · exact List.forall_mem_nil _
  · rw [List.forall_mem_append, List.forall_mem_cons, List.forall_mem_map,
      List.forall_mem_singleton]
    refine ⟨⟨by decide, ?_⟩, by decide⟩
    intro line hline
    rw [Function.comp_apply, String.toList_ofList]
    exact isSingleLine_verbatimLine (Text.not_mem_of_mem_lines hline)

/-! ### Markdown -/

namespace MarkdownLine

/-- The text of a line, without what makes it the kind of line that it is. -/
def content : MarkdownLine → List Char
  | blank => []
  | heading _ text => text
  | item _ text => text
  | plain text => text

theorem headingText_subset (rest : List Char) :
  headingText rest ⊆ rest
  := by
  induction rest with
  | nil => exact List.Subset.refl []
  | cons c cs ih =>
    rw [headingText]
    split
    · exact List.nil_subset _
    · exact List.cons_subset_cons c ih

theorem content_heading?_subset {line : List Char} {l : MarkdownLine}
    (h : heading? line = some l) :
  l.content ⊆ line
  := by
  unfold heading? at h
  dsimp only at h
  split at h
  · injection h with h
    rw [← h]
    have hrest : line.dropWhile (· == '#') <:+ line := List.dropWhile_suffix _
    intro c hc
    exact hrest.subset (Text.trimStart_subset _ (headingText_subset _ hc))
  · cases h

theorem subset_of_afterMark? {text rest : List Char} (h : afterMark? text = some rest) :
  rest ⊆ text
  := by
  cases text with
  | nil => cases h
  | cons c cs =>
    rw [afterMark?] at h
    split at h
    · injection h with h
      rw [← h]
      exact List.subset_cons_self c cs
    · split at h
      · have hdigits : cs.dropWhile Text.isDigit <:+ c :: cs :=
          (List.dropWhile_suffix _).trans (List.suffix_cons c cs)
        split at h
        · next rest' hrest =>
          injection h with h
          rw [hrest] at hdigits
          intro d hd
          rw [← h] at hd
          exact hdigits.subset (List.mem_cons_of_mem _ hd)
        · next rest' hrest =>
          injection h with h
          rw [hrest] at hdigits
          intro d hd
          rw [← h] at hd
          exact hdigits.subset (List.mem_cons_of_mem _ hd)
        · cases h
      · cases h

theorem content_item?_subset {line : List Char} {l : MarkdownLine} (h : item? line = some l) :
  l.content ⊆ line
  := by
  unfold item? at h
  dsimp only at h
  split at h
  · cases h
  · next rest hrest =>
    split at h
    · injection h with h
      rw [← h]
      have hindent : line.dropWhile (fun c => c == ' ' || c == '\t') <:+ line :=
        List.dropWhile_suffix _
      intro c hc
      exact hindent.subset (subset_of_afterMark? hrest (Text.trimStart_subset rest hc))
    · cases h

/-- Reading a line adds no characters to it. -/
theorem content_of_subset (line : List Char) :
  (of line).content ⊆ line
  := by
  unfold of
  split
  · exact List.nil_subset line
  · cases hheading : heading? line with
    | some l => exact content_heading?_subset hheading
    | none =>
      cases hitem : item? line with
      | some l => exact content_item?_subset hitem
      | none => exact Text.trim_subset line

end MarkdownLine

theorem isSingleLine_headingLine (level : Nat) {text : List Char} (h : '\n' ∉ text) :
  IsSingleLine (headingLine level text).toList
  := by
  have hcommand : IsSingleLine (headingCommand level).toList := by
    unfold headingCommand
    split <;> decide
  simp only [headingLine, String.toList_append, String.toList_ofList, Text.isSingleLine_append]
  exact ⟨⟨⟨⟨by decide, hcommand⟩, by decide⟩, isSingleLine_inline h⟩, by decide⟩

theorem isSingleLine_typeset (o : Outline) {l : MarkdownLine} (h : '\n' ∉ l.content) :
  ∀ line ∈ (l.typeset o).1, IsSingleLine line.toList
  := by
  cases l with
  | blank =>
    simp only [MarkdownLine.typeset, List.forall_mem_append, List.forall_mem_singleton]
    exact ⟨o.isSingleLine_finish, by decide⟩
  | heading level text =>
    simp only [MarkdownLine.typeset, List.forall_mem_append, List.forall_mem_singleton]
    exact ⟨o.isSingleLine_finish, isSingleLine_headingLine level h⟩
  | item level text =>
    apply o.isSingleLine_item level
    rw [String.toList_ofList]
    exact isSingleLine_inline h
  | plain text =>
    apply o.isSingleLine_plain
    rw [String.toList_ofList]
    exact isSingleLine_inline h

theorem isSingleLine_markdownLines (o : Outline) (fence : Option (List (List Char)))
    {lines : List (List Char)} (h : ∀ line ∈ lines, '\n' ∉ line) :
  ∀ line ∈ markdownLines o fence lines, IsSingleLine line.toList
  := by
  fun_induction markdownLines o fence lines with
  | case1 o fence =>
    rw [List.forall_mem_append]
    refine ⟨?_, o.isSingleLine_finish⟩
    cases fence with
    | none => exact List.forall_mem_nil _
    | some code => exact isSingleLine_verbatim _
  | case2 o line lines hfence code ih =>
    rw [List.forall_mem_append]
    exact ⟨isSingleLine_verbatim _, ih (List.forall_mem_cons.mp h).2⟩
  | case3 o line lines hfence ih =>
    rw [List.forall_mem_append]
    exact ⟨o.isSingleLine_finish, ih (List.forall_mem_cons.mp h).2⟩
  | case4 o line lines hfence code ih => exact ih (List.forall_mem_cons.mp h).2
  | case5 o line lines hfence out o' htypeset ih =>
    obtain ⟨hline, hlines⟩ := List.forall_mem_cons.mp h
    have hcontent : '\n' ∉ (MarkdownLine.of line).content :=
      fun hmem => hline (MarkdownLine.content_of_subset line hmem)
    rw [List.forall_mem_append]
    refine ⟨?_, ih hlines⟩
    have hout := isSingleLine_typeset o hcontent
    rw [htypeset] at hout
    exact hout

theorem isSingleLine_markdown (source : List Char) :
  ∀ line ∈ markdown source, IsSingleLine line.toList
  := isSingleLine_markdownLines {} none fun _ hline => Text.not_mem_of_mem_lines hline

/-! ### Outputs and cells -/

/-- The image that is saved is one of those that were offered. -/
theorem saveFirst?_always (images : List Image) :
  (saveFirst? images).Always fun saved => ∀ name, saved = some name →
    ∃ image ∈ images, image.name = name
  := by
  induction images with
  | nil =>
    intro name h
    cases h
  | cons image images ih =>
    intro saved
    cases saved with
    | true =>
      rintro name ⟨⟩
      exact ⟨image, List.mem_cons_self, rfl⟩
    | false =>
      apply ih.mono
      intro saved h name hname
      obtain ⟨other, hother, heq⟩ := h name hname
      exact ⟨other, List.mem_cons_of_mem image hother, heq⟩

/-- The images of an output have its label as the stem of their names. -/
theorem name_of_mem_candidates {label : String} {b : Bundle} {image : Image}
    (h : image ∈ candidates label b) :
  ∃ extension ∈ ["png", "jpg"], image.name = label ++ "." ++ extension
  := by
  obtain ⟨⟨media, extension, isUsable⟩, htype, himage⟩ := List.mem_filterMap.mp h
  obtain ⟨bytes, -, rfl⟩ := Option.map_eq_some_iff.mp himage
  have hextension : extension ∈ imageTypes.map fun type => type.2.1 :=
    List.mem_map_of_mem htype
  exact ⟨extension, hextension, rfl⟩

theorem isSingleLine_bundleLines (b : Bundle) :
  ∀ line ∈ bundleLines b, IsSingleLine line.toList
  := by
  unfold bundleLines
  split
  · rw [List.forall_mem_map]
    intro line hline
    obtain ⟨raw, hraw, rfl⟩ := List.mem_map.mp (List.mem_filter.mp hline).1
    rw [String.toList_ofList]
    exact Escape.isSingleLine_stripControls (Text.not_mem_of_mem_lines hraw)
  · cases b.text? "text/plain" with
    | none => exact List.forall_mem_nil _
    | some text => exact isSingleLine_verbatim text.toList

/-- A part whose lines are single lines. -/
def Piece.IsSplit (p : Piece) : Prop :=
  ∀ line ∈ p.lines, IsSingleLine line.toList

theorem Piece.IsSplit.append {p q : Piece} (hp : p.IsSplit) (hq : q.IsSplit) :
  (p ++ q).IsSplit
  := List.forall_mem_append.mpr ⟨hp, hq⟩

theorem isSplit_nil :
  Piece.IsSplit {}
  := List.forall_mem_nil _

theorem isSplit_ofImage {name : String} (h : IsSingleLine name.toList) :
  (Piece.ofImage name).IsSplit
  := by
  have hname : IsSingleLine
      ("\\includegraphics[width=0.8\\linewidth]\x7b" ++ name ++ "\x7d").toList := by
    simp only [String.toList_append, Text.isSingleLine_append]
    exact ⟨⟨by decide, h⟩, by decide⟩
  rw [Piece.IsSplit, Piece.ofImage, List.forall_mem_cons, List.forall_mem_cons,
    List.forall_mem_singleton]
  exact ⟨by decide, hname, by decide⟩

variable {label : String}

theorem isSplit_renderBundle (hlabel : IsSingleLine label.toList) (b : Bundle) :
  (renderBundle label b).Always Piece.IsSplit
  := by
  apply Dialogue.always_bind.mpr
  apply (saveFirst?_always _).mono
  intro saved h
  cases saved with
  | none => exact isSingleLine_bundleLines b
  | some name =>
    apply isSplit_ofImage
    obtain ⟨image, himage, rfl⟩ := h name rfl
    obtain ⟨extension, hextension, hname⟩ := name_of_mem_candidates himage
    have hsingle : ∀ extension ∈ ["png", "jpg"], IsSingleLine extension.toList := by decide
    simp only [hname, String.toList_append, Text.isSingleLine_append]
    exact ⟨⟨hlabel, by decide⟩, hsingle extension hextension⟩

theorem isSplit_renderOutput (hlabel : IsSingleLine label.toList) (output : Output) :
  (renderOutput label output).Always Piece.IsSplit
  := by
  cases output with
  | stream text =>
    cases text with
    | none => exact List.forall_mem_nil _
    | some text => exact isSingleLine_verbatim text.toList
  | rich bundle => exact isSplit_renderBundle hlabel bundle
  | error name value => exact isSingleLine_verbatim _
  | other => exact List.forall_mem_nil _

/-- A label with a further part and a number is on a single line. -/
theorem isSingleLine_label {part : String} (hlabel : IsSingleLine label.toList)
    (hpart : IsSingleLine part.toList) (n : Nat) :
  IsSingleLine (label ++ part ++ toString n).toList
  := by
  simp only [String.toList_append, Text.isSingleLine_append]
  exact ⟨⟨hlabel, hpart⟩, Text.isSingleLine_toString n⟩

/-- Outputs have what every output has, if parts one after another have it. -/
theorem renderOutputs_always {P : Piece → Prop} (hnil : P {})
    (happend : ∀ {p q : Piece}, P p → P q → P (p ++ q)) {outputs : List Output}
    (h : ∀ output ∈ outputs, ∀ index : Nat,
      (renderOutput (label ++ "_output" ++ toString index) output).Always P)
    (first : Nat) :
  (renderOutputs label first outputs).Always P
  := by
  induction outputs generalizing first with
  | nil => exact hnil
  | cons output outputs ih =>
    obtain ⟨houtput, houtputs⟩ := List.forall_mem_cons.mp h
    apply Dialogue.always_bind.mpr
    apply (houtput first).mono
    intro piece hpiece
    apply Dialogue.always_bind.mpr
    apply (ih houtputs (first + 1)).mono
    intro pieces hpieces
    exact happend hpiece hpieces

/-- Cells have what every cell has, if parts one after another have it. -/
theorem renderCells_always {P : Piece → Prop} (hnil : P {})
    (happend : ∀ {p q : Piece}, P p → P q → P (p ++ q)) {stem : String} {cells : List Cell}
    (h : ∀ cell ∈ cells, ∀ index : Nat,
      (renderCell (stem ++ "_cell" ++ toString index) cell).Always P)
    (first : Nat) :
  (renderCells stem first cells).Always P
  := by
  induction cells generalizing first with
  | nil => exact hnil
  | cons cell cells ih =>
    obtain ⟨hcell, hcells⟩ := List.forall_mem_cons.mp h
    apply Dialogue.always_bind.mpr
    apply (hcell first).mono
    intro piece hpiece
    apply Dialogue.always_bind.mpr
    apply (ih hcells (first + 1)).mono
    intro pieces hpieces
    exact happend hpiece hpieces

theorem isSplit_renderCell (hlabel : IsSingleLine label.toList) (cell : Cell) :
  (renderCell label cell).Always Piece.IsSplit
  := by
  have hempty : Piece.IsSplit { lines := [""] } := List.forall_mem_singleton.mpr (by decide)
  cases cell with
  | markdown source => exact List.forall_mem_append.mpr ⟨isSingleLine_markdown _, hempty⟩
  | code source outputs =>
    have houtputs : (renderOutputs label 0 outputs).Always Piece.IsSplit := by
      apply renderOutputs_always isSplit_nil Piece.IsSplit.append
      intro output _ index
      exact isSplit_renderOutput (isSingleLine_label hlabel (by decide) index) output
    apply Dialogue.always_bind.mpr
    apply houtputs.mono
    intro piece hpiece
    have hsource : Piece.IsSplit { lines := verbatim source.toList } := isSingleLine_verbatim _
    exact (hsource.append hpiece).append hempty
  | other => exact hempty

/-- Every line that a notebook is typeset to is a single line, if the stem of its images is. -/
theorem isSplit_render {stem : String} (hstem : IsSingleLine stem.toList) (n : Notebook) :
  (render stem n).Always Piece.IsSplit
  := by
  apply renderCells_always isSplit_nil Piece.IsSplit.append
  intro cell _ index
  exact isSplit_renderCell (isSingleLine_label hstem (by decide) index) cell

end Bindery.Notebook
