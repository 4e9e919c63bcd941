import Bindery.Deck.Render
import Bindery.Proofs.Escape
import Bindery.Proofs.Outline

/-!
# Lines of typeset slides

Text that was put on one line has no line feeds (`not_mem_joinLines`), and escaping it drops what
else could break a line.  So every line that a deck is typeset to is a single line
(`isSingleLine_render`), whatever its titles and runs say.
-/

namespace Bindery.Deck

open Text (IsSingleLine)

theorem not_mem_joinLines (text : List Char) :
  '\n' ∉ joinLines text
  := by
  apply Text.not_mem_joinWith (by decide)
  intro line hline hfeed
  obtain ⟨piece, hpiece, rfl⟩ := List.mem_map.mp (List.mem_filter.mp hline).1
  have hbreak := Text.not_of_mem_splitWhere hpiece '\n' (Text.trim_subset piece hfeed)
  cases hbreak

/-- The title of a slide has no line feeds. -/
theorem not_mem_of_title? {s : Slide} {title : List Char} (h : s.title? = some title) :
  '\n' ∉ title
  := by
  unfold Slide.title? at h
  split at h
  · cases h
  · dsimp only at h
    split at h
    · cases h
    · injection h with h
      rw [← h]
      apply Text.not_mem_joinWith (by decide)
      intro text htext
      obtain ⟨p, -, rfl⟩ := List.mem_map.mp (List.mem_filter.mp htext).1
      apply not_mem_joinLines

theorem isSingleLine_literal {text : List Char} (h : '\n' ∉ text) :
  IsSingleLine (literal text)
  := by
  apply Escape.isSingleLine_smartQuotes
  exact Escape.isSingleLine_escape h

theorem isSingleLine_inCommand {command : String} {text : List Char}
    (hcommand : IsSingleLine command.toList) (h : IsSingleLine text) :
  IsSingleLine (inCommand command text)
  := by
  unfold inCommand
  simp only [List.cons_append, Text.isSingleLine_cons, Text.isSingleLine_append]
  exact ⟨by decide, ⟨hcommand, by decide, h⟩, by decide, Text.isSingleLine_nil⟩

theorem isSingleLine_inCommandIf {condition : Bool} {command : String} {text : List Char}
    (hcommand : IsSingleLine command.toList) (h : IsSingleLine text) :
  IsSingleLine (inCommandIf condition command text)
  := by
  unfold inCommandIf
  split
  · exact isSingleLine_inCommand hcommand h
  · exact h

theorem isSingleLine_of_run {r : Run} {text : List Char} (h : r.render? = some text) :
  IsSingleLine text
  := by
  unfold Run.render? at h
  dsimp only at h
  split at h
  · cases h
  · injection h with h
    rw [← h]
    apply isSingleLine_inCommandIf (by decide)
    apply isSingleLine_inCommandIf (by decide)
    apply isSingleLine_inCommandIf (by decide)
    exact isSingleLine_literal (not_mem_joinLines r.text)

theorem isSingleLine_of_paragraph {p : Paragraph} {text : List Char}
    (h : p.render? = some text) :
  IsSingleLine text
  := by
  unfold Paragraph.render? at h
  dsimp only at h
  split at h
  · cases h
  · injection h with h
    rw [← h]
    apply Text.isSingleLine_joinWith
    intro part hpart
    obtain ⟨r, -, hr⟩ := List.mem_filterMap.mp hpart
    exact isSingleLine_of_run hr

/-! ### Slides -/

theorem isSingleLine_titleLines {title : List Char} (h : '\n' ∉ title) :
  ∀ line ∈ titleLines title, IsSingleLine line.toList
  := by
  have htitle : IsSingleLine (inCommand "section*" (literal title)) :=
    isSingleLine_inCommand (by decide) (isSingleLine_literal h)
  rw [titleLines, List.forall_mem_cons, String.toList_ofList, List.forall_mem_singleton]
  exact ⟨htitle, by decide⟩

theorem isSingleLine_renderParagraph (isTextBox : Bool) (o : Outline) (p : Paragraph) :
  ∀ line ∈ (renderParagraph isTextBox o p).1, IsSingleLine line.toList
  := by
  cases hp : p.render? with
  | none =>
    rw [renderParagraph, hp]
    exact List.forall_mem_nil _
  | some text =>
    have htext : IsSingleLine (String.ofList text).toList := by
      rw [String.toList_ofList]
      exact isSingleLine_of_paragraph hp
    cases isTextBox with
    | true =>
      simp only [renderParagraph, hp, if_true, List.forall_mem_append, List.forall_mem_singleton]
      exact ⟨o.isSingleLine_plain htext, by decide⟩
    | false =>
      simp only [renderParagraph, hp, Bool.false_eq_true, if_false]
      exact o.isSingleLine_item p.level htext

theorem isSingleLine_renderParagraphs (o : Outline) (ps : List (Bool × Paragraph)) :
  ∀ line ∈ renderParagraphs o ps, IsSingleLine line.toList
  := by
  induction ps generalizing o with
  | nil => exact o.isSingleLine_finish
  | cons p ps ih =>
    rw [renderParagraphs, List.forall_mem_append]
    exact ⟨isSingleLine_renderParagraph p.1 o p.2, ih _⟩

theorem isSingleLine_slide (s : Slide) :
  ∀ line ∈ s.render, IsSingleLine line.toList
  := by
  rw [Slide.render, List.forall_mem_append, List.forall_mem_append, List.forall_mem_singleton]
  refine ⟨⟨?_, isSingleLine_renderParagraphs {} s.paragraphs⟩, by decide⟩
  cases htitle : s.title? with
  | none => exact List.forall_mem_nil _
  | some title => exact isSingleLine_titleLines (not_mem_of_title? htitle)

/-- Every line that slides are typeset to is a single line. -/
theorem isSingleLine_render (slides : List Slide) :
  ∀ line ∈ render slides, IsSingleLine line.toList
  := by
  intro line hline
  obtain ⟨s, -, hline⟩ := List.mem_flatMap.mp hline
  exact isSingleLine_slide s line hline

end Bindery.Deck
