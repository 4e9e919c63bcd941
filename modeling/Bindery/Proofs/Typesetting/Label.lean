import Bindery.Proofs.Deck.Nesting
import Bindery.Proofs.Escape.Unescape
import Bindery.Proofs.Notebook.Parts
import Bindery.Proofs.Outline.Label
import Bindery.Proofs.Typesetting.Harmless

/-!
# Labels in typeset documents

What a typeset text begins with is what the text itself begins with, but for control characters
(`beginning_inline`, `beginning_paragraph`), since a bracket is not spelled out.  No typeset text
is an item by itself (`Typeset.not_itemStart`).  So the items with a label are those whose text
begins with a bracket, of a slide as of a notebook (`labelled_iff_bracket`).
-/

namespace Bindery.Typesetting

open Escape (isStripped replacement? escapeChar escape stripControls quoteChar smartQuotes)
open Notebook (Span)
open Outline (Beginning Step beginning beginningOf)

variable {n m : Nat} {text : List Char} {s : Span}

/-! ### Spelling -/

theorem beginning_spelling {c : Char} {spelling : String}
    (h : replacement? c = some spelling) :
  beginning spelling.toList = beginningOf c
  := by
  unfold replacement? at h
  split at h <;> cases h <;> decide

theorem beginning_escapeChar {c : Char} (kept : isStripped c = false) :
  beginning (escapeChar c) = beginningOf c
  := by
  cases hspelling : replacement? c with
  | some spelling =>
    rw [Escape.escapeChar_of_replacement kept hspelling]
    exact beginning_spelling hspelling
  | none =>
    rw [Escape.escapeChar_of_none kept hspelling]
    exact Outline.beginning_singleton c

/-- Escaping does not change what a text begins with, but for control characters, which go. -/
theorem beginning_escape (text : List Char) :
  beginning (escape text) = beginning (stripControls text)
  := by
  rw [← Escape.escape_stripControls]
  apply Outline.beginning_flatMap
  intro c hc
  exact beginning_escapeChar (by simpa using (List.mem_filter.mp hc).2)

theorem beginning_smartQuotes (text : List Char) :
  beginning (smartQuotes text) = beginning text
  := by
  apply Outline.beginning_flatMap
  intro c _
  unfold quoteChar
  split
  case h_4 => exact Outline.beginning_singleton _
  all_goals decide

theorem beginning_literal (text : List Char) :
  beginning (Deck.literal text) = beginning (stripControls text)
  := by rw [Deck.literal, beginning_smartQuotes, beginning_escape]

/-! ### Spans -/

theorem beginningOf_of_isDelimiter {c : Char} (h : IsDelimiter c) :
  beginningOf c = .other
  := by rcases h with rfl | rfl <;> decide

/-- Turning spans into commands does not change what a text begins with. -/
theorem IsDelimited.beginning_convert (hs : IsDelimited s) (text : List Char) :
  beginning (s.convert text) = beginning text
  := by
  induction text with
  | nil => rfl
  | cons c text ih =>
    rcases hs.convert_cases c text with heq | ⟨content, rest, htext, -, heq⟩
    · rw [heq, beginning, ih, beginning]
    · obtain ⟨d, ds, hdelimiter⟩ := List.exists_cons_of_ne_nil hs.nonempty
      have hd : IsDelimiter d := by
        apply hs.delimiter
        rw [hdelimiter]
        apply List.mem_cons_self
      rw [hdelimiter, List.cons_append] at htext
      rw [heq, htext, Outline.beginning_of_other (beginningOf_of_isDelimiter hd)]
      exact Outline.beginning_of_other (c := '\\') (by decide) _

theorem beginning_inline (text : List Char) :
  beginning (Notebook.inline text) = beginning (stripControls text)
  := by
  rw [Notebook.inline, beginning_smartQuotes, isDelimited_italic.beginning_convert,
    isDelimited_bold.beginning_convert, isDelimited_code.beginning_convert, beginning_escape]

/-! ### Runs -/

/-- What a run begins with when it is typeset. -/
def runBeginning (r : Deck.Run) : Beginning :=
  let text := Deck.joinLines r.text
  if text.isEmpty then .blank
  else if r.bold || r.italic || r.underline then .other
  else beginning (stripControls text)

/-- What a paragraph begins with when it is typeset. -/
def paragraphBeginning (p : Deck.Paragraph) : Beginning :=
  (p.runs.map runBeginning).foldr (· ++ ·) .blank

theorem beginning_inCommandIf (condition : Bool) (command : String) (text : List Char) :
  beginning (Deck.inCommandIf condition command text)
    = if condition then .other else beginning text
  := by
  cases condition with
  | true => exact Outline.beginning_of_other (c := '\\') (by decide) _
  | false => rfl

theorem beginning_run (r : Deck.Run) :
  beginning (r.render?.getD []) = runBeginning r
  := by
  rw [Deck.Run.render?, runBeginning]
  split
  · rfl
  · rw [Option.getD_some, beginning_inCommandIf, beginning_inCommandIf, beginning_inCommandIf,
      beginning_literal]
    cases r.bold <;> cases r.italic <;> cases r.underline <;> rfl

theorem beginning_joinWith (texts : List (List Char)) :
  beginning (Text.joinWith [' '] texts) = (texts.map beginning).foldr (· ++ ·) .blank
  := by
  induction texts with
  | nil => rfl
  | cons text texts ih =>
    rw [List.map_cons, List.foldr_cons, ← ih]
    cases texts with
    | nil =>
      rw [Text.joinWith, List.intercalate_singleton]
      cases beginning text <;> rfl
    | cons next texts =>
      rw [Text.joinWith, List.intercalate_cons_cons, Outline.beginning_append,
        Outline.beginning_append, Outline.Beginning.append_assoc]
      rfl

/-- A paragraph begins as its runs do, one after another. -/
theorem beginning_paragraph (p : Deck.Paragraph) :
  beginning (p.render?.getD []) = paragraphBeginning p
  := by
  have hruns : beginning (Text.joinWith [' '] (p.runs.filterMap Deck.Run.render?))
      = paragraphBeginning p := by
    rw [beginning_joinWith, paragraphBeginning]
    induction p.runs with
    | nil => rfl
    | cons r runs ih =>
      have hr := beginning_run r
      rw [List.map_cons, List.foldr_cons, ← ih, ← hr, List.filterMap_cons]
      cases r.render? with
      | none => rfl
      | some text => rfl
  rw [← hruns, Deck.Paragraph.render?]
  split
  · next hempty =>
    rw [List.isEmpty_iff.mp hempty]
    rfl
  · rfl

/-! ### Texts that are no items -/

/-- The beginning of the command of an item. -/
def itemStart : List Char :=
  ['\\', 'i']

theorem not_itemStart_of_replacement {c : Char} {spelling : String}
    (h : replacement? c = some spelling) :
  2 ≤ spelling.toList.length ∧ ¬ itemStart <+: spelling.toList
  := by
  unfold replacement? at h
  split at h <;> cases h <;> decide

theorem not_itemStart_of_mem_formats :
  ∀ name ∈ formats, 2 ≤ ('\\' :: name ++ ['{']).length ∧ ¬ itemStart <+: '\\' :: name ++ ['{']
  := by decide

/-- No typeset text begins as an item does. -/
theorem Typeset.not_itemStart (h : Typeset n text m) :
  ¬ itemStart <+: text
  := by
  have hlong {start more : List Char} (h : 2 ≤ start.length ∧ ¬ itemStart <+: start) :
      ¬ itemStart <+: start ++ more :=
    fun hitem => h.2 (List.prefix_of_prefix_length_le hitem (List.prefix_append _ _) h.1)
  cases h with
  | nil => decide
  | cons head tail =>
    cases head with
    | literal c kept =>
      cases hspelling : replacement? c with
      | some spelling =>
        rw [Escape.escapeChar_of_replacement kept hspelling]
        exact hlong (not_itemStart_of_replacement hspelling)
      | none =>
        rw [Escape.escapeChar_of_none kept hspelling]
        intro hitem
        obtain ⟨rfl, -⟩ := List.cons_prefix_cons.mp hitem
        cases hspelling
    | opening hname => exact hlong (not_itemStart_of_mem_formats _ hname)
    | closing =>
      intro hitem
      exact absurd (List.cons_prefix_cons.mp hitem).1 (by decide)

theorem not_isLabelled_of_not_itemStart {line : String} (h : ¬ itemStart <+: line.toList) :
  ¬ Outline.IsLabelled line
  := by
  have hitem : itemStart <+: "\\item".toList := by decide
  exact fun hlabelled => h (hitem.trans hlabelled.1)

theorem Typeset.not_isLabelled (h : Typeset n text m) :
  ¬ Outline.IsLabelled (String.ofList text)
  := by
  apply not_isLabelled_of_not_itemStart
  rw [String.toList_ofList]
  exact h.not_itemStart

theorem typeset_joinWith {texts : List (List Char)} (h : ∀ text ∈ texts, Typeset n text n) :
  Typeset n (Text.joinWith [' '] texts) n
  := by
  have hblank : Typeset n [' '] n := (Block.literal ' ' (by decide)).typeset
  exact Text.joinWith_induction .nil
    (fun _ _ hbefore hafter => (hbefore.append hblank).append hafter) h

theorem typeset_paragraph {p : Deck.Paragraph} (h : p.render? = some text) :
  Typeset n text n
  := by
  rw [Deck.Paragraph.render?] at h
  split at h
  · cases h
  · obtain rfl := Option.some.inj h
    apply typeset_joinWith
    intro part hpart
    obtain ⟨r, -, hr⟩ := List.mem_filterMap.mp hpart
    exact typeset_run n hr

/-! ### Slides -/

theorem exists_labelled_stepsOf_iff (paragraph : Bool × Deck.Paragraph) :
  (∃ step ∈ Deck.stepsOf paragraph, step.IsLabelled)
    ↔ paragraph.1 = false ∧ paragraphBeginning paragraph.2 = .bracket
  := by
  obtain ⟨isTextBox, p⟩ := paragraph
  rw [Deck.stepsOf]
  dsimp only
  rw [← beginning_paragraph p]
  cases hp : p.render? with
  | none => simp [beginning]
  | some text =>
    cases isTextBox with
    | true =>
      have htext := (typeset_paragraph (n := 0) hp).not_isLabelled
      have hempty : ¬ Outline.IsLabelled "" := by decide
      simp [Step.isLabelled_plain_iff, htext, hempty]
    | false => simp [Step.isLabelled_item_iff]

theorem not_isLabelled_title {title : List Char} {line : String}
    (h : line ∈ Deck.titleLines title) :
  ¬ Outline.IsLabelled line
  := by
  apply not_isLabelled_of_not_itemStart
  rcases List.mem_pair.mp h with rfl | rfl
  · rw [String.toList_ofList]
    intro hitem
    have hsection := (List.cons_prefix_cons.mp hitem).2
    exact absurd (List.cons_prefix_cons.mp hsection).1 (by decide)
  · decide

theorem exists_labelled_slide_iff (s : Deck.Slide) :
  (∃ line ∈ s.render, Outline.IsLabelled line)
    ↔ ∃ p, (false, p) ∈ s.paragraphs ∧ paragraphBeginning p = .bracket
  := by
  rw [s.render_eq, Outline.exists_labelled_outputs_iff Deck.isSound_new.max_le]
  constructor
  · rintro ⟨step, hstep, hlabelled⟩
    rw [Deck.Slide.steps, List.mem_append, List.mem_append, List.mem_singleton] at hstep
    rcases hstep with (hstep | hstep) | rfl
    · obtain ⟨line, hline, rfl⟩ := List.mem_map.mp hstep
      rw [Step.isLabelled_plain_iff] at hlabelled
      cases htitle : s.title? with
      | none =>
        rw [htitle] at hline
        cases hline
      | some title =>
        rw [htitle] at hline
        exact absurd hlabelled (not_isLabelled_title hline)
    · obtain ⟨⟨isTextBox, p⟩, hp, hstep⟩ := List.mem_flatMap.mp hstep
      obtain ⟨rfl, hbracket⟩ :=
        (exists_labelled_stepsOf_iff (isTextBox, p)).mp ⟨step, hstep, hlabelled⟩
      exact ⟨p, hp, hbracket⟩
    · exact absurd ((Step.isLabelled_plain_iff "").mp hlabelled) (by decide)
  · rintro ⟨p, hp, hbracket⟩
    obtain ⟨step, hstep, hlabelled⟩ := (exists_labelled_stepsOf_iff (false, p)).mpr ⟨rfl, hbracket⟩
    refine ⟨step, ?_, hlabelled⟩
    rw [Deck.Slide.steps, List.mem_append, List.mem_append]
    exact Or.inl (Or.inr (List.mem_flatMap.mpr ⟨(false, p), hp, hstep⟩))

/-! ### Notebooks -/

theorem not_isLabelled_headingLine (level : Nat) (text : List Char) :
  ¬ Outline.IsLabelled (Notebook.headingLine level text)
  := by
  apply not_isLabelled_of_not_itemStart
  have hcommand : 2 ≤ ("\\" ++ Notebook.headingCommand level).toList.length
      ∧ ¬ itemStart <+: ("\\" ++ Notebook.headingCommand level).toList := by
    unfold Notebook.headingCommand
    split <;> decide
  rw [Notebook.headingLine, String.append_assoc, String.append_assoc, String.toList_append]
  exact fun hitem => hcommand.2
    (List.prefix_of_prefix_length_le hitem (List.prefix_append _ _) hcommand.1)

/-- A line of markdown makes a label exactly if it is an item whose text begins with a bracket. -/
theorem isLabelled_step_iff (l : Notebook.MarkdownLine) :
  l.step.IsLabelled
    ↔ ∃ level text, l = .item level text ∧ beginning (stripControls text) = .bracket
  := by
  cases l with
  | blank =>
    have hempty : ¬ Outline.IsLabelled "" := by decide
    simp [Notebook.MarkdownLine.step, Step.isLabelled_plain_iff, hempty]
  | heading level text =>
    simp [Notebook.MarkdownLine.step, Step.isLabelled_plain_iff, not_isLabelled_headingLine]
  | item level text =>
    simp [Notebook.MarkdownLine.step, Step.isLabelled_item_iff, beginning_inline]
  | plain text =>
    simp [Notebook.MarkdownLine.step, Step.isLabelled_plain_iff,
      (typeset_inline 0 text).not_isLabelled]

theorem exists_labelled_outlined_iff (source : List Char) :
  (∃ line ∈ Notebook.outlined source, Outline.IsLabelled line)
    ↔ ∃ level text, .line (.item level text) ∈ Notebook.parts source
      ∧ beginning (stripControls text) = .bracket
  := by
  rw [Notebook.outlined, Outline.exists_labelled_outputs_iff Deck.isSound_new.max_le,
    Notebook.steps]
  constructor
  · rintro ⟨step, hstep, hlabelled⟩
    rw [List.mem_append, List.mem_singleton] at hstep
    rcases hstep with hstep | rfl
    · obtain ⟨p, hp, hstep⟩ := List.mem_filterMap.mp hstep
      cases p with
      | line l =>
        obtain rfl := Option.some.inj hstep
        obtain ⟨level, text, rfl, hbracket⟩ := (isLabelled_step_iff l).mp hlabelled
        exact ⟨level, text, hp, hbracket⟩
      | fence =>
        obtain rfl := Option.some.inj hstep
        exact absurd hlabelled Step.not_isLabelled_finish
      | code lines => cases hstep
    · exact absurd hlabelled Step.not_isLabelled_finish
  · rintro ⟨level, text, hp, hbracket⟩
    refine ⟨_, List.mem_append_left _ (List.mem_filterMap.mpr ⟨_, hp, rfl⟩), ?_⟩
    exact (isLabelled_step_iff _).mpr ⟨level, text, rfl, hbracket⟩

/-- The items with a label are those whose text begins with a bracket, apart from blanks and control
characters.  Of slides, a line has a label exactly if a paragraph outside of text boxes begins with
a bracket in a run without a format.  Of a markdown cell, a line that goes through the outline has a
label exactly if an item outside of fenced code begins with a bracket. -/
theorem labelled_iff_bracket (slides : List Deck.Slide) (source : List Char) :
  ((∃ line ∈ Deck.render slides, Outline.IsLabelled line)
    ↔ ∃ s ∈ slides, ∃ p, (false, p) ∈ s.paragraphs ∧ paragraphBeginning p = .bracket)
    ∧ Notebook.markdown source = Notebook.written {} (Notebook.parts source)
    ∧ ((∃ line ∈ Notebook.outlined source, Outline.IsLabelled line)
      ↔ ∃ level text, .line (.item level text) ∈ Notebook.parts source
        ∧ beginning (stripControls text) = .bracket)
  := by
  refine ⟨?_, Notebook.markdown_eq source, exists_labelled_outlined_iff source⟩
  simp only [Deck.render, List.mem_flatMap]
  constructor
  · rintro ⟨line, ⟨s, hs, hline⟩, hlabelled⟩
    exact ⟨s, hs, (exists_labelled_slide_iff s).mp ⟨line, hline, hlabelled⟩⟩
  · rintro ⟨s, hs, hp⟩
    obtain ⟨line, hline, hlabelled⟩ := (exists_labelled_slide_iff s).mpr hp
    exact ⟨line, ⟨s, hs, hline⟩, hlabelled⟩

/-- The box of a task in a list of markdown is a label, and so is a note in brackets at the
beginning of a paragraph. -/
theorem box_is_label :
  Notebook.markdown "- [x] done".toList
      = [Outline.openMarker, "\\item [x] done", Outline.closeMarker]
    ∧ Deck.render [{ shapes := [{ paragraphs := [{ runs := [{ text := "[1] note".toList }] }] }] }]
      = [Outline.openMarker, "\\item [1] note", Outline.closeMarker, ""]
    ∧ Outline.IsLabelled "\\item [x] done" ∧ Outline.IsLabelled "\\item [1] note"
  := by
  decide

end Bindery.Typesetting
