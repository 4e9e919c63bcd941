import Bindery.Proofs.Deck.Keeping

/-!
# What shows of a slide

The texts of a slide are its `passages`: the title, and the paragraphs of the shapes that are no
titles.  A passage has a line of its own unless it is white space (`Passage.line?_eq_none_iff`), and
its line shows something of it (`Shows`) exactly if it holds a character that prints.  Control
characters that are removed are not white space.  So the lines of a deck all show something exactly
if each passage that has no character that prints is white space (`shows_iff`), and a passage of
control characters has a line that shows nothing (`control_line_shows_nothing`).
-/

namespace Bindery.Deck

open Outline (itemLine openMarker closeMarker)
open Text (isBlankText)

/-! ### Characters that print -/

/-- A character of which something can be seen: neither white space nor a control character that is
removed. -/
def prints (c : Char) : Bool :=
  !Text.isBlank c && !Escape.isStripped c

section Characters

variable {c : Char} {text : List Char}

theorem mem_visible : c ∈ visible text ↔ c ∈ text ∧ Text.isBlank c = false
  := by simp [visible]

theorem isBlank_of_prints (h : prints c) :
  Text.isBlank c = false
  := by
  rw [prints, Bool.and_eq_true] at h
  simpa using h.1

theorem visible_eq_nil_iff :
  visible text = [] ↔ isBlankText text
  := by simp [visible, isBlankText]

theorem joinLines_eq_nil_iff :
  joinLines text = [] ↔ isBlankText text
  := by
  constructor
  · intro h
    rw [← visible_eq_nil_iff, ← visible_joinLines, h]
    rfl
  · intro h
    have htrim : ∀ line ∈ Text.splitWhere breaksLine text, Text.trim line = [] := by
      intro line hline
      have hblank : isBlankText line := by
        rw [isBlankText, List.all_eq_true]
        intro c hc
        have hflat : c ∈ (Text.splitWhere breaksLine text).flatten :=
          List.mem_flatten_of_mem hline hc
        rw [Text.concat_splitWhere] at hflat
        exact List.all_eq_true.mp h c (List.mem_of_mem_filter hflat)
      rw [Text.trim, Text.trimStart_eq_nil_iff.mpr hblank]
      rfl
    rw [joinLines, List.filter_eq_nil_iff.mpr]
    · rfl
    · intro line hline
      obtain ⟨untrimmed, huntrimmed, rfl⟩ := List.mem_map.mp hline
      rw [htrim untrimmed huntrimmed]
      simp

theorem mem_joinLines (hc : prints c) (h : c ∈ text) :
  c ∈ joinLines text
  := by
  have hvisible : c ∈ visible (joinLines text) := by
    rw [visible_joinLines, mem_visible]
    exact ⟨h, isBlank_of_prints hc⟩
  exact (mem_visible.mp hvisible).1

theorem mem_joinWith {texts : List (List Char)} (hc : prints c) (htext : text ∈ texts)
    (h : c ∈ text) :
  c ∈ Text.joinWith [' '] texts
  := by
  have hvisible : c ∈ visible (Text.joinWith [' '] texts) := by
    rw [visible_joinWith, List.mem_flatMap]
    exact ⟨text, htext, mem_visible.mpr ⟨h, isBlank_of_prints hc⟩⟩
  exact (mem_visible.mp hvisible).1

/-- What a character is typeset to stands in what its text is typeset to. -/
theorem infix_literal (h : c ∈ text) :
  literal [c] <:+: literal text
  := by
  obtain ⟨before, after, rfl⟩ := List.append_of_mem h
  rw [List.append_cons, literal_append, literal_append]
  exact ⟨literal before, literal after, rfl⟩

theorem Holds.isInfix {texts : List (List Char)} {line : List Char} (h : Holds texts line)
    (htext : text ∈ texts) :
  text <:+: line
  := by
  induction texts generalizing line with
  | nil => cases htext
  | cons first texts ih =>
    obtain ⟨before, after, rfl, hafter⟩ := h
    rcases List.mem_cons.mp htext with rfl | htext
    · exact ⟨before, after, rfl⟩
    · exact (ih hafter htext).trans (List.suffix_append _ after).isInfix

end Characters

/-- Something of the text can be seen in the line: one of its characters that print. -/
def Shows (text : List Char) (line : String) : Prop :=
  ∃ c ∈ text, prints c ∧ literal [c] <:+: line.toList

/-! ### Passages -/

/-- The text of a paragraph as it stands in the deck. -/
def Paragraph.text (p : Paragraph) : List Char :=
  p.runs.flatMap Run.text

/-- What a slide has a line for: the shape that the title is taken from, and each paragraph of the
shapes that are no titles, with whether it is in a text box. -/
inductive Passage where
  | title (shape : Shape)
  | paragraph (isTextBox : Bool) (p : Paragraph)
deriving DecidableEq, Repr

/-- The title that is taken from a shape. -/
def Shape.title? (shape : Shape) : Option (List Char) :=
  let title := Text.joinWith [' ']
    ((shape.paragraphs.map Paragraph.plainText).filter fun text => !text.isEmpty)
  if title.isEmpty then none else some title

namespace Passage

/-- The text of a passage as it stands in the deck. -/
def text : Passage → List Char
  | title shape => shape.paragraphs.flatMap Paragraph.text
  | paragraph _ p => p.text

/-- The line of a passage, if it has one: a section, a line of a text box, or a list item. -/
def line? : Passage → Option String
  | title shape =>
    shape.title?.map fun title => String.ofList (inCommand "section*" (literal title))
  | paragraph true p => p.render?.map String.ofList
  | paragraph false p => p.render?.map fun text => itemLine (String.ofList text)

/-- The lines of a passage: its own, and behind it an empty one unless it is a list item. -/
def lines (passage : Passage) : List String :=
  match passage, passage.line? with
  | _, none => []
  | paragraph false _, some line => [line]
  | _, some line => [line, ""]

end Passage

/-- The passages of a slide. -/
def Slide.passages (s : Slide) : List Passage :=
  ((s.shapes.find? Shape.isTitle).map Passage.title).toList
    ++ s.paragraphs.map fun (isTextBox, p) => .paragraph isTextBox p

theorem Slide.title?_eq (s : Slide) :
  s.title? = (s.shapes.find? Shape.isTitle).bind Shape.title?
  := by
  rw [title?]
  cases s.shapes.find? Shape.isTitle with
  | none => rfl
  | some shape => rfl

theorem Passage.lines_title (shape : Shape) :
  (title shape).lines = (shape.title?.map titleLines).getD []
  := by
  cases htitle : shape.title? with
  | none => simp [lines, line?, htitle]
  | some title => simp [lines, line?, htitle, titleLines]

theorem Passage.lines_paragraph (isTextBox : Bool) (p : Paragraph) :
  (paragraph isTextBox p).lines = linesOf (isTextBox, p)
  := by
  cases hp : p.render? with
  | none => cases isTextBox <;> simp [lines, line?, linesOf, placedLines, hp]
  | some line => cases isTextBox <;> simp [lines, line?, linesOf, placedLines, hp]

/-- The lines of a slide are those of its passages. -/
theorem Slide.contents_eq_passages (s : Slide) :
  s.contents = s.passages.flatMap Passage.lines ++ [""]
  := by
  have htitle : ((s.shapes.find? Shape.isTitle).map Passage.title).toList.flatMap Passage.lines
      = (s.title?.map titleLines).getD [] := by
    rw [title?_eq]
    cases s.shapes.find? Shape.isTitle with
    | none => rfl
    | some shape =>
      rw [Option.map_some, Option.toList_some, List.flatMap_singleton, Passage.lines_title]
      rfl
  have hparagraphs : (s.paragraphs.map fun (isTextBox, p) =>
      Passage.paragraph isTextBox p).flatMap Passage.lines
        = (s.paragraphs.map linesOf).flatten := by
    rw [List.flatMap_map, ← List.flatMap_def]
    exact List.flatMap_congr fun (isTextBox, p) _ => Passage.lines_paragraph isTextBox p
  rw [contents_eq, passages, List.flatMap_append, htitle, hparagraphs]

/-! ### Passages without a line -/

theorem texts_eq_nil_iff_blank (p : Paragraph) :
  p.texts = [] ↔ isBlankText p.text
  := by
  have hrun (r : Run) : r.literal? = none ↔ isBlankText r.text := by
    rw [Run.literal?, ← joinLines_eq_nil_iff]
    simp
  rw [Paragraph.texts, List.filterMap_eq_nil_iff, Paragraph.text, isBlankText, List.all_flatMap,
    List.all_eq_true]
  exact forall₂_congr fun r _ => hrun r

theorem title?_eq_none_iff (shape : Shape) :
  shape.title? = none ↔ isBlankText (shape.paragraphs.flatMap Paragraph.text)
  := by
  have hparagraph (p : Paragraph) : p.plainText = [] ↔ isBlankText p.text := joinLines_eq_nil_iff
  have hall : (∀ p ∈ shape.paragraphs, p.plainText = [])
      ↔ isBlankText (shape.paragraphs.flatMap Paragraph.text) := by
    rw [isBlankText, List.all_flatMap, List.all_eq_true]
    exact forall₂_congr fun p _ => hparagraph p
  rw [← hall, Shape.title?]
  generalize htexts : ((shape.paragraphs.map Paragraph.plainText).filter fun text =>
    !text.isEmpty) = texts
  have hnil : texts = [] ↔ ∀ p ∈ shape.paragraphs, p.plainText = [] := by
    rw [← htexts, List.filter_eq_nil_iff]
    simp
  have hne : ∀ text ∈ texts, text ≠ [] := by
    intro text htext
    rw [← htexts] at htext
    simpa using (List.mem_filter.mp htext).2
  rw [← hnil]
  constructor
  · intro h
    by_contra hsome
    have htitle := joinWith_ne_nil hsome hne
    simp [htitle] at h
  · rintro rfl
    rfl

/-- A passage has a line unless it is white space. -/
theorem Passage.line?_eq_none_iff (passage : Passage) :
  passage.line? = none ↔ isBlankText passage.text
  := by
  have hparagraph (p : Paragraph) : p.render? = none ↔ isBlankText p.text := by
    rw [← texts_eq_nil_iff_blank, texts_eq_nil_iff, Paragraph.render?]
    simp
  cases passage with
  | title shape => rw [line?, Option.map_eq_none_iff, title?_eq_none_iff, text]
  | paragraph isTextBox p =>
    cases isTextBox <;> rw [line?, Option.map_eq_none_iff, hparagraph, text]

/-! ### Lines that show nothing -/

theorem infix_of_render? {p : Paragraph} {c : Char} {line : List Char} (hc : prints c)
    (hmem : c ∈ p.text) (h : p.render? = some line) :
  literal [c] <:+: line
  := by
  obtain ⟨r, hr, hcr⟩ := List.mem_flatMap.mp hmem
  have hjoin := mem_joinLines hc hcr
  have htext : literal (joinLines r.text) ∈ p.texts := by
    apply List.mem_filterMap.mpr
    use r, hr
    rw [Run.literal?, if_neg]
    simpa using List.ne_nil_of_mem hjoin
  have hline : Text.joinWith [' '] (p.runs.filterMap Run.render?) = line := by
    rw [Paragraph.render?] at h
    split at h
    · cases h
    · exact Option.some.inj h
  rw [← hline]
  exact (infix_literal hjoin).trans ((holds_render p).isInfix htext)

theorem infix_of_title? {shape : Shape} {c : Char} {title : List Char} (hc : prints c)
    (hmem : c ∈ shape.paragraphs.flatMap Paragraph.text) (h : shape.title? = some title) :
  literal [c] <:+: literal title
  := by
  obtain ⟨p, hp, hcp⟩ := List.mem_flatMap.mp hmem
  have hjoin : c ∈ p.plainText := mem_joinLines hc hcp
  have htext : p.plainText ∈ (shape.paragraphs.map Paragraph.plainText).filter fun text =>
      !text.isEmpty := by
    apply List.mem_filter.mpr
    use List.mem_map_of_mem hp
    simpa using List.ne_nil_of_mem hjoin
  rw [Shape.title?] at h
  split at h
  · cases h
  · cases h
    exact infix_literal (mem_joinWith hc htext hjoin)

/-- The line of a passage shows something of it exactly if the passage holds a character that
prints. -/
theorem Passage.shows_line_iff {passage : Passage} {line : String}
    (h : passage.line? = some line) :
  Shows passage.text line ↔ ∃ c ∈ passage.text, prints c
  := by
  constructor
  · rintro ⟨c, hmem, hc, -⟩
    exact ⟨c, hmem, hc⟩
  · rintro ⟨c, hmem, hc⟩
    use c, hmem, hc
    cases passage with
    | title shape =>
      obtain ⟨title, htitle, rfl⟩ := Option.map_eq_some_iff.mp h
      have hinfix := infix_of_title? hc hmem htitle
      rw [String.toList_ofList]
      exact hinfix.trans ⟨'\\' :: "section*".toList ++ ['{'], ['}'], by simp [inCommand]⟩
    | paragraph isTextBox p =>
      cases isTextBox with
      | true =>
        obtain ⟨text, htext, rfl⟩ := Option.map_eq_some_iff.mp h
        rw [String.toList_ofList]
        exact infix_of_render? hc hmem htext
      | false =>
        obtain ⟨text, htext, rfl⟩ := Option.map_eq_some_iff.mp h
        have hsuffix : text <:+ (itemLine (String.ofList text)).toList := by
          rw [itemLine, String.toList_append, String.toList_ofList (l := text)]
          apply List.suffix_append
        exact (infix_of_render? hc hmem htext).trans hsuffix.isInfix

/-- Whatever the deck: but for the markers of lists, its lines are those of its passages, and an
empty one for each slide.  A passage has no line if it is white space.  Any other has one, and the
lines all show something exactly if each of these passages holds a character that prints. -/
theorem shows_iff (slides : List Slide) :
  ((render slides).filter fun line => line != openMarker && line != closeMarker)
      = slides.flatMap (fun s => s.passages.flatMap Passage.lines ++ [""])
    ∧ (∀ s ∈ slides, ∀ passage ∈ s.passages,
      (passage.line? = none ↔ isBlankText passage.text)
        ∧ ∀ line, passage.line? = some line →
          (Shows passage.text line ↔ ∃ c ∈ passage.text, prints c))
    ∧ ((∀ s ∈ slides, ∀ passage ∈ s.passages, ∀ line, passage.line? = some line →
        Shows passage.text line)
      ↔ ∀ s ∈ slides, ∀ passage ∈ s.passages,
        isBlankText passage.text ∨ ∃ c ∈ passage.text, prints c)
  := by
  refine ⟨?_, fun _ _ passage _ => ⟨passage.line?_eq_none_iff, fun _ => Passage.shows_line_iff⟩, ?_⟩
  · rw [render, List.filter_flatMap]
    exact List.flatMap_congr fun s _ => s.contents_eq_passages
  · refine forall₂_congr fun s _ => forall₂_congr fun passage _ => ?_
    rw [← passage.line?_eq_none_iff]
    cases hline : passage.line? with
    | none => simp
    | some line => simp [Passage.shows_line_iff hline]

/-- A slide whose texts are a control character that is removed has a section, a list item and a
line of a text box, and none of them shows anything. -/
theorem control_line_shows_nothing :
  let paragraphs : List Paragraph := [{ runs := [{ text := ['\x7f'] }] }]
  let s : Slide := { shapes := [{ isTitle := true, paragraphs }, { paragraphs },
    { isTextBox := true, paragraphs }] }
  render [s] = ["\\section*\x7b\x7d", "", openMarker, "\\item ", closeMarker, "", "", ""]
    ∧ ¬ ∃ passage ∈ s.passages, ∃ line, passage.line? = some line ∧ Shows passage.text line
  := by
  intro paragraphs s
  refine ⟨by decide, ?_⟩
  rintro ⟨passage, hpassage, line, -, c, hmem, hc, -⟩
  have hnone : ∀ passage ∈ s.passages, passage.text.any prints = false := by decide
  exact List.any_eq_false.mp (hnone passage hpassage) c hmem hc

end Bindery.Deck
