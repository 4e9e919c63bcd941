import Mathlib.Algebra.GroupWithZero.Nat
import Mathlib.Algebra.Order.BigOperators.Group.List
import Mathlib.Algebra.Order.Group.Nat
import Mathlib.Data.List.Forall2
import Bindery.Proofs.Deck.Nesting

/-!
# The text of a slide

The title of a slide holds the text of the first shape that is a title, and each paragraph of the
shapes that are no titles, unless it is blank, has one line, which holds the texts of its runs
(`contributes_linesOf`).  A further shape that is a title has no lines.  So a slide keeps its
text exactly if the further titles are blank (`keepsText_iff`).
-/

namespace Bindery.Deck

open Outline (Line itemLine openMarker closeMarker placed)

/-! ### Joining lines -/

/-- The characters of a text that are no white space. -/
def visible (text : List Char) : List Char :=
  text.filter fun c => !Text.isBlank c

theorem visible_dropWhile (text : List Char) :
  visible (text.dropWhile Text.isBlank) = visible text
  := by
  induction text with
  | nil => rfl
  | cons c text ih =>
    by_cases hc : Text.isBlank c
    · rw [List.dropWhile_cons_of_pos hc, ih, visible, visible,
        List.filter_cons_of_neg (by simp [hc])]
    · rw [List.dropWhile_cons_of_neg hc]

theorem visible_trim (text : List Char) :
  visible (Text.trim text) = visible text
  := by
  have hend (text : List Char) : visible (Text.trimEnd text) = visible text := by
    have hreverse := visible_dropWhile text.reverse
    rw [visible, visible, List.filter_reverse] at hreverse
    rw [visible, visible, Text.trimEnd, List.filter_reverse, hreverse, List.reverse_reverse]
  rw [Text.trim, hend]
  exact visible_dropWhile text

theorem visible_joinWith (texts : List (List Char)) :
  visible (Text.joinWith [' '] texts) = texts.flatMap visible
  := by
  induction texts with
  | nil => rfl
  | cons text texts ih =>
    rw [List.flatMap_cons, ← ih]
    cases texts with
    | nil =>
      rw [Text.joinWith, List.intercalate_singleton]
      exact (List.append_nil _).symm
    | cons next texts =>
      rw [Text.joinWith, List.intercalate_cons_cons, visible, List.filter_append,
        List.filter_append, List.append_assoc]
      rfl

theorem isBlank_of_breaksLine {c : Char} (h : breaksLine c) :
  Text.isBlank c
  := by
  simp only [breaksLine, Bool.or_eq_true, beq_iff_eq] at h
  rcases h with (rfl | rfl) | rfl <;> decide

/-- Putting text on one line loses nothing but white space. -/
theorem visible_joinLines (text : List Char) :
  visible (joinLines text) = visible text
  := by
  have hlines (lines : List (List Char)) :
      ((lines.map Text.trim).filter fun line => !line.isEmpty).flatMap visible
        = visible lines.flatten := by
    induction lines with
    | nil => rfl
    | cons line lines ih =>
      have hline := visible_trim line
      rw [List.map_cons, List.flatten_cons, visible, List.filter_append]
      change _ = visible line ++ visible lines.flatten
      rw [← ih, ← hline]
      cases htrim : Text.trim line with
      | nil => rfl
      | cons c cs =>
        rw [List.filter_cons_of_pos (by simp), List.flatMap_cons]
  rw [joinLines, visible_joinWith, hlines, Text.concat_splitWhere, visible, List.filter_filter,
    visible]
  apply List.filter_congr
  intro c _
  by_cases hc : breaksLine c
  · simp [isBlank_of_breaksLine hc]
  · simp [hc]

/-! ### Texts in a line -/

/-- The texts stand in the line, in order. -/
def Holds : List (List Char) → List Char → Prop
  | [], _ => True
  | text :: texts, line => ∃ before after, line = before ++ text ++ after ∧ Holds texts after

variable {ts us : List (List Char)} {line line' text : List Char}

theorem Holds.behind (h : Holds ts line) (start : List Char) :
  Holds ts (start ++ line)
  := by
  cases ts with
  | nil => trivial
  | cons text ts =>
    obtain ⟨before, after, rfl, hafter⟩ := h
    exact ⟨start ++ before, after, by simp only [List.append_assoc], hafter⟩

theorem Holds.append (h : Holds ts line) (hus : Holds us line') :
  Holds (ts ++ us) (line ++ line')
  := by
  induction ts generalizing line with
  | nil => exact hus.behind line
  | cons text ts ih =>
    obtain ⟨before, after, rfl, hafter⟩ := h
    exact ⟨before, after ++ line', by simp only [List.append_assoc], ih hafter⟩

/-- A text that stands in the first of some parts stands in front of those in the others. -/
theorem Holds.joinWith_cons {parts : List (List Char)} (h : Holds [text] line)
    (hparts : Holds ts (Text.joinWith [' '] parts)) :
  Holds (text :: ts) (Text.joinWith [' '] (line :: parts))
  := by
  cases parts with
  | nil =>
    have hline : Holds ([text] ++ ts) (line ++ []) := h.append hparts
    rw [List.append_nil] at hline
    rw [Text.joinWith, List.intercalate_singleton]
    exact hline
  | cons next parts =>
    rw [Text.joinWith, List.intercalate_cons_cons, List.append_assoc]
    exact h.append (hparts.behind [' '])

/-! ### Paragraphs -/

/-- The text of a run as it is typeset, but for its format; a blank run has none. -/
def Run.literal? (r : Run) : Option (List Char) :=
  let text := joinLines r.text
  if text.isEmpty then none else some (literal text)

/-- The texts of the runs of a paragraph. -/
def Paragraph.texts (p : Paragraph) : List (List Char) :=
  p.runs.filterMap Run.literal?

theorem holds_inCommandIf (condition : Bool) (command : String) (h : Holds [text] line) :
  Holds [text] (inCommandIf condition command line)
  := by
  cases condition with
  | false => exact h
  | true =>
    have hparts : inCommand command line
        = ('\\' :: command.toList ++ ['{']) ++ (line ++ ['}']) := by
      simp [inCommand]
    have hclose : Holds ([text] ++ []) (line ++ ['}']) := h.append trivial
    rw [List.append_nil] at hclose
    rw [inCommandIf, if_pos rfl, hparts]
    exact hclose.behind _

/-- A run is typeset if it has a text, which then stands in what it is typeset to. -/
theorem Run.render?_cases (r : Run) :
  (r.literal? = none ∧ r.render? = none)
    ∨ ∃ text part, r.literal? = some text ∧ r.render? = some part ∧ Holds [text] part
  := by
  rw [literal?, render?]
  cases hempty : (joinLines r.text).isEmpty with
  | true => exact Or.inl ⟨rfl, rfl⟩
  | false =>
    refine Or.inr ⟨_, _, rfl, rfl, ?_⟩
    apply holds_inCommandIf
    apply holds_inCommandIf
    apply holds_inCommandIf
    exact ⟨[], [], by simp, trivial⟩

theorem holds_render (p : Paragraph) :
  Holds p.texts (Text.joinWith [' '] (p.runs.filterMap Run.render?))
  := by
  rw [Paragraph.texts]
  induction p.runs with
  | nil => trivial
  | cons r runs ih =>
    rw [List.filterMap_cons, List.filterMap_cons]
    rcases r.render?_cases with ⟨htext, hpart⟩ | ⟨text, part, htext, hpart, hholds⟩
    · rw [htext, hpart]
      exact ih
    · rw [htext, hpart]
      exact hholds.joinWith_cons ih

theorem texts_eq_nil_iff (p : Paragraph) :
  p.texts = [] ↔ p.runs.filterMap Run.render? = []
  := by
  simp only [Paragraph.texts, List.filterMap_eq_nil_iff]
  refine forall₂_congr fun r _ => ?_
  rcases r.render?_cases with ⟨htext, hpart⟩ | ⟨text, part, htext, hpart, -⟩ <;>
    simp [htext, hpart]

/-- What a paragraph adds to the lines of a slide: nothing if it is blank, and else one line that
holds its texts, with an empty one behind it if it is in a text box. -/
inductive Contributes : Bool × Paragraph → List String → Prop where
  | blank {isTextBox : Bool} {p : Paragraph} (h : p.texts = []) : Contributes (isTextBox, p) []
  | textBox {p : Paragraph} {line : List Char} (hne : p.texts ≠ []) (h : Holds p.texts line) :
    Contributes (true, p) [String.ofList line, ""]
  | item {p : Paragraph} {line : List Char} (hne : p.texts ≠ []) (h : Holds p.texts line) :
    Contributes (false, p) [itemLine (String.ofList line)]

/-- The lines of a paragraph, without the numbers of lists in which they stand. -/
def linesOf (paragraph : Bool × Paragraph) : List String :=
  (placedLines paragraph).map Prod.snd

theorem contributes_linesOf (paragraph : Bool × Paragraph) :
  Contributes paragraph (linesOf paragraph)
  := by
  obtain ⟨isTextBox, p⟩ := paragraph
  rw [linesOf, placedLines, Paragraph.render?]
  cases hparts : (p.runs.filterMap Run.render?).isEmpty with
  | true =>
    rw [if_pos rfl]
    exact .blank ((texts_eq_nil_iff p).mpr (List.isEmpty_iff.mp hparts))
  | false =>
    have hne : p.texts ≠ [] := by
      rw [ne_eq, texts_eq_nil_iff, ← List.isEmpty_iff, hparts]
      exact Bool.false_ne_true
    rw [if_neg Bool.false_ne_true]
    cases isTextBox with
    | true => exact .textBox hne (holds_render p)
    | false => exact .item hne (holds_render p)

/-- The number of lines that a paragraph adds. -/
def lineCount (paragraph : Bool × Paragraph) : Nat :=
  if paragraph.2.texts = [] then 0 else if paragraph.1 then 2 else 1

theorem Contributes.length_eq {paragraph : Bool × Paragraph} {lines : List String}
    (h : Contributes paragraph lines) :
  lines.length = lineCount paragraph
  := by
  cases h with
  | blank h => rw [lineCount, if_pos h, List.length_nil]
  | textBox hne =>
    rw [lineCount, if_neg hne]
    rfl
  | item hne =>
    rw [lineCount, if_neg hne]
    rfl

/-! ### Titles -/

/-- The texts of the shape that the title of a slide is taken from, paragraph by paragraph as they
are typeset, without the blank ones. -/
def Slide.titleTexts (s : Slide) : List (List Char) :=
  match s.shapes.find? Shape.isTitle with
  | none => []
  | some shape =>
    ((shape.paragraphs.map Paragraph.plainText).filter fun text => !text.isEmpty).map literal

/-- The lines of a title: none if it has no texts, and else a section whose argument holds them,
with an empty line behind it. -/
inductive HoldsTitle : List (List Char) → List String → Prop where
  | blank : HoldsTitle [] []
  | title {texts : List (List Char)} {line : List Char} (hne : texts ≠ []) (h : Holds texts line) :
    HoldsTitle texts [String.ofList (inCommand "section*" line), ""]

theorem literal_append (before after : List Char) :
  literal (before ++ after) = literal before ++ literal after
  := by rw [literal, Escape.escape_append, Escape.smartQuotes_append, literal, literal]

theorem holds_literal_joinWith (texts : List (List Char)) :
  Holds (texts.map literal) (literal (Text.joinWith [' '] texts))
  := by
  induction texts with
  | nil => trivial
  | cons text texts ih =>
    cases texts with
    | nil =>
      rw [Text.joinWith, List.intercalate_singleton]
      exact ⟨[], [], by simp, trivial⟩
    | cons next texts =>
      rw [Text.joinWith, List.intercalate_cons_cons, List.append_assoc, literal_append]
      refine ⟨[], literal ([' '] ++ Text.joinWith [' '] (next :: texts)), rfl, ?_⟩
      rw [literal_append]
      exact ih.behind (literal [' '])

theorem joinWith_ne_nil {texts : List (List Char)} (hne : texts ≠ [])
    (h : ∀ text ∈ texts, text ≠ []) :
  Text.joinWith [' '] texts ≠ []
  := by
  obtain ⟨text, texts, rfl⟩ := List.exists_cons_of_ne_nil hne
  have htext := (List.forall_mem_cons.mp h).1
  cases texts with
  | nil =>
    rw [Text.joinWith, List.intercalate_singleton]
    exact htext
  | cons next texts =>
    rw [Text.joinWith, List.intercalate_cons_cons]
    simp [htext]

theorem holdsTitle_title (s : Slide) :
  HoldsTitle s.titleTexts ((s.title?.map titleLines).getD [])
  := by
  rw [Slide.titleTexts, Slide.title?]
  cases s.shapes.find? Shape.isTitle with
  | none => exact .blank
  | some shape =>
    dsimp only
    generalize htexts : ((shape.paragraphs.map Paragraph.plainText).filter fun text =>
      !text.isEmpty) = texts
    cases texts with
    | nil => exact .blank
    | cons text texts =>
      have hall : ∀ t ∈ text :: texts, t ≠ [] := by
        intro t ht
        rw [← htexts] at ht
        simpa using (List.mem_filter.mp ht).2
      have hne := joinWith_ne_nil (List.cons_ne_nil text texts) hall
      rw [if_neg (by simpa using hne)]
      exact .title (by simp) (holds_literal_joinWith (text :: texts))

theorem HoldsTitle.length_eq {texts : List (List Char)} {lines : List String}
    (h : HoldsTitle texts lines) :
  lines.length = if texts = [] then 0 else 2
  := by
  cases h with
  | blank => rfl
  | title hne =>
    rw [if_neg hne]
    rfl

/-! ### Slides -/

/-- The lines of a slide that are no markers of lists. -/
def Slide.contents (s : Slide) : List String :=
  s.render.filter fun line => line != openMarker && line != closeMarker

/-- The paragraphs of a shape, each with whether it is in a text box. -/
def Shape.entries (shape : Shape) : List (Bool × Paragraph) :=
  shape.paragraphs.map fun p => (shape.isTextBox, p)

/-- The shapes of a slide but for the one that the title is taken from. -/
def Slide.others (s : Slide) : List Shape :=
  s.shapes.eraseP Shape.isTitle

/-- No text of the slide is lost: the title holds the texts of the shape that it is taken from, and
each paragraph of the other shapes adds its line, in order. -/
def Slide.KeepsText (s : Slide) : Prop :=
  ∃ title blocks, s.contents = title ++ blocks.flatten ++ [""]
    ∧ HoldsTitle s.titleTexts title
    ∧ List.Forall₂ Contributes (s.others.flatMap Shape.entries) blocks

theorem placed_map_of (opened : Nat) (lines : List String) :
  (placed opened (lines.map Line.of)).map Prod.snd
    = lines.filter fun line => line != openMarker && line != closeMarker
  := by
  have hdistinct : closeMarker ≠ openMarker := by decide
  induction lines generalizing opened with
  | nil => rfl
  | cons line lines ih =>
    rw [List.map_cons]
    by_cases hopen : line = openMarker
    · subst hopen
      rw [List.filter_cons_of_neg (by simp), ← ih (opened + 1)]
      rfl
    · by_cases hclose : line = closeMarker
      · subst hclose
        have hline : Line.of closeMarker = .closing := by rw [Line.of, if_neg hdistinct, if_pos rfl]
        rw [List.filter_cons_of_neg (by simp), ← ih (opened - 1), hline, placed]
      · rw [List.filter_cons_of_pos (by simp [hopen, hclose]), ← ih opened,
          Outline.of_eq_content hopen hclose, placed, List.map_cons]

theorem Slide.contents_eq (s : Slide) :
  s.contents = (s.title?.map titleLines).getD []
    ++ (s.paragraphs.map linesOf).flatten ++ [""]
  := by
  have htitle : s.placedTitle.map Prod.snd = (s.title?.map titleLines).getD [] := by
    rw [placedTitle, List.map_map]
    exact List.map_id _
  rw [contents, ← placed_map_of 0, ← htitle]
  have hplaced := congrArg (List.map Prod.snd) s.isNested.placed
  rw [List.map_append, List.map_append, List.map_flatMap, List.flatMap_def] at hplaced
  exact hplaced

theorem paragraphs_eq (s : Slide) :
  s.paragraphs = (s.shapes.filter fun shape => !shape.isTitle).flatMap Shape.entries
  := rfl

/-- Leaving out the first title does not change the shapes that are no titles. -/
theorem filter_others (s : Slide) :
  (s.others.filter fun shape => !shape.isTitle) = s.shapes.filter fun shape => !shape.isTitle
  := by
  rw [Slide.others]
  induction s.shapes with
  | nil => rfl
  | cons shape shapes ih =>
    by_cases htitle : shape.isTitle
    · rw [List.eraseP_cons_of_pos htitle, List.filter_cons_of_neg (by simp [htitle])]
    · rw [List.eraseP_cons_of_neg htitle, List.filter_cons_of_pos (by simp [htitle]),
        List.filter_cons_of_pos (by simp [htitle]), ih]

theorem linesOf_eq_nil {paragraph : Bool × Paragraph} (h : paragraph.2.texts = []) :
  linesOf paragraph = []
  := by
  have hlength := (contributes_linesOf paragraph).length_eq
  rw [lineCount, if_pos h] at hlength
  exact List.eq_nil_of_length_eq_zero hlength

/-- Blank titles add no lines. -/
theorem flatten_linesOf {shapes : List Shape}
    (h : ∀ shape ∈ shapes, shape.isTitle → ∀ p ∈ shape.paragraphs, p.texts = []) :
  ((shapes.flatMap Shape.entries).map linesOf).flatten
    = (((shapes.filter fun shape => !shape.isTitle).flatMap Shape.entries).map linesOf).flatten
  := by
  induction shapes with
  | nil => rfl
  | cons shape shapes ih =>
    obtain ⟨hshape, hshapes⟩ := List.forall_mem_cons.mp h
    rw [List.flatMap_cons, List.map_append, List.flatten_append, ih hshapes]
    by_cases htitle : shape.isTitle
    · rw [List.filter_cons_of_neg (by simp [htitle])]
      have hnone : (shape.entries.map linesOf).flatten = [] := by
        rw [List.flatten_eq_nil_iff]
        intro lines hlines
        obtain ⟨paragraph, hparagraph, rfl⟩ := List.mem_map.mp hlines
        obtain ⟨p, hp, rfl⟩ := List.mem_map.mp hparagraph
        exact linesOf_eq_nil (hshape htitle p hp)
      rw [hnone, List.nil_append]
    · rw [List.filter_cons_of_pos (by simp [htitle]), List.flatMap_cons, List.map_append,
        List.flatten_append]

theorem forall₂_linesOf (ps : List (Bool × Paragraph)) :
  List.Forall₂ Contributes ps (ps.map linesOf)
  := by
  rw [List.forall₂_map_right_iff, List.forall₂_same]
  exact fun paragraph _ => contributes_linesOf paragraph

theorem length_flatten {ps : List (Bool × Paragraph)} {blocks : List (List String)}
    (h : List.Forall₂ Contributes ps blocks) :
  blocks.flatten.length = (ps.map lineCount).sum
  := by
  induction h with
  | nil => rfl
  | cons hlines _ ih => rw [List.flatten_cons, List.length_append, hlines.length_eq, ih,
      List.map_cons, List.sum_cons]

/-- The number of lines that the paragraphs of some shapes add. -/
def lineCounts (shapes : List Shape) : Nat :=
  ((shapes.flatMap Shape.entries).map lineCount).sum

theorem lineCounts_cons (shape : Shape) (shapes : List Shape) :
  lineCounts (shape :: shapes) = (shape.entries.map lineCount).sum + lineCounts shapes
  := by rw [lineCounts, List.flatMap_cons, List.map_append, List.sum_append, lineCounts]

theorem lineCounts_filter_le (shapes : List Shape) :
  lineCounts (shapes.filter fun shape => !shape.isTitle) ≤ lineCounts shapes
  := by
  induction shapes with
  | nil => exact Nat.le_refl _
  | cons shape shapes ih =>
    by_cases htitle : shape.isTitle
    · rw [List.filter_cons_of_neg (by simp [htitle]), lineCounts_cons]
      omega
    · rw [List.filter_cons_of_pos (by simp [htitle]), lineCounts_cons, lineCounts_cons]
      omega

theorem texts_eq_nil_of_sum {shape : Shape} (h : (shape.entries.map lineCount).sum = 0) :
  ∀ p ∈ shape.paragraphs, p.texts = []
  := by
  intro p hp
  have hentry : (shape.isTextBox, p) ∈ shape.entries := List.mem_map.mpr ⟨p, hp, rfl⟩
  have hle := List.le_sum_of_mem (List.mem_map_of_mem (f := lineCount) hentry)
  by_contra hne
  rw [h, lineCount, if_neg hne] at hle
  split at hle <;> omega

/-- If the shapes that are no titles add as many lines as all shapes, the titles are blank. -/
theorem texts_eq_nil_of_lineCounts {shapes : List Shape}
    (h : lineCounts shapes ≤ lineCounts (shapes.filter fun shape => !shape.isTitle)) :
  ∀ shape ∈ shapes, shape.isTitle → ∀ p ∈ shape.paragraphs, p.texts = []
  := by
  induction shapes with
  | nil => exact List.forall_mem_nil _
  | cons shape shapes ih =>
    have hle := lineCounts_filter_le shapes
    rw [List.forall_mem_cons]
    by_cases htitle : shape.isTitle
    · rw [List.filter_cons_of_neg (by simp [htitle]), lineCounts_cons] at h
      exact ⟨fun _ => texts_eq_nil_of_sum (by omega), ih (by omega)⟩
    · rw [List.filter_cons_of_pos (by simp [htitle]), lineCounts_cons, lineCounts_cons] at h
      exact ⟨fun hshape => absurd hshape htitle, ih (by omega)⟩

theorem Slide.KeepsText.texts_eq_nil {s : Slide} (h : s.KeepsText) :
  ∀ shape ∈ s.others, shape.isTitle → ∀ p ∈ shape.paragraphs, p.texts = []
  := by
  obtain ⟨title, blocks, hcontents, htitle, hblocks⟩ := h
  apply texts_eq_nil_of_lineCounts
  have hlength := congrArg List.length hcontents
  have hparagraphs := length_flatten (forall₂_linesOf s.paragraphs)
  have hothers := length_flatten hblocks
  rw [s.contents_eq] at hlength
  simp only [List.length_append, (holdsTitle_title s).length_eq, htitle.length_eq] at hlength
  rw [lineCounts, lineCounts, filter_others, ← paragraphs_eq, ← hparagraphs, ← hothers]
  omega

/-- A slide keeps its text exactly if the further titles are blank: what it is typeset to holds the
text of the first title, and one line for each other paragraph with a text.  Putting the text of a
run on one line loses nothing but white space. -/
theorem keepsText_iff (s : Slide) :
  (s.KeepsText ↔ ∀ shape ∈ s.others, shape.isTitle → ∀ p ∈ shape.paragraphs, p.texts = [])
    ∧ ∀ shape ∈ s.shapes, ∀ p ∈ shape.paragraphs, ∀ r ∈ p.runs,
      visible (joinLines r.text) = visible r.text
  := by
  refine ⟨⟨Slide.KeepsText.texts_eq_nil, fun hblank => ?_⟩,
    fun _ _ _ _ r _ => visible_joinLines r.text⟩
  refine ⟨_, _, ?_, holdsTitle_title s, forall₂_linesOf _⟩
  rw [flatten_linesOf hblank, filter_others, ← paragraphs_eq]
  exact s.contents_eq

/-- The text of a second title is lost. -/
theorem second_title_lost :
  let titled (text : String) : Shape :=
    { isTitle := true, paragraphs := [{ runs := [{ text := text.toList }] }] }
  let s : Slide := { shapes := [titled "A", titled "B"] }
  s.render = ["\\section*\x7bA\x7d", "", ""] ∧ ¬ s.KeepsText
  := by
  intro titled s
  refine ⟨by decide, fun hkeeps => ?_⟩
  have hblank := hkeeps.texts_eq_nil
  revert hblank
  decide

end Bindery.Deck
