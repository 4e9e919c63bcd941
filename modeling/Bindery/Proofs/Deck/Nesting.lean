import Bindery.Proofs.Deck.Render
import Bindery.Proofs.Outline.Balance

/-!
# Lists in typeset slides

The paragraphs of a slide are steps of an outline (`renderParagraphs_eq`), which the end of the
slide finishes.  No title and no paragraph looks like a marker of a list, whatever it says
(`isTame_paragraph`), so that the lists of a slide can be told from its lines alone: they are
balanced, at most eight deep, and every paragraph stands in as many of them as its level asks for
(`isNested`).  What one slide is typeset to does not depend on the others (`render_nested`).
-/

namespace Bindery.Deck

open Escape (IsTame)
open Outline (Line Step itemLine openMarker closeMarker openings closings placed)

/-! ### Texts that are no markers -/

theorem isTame_literal (text : List Char) :
  IsTame (literal text)
  := Escape.isTame_smartQuotes (Escape.isTame_escape text)

/-- A command of a slide. -/
def IsCommand (command : String) : Prop :=
  IsTame ('\\' :: command.toList ++ ['{'])

instance (command : String) : Decidable (IsCommand command) :=
  inferInstanceAs (Decidable (IsTame _))

theorem isTame_inCommand {command : String} (hcommand : IsCommand command) {text : List Char}
    (h : IsTame text) :
  IsTame (inCommand command text)
  := by
  have hbegin : IsTame (('\\' :: command.toList ++ ['{']) ++ text) := by
    apply Escape.IsTame.append hcommand h
    rw [List.getLast?_concat]
    decide
  have hparts : inCommand command text = ('\\' :: command.toList ++ ['{']) ++ text ++ ['}'] := by
    rw [inCommand, List.append_assoc _ ['{'] text]
    rfl
  rw [hparts]
  exact hbegin.concat (by decide)

theorem isTame_inCommandIf (condition : Bool) {command : String} (hcommand : IsCommand command)
    {text : List Char} (h : IsTame text) :
  IsTame (inCommandIf condition command text)
  := by
  unfold inCommandIf
  split
  · exact isTame_inCommand hcommand h
  · exact h

theorem isTame_run {r : Run} {text : List Char} (h : r.render? = some text) :
  IsTame text
  := by
  unfold Run.render? at h
  dsimp only at h
  split at h
  · cases h
  · injection h with h
    rw [← h]
    apply isTame_inCommandIf _ (by decide)
    apply isTame_inCommandIf _ (by decide)
    apply isTame_inCommandIf _ (by decide)
    apply isTame_literal

theorem isTame_joinWith {texts : List (List Char)} (h : ∀ text ∈ texts, IsTame text) :
  IsTame (Text.joinWith [' '] texts)
  := by
  refine Text.joinWith_induction (P := IsTame) List.isChain_nil
    (fun before after hbefore hafter => ?_) h
  apply (hbefore.concat (by decide)).append hafter
  rw [List.getLast?_concat]
  decide

theorem isTame_paragraph {p : Paragraph} {text : List Char} (h : p.render? = some text) :
  IsTame text
  := by
  unfold Paragraph.render? at h
  dsimp only at h
  split at h
  · cases h
  · injection h with h
    rw [← h]
    apply isTame_joinWith
    intro part hpart
    obtain ⟨r, -, hr⟩ := List.mem_filterMap.mp hpart
    exact isTame_run hr

theorem ne_marker_of_isTame {text : List Char} (h : IsTame text) :
  String.ofList text ≠ openMarker ∧ String.ofList text ≠ closeMarker
  := by
  have hopen : ¬ IsTame openMarker.toList := by decide
  have hclose : ¬ IsTame closeMarker.toList := by decide
  constructor
  · intro heq
    rw [← heq, String.toList_ofList] at hopen
    exact hopen h
  · intro heq
    rw [← heq, String.toList_ofList] at hclose
    exact hclose h

/-! ### Paragraphs as steps of an outline -/

/-- The steps of a paragraph, which is in a text box or not.  The empty line behind a text box is a
step of its own. -/
def stepsOf (paragraph : Bool × Paragraph) : List Step :=
  match paragraph.2.render? with
  | none => []
  | some text =>
    if paragraph.1 then [.plain (String.ofList text), .plain ""]
    else [.item paragraph.2.level (String.ofList text)]

theorem renderParagraph_eq (paragraph : Bool × Paragraph) (o : Outline) :
  renderParagraph paragraph.1 o paragraph.2
    = ((o.outputs (stepsOf paragraph)).flatten, o.after (stepsOf paragraph))
  := by
  obtain ⟨isTextBox, p⟩ := paragraph
  unfold renderParagraph stepsOf
  dsimp only
  cases p.render? with
  | none => rfl
  | some text =>
    cases isTextBox with
    | true => simp [Outline.outputs, Outline.after, Outline.perform, Outline.plain, Outline.finish]
    | false => simp [Outline.outputs, Outline.after, Outline.perform]

/-- The paragraphs of a slide and the empty line behind them are steps of an outline. -/
theorem renderParagraphs_eq (o : Outline) (ps : List (Bool × Paragraph)) :
  renderParagraphs o ps ++ [""] = (o.outputs (ps.flatMap stepsOf ++ [.plain ""])).flatten
  := by
  induction ps generalizing o with
  | nil => exact (List.append_nil _).symm
  | cons paragraph ps ih =>
    rw [renderParagraphs, renderParagraph_eq]
    dsimp only
    rw [List.append_assoc, ih, List.flatMap_cons, List.append_assoc, Outline.outputs_append o,
      List.flatten_append]

/-- The steps of a slide. -/
def Slide.steps (s : Slide) : List Step :=
  ((s.title?.map titleLines).getD []).map .plain ++ s.paragraphs.flatMap stepsOf ++ [.plain ""]

theorem outputs_plain {o : Outline} (h : o.opened = 0) (lines : List String) :
  (o.outputs (lines.map .plain)).flatten = lines ∧ o.after (lines.map .plain) = o
  := by
  obtain ⟨maxDepth, opened⟩ := o
  obtain rfl : opened = 0 := h
  induction lines with
  | nil => exact ⟨rfl, rfl⟩
  | cons line lines ih => exact ⟨congrArg (line :: ·) ih.1, ih.2⟩

/-- A slide is typeset in steps of a new outline. -/
theorem Slide.render_eq (s : Slide) :
  s.render = (({} : Outline).outputs s.steps).flatten
  := by
  obtain ⟨htitle, hafter⟩ := outputs_plain (o := {}) rfl ((s.title?.map titleLines).getD [])
  rw [steps, List.append_assoc, Outline.outputs_append, List.flatten_append, htitle, hafter,
    ← renderParagraphs_eq, ← List.append_assoc]
  rfl

/-- No step of a slide has the text of a marker. -/
theorem Slide.text?_of_mem_steps {s : Slide} {step : Step} (h : step ∈ s.steps) :
  step.text? ≠ some openMarker ∧ step.text? ≠ some closeMarker
  := by
  have hempty : (some "" ≠ some openMarker) ∧ some "" ≠ some closeMarker := by decide
  have htame {text : List Char} (h : IsTame text) :
      some (String.ofList text) ≠ some openMarker
        ∧ some (String.ofList text) ≠ some closeMarker := by
    obtain ⟨hopen, hclose⟩ := ne_marker_of_isTame h
    exact ⟨fun heq => hopen (Option.some.inj heq), fun heq => hclose (Option.some.inj heq)⟩
  rw [steps, List.mem_append, List.mem_append, List.mem_singleton] at h
  rcases h with (h | h) | rfl
  · obtain ⟨line, hline, rfl⟩ := List.mem_map.mp h
    cases htitle : s.title? with
    | none =>
      rw [htitle] at hline
      cases hline
    | some title =>
      rw [htitle] at hline
      change line ∈ [_, ""] at hline
      rcases List.mem_pair.mp hline with rfl | rfl
      · exact htame (isTame_inCommand (by decide) (isTame_literal title))
      · exact hempty
  · obtain ⟨⟨isTextBox, p⟩, -, h⟩ := List.mem_flatMap.mp h
    unfold stepsOf at h
    dsimp only at h
    split at h
    · cases h
    · next text hp =>
      have htext := htame (isTame_paragraph hp)
      split at h
      · rcases List.mem_pair.mp h with rfl | rfl
        · exact htext
        · exact hempty
      · rw [List.mem_singleton.mp h]
        exact htext
  · exact hempty

/-! ### Slides one after another -/

/-- Typesets paragraphs, each with whether it is in a text box, and hands the outline on. -/
def renderParagraphsWith (o : Outline) : List (Bool × Paragraph) → List String × Outline
  | [] => o.finish
  | (isTextBox, p) :: ps =>
    let (lines, o) := renderParagraph isTextBox o p
    let (rest, o) := renderParagraphsWith o ps
    (lines ++ rest, o)

/-- Typesets slides, with an outline that is handed on from each to the next. -/
def renderWith (o : Outline) : List Slide → List String × Outline
  | [] => ([], o)
  | s :: slides =>
    let (lines, o) := renderParagraphsWith o s.paragraphs
    let (rest, o) := renderWith o slides
    ((s.title?.map titleLines).getD [] ++ lines ++ [""] ++ rest, o)

theorem renderParagraphsWith_eq (o : Outline) (ps : List (Bool × Paragraph)) :
  renderParagraphsWith o ps = (renderParagraphs o ps, { o with opened := 0 })
  := by
  induction ps generalizing o with
  | nil => rfl
  | cons paragraph ps ih =>
    have hmax := Outline.maxDepth_after o (stepsOf paragraph)
    rw [renderParagraphsWith, renderParagraphs, renderParagraph_eq]
    dsimp only
    rw [ih, hmax]

/-- Handing on an outline makes no difference, since every slide closes its lists. -/
theorem renderWith_eq (slides : List Slide) :
  renderWith {} slides = (render slides, {})
  := by
  induction slides with
  | nil => rfl
  | cons s slides ih =>
    rw [renderWith, renderParagraphsWith_eq]
    dsimp only
    rw [ih]
    rfl

/-! ### The lists of a slide -/

/-- The lines of a paragraph, each with the number of lists in which it is to stand. -/
def placedLines (paragraph : Bool × Paragraph) : List (Nat × String) :=
  match paragraph.2.render? with
  | none => []
  | some text =>
    if paragraph.1 then [(0, String.ofList text), (0, "")]
    else [(min paragraph.2.level 7 + 1, itemLine (String.ofList text))]

/-- The lines of the title of a slide, which stand outside of every list. -/
def Slide.placedTitle (s : Slide) : List (Nat × String) :=
  ((s.title?.map titleLines).getD []).map (0, ·)

/-- The lines of a slide as they look. -/
def Slide.trail (s : Slide) : List Line :=
  s.render.map .of

/-- The lists of a slide. -/
structure Slide.IsNested (s : Slide) : Prop where
  /-- Between any two lines no more lists were closed than opened, and at most eight are open. -/
  bounds : ∀ before, before <+: s.trail →
    closings before ≤ openings before ∧ openings before ≤ closings before + 8
  /-- No list is open in the end. -/
  closed : openings s.trail = closings s.trail
  /-- The lines that are no markers are those of the title and of the paragraphs, each in as many
  lists as it is to stand in, and an empty one. -/
  placed : placed 0 s.trail = s.placedTitle ++ s.paragraphs.flatMap placedLines ++ [(0, "")]
  /-- The lines of a paragraph follow each other without a marker between them. -/
  together : ∀ before paragraph after, s.paragraphs = before ++ paragraph :: after →
    ∃ earlier later, s.render = earlier ++ (placedLines paragraph).map Prod.snd ++ later
      ∧ Outline.placed 0 (earlier.map .of) = s.placedTitle ++ before.flatMap placedLines

theorem isSound_new :
  ({} : Outline).IsSound
  where
  max_le := by decide
  one_le_max := by decide
  opened_le := by decide

theorem Slide.trail_eq (s : Slide) :
  s.trail = ({} : Outline).trail s.steps
  := by
  rw [trail, render_eq]
  exact (Outline.trail_eq_map_of isSound_new.max_le fun _ => text?_of_mem_steps).symm

/-- The line of a step with the number of lists in which it stands. -/
def placedLine (step : Step) : List (Nat × String) :=
  step.line?.toList.map (step.opened ({} : Outline).maxDepth, ·)

theorem flatMap_stepsOf (paragraph : Bool × Paragraph) :
  (stepsOf paragraph).flatMap placedLine = placedLines paragraph
  := by
  unfold stepsOf placedLines
  split
  · rfl
  · split <;> rfl

/-- The steps of a slide up to some paragraph. -/
def Slide.stepsTo (s : Slide) (before : List (Bool × Paragraph)) : List Step :=
  ((s.title?.map titleLines).getD []).map .plain ++ before.flatMap stepsOf

/-- The lines of the title and of some paragraphs stand where they are to stand. -/
theorem Slide.flatMap_stepsTo (s : Slide) (before : List (Bool × Paragraph)) :
  (s.stepsTo before).flatMap placedLine = s.placedTitle ++ before.flatMap placedLines
  := by
  have htitle (lines : List String) :
      (lines.map Step.plain).flatMap placedLine = lines.map (0, ·) := by
    rw [List.flatMap_map]
    exact List.flatMap_pure_eq_map ..
  have hparagraphs : (before.flatMap stepsOf).flatMap placedLine = before.flatMap placedLines := by
    rw [List.flatMap_assoc]
    exact List.flatMap_congr fun paragraph _ => flatMap_stepsOf paragraph
  rw [stepsTo, List.flatMap_append, htitle, hparagraphs, placedTitle]

/-- A paragraph is written behind markers that lead to its place. -/
theorem exists_markers (paragraph : Bool × Paragraph) {o : Outline} (ho : o.IsSound) :
  ∃ markers : List String, (∀ marker ∈ markers, marker = openMarker ∨ marker = closeMarker)
    ∧ (o.outputs (stepsOf paragraph)).flatten
      = markers ++ (placedLines paragraph).map Prod.snd
  := by
  unfold stepsOf placedLines
  split
  · use []
    exact ⟨List.forall_mem_nil _, rfl⟩
  · next text htext =>
    split
    · use List.replicate o.opened closeMarker
      refine ⟨fun marker h => Or.inr (List.eq_of_mem_replicate h), ?_⟩
      simp [Outline.outputs, Outline.perform, Outline.plain, Outline.finish]
    · obtain ⟨n, ⟨hout, -⟩ | ⟨hout, -⟩⟩ :=
        (Outline.moves ho.max_le (.item paragraph.2.level (String.ofList text))).markers
      · use List.replicate n openMarker
        refine ⟨fun marker h => Or.inl (List.eq_of_mem_replicate h), ?_⟩
        rw [Outline.outputs, hout]
        exact List.append_nil _
      · use List.replicate n closeMarker
        refine ⟨fun marker h => Or.inr (List.eq_of_mem_replicate h), ?_⟩
        rw [Outline.outputs, hout]
        exact List.append_nil _

theorem ne_content_of_marker {markers : List String}
    (h : ∀ marker ∈ markers, marker = openMarker ∨ marker = closeMarker) :
  ∀ m ∈ markers.map Line.of, ∀ line, m ≠ .content line
  := by
  intro m hm line
  obtain ⟨marker, hmarker, rfl⟩ := List.mem_map.mp hm
  rcases h marker hmarker with rfl | rfl
  · exact Line.noConfusion
  · exact Line.noConfusion

/-- A paragraph is written in one piece, after the lines of those before it. -/
theorem Slide.exists_earlier {s : Slide} {before after : List (Bool × Paragraph)}
    {paragraph : Bool × Paragraph} (h : s.paragraphs = before ++ paragraph :: after) :
  ∃ earlier later, s.render = earlier ++ (placedLines paragraph).map Prod.snd ++ later
    ∧ placed 0 (earlier.map .of) = s.placedTitle ++ before.flatMap placedLines
  := by
  have hsteps : s.steps = s.stepsTo before ++ (stepsOf paragraph
      ++ (after.flatMap stepsOf ++ [.plain ""])) := by
    simp only [steps, stepsTo, h, List.flatMap_append, List.flatMap_cons, List.append_assoc]
  have htexts : ∀ step ∈ s.stepsTo before,
      step.text? ≠ some openMarker ∧ step.text? ≠ some closeMarker := by
    intro step hstep
    apply text?_of_mem_steps (s := s)
    rw [hsteps]
    exact List.mem_append_left _ hstep
  have hsound := isSound_new.after (s.stepsTo before)
  obtain ⟨markers, hmarkers, hout⟩ := exists_markers paragraph hsound
  let o := ({} : Outline).after (s.stepsTo before)
  let behind := (o.after (stepsOf paragraph)).outputs (after.flatMap stepsOf ++ [.plain ""])
  refine ⟨(({} : Outline).outputs (s.stepsTo before)).flatten ++ markers, behind.flatten, ?_, ?_⟩
  · rw [render_eq, hsteps, Outline.outputs_append, Outline.outputs_append, List.flatten_append,
      List.flatten_append, hout, List.append_assoc, List.append_assoc, List.append_assoc]
  · rw [List.map_append, Outline.placed_append_markers (ne_content_of_marker hmarkers),
      ← Outline.trail_eq_map_of isSound_new.max_le htexts]
    exact (Outline.placed_trail isSound_new.max_le _).trans (s.flatMap_stepsTo before)

theorem Slide.isNested (s : Slide) :
  s.IsNested
  where
  bounds := by
    intro before hbefore
    rw [trail_eq] at hbefore
    have hbounds := isSound_new.bounds hbefore
    rwa [Nat.zero_add] at hbounds
  closed := by
    have hopened := Outline.opened_after isSound_new.max_le s.steps
    have hend : (({} : Outline).after s.steps).opened = 0 := by
      rw [steps, Outline.after, List.foldl_concat]
      rfl
    rw [hend, Nat.zero_add, Nat.zero_add] at hopened
    rw [trail_eq]
    exact hopened.symm
  placed := by
    have hlast : s.steps = s.stepsTo s.paragraphs ++ [.plain ""] := rfl
    have hplaced := Outline.placed_trail isSound_new.max_le s.steps
    rw [trail_eq]
    refine hplaced.trans ?_
    rw [hlast, List.flatMap_append]
    exact congrArg (· ++ _) (s.flatMap_stepsTo s.paragraphs)
  together := fun _ _ _ => exists_earlier

/-- What slides are typeset to is what each of them is typeset to, one after another, although one
outline is handed on from each to the next.  The lists of each slide are nested: whatever its titles
and paragraphs say, these stand where they are to stand. -/
theorem render_nested :
  (∀ a b, render (a ++ b) = render a ++ render b)
    ∧ (∀ slides, renderWith {} slides = (render slides, {}))
    ∧ ∀ s : Slide, s.IsNested
  := ⟨fun _ _ => List.flatMap_append, renderWith_eq, Slide.isNested⟩

end Bindery.Deck
