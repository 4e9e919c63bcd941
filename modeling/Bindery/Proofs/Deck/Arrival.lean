import Mathlib.Data.List.ReduceOption
import Bindery.Proofs.Deck.Reading

/-!
# The order in which text arrives

Reading a slide can lose text, since runs, paragraphs and shapes that are not nested as they should
be are replaced or have nowhere to go.  But it invents, doubles and reorders nothing.  What arrives
is told in marks (`arriving`): the character data that come while a text element is open in a run,
and one mark for each element that breaks the line.  The slide that is read is held against the one
that is read without line breaks, which has the same runs without line feeds between them; the marks
of both together tell which is which (`Slide.WithBreaks`).  A reader holds what it has read by age,
that on the slide before that in the open shape, and so on down to the open run.  Events move it one
level up or drop it, and add only their own marks, at the end (`Reader.Follows.step`).  So the marks
of the slide are part, in their order, of those that arrive (`arrival_ofEvents`).
-/

namespace Bindery.Deck

open Xml (localName Tag)
open scoped List

/-! ### The characters of a slide -/

/-- The texts of the runs. -/
def Paragraph.characters (p : Paragraph) : List Char :=
  p.runs.flatMap Run.text

/-- The texts of the paragraphs. -/
def Shape.characters (s : Shape) : List Char :=
  s.paragraphs.flatMap Paragraph.characters

/-- The texts of the shapes. -/
def Slide.characters (s : Slide) : List Char :=
  s.shapes.flatMap Shape.characters

/-! ### What is heard -/

/-- Whether a run is open, and a text element in a run. -/
structure Ears where
  inRun : Bool := false
  inText : Bool := false

namespace Ears

/-- A start tag has been read. -/
def start (ears : Ears) (t : Tag) : Ears :=
  match Reader.Element.of (localName t.name) with
  | .run => { ears with inRun := true }
  | .text => { ears with inText := ears.inRun }
  | _ => ears

/-- An end tag has been read. -/
def stop (ears : Ears) (name : List Char) : Ears :=
  match Reader.Element.of (localName name) with
  | .run => { ears with inRun := false }
  | .text => { ears with inText := false }
  | _ => ears

/-- An event has been read. -/
def step (ears : Ears) : Xml.Event → Ears
  | .start t => ears.start t
  | .empty t => (ears.start t).stop t.name
  | .stop name => ears.stop name
  | .text _ => ears

/-- The character data of an event, if it comes while a text element is open in a run. -/
def said (ears : Ears) : Xml.Event → List Char
  | .text content => if ears.inText && ears.inRun then content else []
  | .start _ | .empty _ | .stop _ => []

end Ears

/-- The character data of the events that come while a text element is open in a run. -/
def heard (ears : Ears) : List Xml.Event → List Char
  | [] => []
  | e :: es => ears.said e ++ heard (ears.step e) es

/-- The event starts or ends a line break. -/
def breaks : Xml.Event → Bool
  | .start t | .empty t => Reader.Element.of (localName t.name) = .lineBreak
  | .stop name => Reader.Element.of (localName name) = .lineBreak
  | .text _ => false

theorem Ears.step_of_breaks (ears : Ears) {e : Xml.Event} (h : breaks e = true) :
  ears.step e = ears
  := by
  cases e with
  | start t | empty t | stop name =>
    have helement := of_decide_eq_true h
    simp [Ears.step, Ears.start, Ears.stop, helement]
  | text content => rfl

/-! ### What arrives -/

/-- Something that arrives: a character, or a line break. -/
abbrev Mark : Type := Option Char

/-- The marks of an event: its character data, if they come while a text element is open in a run,
or a line break, if it is the start of one. -/
def Ears.marks (ears : Ears) : Xml.Event → List Mark
  | .start t | .empty t =>
    if Reader.Element.of (localName t.name) = .lineBreak then [none] else []
  | .stop _ => []
  | .text content => (ears.said (.text content)).map some

/-- The marks of the events, in order. -/
def arriving (ears : Ears) : List Xml.Event → List Mark
  | [] => []
  | e :: es => ears.marks e ++ arriving (ears.step e) es

theorem reduceOption_map_some (cs : List Char) :
  (cs.map some).reduceOption = cs
  := by simp [List.reduceOption]

/-- Without the line breaks, what arrives is what is heard. -/
theorem reduceOption_arriving (ears : Ears) (es : List Xml.Event) :
  (arriving ears es).reduceOption = heard ears es
  := by
  induction es generalizing ears with
  | nil => rfl
  | cons e es ih =>
    have hmarks : (ears.marks e).reduceOption = ears.said e := by
      cases e with
      | start t | empty t =>
        rw [Ears.marks]
        split <;> rfl
      | stop name => rfl
      | text content => exact reduceOption_map_some _
    rw [arriving, heard, List.reduceOption_append, hmarks, ih]

/-! ### Line breaks -/

/-- The marks of the text of a run. -/
def Run.marks (run : Run) : List Mark :=
  run.text.map some

/-- The second runs are the first with line feeds put between them.  The marks are those of the
text of the first, with a line break for each line feed that is put between. -/
inductive WithBreaks : List Run → List Run → List Mark → Prop
  | nil : WithBreaks [] [] []
  | keep {run : Run} {runs runs' : List Run} {marks : List Mark}
      (rest : WithBreaks runs runs' marks) :
    WithBreaks (run :: runs) (run :: runs') (run.marks ++ marks)
  | feed {runs runs' : List Run} {marks : List Mark} (rest : WithBreaks runs runs' marks) :
    WithBreaks runs ({ text := ['\n'] } :: runs') (none :: marks)

theorem WithBreaks.append {runs runs' more more' : List Run} {marks marks' : List Mark}
    (h : WithBreaks runs runs' marks) (hmore : WithBreaks more more' marks') :
  WithBreaks (runs ++ more) (runs' ++ more') (marks ++ marks')
  := by
  induction h with
  | nil => exact hmore
  | keep rest ih =>
    rw [List.append_assoc]
    exact ih.keep
  | feed rest ih => exact ih.feed

/-- The elements of two lists are related one by one, and have these marks all together. -/
inductive Each {α : Type} (R : α → α → List Mark → Prop) : List α → List α → List Mark → Prop
  | nil : Each R [] [] []
  | cons {a a' : α} {as as' : List α} {marks marks' : List Mark} (first : R a a' marks)
      (rest : Each R as as' marks') : Each R (a :: as) (a' :: as') (marks ++ marks')

theorem Each.concat {α : Type} {R : α → α → List Mark → Prop} {as as' : List α} {a a' : α}
    {marks marks' : List Mark} (h : Each R as as' marks) (hlast : R a a' marks') :
  Each R (as ++ [a]) (as' ++ [a']) (marks ++ marks')
  := by
  induction h with
  | nil =>
    have hone := Each.cons hlast .nil
    rwa [List.append_nil] at hone
  | cons first _ ih =>
    rw [List.append_assoc]
    exact .cons first ih

/-- What two places hold is related, and has these marks; nothing has none. -/
inductive Held {α : Type} (R : α → α → List Mark → Prop) : Option α → Option α → List Mark → Prop
  | none : Held R none none []
  | some {a a' : α} {marks : List Mark} (h : R a a' marks) : Held R (some a) (some a') marks

section Held

variable {α : Type} {R : α → α → List Mark → Prop} {x x' : Option α} {marks : List Mark}

theorem Held.map (h : Held R x x' marks) {f g : α → α}
    (hf : ∀ a a', R a a' marks → R (f a) (g a') marks) :
  Held R (x.map f) (x'.map g) marks
  := by
  cases h with
  | none => exact .none
  | some h => exact .some (hf _ _ h)

theorem Held.isSome_eq (h : Held R x x' marks) :
  x'.isSome = x.isSome
  := by
  cases h <;> rfl

end Held

/-- The second paragraph is the first with line breaks. -/
structure Paragraph.WithBreaks (p p' : Paragraph) (marks : List Mark) : Prop where
  level : p'.level = p.level
  runs : Deck.WithBreaks p.runs p'.runs marks

/-- The second shape is the first with line breaks. -/
structure Shape.WithBreaks (s s' : Shape) (marks : List Mark) : Prop where
  isTitle : s'.isTitle = s.isTitle
  isTextBox : s'.isTextBox = s.isTextBox
  paragraphs : Each Paragraph.WithBreaks s.paragraphs s'.paragraphs marks

/-- The second slide is the first with line breaks. -/
structure Slide.WithBreaks (s s' : Slide) (marks : List Mark) : Prop where
  shapes : Each Shape.WithBreaks s.shapes s'.shapes marks

/-! ### The marks of a slide -/

theorem reduceOption_of_withBreaks {runs runs' : List Run} {marks : List Mark}
    (h : WithBreaks runs runs' marks) :
  marks.reduceOption = runs.flatMap Run.text
  := by
  induction h with
  | nil => rfl
  | keep _ ih => rw [List.reduceOption_append, Run.marks, reduceOption_map_some, ih,
      List.flatMap_cons]
  | feed _ ih => exact ih

theorem reduceOption_of_each {α : Type} {R : α → α → List Mark → Prop} {text : α → List Char}
    (hR : ∀ a a' marks, R a a' marks → marks.reduceOption = text a) {as as' : List α}
    {marks : List Mark} (h : Each R as as' marks) :
  marks.reduceOption = as.flatMap text
  := by
  induction h with
  | nil => rfl
  | cons first _ ih => rw [List.reduceOption_append, hR _ _ _ first, ih, List.flatMap_cons]

/-- Without line breaks, the marks are the text of the slide that has none. -/
theorem Slide.WithBreaks.reduceOption_marks {s s' : Slide} {marks : List Mark}
    (h : s.WithBreaks s' marks) :
  marks.reduceOption = s.characters
  := by
  apply reduceOption_of_each _ h.shapes
  intro s s' marks hs
  apply reduceOption_of_each _ hs.paragraphs
  intro p p' marks hp
  exact reduceOption_of_withBreaks hp.runs

/-! ### What a reader is told to be open -/

namespace Reader

/-- What is open in the reader has been opened. -/
structure Heeds (r : Reader) (ears : Ears) : Prop where
  run : r.run.isSome = true → ears.inRun = true
  text : r.inText = true → ears.inText = true

namespace Heeds

variable {r : Reader} {ears : Ears}

theorem start (h : r.Heeds ears) (t : Tag) :
  (r.start t).Heeds (ears.start t)
  := by
  constructor
  · rw [Reader.start, Ears.start]
    cases Element.of (localName t.name) with
    | run => exact fun _ => rfl
    | paragraph | paragraphProperties | lineBreak =>
      dsimp only
      split <;> exact h.run
    | runProperties =>
      intro hrun
      apply h.run
      simpa [onRun] using hrun
    | _ => exact h.run
  · rw [inText_start, Ears.start]
    cases Element.of (localName t.name) with
    | text => exact h.run
    | _ => exact h.text

theorem stop (h : r.Heeds ears) (name : List Char) :
  (r.stop name).Heeds (ears.stop name)
  := by
  constructor
  · rw [Reader.stop, Ears.stop]
    cases Element.of (localName name) with
    | run =>
      dsimp only
      unfold closeRun
      split <;> simp_all
    | paragraph =>
      dsimp only
      unfold closeParagraph
      split <;> exact h.run
    | shape =>
      dsimp only
      unfold closeShape
      split <;> exact h.run
    | _ => exact h.run
  · rw [inText_stop, Ears.stop]
    cases Element.of (localName name) with
    | text => exact fun hinText => absurd hinText (by simp)
    | _ => exact h.text

theorem step (h : r.Heeds ears) (e : Xml.Event) :
  (r.step e).Heeds (ears.step e)
  := by
  cases e with
  | start t => exact h.start t
  | empty t => exact (h.start t).stop t.name
  | stop name => exact h.stop name
  | text content =>
    rw [Reader.step, Reader.text]
    split
    · constructor
      · intro hrun
        apply h.run
        simpa [onRun] using hrun
      · exact h.text
    · exact h

end Heeds

/-! ### The age of text -/

/-- The marks of the open run. -/
def runMarks (r : Reader) : List Mark :=
  r.run.elim [] Run.marks

/-- The second reader is the first with line breaks, and the marks of what they hold, the oldest
first, are part of these. -/
inductive Follows (r r' : Reader) (marks : List Mark) : Prop
  | intro {ofSlide ofShape ofParagraph : List Mark} (slide : r.slide.WithBreaks r'.slide ofSlide)
      (shape : Held Shape.WithBreaks r.shape r'.shape ofShape) (inBody : r'.inBody = r.inBody)
      (paragraph : Held Paragraph.WithBreaks r.paragraph r'.paragraph ofParagraph)
      (run : r'.run = r.run) (inText : r'.inText = r.inText)
      (age : ofSlide ++ (ofShape ++ (ofParagraph ++ r.runMarks)) <+ marks) : Follows r r' marks

/-- The end of a line break does nothing. -/
theorem stop_of_lineBreak (r : Reader) {name : List Char}
    (hname : Element.of (localName name) = .lineBreak) :
  r.stop name = r
  := by rw [stop, hname]

namespace Follows

variable {r r' : Reader} {marks : List Mark}

/-- What is part of the marks is part of more marks. -/
theorem more (h : Follows r r' marks) (marks' : List Mark) :
  Follows r r' (marks ++ marks')
  := by
  obtain ⟨hslide, hshape, hinBody, hparagraph, hrun, hinText, hage⟩ := h
  exact ⟨hslide, hshape, hinBody, hparagraph, hrun, hinText,
    hage.trans (List.sublist_append_left _ _)⟩

theorem onShape {f g : Shape → Shape} (h : Follows r r' marks)
    (hf : ∀ s s' ms, s.WithBreaks s' ms → (f s).WithBreaks (g s') ms) :
  Follows (r.onShape f) (r'.onShape g) marks
  := by
  obtain ⟨hslide, hshape, hinBody, hparagraph, hrun, hinText, hage⟩ := h
  exact ⟨hslide, hshape.map fun s s' => hf s s' _, hinBody, hparagraph, hrun, hinText, hage⟩

/-- The start of an element that is no line break can only lose text. -/
theorem start (h : Follows r r' marks) {t : Tag}
    (ht : Element.of (localName t.name) ≠ .lineBreak) :
  Follows (r.start t) (r'.start t) marks
  := by
  rw [Reader.start, Reader.start]
  -- Only a shape, a paragraph or a run that was open can be replaced, and its text is lost with it.
  cases helement : Element.of (localName t.name) with
  | shape =>
    obtain ⟨hslide, hshape, hinBody, hparagraph, hrun, hinText, hage⟩ := h
    refine ⟨hslide, .some ⟨rfl, rfl, .nil⟩, hinBody, hparagraph, hrun, hinText, ?_⟩
    exact ((List.sublist_append_right _ _).append_left _).trans hage
  | shapeProperties =>
    apply h.onShape
    intro s s' ms hs
    exact ⟨hs.isTitle, congrArg (· || isOn t "txBox") hs.isTextBox, hs.paragraphs⟩
  | placeholder =>
    apply h.onShape
    intro s s' ms hs
    exact ⟨congrArg (· || isTitlePlaceholder t) hs.isTitle, hs.isTextBox, hs.paragraphs⟩
  | body =>
    obtain ⟨hslide, hshape, hinBody, hparagraph, hrun, hinText, hage⟩ := h
    exact ⟨hslide, hshape, hshape.isSome_eq, hparagraph, hrun, hinText, hage⟩
  | paragraph =>
    obtain ⟨hslide, hshape, hinBody, hparagraph, hrun, hinText, hage⟩ := h
    dsimp only
    rw [hinBody]
    split
    · refine ⟨hslide, hshape, rfl, .some ⟨rfl, .nil⟩, hrun, hinText, ?_⟩
      exact (((List.sublist_append_right _ _).append_left _).append_left _).trans hage
    · exact ⟨hslide, hshape, hinBody, hparagraph, hrun, hinText, hage⟩
  | paragraphProperties =>
    obtain ⟨hslide, hshape, hinBody, hparagraph, hrun, hinText, hage⟩ := h
    dsimp only
    split
    · refine ⟨hslide, hshape, hinBody, hparagraph.map ?_, hrun, hinText, hage⟩
      exact fun p p' hp => ⟨rfl, hp.runs⟩
    · exact ⟨hslide, hshape, hinBody, hparagraph, hrun, hinText, hage⟩
  | run =>
    obtain ⟨hslide, hshape, hinBody, hparagraph, hrun, hinText, hage⟩ := h
    dsimp only
    rw [hparagraph.isSome_eq]
    split
    · refine ⟨hslide, hshape, hinBody, hparagraph, rfl, hinText, ?_⟩
      exact ((((List.nil_sublist _).append_left _).append_left _).append_left _).trans hage
    · exact ⟨hslide, hshape, hinBody, hparagraph, hrun, hinText, hage⟩
  | lineBreak => exact absurd helement ht
  | runProperties =>
    obtain ⟨hslide, hshape, hinBody, hparagraph, hrun, hinText, hage⟩ := h
    have hmarks : (r.onRun (withFormat t)).runMarks = r.runMarks := by
      unfold runMarks onRun
      cases r.run <;> rfl
    refine ⟨hslide, hshape, hinBody, hparagraph, congrArg (Option.map _) hrun, hinText, ?_⟩
    rw [hmarks]
    exact hage
  | text =>
    obtain ⟨hslide, hshape, hinBody, hparagraph, hrun, hinText, hage⟩ := h
    exact ⟨hslide, hshape, hinBody, hparagraph, hrun, congrArg Option.isSome hrun, hage⟩
  | other => exact h

/-- A run goes into its paragraph, or is lost if there is none. -/
theorem closeRun (h : Follows r r' marks) :
  Follows r.closeRun r'.closeRun marks
  := by
  obtain ⟨hslide, hshape, hinBody, hparagraph, hrun, hinText, hage⟩ := h
  unfold Reader.closeRun
  rw [hrun]
  unfold runMarks at hage
  cases hopen : r.run with
  | none =>
    rw [hopen] at hage
    refine ⟨hslide, hshape, hinBody, hparagraph, hrun, hinText, ?_⟩
    rwa [runMarks, hopen]
  | some run =>
    rw [hopen] at hage
    dsimp only
    unfold onParagraph
    generalize r.paragraph = x at hparagraph
    generalize r'.paragraph = x' at hparagraph
    cases hparagraph with
    | none =>
      refine ⟨hslide, hshape, hinBody, .none, rfl, hinText, ?_⟩
      exact (((List.nil_sublist _).append_left _).append_left _).trans hage
    | some hp =>
      have hlast : WithBreaks [run] [run] (run.marks ++ []) := .keep .nil
      refine ⟨hslide, hshape, hinBody, .some ⟨hp.level, hp.runs.append hlast⟩, rfl, hinText, ?_⟩
      simpa [runMarks] using hage

/-- A paragraph goes into its shape, or is lost if there is none. -/
theorem closeParagraph (h : Follows r r' marks) :
  Follows r.closeParagraph r'.closeParagraph marks
  := by
  obtain ⟨hslide, hshape, hinBody, hparagraph, hrun, hinText, hage⟩ := h
  unfold Reader.closeParagraph
  generalize hx : r.paragraph = x at hparagraph
  generalize hx' : r'.paragraph = x' at hparagraph
  cases hparagraph with
  | none => exact ⟨hslide, hshape, hinBody, by rw [hx, hx']; exact .none, hrun, hinText, hage⟩
  | some hp =>
    dsimp only
    unfold Reader.onShape
    generalize r.shape = y at hshape
    generalize r'.shape = y' at hshape
    cases hshape with
    | none =>
      refine ⟨hslide, .none, hinBody, .none, hrun, hinText, ?_⟩
      exact (((List.sublist_append_right _ _)).append_left _).trans hage
    | some hs =>
      have hkept := hs.paragraphs.concat hp
      refine ⟨hslide, .some ⟨hs.isTitle, hs.isTextBox, hkept⟩, hinBody, .none, hrun, hinText, ?_⟩
      simpa [runMarks] using hage

/-- A shape goes onto the slide. -/
theorem closeShape (h : Follows r r' marks) :
  Follows r.closeShape r'.closeShape marks
  := by
  obtain ⟨hslide, hshape, hinBody, hparagraph, hrun, hinText, hage⟩ := h
  unfold Reader.closeShape
  generalize hy : r.shape = y at hshape
  generalize hy' : r'.shape = y' at hshape
  cases hshape with
  | none => exact ⟨hslide, by rw [hy, hy']; exact .none, hinBody, hparagraph, hrun, hinText, hage⟩
  | some hs =>
    refine ⟨⟨hslide.shapes.concat hs⟩, .none, hinBody, hparagraph, hrun, hinText, ?_⟩
    simpa [runMarks] using hage

/-- The end of an element can only lose text. -/
theorem stop (h : Follows r r' marks) (name : List Char) :
  Follows (r.stop name) (r'.stop name) marks
  := by
  rw [Reader.stop, Reader.stop]
  cases Element.of (localName name) with
  | run => exact h.closeRun
  | paragraph => exact h.closeParagraph
  | shape => exact h.closeShape
  | text =>
    obtain ⟨hslide, hshape, hinBody, hparagraph, hrun, hinText, hage⟩ := h
    exact ⟨hslide, hshape, hinBody, hparagraph, hrun, rfl, hage⟩
  | body =>
    obtain ⟨hslide, hshape, hinBody, hparagraph, hrun, hinText, hage⟩ := h
    exact ⟨hslide, hshape, rfl, hparagraph, hrun, hinText, hage⟩
  | _ => exact h

/-- Character data come last, and only if a text element is open in a run. -/
theorem text (h : Follows r r' marks) {ears : Ears} (hears : r.Heeds ears) (content : List Char) :
  Follows (r.text content) (r'.text content) (marks ++ ears.marks (.text content))
  := by
  obtain ⟨hslide, hshape, hinBody, hparagraph, hrun, hinText, hage⟩ := h
  unfold Reader.text
  rw [hinText]
  cases hopen : r.inText with
  | false =>
    refine ⟨hslide, hshape, hinBody, hparagraph, hrun, hinText, ?_⟩
    exact hage.trans (List.sublist_append_left _ _)
  | true =>
    refine ⟨hslide, hshape, hinBody, hparagraph, congrArg (Option.map _) hrun, hinText, ?_⟩
    unfold runMarks at hage ⊢
    cases hr : r.run with
    | none =>
      rw [hr] at hage
      simpa [onRun, hr] using hage.trans (List.sublist_append_left marks _)
    | some run =>
      rw [hr] at hage
      have hsaid : ears.marks (.text content) = content.map some := by
        rw [Ears.marks, Ears.said, hears.text hopen, hears.run (by rw [hr]; rfl)]
        rfl
      rw [hsaid]
      simpa [onRun, hr, Run.marks] using hage.append (List.Sublist.refl (content.map some))

/-- A line break adds one line feed at most, and after all that was there. -/
theorem lineBreak (h : Follows r r' marks) {t : Tag}
    (ht : Element.of (localName t.name) = .lineBreak) :
  Follows r (r'.start t) (marks ++ [none])
  := by
  rw [Reader.start, ht]
  dsimp only
  split
  · next hclosed =>
    obtain ⟨hslide, hshape, hinBody, hparagraph, hrun, hinText, hage⟩ := h
    have hnone : r.runMarks = [] := by
      rw [runMarks, ← hrun, Option.isNone_iff_eq_none.mp hclosed]
      rfl
    unfold onParagraph
    generalize hx : r.paragraph = x at hparagraph
    generalize r'.paragraph = x' at hparagraph
    cases hparagraph with
    | none =>
      refine ⟨hslide, hshape, hinBody, by rw [hx]; exact .none, hrun, hinText, ?_⟩
      exact hage.trans (List.sublist_append_left _ _)
    | some hp =>
      have hfed := hp.runs.append (.feed .nil)
      rw [List.append_nil] at hfed
      refine ⟨hslide, hshape, hinBody, by rw [hx]; exact .some ⟨hp.level, hfed⟩, hrun, hinText, ?_⟩
      rw [hnone] at hage ⊢
      simpa using hage.append (List.Sublist.refl [none])
  · exact h.more _

/-- An event adds its own marks at most, and after all that was there. -/
theorem step (h : Follows r r' marks) {ears : Ears} (hears : r.Heeds ears) (e : Xml.Event) :
  Follows (if breaks e then r else r.step e) (r'.step e) (marks ++ ears.marks e)
  := by
  split
  · next he =>
    cases e with
    | start t =>
      have ht := of_decide_eq_true he
      rw [Ears.marks, if_pos ht]
      exact h.lineBreak ht
    | empty t =>
      have ht := of_decide_eq_true he
      rw [Ears.marks, if_pos ht, Reader.step, stop_of_lineBreak _ ht]
      exact h.lineBreak ht
    | stop name =>
      rw [Reader.step, stop_of_lineBreak _ (of_decide_eq_true he)]
      exact h.more _
    | text content => cases he
  · next he =>
    rw [Bool.not_eq_true] at he
    cases e with
    | start t => exact (h.start (of_decide_eq_false he)).more _
    | empty t => exact ((h.start (of_decide_eq_false he)).stop t.name).more _
    | stop name => exact (h.stop name).more _
    | text content => exact h.text hears content

/-- The events add their own marks at most, one after another. -/
theorem foldl (h : Follows r r' marks) {ears : Ears} (hears : r.Heeds ears)
    (es : List Xml.Event) :
  Follows ((es.filter fun e => !breaks e).foldl Reader.step r) (es.foldl Reader.step r')
    (marks ++ arriving ears es)
  := by
  induction es generalizing r r' marks ears with
  | nil => exact h.more _
  | cons e es ih =>
    have hstep := h.step hears e
    rw [arriving, ← List.append_assoc]
    cases he : breaks e with
    | true =>
      rw [he, if_pos rfl] at hstep
      rw [List.filter_cons_of_neg (by simp [he]), ears.step_of_breaks he]
      exact ih hstep hears
    | false =>
      rw [he, if_neg Bool.false_ne_true] at hstep
      rw [List.filter_cons_of_pos (by simp [he])]
      exact ih hstep (hears.step e)

end Follows

end Reader

/-! ### Reading -/

/-- Whatever the events are and however they are nested, the slide that is read is the one that is
read without line breaks, with line feeds between its runs.  The marks of its text and its line feeds
are part, in their order, of those that arrive: every line feed is that of a line break of its own,
in its place between the text, and the text without them is part of the character data that come
while a text element is open in a run. -/
theorem arrival_ofEvents (es : List Xml.Event) :
  let unbroken := Slide.ofEvents (es.filter fun e => !breaks e)
  ∃ marks, unbroken.WithBreaks (Slide.ofEvents es) marks ∧ marks <+ arriving {} es
    ∧ unbroken.characters <+ heard {} es
  := by
  intro unbroken
  have hstart : Reader.Follows {} {} [] := ⟨⟨.nil⟩, .none, rfl, .none, rfl, rfl, List.Sublist.slnil⟩
  have hheeds : Reader.Heeds {} {} := ⟨id, id⟩
  obtain ⟨hslide, -, -, -, -, -, hage⟩ := hstart.foldl hheeds es
  have hmarks := (List.sublist_append_left _ _).trans hage
  rw [List.nil_append] at hmarks
  refine ⟨_, hslide, hmarks, ?_⟩
  have hcharacters : _ = unbroken.characters := hslide.reduceOption_marks
  rw [← hcharacters, ← reduceOption_arriving]
  exact hmarks.filterMap id

/-- A run that is replaced is lost, one that outlives its paragraph goes into the next, and a line
break counts only between runs. -/
example :
  let tag (name : String) : Tag := { name := name.toList, attributes := [] }
  let es : List Xml.Event := [.start (tag "sp"), .start (tag "txBody"), .start (tag "p"),
    .start (tag "r"), .start (tag "t"), .text ['a'], .start (tag "r"), .text ['b'],
    .stop "p".toList, .start (tag "p"), .empty (tag "br"), .text ['c'], .stop "r".toList,
    .text ['d'], .empty (tag "br"), .stop "p".toList, .stop "sp".toList]
  Slide.ofEvents es = { shapes := [{ paragraphs := [{},
      { runs := [{ text := ['b', 'c'] }, { text := ['\n'] }] }] }] }
    ∧ arriving {} es = [some 'a', some 'b', none, some 'c', none]
  := by decide +kernel

end Bindery.Deck
