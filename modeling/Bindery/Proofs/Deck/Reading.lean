import Mathlib.Data.List.Forall2
import Bindery.Deck.Reader
import Bindery.Proofs.Text.Numeral

/-!
# Reading slides back

A slide can be written as a sequence of events in many ways, since its flags, levels and texts can
be spelled in many ways (`Writes`).  Reading them gives the slide back (`ofEvents_of_writes`), also
when noise is put between them (`Interspersed`): elements that do not count, and character data
outside of text elements (`ofEvents_of_interspersed`).
-/

namespace Bindery.Deck

open Xml (localName Tag)

namespace Reader

/-! ### Noise -/

/-- The event is about an element that does not count, or character data. -/
def IsNoise : Xml.Event → Prop
  | .start t | .empty t => Element.of (localName t.name) = .other
  | .stop name => Element.of (localName name) = .other
  | .text _ => True

/-- Whether what follows an event is in a text element, if what precedes it is as told. -/
def inText? (inside : Bool) : Xml.Event → Bool
  | .start t => inside || Element.of (localName t.name) = .text
  | .stop name => inside && Element.of (localName name) ≠ .text
  | _ => inside

/-- The second events are the first with noise put between them, but not into text elements.  It is
told whether they begin in one. -/
inductive Interspersed : Bool → List Xml.Event → List Xml.Event → Prop where
  | nil {inside : Bool} : Interspersed inside [] []
  | keep {inside : Bool} {e : Xml.Event} {es es' : List Xml.Event}
      (rest : Interspersed (inText? inside e) es es') : Interspersed inside (e :: es) (e :: es')
  | noise {e : Xml.Event} {es es' : List Xml.Event} (noise : IsNoise e)
      (rest : Interspersed false es es') : Interspersed false es (e :: es')

variable {r : Reader} {e : Xml.Event}

/-- Noise says nothing, unless it is character data in a text element. -/
theorem step_of_isNoise (h : IsNoise e) (hr : r.inText = false) :
  r.step e = r
  := by
  cases e with
  | start t =>
    rw [IsNoise] at h
    rw [step, start, h]
  | empty t =>
    rw [IsNoise] at h
    rw [step, start, h, stop, h]
  | stop name =>
    rw [IsNoise] at h
    rw [step, stop, h]
  | text content => rw [step, text, hr, if_neg Bool.false_ne_true]

/-- A tag opens a text if it is of a text element, and then only in a run. -/
theorem inText_start (r : Reader) (t : Tag) :
  (r.start t).inText = if Element.of (localName t.name) = .text then r.run.isSome else r.inText
  := by
  rw [start]
  cases Element.of (localName t.name) with
  | paragraph | run | lineBreak =>
    dsimp only
    split <;> rfl
  | paragraphProperties =>
    dsimp only
    split <;> rfl
  | _ => rfl

theorem inText_stop (r : Reader) (name : List Char) :
  (r.stop name).inText = if Element.of (localName name) = .text then false else r.inText
  := by
  rw [stop]
  cases Element.of (localName name) with
  | shape =>
    change r.closeShape.inText = r.inText
    unfold closeShape
    split <;> rfl
  | paragraph =>
    change r.closeParagraph.inText = r.inText
    unfold closeParagraph
    split <;> rfl
  | run =>
    change r.closeRun.inText = r.inText
    unfold closeRun
    split <;> rfl
  | _ => rfl

/-- Character data count in text elements only. -/
theorem inText_step {inside : Bool} (hr : r.inText = true → inside = true)
    (h : (r.step e).inText = true) :
  inText? inside e = true
  := by
  cases e with
  | start t =>
    rw [step, inText_start] at h
    rw [inText?, Bool.or_eq_true, decide_eq_true_eq]
    split at h
    · next ht => exact Or.inr ht
    · exact Or.inl (hr h)
  | empty t =>
    rw [step, inText_stop, inText_start] at h
    split at h
    · cases h
    · exact hr h
  | stop name =>
    rw [step, inText_stop] at h
    rw [inText?, Bool.and_eq_true, decide_eq_true_eq]
    split at h
    · cases h
    · next ht => exact ⟨hr h, ht⟩
  | text content =>
    rw [step, text] at h
    split at h <;> exact hr h

/-- Noise makes no difference to what is read. -/
theorem foldl_interspersed {inside : Bool} {es es' : List Xml.Event}
    (h : Interspersed inside es es') (hr : r.inText = true → inside = true) :
  es'.foldl step r = es.foldl step r
  := by
  induction h generalizing r with
  | nil => rfl
  | keep rest ih =>
    apply ih
    exact inText_step hr
  | noise noise rest ih =>
    have hout : r.inText = false := eq_false_of_ne_true fun h => Bool.false_ne_true (hr h)
    rw [List.foldl_cons, step_of_isNoise noise hout]
    exact ih hr

end Reader

open Reader (Element Interspersed foldl_interspersed)

theorem Slide.ofEvents_of_interspersed {es es' : List Xml.Event} (h : Interspersed false es es') :
  Slide.ofEvents es' = Slide.ofEvents es
  := congrArg Reader.slide (foldl_interspersed h fun hr => hr)

/-! ### Writing -/

/-- The events of an element with the given tag and content. -/
inductive Encloses (element : Element) (t : Tag) (content : List Xml.Event) :
    List Xml.Event → Prop where
  | pair (kind : Element.of (localName t.name) = element) :
    Encloses element t content (.start t :: content ++ [.stop t.name])
  | empty (kind : Element.of (localName t.name) = element) (nothing : content = []) :
    Encloses element t content [.empty t]

/-- An attribute turns something on or leaves it off. -/
inductive Switches (t : Tag) (name : String) : Bool → Prop where
  | on {value : String} (yes : value ∈ ["1", "true", "on"])
      (written : t.attribute? name = some value.toList) : Switches t name true
  | off (written : ∀ value ∈ ["1", "true", "on"], t.attribute? name ≠ some value.toList) :
    Switches t name false

/-- The type of a placeholder says whether it is for a title. -/
inductive Entitles (t : Tag) : Bool → Prop where
  | title {type : String} (yes : type ∈ ["title", "ctrTitle"])
      (written : t.attribute? "type" = some type.toList) : Entitles t true
  | other (written : ∀ type ∈ ["title", "ctrTitle"], t.attribute? "type" ≠ some type.toList) :
    Entitles t false

/-- An attribute says how to underline, if at all. -/
inductive Underlines (t : Tag) : Bool → Prop where
  | line {value : List Char} (yes : value ≠ "none".toList)
      (written : t.attribute? "u" = some value) : Underlines t true
  | none (written : ∀ value, t.attribute? "u" = some value → value = "none".toList) :
    Underlines t false

/-- The events of the properties of a run, which may be missing if they say nothing. -/
inductive WritesFormat (run : Run) : List Xml.Event → Prop where
  | plain (bold : run.bold = false) (italic : run.italic = false)
      (underline : run.underline = false) : WritesFormat run []
  | properties {t : Tag} {es : List Xml.Event} (bold : Switches t "b" run.bold)
      (italic : Switches t "i" run.italic) (underline : Underlines t run.underline)
      (encloses : Encloses .runProperties t [] es) : WritesFormat run es

/-- The events of a text, which may come in several parts. -/
inductive WritesText (text : List Char) : List Xml.Event → Prop where
  | parts {t : Tag} {parts : List (List Char)} {es : List Xml.Event}
      (whole : parts.flatten = text) (encloses : Encloses .text t (parts.map .text) es) :
    WritesText text es

inductive WritesRun (run : Run) : List Xml.Event → Prop where
  | run {t : Tag} {fs ts es : List Xml.Event} (format : WritesFormat run fs)
      (text : WritesText run.text ts) (encloses : Encloses .run t (fs ++ ts) es) :
    WritesRun run es

/-- The events of the properties of a paragraph, which may be missing if they say nothing.  A level
has to fit a machine word. -/
inductive WritesLevel (level : Nat) : List Xml.Event → Prop where
  | outer (zero : level = 0) : WritesLevel level []
  | properties {t : Tag} {es : List Xml.Event} (fits : level < UInt64.size)
      (written : t.attribute? "lvl" = some (toString level).toList)
      (encloses : Encloses .paragraphProperties t [] es) : WritesLevel level es

inductive WritesParagraph (p : Paragraph) : List Xml.Event → Prop where
  | paragraph {t : Tag} {ls es : List Xml.Event} {rs : List (List Xml.Event)}
      (level : WritesLevel p.level ls) (runs : List.Forall₂ WritesRun p.runs rs)
      (encloses : Encloses .paragraph t (ls ++ rs.flatten) es) : WritesParagraph p es

/-- The events that say whether a shape is a text box. -/
inductive WritesBox (isTextBox : Bool) : List Xml.Event → Prop where
  | missing (no : isTextBox = false) : WritesBox isTextBox []
  | properties {t : Tag} {es : List Xml.Event} (written : Switches t "txBox" isTextBox)
      (encloses : Encloses .shapeProperties t [] es) : WritesBox isTextBox es

/-- The events that say whether a shape is for a title. -/
inductive WritesHolder (isTitle : Bool) : List Xml.Event → Prop where
  | missing (no : isTitle = false) : WritesHolder isTitle []
  | placeholder {t : Tag} {es : List Xml.Event} (written : Entitles t isTitle)
      (encloses : Encloses .placeholder t [] es) : WritesHolder isTitle es

inductive WritesBody (paragraphs : List Paragraph) : List Xml.Event → Prop where
  | missing (none : paragraphs = []) : WritesBody paragraphs []
  | body {t : Tag} {es : List Xml.Event} {ps : List (List Xml.Event)}
      (parts : List.Forall₂ WritesParagraph paragraphs ps)
      (encloses : Encloses .body t ps.flatten es) : WritesBody paragraphs es

inductive WritesShape (s : Shape) : List Xml.Event → Prop where
  | shape {t : Tag} {bs hs ps es : List Xml.Event} (box : WritesBox s.isTextBox bs)
      (holder : WritesHolder s.isTitle hs) (body : WritesBody s.paragraphs ps)
      (encloses : Encloses .shape t (bs ++ hs ++ ps) es) : WritesShape s es

/-- The events of a slide without noise. -/
inductive Writes (s : Slide) : List Xml.Event → Prop where
  | shapes {es : List (List Xml.Event)} (parts : List.Forall₂ WritesShape s.shapes es) :
    Writes s es.flatten

/-! ### Reading what was written -/

theorem Switches.isOn_eq {t : Tag} {name : String} {yes : Bool} (h : Switches t name yes) :
  isOn t name = yes
  := by
  rw [isOn]
  cases h with
  | @on value yes written =>
    rw [written]
    clear written
    revert yes
    simp only [List.mem_cons, List.not_mem_nil, or_false]
    rintro (rfl | rfl | rfl) <;> rfl
  | off written =>
    cases hvalue : t.attribute? name with
    | none => rfl
    | some value => simpa [hvalue, and_assoc] using written

theorem Entitles.isTitlePlaceholder_eq {t : Tag} {yes : Bool} (h : Entitles t yes) :
  Reader.isTitlePlaceholder t = yes
  := by
  rw [Reader.isTitlePlaceholder]
  cases h with
  | @title type yes written =>
    rw [written]
    clear written
    revert yes
    simp only [List.mem_cons, List.not_mem_nil, or_false]
    rintro (rfl | rfl) <;> rfl
  | other written =>
    cases hvalue : t.attribute? "type" with
    | none => rfl
    | some value => simpa [hvalue] using written

theorem Underlines.any_eq {t : Tag} {yes : Bool} (h : Underlines t yes) :
  ((t.attribute? "u").any (· != "none".toList)) = yes
  := by
  cases h with
  | line yes written =>
    rw [written]
    exact bne_iff_ne.mpr yes
  | none written =>
    cases hvalue : t.attribute? "u" with
    | none => rfl
    | some value => simpa using written value hvalue

/-- The level that an attribute gives is read back, if it fits a machine word. -/
theorem levelOf?_toString {level : Nat} (h : level < UInt64.size) :
  levelOf? (toString level).toList = some level
  := by
  have hdigits : (toString level).toList = Nat.toDigits 10 level := by
    rw [Nat.toString_eq_ofList_toDigits, String.toList_ofList]
  have hplus : ∀ rest, Nat.toDigits 10 level ≠ '+' :: rest := by
    intro rest hrest
    have hmem : '+' ∈ Nat.toDigits 10 level := by
      rw [hrest]
      exact List.mem_cons_self
    have hdigit := Nat.isDigit_of_mem_toDigits (by decide) (by decide) hmem
    exact absurd hdigit (by decide)
  rw [hdigits, levelOf?, Text.natOf?_toDigits]
  · exact if_pos (decide_eq_true h)
  · exact fun rest hrest => hplus rest hrest

namespace Reader

variable {t : Tag} {content es : List Xml.Event} {run : Run} {p : Paragraph} {s : Shape}

/-- An element is read tag by tag. -/
theorem foldl_of_encloses {element : Element} (h : Encloses element t content es) (r : Reader) :
  es.foldl step r = (content.foldl step (r.start t)).stop t.name
  := by
  cases h with
  | pair kind =>
    rw [List.foldl_append]
    rfl
  | empty kind nothing =>
    rw [nothing]
    rfl

theorem kind_of_encloses {element : Element} (h : Encloses element t content es) :
  Element.of (localName t.name) = element
  := by
  cases h with
  | pair kind | empty kind => exact kind

/-- What is read of each part of a list in turn is what is read of the list. -/
theorem foldl_flatten {α : Type} {W : α → List Xml.Event → Prop} {f : List α → Reader}
    (each : ∀ done x es, W x es → es.foldl step (f done) = f (done ++ [x])) {xs : List α}
    {ess : List (List Xml.Event)} (h : List.Forall₂ W xs ess) (done : List α) :
  ess.flatten.foldl step (f done) = f (done ++ xs)
  := by
  induction h generalizing done with
  | nil => rw [List.append_nil, List.flatten_nil, List.foldl_nil]
  | @cons x es xs ess first rest ih =>
    rw [List.flatten_cons, List.foldl_append, each done x es first, ih, List.append_assoc,
      List.singleton_append]

/-! #### Runs -/

/-- Parts of a text go into the open run one after another. -/
theorem foldl_parts (parts : List (List Char)) (r : Reader) (run : Run) :
  (parts.map Xml.Event.text).foldl step { r with run := some run, inText := true }
    = { r with run := some { run with text := run.text ++ parts.flatten }, inText := true }
  := by
  induction parts generalizing run with
  | nil => rw [List.map_nil, List.foldl_nil, List.flatten_nil, List.append_nil]
  | cons part rest ih =>
    have hrest := ih { run with text := run.text ++ part }
    rw [List.append_assoc] at hrest
    exact hrest

theorem foldl_text {text : List Char} (h : WritesText text es) (r : Reader) (run : Run) :
  es.foldl step { r with run := some run, inText := false }
    = { r with run := some { run with text := run.text ++ text }, inText := false }
  := by
  cases h with
  | @parts t _ _ whole encloses =>
    have kind := kind_of_encloses encloses
    have hstart : start { r with run := some run, inText := false } t
        = { r with run := some run, inText := true } := by
      rw [start, kind]
      rfl
    rw [foldl_of_encloses encloses, hstart, foldl_parts, whole, stop, kind]

theorem foldl_format (h : WritesFormat run es) (r : Reader) :
  es.foldl step { r with run := some {} } = { r with run := some { run with text := [] } }
  := by
  cases h with
  | plain bold italic underline =>
    rw [bold, italic, underline]
    rfl
  | properties bold italic underline encloses =>
    have kind := kind_of_encloses encloses
    rw [foldl_of_encloses encloses, List.foldl_nil, start, kind, stop, kind, ← bold.isOn_eq,
      ← italic.isOn_eq, ← underline.any_eq]
    rfl

theorem foldl_run (h : WritesRun run es) (r : Reader) (p : Paragraph) :
  es.foldl step { r with paragraph := some p, run := none, inText := false }
    = { r with paragraph := some { p with runs := p.runs ++ [run] }, run := none, inText := false }
  := by
  cases h with
  | @run t _ _ _ format text encloses =>
    have kind := kind_of_encloses encloses
    let r' : Reader := { r with paragraph := some p, inText := false }
    have hstart : start { r' with run := none } t = { r' with run := some {} } := by
      rw [start, kind]
      rfl
    have hformat : _ = { r' with run := some { run with text := [] } } := foldl_format format r'
    have htext := foldl_text text r' { run with text := [] }
    rw [foldl_of_encloses encloses, hstart, List.foldl_append, hformat, htext, stop, kind]
    rfl

/-! #### Paragraphs -/

theorem foldl_level {level : Nat} (h : WritesLevel level es) (r : Reader) :
  es.foldl step { r with paragraph := some {} } = { r with paragraph := some { level } }
  := by
  cases h with
  | outer zero =>
    rw [zero]
    rfl
  | properties fits written encloses =>
    have kind := kind_of_encloses encloses
    rw [foldl_of_encloses encloses, List.foldl_nil, start, kind, stop, kind, written,
      Option.bind_some, levelOf?_toString fits]
    rfl

theorem foldl_paragraph (h : WritesParagraph p es) (r : Reader) (s : Shape) :
  es.foldl step { r with
      shape := some s, inBody := true, paragraph := none, run := none, inText := false }
    = { r with
      shape := some { s with paragraphs := s.paragraphs ++ [p] }
      inBody := true, paragraph := none, run := none, inText := false }
  := by
  cases h with
  | @paragraph t _ _ _ level runs encloses =>
    have kind := kind_of_encloses encloses
    let r' : Reader := { r with shape := some s, inBody := true, run := none, inText := false }
    have hstart : start { r' with paragraph := none } t = { r' with paragraph := some {} } := by
      rw [start, kind]
      rfl
    have hlevel := foldl_level level r'
    have hruns := foldl_flatten
      (f := fun runs => { r' with paragraph := some { level := p.level, runs } })
      (fun done run es h => foldl_run h r' { level := p.level, runs := done }) runs []
    rw [foldl_of_encloses encloses, hstart, List.foldl_append, hlevel, hruns, stop, kind]
    rfl

/-! #### Shapes -/

theorem foldl_box {isTextBox : Bool} (h : WritesBox isTextBox es) (r : Reader) :
  es.foldl step { r with shape := some {} } = { r with shape := some { isTextBox } }
  := by
  cases h with
  | missing no =>
    rw [no]
    rfl
  | properties written encloses =>
    have kind := kind_of_encloses encloses
    rw [foldl_of_encloses encloses, List.foldl_nil, start, kind, stop, kind, ← written.isOn_eq]
    rfl

theorem foldl_holder {isTitle : Bool} (h : WritesHolder isTitle es) (r : Reader)
    (isTextBox : Bool) :
  es.foldl step { r with shape := some { isTextBox } }
    = { r with shape := some { isTitle, isTextBox } }
  := by
  cases h with
  | missing no =>
    rw [no]
    rfl
  | placeholder written encloses =>
    have kind := kind_of_encloses encloses
    rw [foldl_of_encloses encloses, List.foldl_nil, start, kind, stop, kind,
      ← written.isTitlePlaceholder_eq]
    rfl

theorem foldl_body {paragraphs : List Paragraph} (h : WritesBody paragraphs es) (slide : Slide)
    (isTitle isTextBox : Bool) :
  es.foldl step { slide, shape := some { isTitle, isTextBox } }
    = { slide, shape := some { isTitle, isTextBox, paragraphs } }
  := by
  cases h with
  | missing none =>
    rw [none]
    rfl
  | @body t _ _ parts encloses =>
    have kind := kind_of_encloses encloses
    have hstart : start { slide, shape := some { isTitle, isTextBox } } t
        = { slide, shape := some { isTitle, isTextBox }, inBody := true } := by
      rw [start, kind]
      rfl
    have hparts := foldl_flatten
      (f := fun paragraphs => { slide, shape := some { isTitle, isTextBox, paragraphs },
                                inBody := true })
      (fun done p es h => foldl_paragraph h { slide } { isTitle, isTextBox, paragraphs := done })
      parts []
    rw [foldl_of_encloses encloses, hstart, hparts, stop, kind]
    rfl

theorem foldl_shape (h : WritesShape s es) (shapes : List Shape) :
  es.foldl step { slide := { shapes } } = { slide := { shapes := shapes ++ [s] } }
  := by
  cases h with
  | @shape t _ _ _ _ box holder body encloses =>
    have kind := kind_of_encloses encloses
    have hstart : start { slide := { shapes } } t
        = { slide := { shapes }, shape := some {} } := by rw [start, kind]
    have hbox := foldl_box box { slide := { shapes } }
    have hholder := foldl_holder holder { slide := { shapes } } s.isTextBox
    rw [foldl_of_encloses encloses, hstart, List.foldl_append, List.foldl_append, hbox, hholder,
      foldl_body body, stop, kind]
    rfl

end Reader

/-- A slide is read back. -/
theorem Slide.ofEvents_of_writes {s : Slide} {es : List Xml.Event} (h : Writes s es) :
  ofEvents es = s
  := by
  cases h with
  | shapes parts =>
    have hparts := Reader.foldl_flatten (f := fun shapes => { slide := { shapes } })
      (fun done s es h => Reader.foldl_shape h done) parts []
    exact congrArg Reader.slide hparts

end Bindery.Deck
