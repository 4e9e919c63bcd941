import Bindery.Proofs.Deck.Reading
import Bindery.Proofs.Xml.Written

/-!
# Slides as XML texts

A sequence of tokens is an XML text of a slide (`Represents`) if its events are those of the slide,
with noise between them.  Whatever it looks like, reading it gives the slide back, and every slide
whose levels fit a machine word has such a text, which is `Slide.tokens` (`ofText?_of_represents`).
-/

namespace Bindery.Deck

open Xml (Spelling Tag Token localName)
open Reader (Element Interspersed IsNoise inText?)

/-! ### Character data in one event -/

namespace Reader

theorem text_nil (r : Reader) :
  r.text [] = r
  := by
  obtain ⟨slide, shape, inBody, paragraph, run, inText⟩ := r
  cases inText <;> cases run <;> simp [text, onRun]

/-- It does not matter whether character data come in one event or in several. -/
theorem text_append (r : Reader) (first second : List Char) :
  r.text (first ++ second) = (r.text first).text second
  := by
  obtain ⟨slide, shape, inBody, paragraph, run, inText⟩ := r
  cases inText <;> cases run <;> simp [text, onRun]

theorem foldl_textEvent (pending : List Char) (r : Reader) :
  (Xml.textEvent pending).foldl step r = r.text pending
  := by
  cases pending with
  | nil => exact (text_nil r).symm
  | cons c rest => rfl

/-- Reading the events of tokens is reading what each of them says. -/
theorem foldl_eventsFrom (tokens : List Token) (pending : List Char) (r : Reader) :
  (Xml.eventsFrom pending tokens).foldl step r
    = (tokens.flatMap Token.events).foldl step (r.text pending)
  := by
  induction tokens generalizing pending r with
  | nil => exact foldl_textEvent pending r
  | cons token rest ih =>
    rw [List.flatMap_cons, List.foldl_append]
    by_cases htext : ∃ spellings, token = .text spellings
    · obtain ⟨spellings, rfl⟩ := htext
      rw [Xml.eventsFrom, ih, text_append]
      rfl
    · rw [Xml.eventsFrom_cons fun spellings hspellings => htext ⟨spellings, hspellings⟩,
        List.foldl_append, List.foldl_append, foldl_textEvent, ih, text_nil]

end Reader

/-- The tokens are an XML text of the slide, which may hold other elements, other character data,
comments and instructions too. -/
structure Represents (tokens : List Token) (s : Slide) : Prop where
  proper : ∀ token ∈ tokens, token.IsProper
  nests : Xml.Nests [] tokens
  events : ∃ es, Writes s es ∧ Interspersed false es (tokens.flatMap Token.events)

theorem Represents.ofText?_eq {tokens : List Token} {s : Slide} (h : Represents tokens s) :
  Slide.ofText? (tokens.flatMap Token.written) = some s
  := by
  obtain ⟨es, hwrites, hnoise⟩ := h.events
  rw [Slide.ofText?, Xml.ofText?_of_tokens h.proper h.nests, Option.map_some, Slide.ofEvents,
    Reader.foldl_eventsFrom, Reader.text_nil]
  exact congrArg some ((Slide.ofEvents_of_interspersed hnoise).trans
    (Slide.ofEvents_of_writes hwrites))

/-! ### A text of every slide -/

/-- A tag that is written with some attributes. -/
def tagged (name : String) (attributes : List (String × String)) : Tag where
  name := name.toList
  attributes := attributes.map fun a => (a.1.toList, a.2.toList)

/-- An element with content. -/
def element (name : String) (content : List Token) : List Token :=
  .start (tagged name []) :: content ++ [.stop name.toList]

/-- A character, which is written as a reference if it is one of markup. -/
def spell (c : Char) : Spelling :=
  if c = '<' then .entity "lt" c else if c = '&' then .entity "amp" c else .plain c

/-- The value of an attribute that turns something on or leaves it off. -/
def switch (yes : Bool) : String :=
  if yes then "1" else "0"

def formatTag (bold italic underline : Bool) : Tag :=
  tagged "a:rPr" [("b", switch bold), ("i", switch italic),
    ("u", if underline then "sng" else "none")]

def Run.tokens (run : Run) : List Token :=
  element "a:r" ([.empty (formatTag run.bold run.italic run.underline)]
    ++ element "a:t" [.text (run.text.map spell)])

def levelTag (level : Nat) : Tag where
  name := "a:pPr".toList
  attributes := [("lvl".toList, (toString level).toList)]

def Paragraph.tokens (p : Paragraph) : List Token :=
  element "a:p" ([.empty (levelTag p.level)] ++ p.runs.flatMap Run.tokens)

def boxTag (isTextBox : Bool) : Tag :=
  tagged "p:cNvSpPr" [("txBox", switch isTextBox)]

def holderTag (isTitle : Bool) : Tag :=
  tagged "p:ph" [("type", if isTitle then "title" else "body")]

def Shape.tokens (s : Shape) : List Token :=
  element "p:sp" (
    element "p:nvSpPr" (
      [.empty (tagged "p:cNvPr" [("id", "1"), ("name", "Shape")])]
      ++ [.empty (boxTag s.isTextBox)]
      ++ element "p:nvPr" [.empty (holderTag s.isTitle)])
    ++ element "p:txBody" (
      [.empty (tagged "a:bodyPr" [])] ++ s.paragraphs.flatMap Paragraph.tokens))

/-- The slide as an XML text. -/
def Slide.tokens (s : Slide) : List Token :=
  .instruction "xml version=\"1.0\" encoding=\"UTF-8\"".toList
    :: element "p:sld" (element "p:cSld" (element "p:spTree" (s.shapes.flatMap Shape.tokens)))

/-- The tokens can stand anywhere in an XML text but in a text element, and say what the events
say. -/
structure Depicts (tokens : List Token) (es : List Xml.Event) : Prop where
  proper : ∀ token ∈ tokens, token.IsProper
  nests : ∀ {opened : List (List Char)} {rest : List Token}, Xml.Nests opened rest →
    Xml.Nests opened (tokens ++ rest)
  events : ∀ {fs fs' : List Xml.Event}, Interspersed false fs fs' →
    Interspersed false (es ++ fs) (tokens.flatMap Token.events ++ fs')

namespace Depicts

variable {tokens more content : List Token} {es fs : List Xml.Event} {name : String}

theorem nil :
  Depicts [] []
  := ⟨List.forall_mem_nil _, fun h => h, fun h => h⟩

theorem append (h : Depicts tokens es) (hmore : Depicts more fs) :
  Depicts (tokens ++ more) (es ++ fs)
  := by
  refine ⟨List.forall_mem_append.mpr ⟨h.proper, hmore.proper⟩, ?_, ?_⟩
  · intro opened rest hrest
    rw [List.append_assoc]
    exact h.nests (hmore.nests hrest)
  · intro gs gs' hgs
    rw [List.flatMap_append, List.append_assoc, List.append_assoc]
    exact h.events (hmore.events hgs)

/-- A token that says nothing. -/
theorem silent {token : Token} (h : token.IsProper)
    (hnests : ∀ {opened rest}, Xml.Nests opened rest → Xml.Nests opened (token :: rest))
    (hnothing : token.events = []) :
  Depicts [token] []
  := by
  refine ⟨List.forall_mem_singleton.mpr h, hnests, ?_⟩
  intro fs fs' hfs
  rw [List.flatMap_singleton, hnothing]
  exact hfs

/-- An element without content. -/
theorem single {t : Tag} (h : t.IsProper) :
  Depicts [.empty t] [.empty t]
  := ⟨List.forall_mem_singleton.mpr h, fun hrest => hrest, fun hfs => .keep hfs⟩

theorem single_noise {t : Tag} (h : t.IsProper) (hnoise : Element.of (localName t.name) = .other) :
  Depicts [.empty t] []
  := ⟨List.forall_mem_singleton.mpr h, fun hrest => hrest, fun hfs => .noise hnoise hfs⟩

theorem proper_element (h : ∀ token ∈ content, token.IsProper) (hname : Xml.IsName name.toList) :
  ∀ token ∈ element name content, token.IsProper
  := by
  have hstart : (Token.start (tagged name [])).IsProper :=
    ⟨hname, List.forall_mem_nil _, List.nodup_nil, List.forall_mem_nil _⟩
  have hstop : ∀ token ∈ [Token.stop name.toList], token.IsProper :=
    List.forall_mem_singleton.mpr hname
  exact List.forall_mem_cons.mpr ⟨hstart, List.forall_mem_append.mpr ⟨h, hstop⟩⟩

theorem nests_element
    (h : ∀ {opened : List (List Char)} {rest : List Token}, Xml.Nests opened rest →
      Xml.Nests opened (content ++ rest))
    {opened : List (List Char)} {rest : List Token} (hrest : Xml.Nests opened rest) :
  Xml.Nests opened (element name content ++ rest)
  := by
  have hparts : element name content ++ rest
      = .start (tagged name []) :: (content ++ (.stop name.toList :: rest)) := by simp [element]
  rw [hparts]
  exact h ⟨opened, rfl, hrest⟩

theorem flatMap_element (name : String) (content : List Token) :
  (element name content).flatMap Token.events = .start (tagged name [])
    :: content.flatMap Token.events ++ [.stop name.toList]
  := by
  rw [element, List.cons_append, List.flatMap_cons, List.flatMap_append]
  rfl

/-- An element that counts. -/
theorem enclosed (h : Depicts content es) (name : String) (hname : Xml.IsName name.toList)
    (htext : Element.of (localName name.toList) ≠ .text) :
  Depicts (element name content)
    (.start (tagged name []) :: es ++ [.stop (tagged name []).name])
  := by
  refine ⟨proper_element h.proper hname, nests_element h.nests, ?_⟩
  intro fs fs' hfs
  have hinside : inText? false (.start (tagged name [])) = false := by
    rw [inText?, Bool.false_or]
    exact decide_eq_false htext
  rw [flatMap_element, List.append_assoc, List.append_assoc, List.cons_append]
  refine .keep ?_
  rw [hinside]
  exact h.events (.keep hfs)

/-- An element that does not count. -/
theorem enclosed_noise (h : Depicts content es) (name : String) (hname : Xml.IsName name.toList)
    (hnoise : Element.of (localName name.toList) = .other) :
  Depicts (element name content) es
  := by
  refine ⟨proper_element h.proper hname, nests_element h.nests, ?_⟩
  intro fs fs' hfs
  rw [flatMap_element, List.append_assoc, List.cons_append]
  exact .noise hnoise (h.events (.noise hnoise hfs))

/-- A text element. -/
theorem text {spellings : List Spelling} (h : ∀ s ∈ spellings, s.IsProper) :
  Depicts (element "a:t" [.text spellings])
    (.start (tagged "a:t" []) :: [spellings.map Spelling.char].map .text
      ++ [.stop (tagged "a:t" []).name])
  := by
  have hproper : ∀ token ∈ [Token.text spellings], token.IsProper :=
    List.forall_mem_singleton.mpr h
  have hnests {opened : List (List Char)} {rest : List Token} (hrest : Xml.Nests opened rest) :
      Xml.Nests opened ([.text spellings] ++ rest) := hrest
  refine ⟨proper_element hproper (by decide), nests_element hnests, ?_⟩
  intro fs fs' hfs
  have hend : inText? (inText? (inText? false (.start (tagged "a:t" [])))
      (.text (spellings.map Spelling.char))) (.stop (tagged "a:t" []).name) = false := by
    change inText? (inText? false (.start (tagged "a:t" [])))
      (.stop (tagged "a:t" []).name) = false
    decide
  refine .keep (.keep (.keep ?_))
  rw [hend]
  exact hfs

theorem flatMap {α : Type} {W : α → List Xml.Event → Prop} {f : α → List Token} {xs : List α}
    (h : ∀ x ∈ xs, ∃ es, W x es ∧ Depicts (f x) es) :
  ∃ ess, List.Forall₂ W xs ess ∧ Depicts (xs.flatMap f) ess.flatten
  := by
  induction xs with
  | nil => exact ⟨[], .nil, nil⟩
  | cons x xs ih =>
    obtain ⟨⟨es, hes, hdepicts⟩, hxs⟩ := List.forall_mem_cons.mp h
    obtain ⟨ess, hess, hrest⟩ := ih hxs
    refine ⟨es :: ess, .cons hes hess, ?_⟩
    rw [List.flatMap_cons, List.flatten_cons]
    exact hdepicts.append hrest

end Depicts

/-! #### Attributes -/

theorem switches_of_attribute {t : Tag} {name : String} {yes : Bool}
    (h : t.attribute? name = some (switch yes).toList) :
  Switches t name yes
  := by
  cases yes with
  | true => exact .on (by decide) h
  | false =>
    apply Switches.off
    intro value hvalue
    rw [h]
    revert value
    decide

theorem entitles_of_attribute {t : Tag} {yes : Bool}
    (h : t.attribute? "type" = some (if yes then "title" else "body").toList) :
  Entitles t yes
  := by
  cases yes with
  | true => exact .title (by decide) h
  | false =>
    apply Entitles.other
    intro type htype
    rw [h]
    revert type
    decide

theorem underlines_of_attribute {t : Tag} {yes : Bool}
    (h : t.attribute? "u" = some (if yes then "sng" else "none").toList) :
  Underlines t yes
  := by
  cases yes with
  | true => exact .line (by decide) h
  | false =>
    apply Underlines.none
    intro value hvalue
    rw [h] at hvalue
    exact (Option.some.inj hvalue).symm

/-! #### Runs -/

theorem char_spell (c : Char) :
  (spell c).char = c
  := by
  rw [spell]
  split
  · next h =>
    subst h
    rfl
  · split
    · next h =>
      subst h
      rfl
    · rfl

theorem isProper_spell (c : Char) :
  (spell c).IsProper
  := by
  rw [spell]
  split
  · next h =>
    subst h
    exact List.mem_cons_self
  · next hopen =>
    split
    · next h =>
      subst h
      exact List.mem_of_getElem? (i := 2) rfl
    · next hamp => exact ⟨hopen, hamp⟩

theorem isProper_formatTag :
  ∀ bold italic underline : Bool, (formatTag bold italic underline).IsProper
  := by decide

theorem writesFormat_formatTag (run : Run) :
  WritesFormat run [.empty (formatTag run.bold run.italic run.underline)]
  := by
  obtain ⟨text, bold, italic, underline⟩ := run
  have hvalues : ∀ bold italic underline : Bool,
      (formatTag bold italic underline).attribute? "b" = some (switch bold).toList
        ∧ (formatTag bold italic underline).attribute? "i" = some (switch italic).toList
        ∧ (formatTag bold italic underline).attribute? "u"
          = some (if underline then "sng" else "none").toList := by decide
  obtain ⟨hbold, hitalic, hunderline⟩ := hvalues bold italic underline
  have hkind : Element.of (localName (tagged "a:rPr" []).name) = .runProperties := by decide
  exact .properties (switches_of_attribute hbold) (switches_of_attribute hitalic)
    (underlines_of_attribute hunderline) (.empty hkind rfl)

theorem Run.depicts (run : Run) :
  ∃ es, WritesRun run es ∧ Depicts run.tokens es
  := by
  have hspell : (run.text.map spell).map Spelling.char = run.text := by
    rw [List.map_map]
    exact (List.map_congr_left fun c _ => char_spell c).trans (List.map_id run.text)
  have hspellings : ∀ s ∈ run.text.map spell, s.IsProper :=
    List.forall_mem_map.mpr fun c _ => isProper_spell c
  have htext : WritesText run.text (.start (tagged "a:t" [])
      :: [(run.text.map spell).map Spelling.char].map .text ++ [.stop (tagged "a:t" []).name]) := by
    refine .parts ?_ (.pair (by decide))
    rw [hspell, List.flatten_singleton]
  have hformat := Depicts.single (isProper_formatTag run.bold run.italic run.underline)
  exact ⟨_, .run (writesFormat_formatTag run) htext (.pair (by decide)),
    (hformat.append (.text hspellings)).enclosed _ (by decide) (by decide)⟩

/-! #### Paragraphs -/

/-- A text without references is read as it is. -/
theorem unescape?_plain {text : List Char} (h : '&' ∉ text) :
  Xml.unescape? text = some text
  := by
  induction text with
  | nil => rfl
  | cons c rest ih =>
    obtain ⟨hc, hrest⟩ := not_or.mp (mt List.mem_cons.mpr h)
    have hrest : Xml.unescapeFrom? none rest = some rest := ih hrest
    rw [Xml.unescape?, Xml.unescapeFrom?, if_neg (Ne.symm hc), hrest]
    rfl

theorem isDigit_of_mem_toString {n : Nat} {c : Char} (h : c ∈ (toString n).toList) :
  c.isDigit = true
  := by
  rw [Nat.toString_eq_ofList_toDigits, String.toList_ofList] at h
  exact Nat.isDigit_of_mem_toDigits (by decide) (by decide) h

theorem isProper_levelTag (level : Nat) :
  (levelTag level).IsProper
  := by
  have hquote : '\x22' ∉ (toString level).toList := by
    intro hmem
    exact absurd (isDigit_of_mem_toString hmem) (by decide)
  have hname : Xml.IsName "a:pPr".toList := by decide
  have hkey : Xml.IsName "lvl".toList := by decide
  exact ⟨hname, List.forall_mem_singleton.mpr hkey, List.pairwise_singleton _ _,
    List.forall_mem_singleton.mpr hquote⟩

theorem writesLevel_levelTag {level : Nat} (h : level < UInt64.size) :
  WritesLevel level [.empty (levelTag level)]
  := by
  have hamp : '&' ∉ (toString level).toList := by
    intro hmem
    exact absurd (isDigit_of_mem_toString hmem) (by decide)
  have hkind : Element.of (localName (tagged "a:pPr" []).name) = .paragraphProperties := by decide
  have hkey : decide (localName "lvl".toList = "lvl".toList) = true := by decide
  have hfind : (levelTag level).attributes.find? (fun a => localName a.1 = "lvl".toList)
      = some ("lvl".toList, (toString level).toList) := List.find?_cons_of_pos hkey
  refine .properties h ?_ (.empty hkind rfl)
  change ((levelTag level).attributes.find? fun a => localName a.1 = "lvl".toList).bind
    (fun a => Xml.unescape? a.2) = _
  rw [hfind, Option.bind_some, unescape?_plain hamp]

theorem Paragraph.depicts {p : Paragraph} (h : p.level < UInt64.size) :
  ∃ es, WritesParagraph p es ∧ Depicts p.tokens es
  := by
  obtain ⟨rs, hruns, hdepicts⟩ := Depicts.flatMap fun run (_ : run ∈ p.runs) => run.depicts
  have hlevel := Depicts.single (isProper_levelTag p.level)
  exact ⟨_, .paragraph (writesLevel_levelTag h) hruns (.pair (by decide)),
    (hlevel.append hdepicts).enclosed _ (by decide) (by decide)⟩

/-! #### Shapes -/

theorem isProper_boxTag :
  ∀ isTextBox : Bool, (boxTag isTextBox).IsProper
  := by decide

theorem writesBox_boxTag (isTextBox : Bool) :
  WritesBox isTextBox [.empty (boxTag isTextBox)]
  := by
  have hvalue : ∀ isTextBox : Bool,
      (boxTag isTextBox).attribute? "txBox" = some (switch isTextBox).toList := by decide
  have hkind : Element.of (localName (tagged "p:cNvSpPr" []).name) = .shapeProperties := by decide
  exact .properties (switches_of_attribute (hvalue isTextBox)) (.empty hkind rfl)

theorem isProper_holderTag :
  ∀ isTitle : Bool, (holderTag isTitle).IsProper
  := by decide

theorem writesHolder_holderTag (isTitle : Bool) :
  WritesHolder isTitle [.empty (holderTag isTitle)]
  := by
  have hvalue : ∀ isTitle : Bool, (holderTag isTitle).attribute? "type"
      = some (if isTitle then "title" else "body").toList := by decide
  have hkind : Element.of (localName (tagged "p:ph" []).name) = .placeholder := by decide
  exact .placeholder (entitles_of_attribute (hvalue isTitle)) (.empty hkind rfl)

theorem Shape.depicts {s : Shape} (h : ∀ p ∈ s.paragraphs, p.level < UInt64.size) :
  ∃ es, WritesShape s es ∧ Depicts s.tokens es
  := by
  have hname : Depicts [.empty (tagged "p:cNvPr" [("id", "1"), ("name", "Shape")])] [] :=
    .single_noise (by decide) (by decide)
  have hbox := Depicts.single (isProper_boxTag s.isTextBox)
  have hholder := (Depicts.single (isProper_holderTag s.isTitle)).enclosed_noise
    "p:nvPr" (by decide) (by decide)
  have hproperties := ((hname.append hbox).append hholder).enclosed_noise
    "p:nvSpPr" (by decide) (by decide)
  have hnothing : Depicts [.empty (tagged "a:bodyPr" [])] [] :=
    .single_noise (by decide) (by decide)
  obtain ⟨ps, hparagraphs, hdepicts⟩ :=
    Depicts.flatMap fun p (hp : p ∈ s.paragraphs) => Paragraph.depicts (h p hp)
  have hbody := (hnothing.append hdepicts).enclosed "p:txBody" (by decide) (by decide)
  exact ⟨_, .shape (writesBox_boxTag s.isTextBox) (writesHolder_holderTag s.isTitle)
      (.body hparagraphs (.pair (by decide))) (.pair (by decide)),
    (hproperties.append hbody).enclosed _ (by decide) (by decide)⟩

/-! #### Slides -/

theorem Slide.depicts {s : Slide}
    (h : ∀ shape ∈ s.shapes, ∀ p ∈ shape.paragraphs, p.level < UInt64.size) :
  ∃ es, Writes s es ∧ Depicts s.tokens es
  := by
  have hdeclaration : Depicts
      [.instruction "xml version=\"1.0\" encoding=\"UTF-8\"".toList] [] := by
    refine .silent ?_ (fun hrest => hrest) rfl
    intro hend
    have hmem := hend.subset (List.mem_cons_of_mem '?' List.mem_cons_self)
    revert hmem
    decide
  obtain ⟨es, hshapes, hdepicts⟩ :=
    Depicts.flatMap fun shape (hshape : shape ∈ s.shapes) => Shape.depicts (h shape hshape)
  have htree := hdepicts.enclosed_noise "p:spTree" (by decide) (by decide)
  have hcommon := htree.enclosed_noise "p:cSld" (by decide) (by decide)
  have hroot := hcommon.enclosed_noise "p:sld" (by decide) (by decide)
  exact ⟨_, .shapes hshapes, hdeclaration.append hroot⟩

theorem Depicts.represents {tokens : List Token} {es : List Xml.Event} {s : Slide}
    (h : Depicts tokens es) (hes : Writes s es) :
  Represents tokens s
  := by
  have hnests : Xml.Nests [] (tokens ++ []) := h.nests trivial
  have hevents := h.events .nil
  rw [List.append_nil] at hnests
  rw [List.append_nil, List.append_nil] at hevents
  exact ⟨h.proper, hnests, es, hes, hevents⟩

/-- Every slide whose levels fit a machine word has an XML text, and whichever of its XML texts is
read, with whatever noise in it, the slide comes back. -/
theorem ofText?_of_represents {s : Slide}
    (h : ∀ shape ∈ s.shapes, ∀ p ∈ shape.paragraphs, p.level < UInt64.size) :
  Represents s.tokens s ∧ ∀ tokens : List Token, Represents tokens s →
    Slide.ofText? (tokens.flatMap Token.written) = some s
  := by
  obtain ⟨es, hes, hdepicts⟩ := Slide.depicts h
  exact ⟨hdepicts.represents hes, fun tokens htokens => htokens.ofText?_eq⟩

/-- A title and a text box. -/
def agenda : Slide where
  shapes := [
    { isTitle := true
      paragraphs := [{ runs := [{ text := "Q&A < talk".toList, bold := true }] }] },
    { isTextBox := true
      paragraphs := [{}, { level := 3, runs := [{ underline := true }, { italic := true }] }] }]

theorem ofText?_of_represents_agenda :
  (∀ shape ∈ agenda.shapes, ∀ p ∈ shape.paragraphs, p.level < UInt64.size)
    ∧ Slide.ofText? (agenda.tokens.flatMap Token.written) = some agenda
  := by
  have hlevels : ∀ shape ∈ agenda.shapes, ∀ p ∈ shape.paragraphs, p.level < UInt64.size := by
    decide
  obtain ⟨hrepresents, hread⟩ := ofText?_of_represents hlevels
  exact ⟨hlevels, hread agenda.tokens hrepresents⟩

end Bindery.Deck
