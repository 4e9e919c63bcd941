import Bindery.Proofs.Notebook.Correspondence
import Bindery.Proofs.Notebook.Naming
import Bindery.Proofs.Typesetting.Label

/-!
# Images in the lines of a notebook

For each output of a notebook at most one image is set (`Shown`), and it is decoded from one of the
representations of the output.  The lines that include images are those of the images that are set,
in order: markdown includes none, whatever it says (`not_isInclude_setLine`), and what stands in a
verbatim block is no command.  Only markup in an output is passed on as it is.  So the lines, the
names and the files of a part of a notebook agree (`Illustrates`), and they do so part by part
(`illustrating_render`).  An image that cannot be used or saved leaves no trace
(`sameUnlessSaved_render`).
-/

namespace Bindery.Notebook

open scoped List
open Outline (itemLine)
open Typesetting (Block Typeset itemStart)

/-! ### Lines that include images -/

/-- The command that includes an image. -/
def includeCommand : String := "\\includegraphics"

/-- The command that includes an image stands in the line. -/
def isInclude (line : String) : Bool :=
  decide (includeCommand.toList <:+: line.toList)

/-- What stands in front of a name in the line that includes the image. -/
def includeOpening : String := "\\includegraphics[width=0.8\\linewidth]\x7b"

/-- The line that includes the image of a name. -/
def includeLine (name : String) : String :=
  includeOpening ++ name ++ "\x7d"

/-- The lines of some content that include images: in a verbatim block nothing is a command. -/
def included (content : List (Bool × String)) : List String :=
  (content.filter fun (inBlock, line) => !inBlock && isInclude line).map Prod.snd

/-- The lines that include images among typeset lines. -/
def includeLines (lines : List String) : List String :=
  included (contents false lines)

theorem included_append (content more : List (Bool × String)) :
  included (content ++ more) = included content ++ included more
  := by rw [included, List.filter_append, List.map_append, included, included]

theorem included_eq_nil {content : List (Bool × String)}
    (h : ∀ line ∈ content, line.1 = true ∨ isInclude line.2 = false) :
  included content = []
  := by
  rw [included, List.map_eq_nil_iff, List.filter_eq_nil_iff]
  rintro ⟨inBlock, line⟩ hline
  rcases h _ hline with hblock | hline
  · simp [show inBlock = true from hblock]
  · simp [show isInclude line = false from hline]

/-! ### Markdown -/

/-- Behind its first character no block holds a backslash. -/
theorem not_mem_tail_block {n k : Nat} {block : List Char} (h : Block n block k) :
  '\\' ∉ block.tail
  := by
  cases h with
  | literal c kept =>
    cases hspelling : Escape.replacement? c with
    | some spelling =>
      rw [Escape.escapeChar_of_replacement kept hspelling]
      unfold Escape.replacement? at hspelling
      split at hspelling <;> cases hspelling <;> decide
    | none =>
      rw [Escape.escapeChar_of_none kept hspelling]
      exact List.not_mem_nil
  | opening hname =>
    have hformats : ∀ name ∈ Typesetting.formats, '\\' ∉ ('\\' :: name ++ ['{']).tail := by decide
    exact hformats _ hname
  | closing => exact List.not_mem_nil

/-- No typeset text holds the beginning of the command of an item. -/
theorem not_infix_itemStart {n m : Nat} {text : List Char} (h : Typeset n text m) :
  ¬ itemStart <:+: text
  := by
  induction h with
  | nil => decide
  | @cons n k m block text head tail ih =>
    have hstart := (Typeset.cons head tail).not_itemStart
    obtain ⟨c, rest, rfl⟩ := List.exists_cons_of_ne_nil head.ne_nil
    rw [List.cons_append, itemStart, List.infix_cons_iff, not_or]
    refine ⟨hstart, fun hinfix => ih ?_⟩
    exact Text.infix_of_infix_append (not_mem_tail_block head) hinfix

/-- What the command that includes an image begins with, and no other that is used. -/
def includeStart : List Char :=
  ['\\', 'i', 'n']

theorem not_isInclude {line : String} (h : ¬ includeStart <:+: line.toList) :
  isInclude line = false
  := by
  rw [isInclude, decide_eq_false_iff_not]
  have hstart : includeStart <:+: includeCommand.toList := by decide
  exact fun hinfix => h (hstart.trans hinfix)

/-- A command in front of a text does not hold the beginning of the one that includes an image if
it is long enough and another one. -/
theorem not_infix_includeStart {start text : List Char} (hlength : 3 ≤ start.length)
    (hstart : ¬ includeStart <+: start) (htail : '\\' ∉ start.tail)
    (htext : ¬ includeStart <:+: text) :
  ¬ includeStart <:+: start ++ text
  := by
  intro hinfix
  obtain ⟨c, rest, rfl⟩ := List.exists_cons_of_length_pos (by omega : 0 < start.length)
  rw [List.cons_append, List.infix_cons_iff] at hinfix
  rcases hinfix with hprefix | hinfix
  · exact hstart (List.prefix_of_prefix_length_le hprefix (List.prefix_append _ text) hlength)
  · exact htext (Text.infix_of_infix_append htail hinfix)

/-- What a line of markdown is set as includes no image. -/
theorem not_isInclude_setLine (l : MarkdownLine) :
  isInclude l.setLine = false
  := by
  have hitem : itemStart <:+: includeStart := by decide
  have htypeset {n m : Nat} {text : List Char} (h : Typeset n text m) :
      ¬ includeStart <:+: text := fun hinfix => not_infix_itemStart h (hitem.trans hinfix)
  apply not_isInclude
  cases l with
  | blank => decide
  | heading level text =>
    have hstart : 3 ≤ ("\\" ++ headingCommand level ++ "*\x7b").toList.length
        ∧ ¬ includeStart <+: ("\\" ++ headingCommand level ++ "*\x7b").toList
        ∧ '\\' ∉ ("\\" ++ headingCommand level ++ "*\x7b").toList.tail := by
      unfold headingCommand
      split <;> decide
    have hargument : Typeset 1 (inline text ++ ['}']) 0 :=
      (Typesetting.typeset_inline 1 text).append Block.closing.typeset
    rw [MarkdownLine.setLine, headingLine, String.toList_append,
      String.toList_append (t := String.ofList (inline text)),
      String.toList_ofList (l := inline text), List.append_assoc]
    exact not_infix_includeStart hstart.1 hstart.2.1 hstart.2.2 (htypeset hargument)
  | item level text =>
    rw [MarkdownLine.setLine, itemLine, String.toList_append,
      String.toList_ofList (l := inline text)]
    exact not_infix_includeStart (by decide) (by decide) (by decide)
      (htypeset (Typesetting.typeset_inline 0 text))
  | plain text =>
    rw [MarkdownLine.setLine, String.toList_ofList]
    exact htypeset (Typesetting.typeset_inline 0 text)

/-! ### Parts of a notebook -/

/-- Lines among which none includes an image, and behind which no verbatim block is open. -/
def Omits (lines : List String) : Prop :=
  ∀ rest, includeLines (lines ++ rest) = includeLines rest

theorem omits_nil :
  Omits []
  := fun _ => rfl

theorem omits_append {lines more : List String} (h : Omits lines) (hmore : Omits more) :
  Omits (lines ++ more)
  := by
  intro rest
  rw [List.append_assoc, h, hmore]

theorem omits_empty :
  Omits [""]
  := by
  intro rest
  rw [List.singleton_append, includeLines, contents_empty, includeLines]

theorem omits_verbatim (text : List Char) :
  Omits (verbatim text)
  := by
  intro rest
  rw [includeLines, contents_verbatim, included_append, included_eq_nil]
  · rfl
  · intro line hline
    obtain ⟨raw, -, rfl⟩ := List.mem_map.mp hline
    exact Or.inl rfl

theorem omits_markdown (source : List Char) :
  Omits (markdown source)
  := by
  intro rest
  rw [includeLines, contents_markdown, included_append, included_eq_nil]
  · rfl
  · intro line hline
    obtain ⟨⟨inFence, raw⟩, -, rfl⟩ := List.mem_map.mp hline
    cases inFence with
    | true => exact Or.inl rfl
    | false => exact Or.inr (not_isInclude_setLine _)

theorem toList_includeLine (name : String) :
  (includeLine name).toList = includeOpening.toList ++ (name.toList ++ ['}'])
  := by
  rw [includeLine, String.toList_append, String.toList_append, List.append_assoc]
  rfl

/-- The lines that set an image include it. -/
theorem includeLines_ofImage (name : String) (rest : List String) :
  includeLines ((Piece.ofImage name).lines ++ rest) = includeLine name :: includeLines rest
  := by
  have hne {other : String} (h : ¬ includeStart <+: other.toList) : includeLine name ≠ other := by
    rintro rfl
    have hstart : includeStart <+: includeOpening.toList := by decide
    apply h
    rw [toList_includeLine]
    exact hstart.trans (List.prefix_append _ _)
  have hcontents : contents false ((Piece.ofImage name).lines ++ rest)
      = [(false, "\\begin\x7bcenter\x7d"), (false, includeLine name),
        (false, "\\end\x7bcenter\x7d")] ++ contents false rest := by
    have hblank : Text.isBlankText (includeLine name).toList = false := by
      rw [toList_includeLine]
      rfl
    change contents false ("\\begin\x7bcenter\x7d" :: includeLine name
      :: "\\end\x7bcenter\x7d" :: rest) = _
    rw [contents_cons (by decide) (by decide) (by decide),
      contents_cons (hne (by decide)) (hne (by decide)) (hne (by decide)), hblank,
      contents_cons (by decide) (by decide) (by decide)]
    rfl
  have hinclude : isInclude (includeLine name) = true := by
    have hstart : includeCommand.toList <+: includeOpening.toList := by decide
    rw [isInclude, decide_eq_true_eq, toList_includeLine]
    exact (hstart.trans (List.prefix_append _ _)).isInfix
  have hbegin : isInclude "\\begin\x7bcenter\x7d" = false := by decide
  have hend : isInclude "\\end\x7bcenter\x7d" = false := by decide
  rw [includeLines, hcontents, included_append]
  simp [included, hinclude, hbegin, hend, includeLines]

/-! ### Images that are set for outputs -/

/-- An output with the label that its images are named after, and the image that is set for it, if
one is. -/
structure Shown where
  label : String
  output : Output
  image? : Option Image

namespace Shown

/-- The output with its label. -/
def key (x : Shown) : String × Output :=
  (x.label, x.output)

/-- The image is one of the output: it is named after the label and its type, and its bytes are
decoded from the representation of this type and usable. -/
def IsFaithful (x : Shown) : Prop :=
  ∀ image ∈ x.image?, ∃ b media extension isUsable encoded, x.output = .rich b
    ∧ (media, extension, isUsable) ∈ imageTypes ∧ b.text? media = some encoded
    ∧ decodeImage? isUsable encoded = some image.bytes
    ∧ image.name = x.label ++ "." ++ extension

/-- The lines of the output that are passed on as they are: markup, if no image is set. -/
def passed (x : Shown) : List String :=
  match x.output, x.image? with
  | .rich b, none => if (b.text? "text/latex").isSome then bundleLines b else []
  | _, _ => []

end Shown

/-- The images that are set for outputs. -/
def imagesIn (shown : List Shown) : List Image :=
  shown.filterMap Shown.image?

theorem imagesIn_append (shown more : List Shown) :
  imagesIn (shown ++ more) = imagesIn shown ++ imagesIn more
  := List.filterMap_append

/-- A part of a notebook shows the images that are set for its outputs. -/
structure Illustrates (shown : List Shown) (piece : Piece) : Prop where
  faithful : ∀ x ∈ shown, x.IsFaithful
  /-- The files that are reported are those of the images. -/
  images : piece.images = (imagesIn shown).map Image.name
  /-- But for the lines that outputs pass on, those that include images are one for each image, in
  order, whatever comes behind them. -/
  lines : ∃ tagged : List (Bool × String), tagged.map Prod.snd = piece.lines
    ∧ (tagged.filter Prod.fst).map Prod.snd = shown.flatMap Shown.passed
    ∧ ∀ rest, includeLines ((tagged.filter fun line => !line.1).map Prod.snd ++ rest)
      = ((imagesIn shown).map fun image => includeLine image.name) ++ includeLines rest

variable {shown more : List Shown} {p q : Piece} {lines : List String}

theorem Illustrates.append (hp : Illustrates shown p) (hq : Illustrates more q) :
  Illustrates (shown ++ more) (p ++ q)
  := by
  obtain ⟨tagged, hlines, hpassed, hreads⟩ := hp.lines
  obtain ⟨tagged', hlines', hpassed', hreads'⟩ := hq.lines
  refine ⟨List.forall_mem_append.mpr ⟨hp.faithful, hq.faithful⟩, ?_, tagged ++ tagged', ?_, ?_, ?_⟩
  · rw [imagesIn_append, List.map_append, ← hp.images, ← hq.images]
    rfl
  · rw [List.map_append, hlines, hlines']
    rfl
  · rw [List.filter_append, List.map_append, hpassed, hpassed', List.flatMap_append]
  · intro rest
    rw [List.filter_append, List.map_append, List.append_assoc, hreads, hreads', imagesIn_append,
      List.map_append, List.append_assoc]

theorem map_tagged (passedOn : Bool) (lines : List String) :
  (lines.map fun line => (passedOn, line)).map Prod.snd = lines
    ∧ ((lines.map fun line => (passedOn, line)).filter Prod.fst).map Prod.snd
      = (if passedOn then lines else [])
    ∧ ((lines.map fun line => (passedOn, line)).filter fun line => !line.1).map Prod.snd
      = (if passedOn then [] else lines)
  := by
  cases passedOn <;> simp [List.filter_map, Function.comp_def]

/-- A part whose lines are all passed on, or all its own. -/
theorem illustrates_of_lines (passedOn : Bool) (hfaithful : ∀ x ∈ shown, x.IsFaithful)
    (himages : p.images = (imagesIn shown).map Image.name)
    (hpassed : shown.flatMap Shown.passed = if passedOn then p.lines else [])
    (hreads : ∀ rest, includeLines ((if passedOn then [] else p.lines) ++ rest)
      = ((imagesIn shown).map fun image => includeLine image.name) ++ includeLines rest) :
  Illustrates shown p
  := by
  obtain ⟨hlines, htagged, hown⟩ := map_tagged passedOn p.lines
  refine ⟨hfaithful, himages, _, hlines, htagged.trans hpassed.symm, ?_⟩
  rw [hown]
  exact hreads

/-- Lines that include nothing may stand in any part. -/
theorem illustrates_lines (h : Omits lines) :
  Illustrates [] { lines }
  := illustrates_of_lines false (List.forall_mem_nil _) rfl rfl h

/-- An output for which no image is set: its lines are passed on, or include nothing. -/
theorem illustrates_none {x : Shown} (hnone : x.image? = none)
    (h : x.passed = lines ∨ x.passed = [] ∧ Omits lines) :
  Illustrates [x] { lines }
  := by
  have himages : imagesIn [x] = [] := List.filterMap_cons_none hnone
  have hfaithful : ∀ y ∈ [x], y.IsFaithful := by
    rw [List.forall_mem_singleton, Shown.IsFaithful, hnone]
    exact fun _ h => absurd h (by simp)
  have hnames : [] = (imagesIn [x]).map Image.name := by
    rw [himages]
    rfl
  rcases h with hpassed | ⟨hpassed, homits⟩
  · apply illustrates_of_lines true hfaithful hnames
    · rw [List.flatMap_singleton, hpassed]
      rfl
    · rw [himages]
      exact fun _ => rfl
  · apply illustrates_of_lines false hfaithful hnames
    · rw [List.flatMap_singleton, hpassed]
      rfl
    · rw [himages]
      exact homits

/-- An output for which an image is set. -/
theorem illustrates_image {label : String} {b : Bundle} {image : Image}
    (h : image ∈ candidates label b) :
  Illustrates [⟨label, .rich b, some image⟩] (Piece.ofImage image.name)
  := by
  apply illustrates_of_lines false
  · rw [List.forall_mem_singleton]
    rintro image ⟨⟩
    obtain ⟨⟨media, extension, isUsable⟩, htype, hfound⟩ := List.mem_filterMap.mp h
    obtain ⟨bytes, hbytes, rfl⟩ := Option.map_eq_some_iff.mp hfound
    obtain ⟨encoded, hencoded, hdecoded⟩ := Option.bind_eq_some_iff.mp hbytes
    exact ⟨b, media, extension, isUsable, encoded, rfl, htype, hencoded, hdecoded, rfl⟩
  · rfl
  · rfl
  · exact includeLines_ofImage image.name

/-! ### Images that are saved -/

variable {σ α β : Type} (answer : σ → Image → Bool × σ)

/-- The images that are saved. -/
def savedImages (x : Rendering α) (s : σ) : List Image :=
  (x.transcript answer s).filterMap fun entry => if entry.2 then some entry.1 else none

theorem savedImages_bind (x : Rendering α) (f : α → Rendering β) (s : σ) :
  savedImages answer (x.bind f) s
    = savedImages answer x s ++ savedImages answer (f (x.run answer s).1) (x.run answer s).2
  := by
  rw [savedImages, Dialogue.transcript_bind, List.filterMap_append]
  rfl

/-- Of several images the first that can be saved is the only one that is. -/
theorem exists_saved (images : List Image) (s : σ) :
  ∃ image? : Option Image, (∀ image ∈ image?, image ∈ images)
    ∧ ((saveFirst? images).run answer s).1 = image?.map Image.name
    ∧ savedImages answer (saveFirst? images) s = image?.toList
  := by
  induction images generalizing s with
  | nil => exact ⟨none, by simp, rfl, rfl⟩
  | cons image images ih =>
    rw [saveFirst?, Dialogue.bind_eq, Dialogue.run_bind, savedImages_bind]
    change ∃ image? : Option Image, _
      ∧ (Dialogue.run answer (if (answer s image).1 then _ else _) (answer s image).2).1 = _
      ∧ (if (answer s image).1 then some image else none).toList
        ++ savedImages answer (if (answer s image).1 then _ else _) (answer s image).2 = _
    cases (answer s image).1 with
    | true => exact ⟨some image, by simp, rfl, rfl⟩
    | false =>
      obtain ⟨image?, hmem, hrun, hsaved⟩ := ih (answer s image).2
      exact ⟨image?, fun other h => List.mem_cons_of_mem image (hmem other h), hrun, hsaved⟩

/-- Typesetting shows the images that are saved, of the outputs with the given labels. -/
def Illustrating (keys : List (String × Output)) (x : Rendering Piece) : Prop :=
  ∀ s, ∃ shown, shown.map Shown.key = keys ∧ Illustrates shown (x.run answer s).1
    ∧ imagesIn shown = savedImages answer x s

variable {answer} {keys keys' : List (String × Output)} {x y : Rendering Piece}

theorem illustrating_lines (h : Omits lines) :
  Illustrating answer [] (.done { lines })
  := fun _ => ⟨[], rfl, illustrates_lines h, rfl⟩

/-- One part after another shows the images of both. -/
theorem Illustrating.append (hx : Illustrating answer keys x) (hy : Illustrating answer keys' y) :
  Illustrating answer (keys ++ keys') (x.bind fun p => y.bind fun q => .done (p ++ q))
  := by
  intro s
  obtain ⟨shown, hkeys, hshown, hsaved⟩ := hx s
  obtain ⟨shown', hkeys', hshown', hsaved'⟩ := hy (x.run answer s).2
  refine ⟨shown ++ shown', ?_, ?_, ?_⟩
  · rw [List.map_append, hkeys, hkeys']
  · rw [Dialogue.run_bind, Dialogue.run_bind]
    exact hshown.append hshown'
  · rw [imagesIn_append, hsaved, hsaved', savedImages_bind, savedImages_bind]
    exact congrArg (_ ++ ·) (List.append_nil _).symm

theorem omits_bundleLines {b : Bundle} (h : b.text? "text/latex" = none) :
  Omits (bundleLines b)
  := by
  rw [bundleLines, h]
  cases b.text? "text/plain" with
  | none => exact omits_nil
  | some text => exact omits_verbatim text.toList

theorem illustrating_renderBundle (label : String) (b : Bundle) :
  Illustrating answer [(label, .rich b)] (renderBundle label b)
  := by
  intro s
  obtain ⟨image?, hmem, hrun, hsaved⟩ := exists_saved answer (candidates label b) s
  refine ⟨[⟨label, .rich b, image?⟩], rfl, ?_, ?_⟩
  · rw [renderBundle, Dialogue.bind_eq, Dialogue.run_bind, hrun]
    cases image? with
    | some image => exact illustrates_image (hmem image rfl)
    | none =>
      have hpassed : Shown.passed ⟨label, .rich b, none⟩
        = if (b.text? "text/latex").isSome then bundleLines b else [] := rfl
      apply illustrates_none rfl
      rw [hpassed]
      cases hmarkup : b.text? "text/latex" with
      | some markup => exact Or.inl rfl
      | none => exact Or.inr ⟨rfl, omits_bundleLines hmarkup⟩
  · rw [renderBundle, Dialogue.bind_eq, savedImages_bind, hsaved, hrun]
    cases image? with
    | some image => rfl
    | none => rfl

theorem illustrating_renderOutput (label : String) (output : Output) :
  Illustrating answer [(label, output)] (renderOutput label output)
  := by
  have htext {lines : List String} (h : Omits lines)
      (hpassed : Shown.passed ⟨label, output, none⟩ = []) :
      Illustrating answer [(label, output)] (.done { lines }) := fun _ =>
    ⟨[⟨label, output, none⟩], rfl, illustrates_none rfl (Or.inr ⟨hpassed, h⟩), rfl⟩
  cases output with
  | stream text =>
    cases text with
    | none => exact htext omits_nil rfl
    | some text => exact htext (omits_verbatim text.toList) rfl
  | rich bundle => exact illustrating_renderBundle label bundle
  | error name value => exact htext (omits_verbatim _) rfl
  | other => exact htext omits_nil rfl

/-- Outputs with their labels, of which the first has the given number. -/
def labelled (label : String) (first : Nat) (outputs : List Output) : List (String × Output) :=
  (outputs.zipIdx first).map fun (output, n) => (label ++ "_output" ++ toString n, output)

/-- The outputs of a cell with their labels. -/
def labelledCell (label : String) : Cell → List (String × Output)
  | .code _ outputs => labelled label 0 outputs
  | _ => []

/-- The outputs of cells with their labels, where the first cell has the given number. -/
def labelledCells (stem : String) (first : Nat) (cells : List Cell) : List (String × Output) :=
  (cells.zipIdx first).flatMap fun (cell, n) => labelledCell (stem ++ "_cell" ++ toString n) cell

/-- The outputs of a notebook, each with a label that tells its cell and its number in the cell. -/
def labelledOutputs (stem : String) (n : Notebook) : List (String × Output) :=
  labelledCells stem 0 n.cells

theorem illustrating_renderOutputs (label : String) (first : Nat) (outputs : List Output) :
  Illustrating answer (labelled label first outputs) (renderOutputs label first outputs)
  := by
  induction outputs generalizing first with
  | nil => exact illustrating_lines omits_nil
  | cons output outputs ih =>
    exact (illustrating_renderOutput _ output).append (ih (first + 1))

theorem illustrating_renderCell (label : String) (cell : Cell) :
  Illustrating answer (labelledCell label cell) (renderCell label cell)
  := by
  cases cell with
  | markdown source => exact illustrating_lines (omits_append (omits_markdown _) omits_empty)
  | code source outputs =>
    intro s
    have hsource := illustrates_lines (omits_verbatim source.toList)
    have houtputs : Illustrating answer (labelled label 0 outputs)
        (renderOutputs label 0 outputs) := illustrating_renderOutputs label 0 outputs
    obtain ⟨shown, hkeys, hshown, hsaved⟩ := houtputs s
    have hpiece := (hsource.append hshown).append (illustrates_lines omits_empty)
    rw [List.nil_append, List.append_nil] at hpiece
    refine ⟨shown, hkeys, ?_, ?_⟩
    · rw [renderCell, Dialogue.bind_eq, Dialogue.run_bind]
      exact hpiece
    · rw [renderCell, Dialogue.bind_eq, savedImages_bind, hsaved]
      exact (List.append_nil _).symm
  | other => exact illustrating_lines omits_empty

theorem illustrating_renderCells (stem : String) (first : Nat) (cells : List Cell) :
  Illustrating answer (labelledCells stem first cells) (renderCells stem first cells)
  := by
  induction cells generalizing first with
  | nil => exact illustrating_lines omits_nil
  | cons cell cells ih => exact (illustrating_renderCell _ cell).append (ih (first + 1))

/-- The lines, the reported files and the saved images of a notebook agree. -/
theorem illustrating_render (stem : String) (n : Notebook) :
  Illustrating answer (n.labelledOutputs stem) (render stem n)
  := illustrating_renderCells stem 0 n.cells

/-! ### Names -/

theorem imagesOfCell_eq (label : String) (cell : Cell) :
  imagesOfCell label cell = (labelledCell label cell).flatMap fun (label, output) =>
    imagesOfOutput label output
  := by
  cases cell with
  | code source outputs =>
    change imagesOfOutputs label 0 outputs = (labelled label 0 outputs).flatMap _
    rw [labelled, List.flatMap_map]
    rfl
  | _ => rfl

theorem images_eq (stem : String) (n : Notebook) :
  n.images stem = (n.labelledOutputs stem).flatMap fun (label, output) =>
    imagesOfOutput label output
  := by
  rw [images, imagesOfCells, labelledOutputs, labelledCells, List.flatMap_assoc]
  exact List.flatMap_congr fun (cell, _) _ => imagesOfCell_eq _ cell

/-- The images that are set for outputs are among those that the outputs may have. -/
theorem names_imagesIn (h : ∀ x ∈ shown, x.IsFaithful) :
  (imagesIn shown).map Image.name
    <+ (shown.map Shown.key).flatMap fun (label, output) => imagesOfOutput label output
  := by
  induction shown with
  | nil => exact List.Sublist.refl []
  | cons x shown ih =>
    obtain ⟨hx, hshown⟩ := List.forall_mem_cons.mp h
    rw [List.map_cons, List.flatMap_cons, imagesIn, List.filterMap_cons]
    cases himage : x.image? with
    | none => exact (ih hshown).trans (List.sublist_append_right _ _)
    | some image =>
      obtain ⟨b, media, extension, isUsable, encoded, houtput, htype, hencoded, hdecoded, hname⟩ :=
        hx image himage
      have hmem : image.name ∈ imagesOfOutput x.label x.output := by
        rw [houtput]
        apply List.mem_map.mpr
        refine ⟨image, List.mem_filterMap.mpr ⟨_, htype, ?_⟩, rfl⟩
        dsimp only
        rw [hencoded, Option.bind_some, hdecoded, Option.map_some, ← hname]
      exact (List.singleton_sublist.mpr hmem).append (ih hshown)

/-! ### Images that cannot be saved -/

variable (answer) in
/-- Two parts come to the same wherever the image is refused whenever the first asks for it. -/
def SameUnlessSaved (image? : Option Image) (x y : Rendering α) : Prop :=
  ∀ s, (∀ image ∈ image?, ∀ asking ∈ x.moments answer s, asking.1 = image →
    (answer asking.2 image).1 = false) → x.run answer s = y.run answer s

variable (answer) in
theorem sameUnlessSaved_refl (image? : Option Image) (x : Rendering α) :
  SameUnlessSaved answer image? x x
  := fun _ _ => rfl

variable {image? : Option Image}

theorem SameUnlessSaved.bind {x y : Rendering α} {f g : α → Rendering β}
    (hx : SameUnlessSaved answer image? x y) (hf : ∀ a, SameUnlessSaved answer image? (f a) (g a)) :
  SameUnlessSaved answer image? (x.bind f) (y.bind g)
  := by
  intro s h
  rw [Dialogue.moments_bind] at h
  have hfirst := hx s fun image himage asking hasking =>
    h image himage asking (List.mem_append_left _ hasking)
  rw [Dialogue.run_bind, Dialogue.run_bind, ← hfirst]
  exact hf _ _ fun image himage asking hasking =>
    h image himage asking (List.mem_append_right _ hasking)

/-- An image that is refused may as well not be there, if refusing changes nothing. -/
theorem run_saveFirst?_of_refused
    (hkeeps : ∀ s image, (answer s image).1 = false → (answer s image).2 = s) {image : Image}
    (before after : List Image) {s : σ}
    (h : ∀ asking ∈ (saveFirst? (before ++ image :: after)).moments answer s, asking.1 = image →
      (answer asking.2 image).1 = false) :
  (saveFirst? (before ++ image :: after)).run answer s
    = (saveFirst? (before ++ after)).run answer s
  := by
  have hrun (image : Image) (images : List Image) :
      (saveFirst? (image :: images)).run answer s
        = if (answer s image).1 then (some image.name, (answer s image).2)
          else (saveFirst? images).run answer (answer s image).2 := by
    rw [saveFirst?, Dialogue.bind_eq, Dialogue.run_bind]
    change Dialogue.run answer (if (answer s image).1 then _ else _) (answer s image).2 = _
    cases (answer s image).1 <;> rfl
  induction before with
  | nil =>
    have hrefused := h (image, s) List.mem_cons_self rfl
    rw [List.nil_append, hrun, if_neg (by simp [hrefused]), hkeeps s image hrefused]
    rfl
  | cons first before ih =>
    rw [List.cons_append, hrun, List.cons_append, hrun]
    cases hfirst : (answer s first).1 with
    | true => rfl
    | false =>
      rw [List.cons_append, saveFirst?, Dialogue.bind_eq, Dialogue.moments_bind] at h
      have hrest : ∀ asking ∈ (if (answer s first).1 then Dialogue.done (some first.name)
          else saveFirst? (before ++ image :: after)).moments answer (answer s first).2,
          asking.1 = image → (answer asking.2 image).1 = false := fun asking hasking =>
        h asking (List.mem_append_right _ hasking)
      rw [hfirst, if_neg Bool.false_ne_true, hkeeps s first hfirst] at hrest
      rw [hkeeps s first hfirst]
      exact ih hrest

/-- Without the representation of a media type the others are as they were. -/
theorem text?_put_none (b : Bundle) (media other : String) :
  (b.put media none).text? other = if other = media then none else b.text? other
  := by
  rw [Bundle.put, Bundle.text?, Bundle.text?, List.find?_filter]
  split
  · next h =>
    subst h
    simp
  · next h =>
    congr
    funext entry
    by_cases hentry : entry.1 = other
    · simp [hentry, h]
    · simp [hentry]

/-- The image of a media type that an output has, if its representation can be used. -/
def candidate? (label : String) (b : Bundle) (type : String × String × (Bytes → Bool)) :
    Option Image :=
  ((b.text? type.1).bind (decodeImage? type.2.2)).map fun bytes =>
    { name := label ++ "." ++ type.2.1, bytes }

theorem candidate?_put (label : String) (b : Bundle) {media : String}
    (type : String × String × (Bytes → Bool)) :
  candidate? label (b.put media none) type
    = if type.1 = media then none else candidate? label b type
  := by
  rw [candidate?, text?_put_none, candidate?]
  split <;> rfl

/-- Without the representation of a media type its image is no candidate. -/
theorem exists_candidates {type : String × String × (Bytes → Bool)} (htype : type ∈ imageTypes)
    (label : String) (b : Bundle) :
  ∃ before after, candidates label b = before ++ ((candidate? label b type).toList ++ after)
    ∧ candidates label (b.put type.1 none) = before ++ after
  := by
  have hcandidates (b : Bundle) : candidates label b = imageTypes.filterMap (candidate? label b) :=
    rfl
  have hmedia : (imageTypes.map Prod.fst).Nodup := by decide
  obtain ⟨front, back, htypes⟩ := List.append_of_mem htype
  rw [htypes, List.map_append, List.map_cons, List.nodup_middle, List.nodup_cons, List.mem_append,
    not_or] at hmedia
  have hothers {types : List (String × String × (Bytes → Bool))}
      (h : type.1 ∉ types.map Prod.fst) :
      types.filterMap (candidate? label (b.put type.1 none))
        = types.filterMap (candidate? label b) := by
    apply List.filterMap_congr
    intro other hother
    rw [candidate?_put, if_neg]
    intro heq
    exact h (heq ▸ List.mem_map_of_mem hother)
  use front.filterMap (candidate? label b), back.filterMap (candidate? label b)
  constructor
  · rw [hcandidates, htypes, List.filterMap_append, List.filterMap_cons]
    cases candidate? label b type <;> rfl
  · rw [hcandidates, htypes, List.filterMap_append, List.filterMap_cons, candidate?_put,
      if_pos rfl, hothers hmedia.1.1, hothers hmedia.1.2]

/-- An image that cannot be used, or that is refused where refusing changes nothing, leaves no
trace: its output is typeset as if it had no representation of this type. -/
theorem sameUnlessSaved_renderBundle
    (hkeeps : ∀ s image, (answer s image).1 = false → (answer s image).2 = s) (label : String)
    (b : Bundle) {type : String × String × (Bytes → Bool)} (htype : type ∈ imageTypes) :
  SameUnlessSaved answer (candidate? label b type) (renderBundle label b)
    (renderBundle label (b.put type.1 none))
  := by
  have hmarkup : ∀ type ∈ imageTypes, "text/latex" ≠ type.1 ∧ "text/plain" ≠ type.1 := by decide
  have hlines : bundleLines (b.put type.1 none) = bundleLines b := by
    rw [bundleLines, text?_put_none, if_neg (hmarkup type htype).1, text?_put_none,
      if_neg (hmarkup type htype).2, bundleLines]
  obtain ⟨before, after, hcandidates, hput⟩ := exists_candidates htype label b
  have hsaved : SameUnlessSaved answer (candidate? label b type) (saveFirst? (candidates label b))
      (saveFirst? (candidates label (b.put type.1 none))) := by
    rw [hcandidates, hput]
    cases candidate? label b type with
    | none => exact sameUnlessSaved_refl answer _ _
    | some image => exact fun s h => run_saveFirst?_of_refused hkeeps before after (h image rfl)
  unfold renderBundle
  rw [hlines]
  exact hsaved.bind fun _ => sameUnlessSaved_refl answer _ _

/-- The place of an output in a notebook: the cells and outputs around it. -/
structure Slot where
  before : List Cell
  source : String
  outputs : List Output
  more : List Output
  after : List Cell

namespace Slot

/-- The notebook with an output in this place. -/
def fill (slot : Slot) (output : Output) : Notebook where
  cells := slot.before ++ .code slot.source (slot.outputs ++ output :: slot.more) :: slot.after

/-- The label of the output in this place. -/
def label (slot : Slot) (stem : String) : String :=
  stem ++ "_cell" ++ toString slot.before.length ++ "_output" ++ toString slot.outputs.length

end Slot

theorem sameUnlessSaved_renderOutputs (label : String) {first : Nat} {outputs : List Output}
    (more : List Output) {output output' : Output}
    (h : ∀ n, n = first + outputs.length → SameUnlessSaved answer image?
      (renderOutput (label ++ "_output" ++ toString n) output)
      (renderOutput (label ++ "_output" ++ toString n) output')) :
  SameUnlessSaved answer image? (renderOutputs label first (outputs ++ output :: more))
    (renderOutputs label first (outputs ++ output' :: more))
  := by
  induction outputs generalizing first with
  | nil => exact (h first rfl).bind fun _ => sameUnlessSaved_refl answer _ _
  | cons _ outputs ih =>
    refine (sameUnlessSaved_refl answer _ _).bind fun _ => (ih fun n hn => h n ?_).bind fun _ =>
      sameUnlessSaved_refl answer _ _
    rw [hn, List.length_cons, Nat.add_right_comm, Nat.add_assoc]

theorem sameUnlessSaved_renderCells (stem : String) {first : Nat} {before : List Cell}
    (after : List Cell) {cell cell' : Cell}
    (h : ∀ n, n = first + before.length → SameUnlessSaved answer image?
      (renderCell (stem ++ "_cell" ++ toString n) cell)
      (renderCell (stem ++ "_cell" ++ toString n) cell')) :
  SameUnlessSaved answer image? (renderCells stem first (before ++ cell :: after))
    (renderCells stem first (before ++ cell' :: after))
  := by
  induction before generalizing first with
  | nil => exact (h first rfl).bind fun _ => sameUnlessSaved_refl answer _ _
  | cons _ before ih =>
    refine (sameUnlessSaved_refl answer _ _).bind fun _ => (ih fun n hn => h n ?_).bind fun _ =>
      sameUnlessSaved_refl answer _ _
    rw [hn, List.length_cons, Nat.add_right_comm, Nat.add_assoc]

/-- An image that cannot be used, or that is refused where refusing changes nothing, leaves no
trace in a notebook: it is typeset as if the output had no representation of this type. -/
theorem sameUnlessSaved_render
    (hkeeps : ∀ s image, (answer s image).1 = false → (answer s image).2 = s) (stem : String)
    (slot : Slot) (b : Bundle) {type : String × String × (Bytes → Bool)}
    (htype : type ∈ imageTypes) :
  SameUnlessSaved answer (candidate? (slot.label stem) b type)
    (render stem (slot.fill (.rich b))) (render stem (slot.fill (.rich (b.put type.1 none))))
  := by
  apply sameUnlessSaved_renderCells
  rintro _ rfl
  rw [Nat.zero_add]
  refine SameUnlessSaved.bind ?_ fun _ => sameUnlessSaved_refl answer _ _
  apply sameUnlessSaved_renderOutputs
  rintro _ rfl
  rw [Nat.zero_add]
  exact sameUnlessSaved_renderBundle hkeeps (slot.label stem) b htype

end Bindery.Notebook
