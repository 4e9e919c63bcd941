import Bindery.Proofs.Notebook.Nesting
import Bindery.Proofs.Notebook.Parts

/-!
# The lines of a markdown cell and what they are set as

Something of a line of markdown can be seen if it is not blank without its control characters.  Each
of these lines that is no fence is set as one line (`setLine`), which is not blank either: the text
of a line keeps what can be seen of it (`isBlankText_inline`, `isBlankText_verbatimLine`).  So the
lines of a cell that are neither blank nor markers are those of its source, one to one and in order
(`contents_renderCell`).  Only the lines of fenced code stand in verbatim blocks, and every block is
closed.
-/

namespace Bindery

open Text (isBlankText)

/-! ### Blank texts -/

namespace Text

variable {find : List Char → Option (Nat × List Char)} {cs : List Char}

theorem isBlankText_append (cs ds : List Char) :
  isBlankText (cs ++ ds) = (isBlankText cs && isBlankText ds)
  := List.all_append

theorem isBlankText_eq_false_of_mem {c : Char} (hc : isBlank c = false) (h : c ∈ cs) :
  isBlankText cs = false
  := List.all_eq_false.mpr ⟨c, h, by simp [hc]⟩

/-- Replacing keeps a text blank or not, if neither what is replaced nor what stands for it is
blank. -/
theorem isBlankText_replaceWhere
    (hfind : ∀ {text length new}, find text = some (length, new) →
      isBlankText text = false ∧ isBlankText new = false) (cs : List Char) :
  isBlankText (replaceWhere find 0 cs) = isBlankText cs
  := by
  induction cs with
  | nil => rfl
  | cons c cs ih =>
    rw [replaceWhere]
    cases hfound : find (c :: cs) with
    | some found =>
      obtain ⟨htext, hnew⟩ := hfind hfound
      rw [isBlankText_append, hnew, htext, Bool.false_and]
    | none => exact congrArg (isBlank c && ·) ih

/-- Where white space and the control characters that are removed stand among all characters. -/
theorem toNat_of_isHidden {c : Char} (h : isBlank c || Escape.isStripped c) :
  c.toNat < 0x30 ∨ (0x7f ≤ c.toNat ∧ c.toNat ≤ 0xa0) ∨ c.toNat = 0x1680
    ∨ (0x2000 ≤ c.toNat ∧ c.toNat ≤ 0x3000)
  := by
  simp only [isBlank, Escape.isStripped, Bool.or_eq_true, Bool.and_eq_true, decide_eq_true_eq,
    beq_iff_eq, ← Char.toNat_inj, Char.le_def, UInt32.le_iff_toNat_le, Char.toNat_val,
    Char.reduceToNat] at h
  omega

/-- A digit of any script is neither white space nor a control character that is removed. -/
theorem not_isHidden_of_isDigit {c : Char} (h : isDigit c) :
  isBlank c = false ∧ Escape.isStripped c = false
  := by
  have hrows : ∀ first ∈ digitRows, 0x30 ≤ first ∧ (first + 10 ≤ 0x7f ∨ 0xa0 < first)
      ∧ (first + 10 ≤ 0x1680 ∨ 0x1680 < first) ∧ (first + 10 ≤ 0x2000 ∨ 0x3000 < first)
    := by decide
  obtain ⟨first, hfirst, hrow⟩ := List.any_eq_true.mp h
  simp only [Bool.and_eq_true, decide_eq_true_eq] at hrow
  have hgaps := hrows first hfirst
  rw [← Bool.or_eq_false_iff]
  by_contra hhidden
  have hc := toNat_of_isHidden (eq_true_of_ne_false hhidden)
  omega

theorem exists_eq_trim (cs : List Char) :
  ∃ before after, cs = before ++ trim cs ++ after ∧ isBlankText before ∧ isBlankText after
  := by
  have hblank (ds : List Char) : isBlankText (ds.takeWhile isBlank) :=
    List.all_eq_true.mpr fun _ => List.mem_takeWhile_imp
  have hend (ds : List Char) :
      ds = trimEnd ds ++ (ds.reverse.takeWhile isBlank).reverse := by
    rw [trimEnd, ← List.reverse_append, List.takeWhile_append_dropWhile, List.reverse_reverse]
  use cs.takeWhile isBlank, ((trimStart cs).reverse.takeWhile isBlank).reverse
  refine ⟨?_, hblank cs, ?_⟩
  · rw [List.append_assoc, trim, ← hend, trimStart, List.takeWhile_append_dropWhile]
  · rw [isBlankText, List.all_reverse]
    exact hblank _

end Text

open Text (isBlankText_append isBlankText_eq_false_of_mem)

namespace Escape

theorem isBlankText_escapeChar (c : Char) :
  isBlankText (escapeChar c) = (isStripped c || Text.isBlank c)
  := by
  cases hc : isStripped c with
  | true =>
    rw [escapeChar, if_pos hc]
    rfl
  | false =>
    rw [Bool.false_or]
    cases hspelling : replacement? c with
    | none =>
      rw [escapeChar_of_none hc hspelling]
      exact Bool.and_true _
    | some spelling =>
      rw [escapeChar_of_replacement hc hspelling]
      unfold replacement? at hspelling
      split at hspelling <;> cases hspelling <;> decide

/-- An escaped text is blank if nothing but control characters and white space was in it. -/
theorem isBlankText_escape (cs : List Char) :
  isBlankText (escape cs) = isBlankText (stripControls cs)
  := by
  have hchar (c : Char) : (escapeChar c).all Text.isBlank = (!!isStripped c || Text.isBlank c) := by
    rw [Bool.not_not]
    exact isBlankText_escapeChar c
  simp only [isBlankText, escape, stripControls, List.all_flatMap, List.all_filter, hchar]

theorem isBlankText_smartQuotes (cs : List Char) :
  isBlankText (smartQuotes cs) = isBlankText cs
  := by
  have hchar (c : Char) : (quoteChar c).all Text.isBlank = Text.isBlank c := by
    unfold quoteChar
    split <;> first | decide | exact Bool.and_true _
  simp only [isBlankText, smartQuotes, List.all_flatMap, hchar]

theorem stripControls_append (cs ds : List Char) :
  stripControls (cs ++ ds) = stripControls cs ++ stripControls ds
  := List.filter_append ..

/-- A carriage return at the end of a line is a control character. -/
theorem stripControls_dropReturn (line : List Char) :
  stripControls (Text.dropReturn line) = stripControls line
  := by
  rw [Text.dropReturn]
  split
  · next hlast =>
    obtain ⟨start, rfl⟩ := List.getLast?_eq_some_iff.mp hlast
    rw [List.dropLast_concat, stripControls_append]
    exact (List.append_nil _).symm
  · rfl

theorem isBlankText_stripControls {cs : List Char} (h : isBlankText cs) :
  isBlankText (stripControls cs)
  := List.all_eq_true.mpr fun c hc => List.all_eq_true.mp h c (List.mem_of_mem_filter hc)

end Escape

namespace Notebook

open Escape (stripControls)

/-! ### What can be seen of a line -/

/-- Something of the line can be seen once its control characters are gone. -/
def isSeen (line : List Char) : Bool :=
  !isBlankText (stripControls line)

theorem isSeen_of_mem {line : List Char} {c : Char} (hblank : Text.isBlank c = false)
    (hkept : Escape.isStripped c = false) (h : c ∈ line) :
  isSeen line
  := by
  have hmem : c ∈ stripControls line := List.mem_filter.mpr ⟨h, by simp [hkept]⟩
  rw [isSeen, isBlankText_eq_false_of_mem hblank hmem]
  rfl

theorem isSeen_trim (line : List Char) :
  isSeen (Text.trim line) = isSeen line
  := by
  obtain ⟨before, after, hline, hbefore, hafter⟩ := Text.exists_eq_trim line
  conv_rhs => rw [hline]
  rw [isSeen, isSeen, Escape.stripControls_append, Escape.stripControls_append,
    isBlankText_append, isBlankText_append, Escape.isBlankText_stripControls hbefore,
    Escape.isBlankText_stripControls hafter, Bool.true_and, Bool.and_true]

theorem Span.isBlankText_convert {s : Span} (h : isBlankText s.delimiter = false)
    (text : List Char) :
  isBlankText (s.convert text) = isBlankText text
  := by
  apply Text.isBlankText_replaceWhere
  intro text length new hfound
  unfold find at hfound
  split at hfound
  · next hdelimiter =>
    obtain ⟨rest, rfl⟩ := List.isPrefixOf_iff_prefix.mp hdelimiter
    obtain ⟨content, -, heq⟩ := Option.map_eq_some_iff.mp hfound
    cases heq
    rw [isBlankText_append, h, Bool.false_and]
    refine ⟨rfl, ?_⟩
    apply isBlankText_eq_false_of_mem (c := '\\') (by decide)
    simp
  · cases hfound

/-- A typeset line is blank if nothing of it could be seen. -/
theorem isBlankText_inline (text : List Char) :
  isBlankText (inline text) = !isSeen text
  := by
  rw [inline, Escape.isBlankText_smartQuotes, Span.isBlankText_convert (by decide),
    Span.isBlankText_convert (by decide), Span.isBlankText_convert (by decide),
    Escape.isBlankText_escape, isSeen, Bool.not_not]

theorem isBlankText_verbatimLine (line : List Char) :
  isBlankText (verbatimLine line) = !isSeen line
  := by
  rw [isSeen, Bool.not_not, verbatimLine, Text.replace, Text.isBlankText_replaceWhere]
  intro text length new hfound
  split at hfound
  · next hold =>
    obtain ⟨rest, rfl⟩ := List.isPrefixOf_iff_prefix.mp hold
    cases hfound
    rw [isBlankText_append]
    have hblank : isBlankText verbatimEnd.toList = false := by decide
    rw [hblank, Bool.false_and]
    exact ⟨rfl, by decide⟩
  · cases hfound

/-! ### What lines are set as -/

/-- The line that holds the text of a line outside of fenced code. -/
def MarkdownLine.setLine : MarkdownLine → String
  | blank => ""
  | heading level text => headingLine level text
  | item _ text => Outline.itemLine (String.ofList (inline text))
  | plain text => String.ofList (inline text)

theorem line?_step (l : MarkdownLine) :
  l.step.line? = some l.setLine
  := by cases l <;> rfl

theorem isSeen_of_heading? {line : List Char} {l : MarkdownLine}
    (h : MarkdownLine.heading? line = some l) :
  isSeen line ∧ ∃ level text, l = .heading level text
  := by
  unfold MarkdownLine.heading? at h
  dsimp only at h
  split at h
  · next hmarks =>
    cases h
    refine ⟨?_, _, _, rfl⟩
    cases line with
    | nil => simp at hmarks
    | cons c cs =>
      by_cases hc : c = '#'
      · exact isSeen_of_mem (c := '#') (by decide) (by decide) (by simp [hc])
      · simp [hc] at hmarks
  · cases h

theorem isSeen_of_item? {line : List Char} {l : MarkdownLine}
    (h : MarkdownLine.item? line = some l) :
  isSeen line ∧ ∃ level text, l = .item level text
  := by
  unfold MarkdownLine.item? at h
  dsimp only at h
  split at h
  · cases h
  · next rest hmark =>
    split at h
    · cases h
      refine ⟨?_, _, _, rfl⟩
      generalize htext : (line.dropWhile fun c => c == ' ' || c == '\t') = text at hmark
      have hsuffix : text <:+ line := htext ▸ List.dropWhile_suffix _
      cases text with
      | nil => cases hmark
      | cons c cs =>
        have hc : Text.isBlank c = false ∧ Escape.isStripped c = false := by
          rw [MarkdownLine.afterMark?] at hmark
          split at hmark
          · next hsign =>
            simp only [Bool.or_eq_true, decide_eq_true_eq] at hsign
            rcases hsign with (rfl | rfl) | rfl <;> decide
          · split at hmark
            · next hdigit => exact Text.not_isHidden_of_isDigit hdigit
            · cases hmark
        exact isSeen_of_mem hc.1 hc.2 (hsuffix.subset List.mem_cons_self)
    · cases h

/-- What a line is set as is blank if nothing of the line could be seen. -/
theorem isBlankText_setLine (line : List Char) :
  isBlankText (MarkdownLine.of line).setLine.toList = !isSeen line
  := by
  rw [MarkdownLine.of]
  split
  · next hblank =>
    rw [isSeen, Bool.not_not, Escape.isBlankText_stripControls hblank]
    rfl
  · cases hheading : MarkdownLine.heading? line with
    | some l =>
      obtain ⟨hseen, level, text, rfl⟩ := isSeen_of_heading? hheading
      rw [hseen]
      apply isBlankText_eq_false_of_mem (c := '\\') (by decide)
      simp [MarkdownLine.setLine, headingLine]
    | none =>
      cases hitem : MarkdownLine.item? line with
      | some l =>
        obtain ⟨hseen, level, text, rfl⟩ := isSeen_of_item? hitem
        rw [hseen]
        apply isBlankText_eq_false_of_mem (c := '\\') (by decide)
        simp [MarkdownLine.setLine, Outline.itemLine]
      | none =>
        change isBlankText (String.ofList (inline (Text.trim line))).toList = _
        rw [String.toList_ofList, isBlankText_inline, isSeen_trim]

theorem marks_setLine (l : MarkdownLine) :
  marks l.setLine.toList = []
  := by
  cases l with
  | blank => decide
  | heading level text => exact marks_headingLine level text
  | item level text => exact marks_itemLine (marks_ofList_inline text)
  | plain text => exact marks_ofList_inline text

/-! ### Content -/

/-- The lines of markdown of which something can be seen, each with whether it stands in fenced
code; a fence is no such line. -/
def contentLines (inFence : Bool) : List (List Char) → List (Bool × List Char)
  | [] => []
  | line :: lines =>
    if isFence line then contentLines (!inFence) lines
    else if isSeen line then (inFence, line) :: contentLines inFence lines
    else contentLines inFence lines

/-- What a line is set as, with whether that stands in a verbatim block. -/
def setLine : Bool × List Char → Bool × String
  | (true, line) => (true, String.ofList (verbatimLine line))
  | (false, line) => (false, (MarkdownLine.of line).setLine)

/-- The content of typeset lines, each line with whether it stands in a verbatim block: what is
neither blank nor a marker.  In a block only the end of the block is a marker. -/
def contents : Bool → List String → List (Bool × String)
  | _, [] => []
  | true, line :: lines =>
    if line = verbatimEnd then contents false lines
    else if isBlankText line.toList then contents true lines
    else (true, line) :: contents true lines
  | false, line :: lines =>
    if line = verbatimBegin then contents true lines
    else if isBlankText line.toList || line = Outline.openMarker || line = Outline.closeMarker then
      contents false lines
    else (false, line) :: contents false lines

variable {o : Outline} {rest : List String}

theorem contents_openMarker (rest : List String) :
  contents false (Outline.openMarker :: rest) = contents false rest
  := by
  have hbegin : Outline.openMarker ≠ verbatimBegin := by decide
  simp [contents, hbegin]

theorem contents_closeMarker (rest : List String) :
  contents false (Outline.closeMarker :: rest) = contents false rest
  := by
  have hbegin : Outline.closeMarker ≠ verbatimBegin := by decide
  simp [contents, hbegin]

theorem contents_markers (opening closing : Nat) (rest : List String) :
  contents false (List.replicate opening Outline.openMarker
    ++ List.replicate closing Outline.closeMarker ++ rest) = contents false rest
  := by
  induction opening with
  | zero =>
    induction closing with
    | zero => rfl
    | succ closing ih =>
      rw [List.replicate_succ (n := closing)]
      exact (contents_closeMarker _).trans ih
  | succ opening ih =>
    rw [List.replicate_succ]
    exact (contents_openMarker _).trans ih

/-- A line that is no marker is content outside of verbatim blocks unless it is blank. -/
theorem contents_cons {line : String} (hbegin : line ≠ verbatimBegin)
    (hopen : line ≠ Outline.openMarker) (hclose : line ≠ Outline.closeMarker)
    (rest : List String) :
  contents false (line :: rest)
    = (if isBlankText line.toList then [] else [(false, line)]) ++ contents false rest
  := by
  rw [contents, if_neg hbegin]
  cases isBlankText line.toList <;> simp [hopen, hclose]

theorem contents_cons_of_marks {line : String} (h : marks line.toList = []) (rest : List String) :
  contents false (line :: rest)
    = (if isBlankText line.toList then [] else [(false, line)]) ++ contents false rest
  := by
  have hne (mark : Mark) : line ≠ mark.text := by
    rintro rfl
    rw [marks_text] at h
    cases h
  exact contents_cons (hne (.opens .verbatim)) (hne (.opens .itemize)) (hne (.closes .itemize)) rest

theorem contents_finish (o : Outline) (rest : List String) :
  contents false (o.finish.1 ++ rest) = contents false rest
  := contents_markers 0 o.opened rest

/-- A line outside of fenced code is set as one line, but for markers and blank lines. -/
theorem contents_typeset (ho : o.maxDepth ≤ 2 ^ 63) (line : List Char) (rest : List String) :
  contents false (((MarkdownLine.of line).typeset o).1 ++ rest)
    = (if isSeen line then [setLine (false, line)] else []) ++ contents false rest
  := by
  rw [← perform_step, Outline.perform_eq ho, line?_step, Option.toList_some, List.append_assoc,
    contents_markers, List.singleton_append, contents_cons_of_marks (marks_setLine _),
    isBlankText_setLine, setLine]
  cases isSeen line <;> rfl

theorem ofList_verbatimLine_ne (line : List Char) :
  String.ofList (verbatimLine line) ≠ verbatimEnd
  := by
  intro h
  apply closes_not_mem_verbatimLine line
  have hline : verbatimLine line = (Mark.closes .verbatim).text.toList := by
    rw [← String.toList_ofList (l := verbatimLine line), h]
    rfl
  rw [hline, marks_text]
  exact List.mem_singleton_self _

/-- The lines of a text as they are set in a verbatim block, without those of which nothing can be
seen. -/
def setAll (lines : List (List Char)) : List (Bool × String) :=
  (lines.filter isSeen).map fun line => setLine (true, line)

theorem setAll_append (lines lines' : List (List Char)) :
  setAll (lines ++ lines') = setAll lines ++ setAll lines'
  := by rw [setAll, List.filter_append, List.map_append, setAll, setAll]

theorem setAll_dropReturn (line : List Char) :
  setAll [Text.dropReturn line] = setAll [line]
  := by
  have hseen : isSeen (Text.dropReturn line) = isSeen line := by
    rw [isSeen, Escape.stripControls_dropReturn, isSeen]
  have hset : setLine (true, Text.dropReturn line) = setLine (true, line) := by
    rw [setLine, verbatimLine, Escape.stripControls_dropReturn]
    rfl
  simp only [setAll, List.filter_singleton, hseen]
  cases isSeen line with
  | true => exact congrArg (fun set => [set]) hset
  | false => rfl

/-- Joining lines and taking them apart again loses an empty line at the end and carriage returns
at the ends of lines, of which nothing can be seen. -/
theorem setAll_joinWith {lines : List (List Char)} (h : ∀ line ∈ lines, '\n' ∉ line) :
  setAll (Text.lines (Text.joinWith ['\n'] lines)) = setAll lines
  := by
  induction lines with
  | nil => rfl
  | cons line lines ih =>
    obtain ⟨hline, hlines⟩ := List.forall_mem_cons.mp h
    cases lines with
    | nil =>
      rw [Text.joinWith, List.intercalate_singleton, Text.lines_of_not_mem hline]
      split
      · next hempty =>
        rw [List.isEmpty_iff.mp hempty]
        rfl
      · rfl
    | cons next lines =>
      have hends : Text.EndsLine (line ++ ['\n']) := Or.inr ⟨line, rfl⟩
      have hjoin : Text.joinWith ['\n'] (line :: next :: lines)
          = line ++ ['\n'] ++ Text.joinWith ['\n'] (next :: lines) :=
        List.intercalate_cons_cons
      rw [hjoin, Text.lines_append hends, Text.lines_singleton hline, setAll_append,
        setAll_dropReturn, ih hlines, ← setAll_append, List.singleton_append]

/-- In a verbatim block lines are set one by one, up to the end of the block. -/
theorem contents_block (lines : List (List Char)) (rest : List String) :
  contents true (lines.map (String.ofList ∘ verbatimLine) ++ verbatimEnd :: rest)
    = setAll lines ++ contents false rest
  := by
  rw [setAll]
  induction lines with
  | nil => simp [contents]
  | cons line lines ih =>
    rw [List.map_cons, List.cons_append, Function.comp_apply, contents,
      if_neg (ofList_verbatimLine_ne line), String.toList_ofList, isBlankText_verbatimLine, ih]
    cases hseen : isSeen line with
    | true => simp [hseen, setLine]
    | false => simp [hseen]

theorem setAll_lines_of_blank {text : List Char} (h : isBlankText text) :
  setAll (Text.lines text) = []
  := by
  rw [setAll, List.map_eq_nil_iff, List.filter_eq_nil_iff]
  intro line hline
  have hblank : isBlankText line := by
    apply List.all_eq_true.mpr
    intro c hc
    exact List.all_eq_true.mp h c ((Text.infix_of_mem_lines hline).subset hc)
  rw [isSeen, Escape.isBlankText_stripControls hblank]
  exact Bool.false_ne_true

/-- The verbatim block of a text sets its lines, and is closed. -/
theorem contents_verbatim (text : List Char) (rest : List String) :
  contents false (verbatim text ++ rest) = setAll (Text.lines text) ++ contents false rest
  := by
  rw [verbatim]
  split
  · next hblank =>
    rw [setAll_lines_of_blank hblank]
    rfl
  · rw [List.append_assoc, List.cons_append, List.singleton_append, contents, if_pos rfl,
      contents_block]

theorem contents_fenced {code : List (List Char)} (h : ∀ line ∈ code, '\n' ∉ line)
    (rest : List String) :
  contents false (fenced code ++ rest) = setAll code.reverse ++ contents false rest
  := by
  rw [fenced, contents_verbatim, setAll_joinWith]
  simpa using h

/-! ### Cells -/

/-- Lines of markdown are set one to one and in order, behind the lines of code since a fence
began. -/
theorem contents_markdownLines (ho : o.maxDepth ≤ 2 ^ 63) {fence : Option (List (List Char))}
    {lines : List (List Char)} (hfence : ∀ code ∈ fence, ∀ line ∈ code, '\n' ∉ line)
    (hlines : ∀ line ∈ lines, '\n' ∉ line) (rest : List String) :
  contents false (markdownLines o fence lines ++ rest)
    = setAll (fence.getD []).reverse ++ (contentLines fence.isSome lines).map setLine
      ++ contents false rest
  := by
  fun_induction markdownLines o fence lines with
  | case1 o fence =>
    rw [List.append_assoc]
    cases fence with
    | none => exact contents_finish o rest
    | some code =>
      rw [Option.elim_some, contents_fenced (hfence code rfl), contents_finish]
      simp [contentLines]
  | case2 o line lines hline code ih =>
    have hrest := ih ho (by simp) (List.forall_mem_cons.mp hlines).2
    rw [List.append_assoc, contents_fenced (hfence code rfl), hrest, contentLines, if_pos hline]
    simp [setAll]
  | case3 o line lines hline ih =>
    have hrest := ih ho (by simp) (List.forall_mem_cons.mp hlines).2
    rw [List.append_assoc, contents_finish, hrest, contentLines, if_pos hline]
    simp
  | case4 o line lines hline code ih =>
    obtain ⟨hfeed, hlines⟩ := List.forall_mem_cons.mp hlines
    have hcode : ∀ code' ∈ some (line :: code), ∀ line ∈ code', '\n' ∉ line := by
      rintro _ ⟨⟩
      exact List.forall_mem_cons.mpr ⟨hfeed, hfence code rfl⟩
    rw [ih ho hcode hlines, contentLines, if_neg hline]
    cases hseen : isSeen line <;> simp [setAll, hseen]
  | case5 o line lines hline out o' htypeset ih =>
    have hdepth : o'.maxDepth ≤ 2 ^ 63 := by
      have hperform := Outline.maxDepth_perform o (MarkdownLine.of line).step
      rw [perform_step, htypeset] at hperform
      rw [hperform]
      exact ho
    have hout := contents_typeset ho line (markdownLines o' none lines ++ rest)
    rw [htypeset] at hout
    rw [List.append_assoc, hout, ih hdepth (by simp) (List.forall_mem_cons.mp hlines).2,
      contentLines, if_neg hline]
    cases isSeen line <;> simp [setAll]

/-- Markdown is set line by line, and every verbatim block in it is closed. -/
theorem contents_markdown (source : List Char) (rest : List String) :
  contents false (markdown source ++ rest)
    = (contentLines false (Text.lines source)).map setLine ++ contents false rest
  := by
  have hdepth : ({} : Outline).maxDepth ≤ 2 ^ 63 := by decide
  have hfence : ∀ code ∈ (none : Option (List (List Char))), ∀ line ∈ code, '\n' ∉ line := by simp
  have hfeed : ∀ line ∈ Text.lines source, '\n' ∉ line := fun _ => Text.not_mem_of_mem_lines
  exact contents_markdownLines hdepth hfence hfeed rest

theorem contents_empty (rest : List String) :
  contents false ("" :: rest) = contents false rest
  := contents_cons_of_marks (by decide) rest

/-- The lines of markdown that are no fences and of which something can be seen are the lines of
the typeset cell that are neither blank nor markers, one to one and in order: outside of fenced code
each is set as what it is, a heading, a list item or plain text, and in fenced code it stands in a
verbatim block without its control characters and with the end of a block taken apart.  What
follows the cell is read with no block open. -/
theorem contents_renderCell (label source : String) :
  ∃ lines, renderCell label (.markdown source) = pure { lines }
    ∧ ∀ rest, contents false (lines ++ rest)
      = (contentLines false (Text.lines source.toList)).map setLine ++ contents false rest
  := by
  use markdown source.toList ++ [""], rfl
  intro rest
  rw [List.append_assoc, contents_markdown, List.singleton_append, contents_empty]

end Notebook

end Bindery
