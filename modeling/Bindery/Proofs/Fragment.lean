import Bindery.Fragment
import Bindery.Proofs.Text.Lines
import Bindery.Proofs.Text.Occurrences

/-!
# Splitting markup

A `Layout` is a source whose first boundary line opens the document, in front of a closing marker
on a later line; every such source has one (`exists_layout`).  Its lines are known (`lines_source`),
and so is what it is split into (`splits_layout`).

Of every such source, nothing of the lines in front of the opening marker is lost, nor of the lines
between the two markers, apart from those that begin with a further opening marker, and text in
front of the closing marker stays, too (`splits_ofMarkup`).  What shares a line with the opening
marker goes with it (`opening_line_dropped`).
-/

namespace Bindery.Fragment

open Text (EndsLine lines dropReturn trimStart isBlankText)

/-- A source whose first boundary line opens the document, and the first closing marker behind that
line. -/
structure Layout where
  /-- The lines in front of the line with the opening marker. -/
  lead : List Char
  /-- What stands in front of the opening marker on its line. -/
  indent : List Char
  /-- What stands behind the opening marker on its line. -/
  tail : List Char
  /-- The lines between those of the two markers. -/
  whole : List Char
  /-- What stands in front of the closing marker on its line. -/
  start : List Char
  /-- What stands behind the closing marker. -/
  rest : List Char
  endsLine_lead : EndsLine lead
  not_isBoundary : ∀ line ∈ lines lead, isBoundary line = false
  isBlankText_indent : isBlankText indent
  no_feed : '\n' ∉ indent ++ tail ++ start
  endsLine_whole : EndsLine whole
  /-- No closing marker stands in front of this one. -/
  first : ¬ endDocument.toList <:+: (whole ++ start ++ endDocument.toList).dropLast

namespace Layout

variable (l : Layout)

/-- The text of a source. -/
def source : List Char :=
  l.lead ++ ((l.indent ++ beginDocument.toList ++ l.tail ++ ['\n'])
    ++ (l.whole ++ (l.start ++ endDocument.toList ++ l.rest)))

/-- The line that opens the document. -/
def opening : List Char :=
  dropReturn (l.indent ++ beginDocument.toList ++ l.tail)

/-- The lines from the one with the closing marker on. -/
def ending : List (List Char) :=
  lines (l.start ++ endDocument.toList ++ l.rest)

theorem lines_source :
  lines l.source = lines l.lead ++ l.opening :: (lines l.whole ++ l.ending)
  := by
  have hfeed := l.no_feed
  simp only [List.mem_append, not_or] at hfeed
  have hline : '\n' ∉ l.indent ++ beginDocument.toList ++ l.tail := by
    simp only [List.mem_append, not_or]
    exact ⟨⟨hfeed.1.1, by decide⟩, hfeed.1.2⟩
  rw [source, Text.lines_append l.endsLine_lead, Text.lines_append (Or.inr ⟨_, rfl⟩),
    Text.lines_append l.endsLine_whole, Text.lines_singleton hline]
  rfl

/-- Every source whose first boundary line opens the document, with a closing marker on a later
line, has a layout. -/
theorem exists_layout {cs line : List Char} {before after : List (List Char)}
    (hlines : lines cs = before ++ line :: after)
    (hbefore : ∀ line ∈ before, isBoundary line = false) (hopens : opensDocument line = true)
    (hend : ∃ line ∈ after, endDocument.toList <:+: line) :
  ∃ l : Layout, l.source = cs ∧ lines l.lead = before ∧ l.opening = line
  := by
  obtain ⟨closing, hclosing, hmarker⟩ := hend
  obtain ⟨lead, behind, rfl, hlead, rfl, hbehind⟩ := Text.exists_of_lines_append hlines (by simp)
  obtain ⟨raw, behind, rfl, hraw, rfl, rfl⟩ :=
    Text.exists_of_lines_cons hbehind (List.ne_nil_of_mem hclosing)
  -- The line that opens the document.
  obtain ⟨tail, htail⟩ := List.isPrefixOf_iff_prefix.mp hopens
  obtain ⟨ending, hending⟩ := Text.prefix_dropReturn raw
  have hline : raw = (dropReturn raw).takeWhile Text.isBlank ++ beginDocument.toList
      ++ (tail ++ ending) := by
    rw [← List.append_assoc, List.append_assoc _ _ tail, htail, trimStart,
      List.takeWhile_append_dropWhile, hending]
  -- The closing marker and the line that it is on.
  obtain ⟨inner, rest, rfl, hfirst⟩ := Text.exists_first (by decide)
    (hmarker.trans (Text.infix_of_mem_lines hclosing))
  obtain ⟨whole, start, rfl, hwhole, hstart⟩ := Text.exists_endsLine inner
  refine ⟨{
    lead, indent := (dropReturn raw).takeWhile Text.isBlank, tail := tail ++ ending, whole, start,
    rest, endsLine_lead := hlead, not_isBoundary := hbefore
    isBlankText_indent := List.all_takeWhile
    no_feed := ?_, endsLine_whole := hwhole, first := hfirst }, ?_, rfl, ?_⟩
  · rw [hline] at hraw
    simp only [List.mem_append, not_or] at hraw ⊢
    exact ⟨⟨hraw.1.1, hraw.2⟩, hstart⟩
  · rw [source]
    dsimp only
    rw [← hline]
    simp only [List.append_assoc]
  · rw [opening]
    dsimp only
    rw [← hline]

/-! ### The boundary lines -/

theorem exists_opening_eq :
  ∃ tail, l.opening = l.indent ++ (beginDocument.toList ++ tail)
  := by
  by_cases h : l.tail = []
  · use []
    rw [opening, h, List.append_nil, Text.dropReturn_append _ (by decide), List.append_nil]
    exact congrArg _ (by decide)
  · use dropReturn l.tail
    rw [opening, Text.dropReturn_append _ h, List.append_assoc]

theorem opens_opening :
  opensDocument l.opening = true ∧ closesDocument l.opening = false
  := by
  obtain ⟨tail, htail⟩ := l.exists_opening_eq
  have htrim : trimStart l.opening = beginDocument.toList ++ tail := by
    rw [htail, Text.trimStart_append_of_blank l.isBlankText_indent]
    exact Text.trimStart_cons (by decide)
  have hopens : opensDocument l.opening = true := by
    rw [opensDocument, htrim, List.isPrefixOf_iff_prefix]
    apply List.prefix_append
  exact ⟨hopens, closesDocument_of_opensDocument hopens⟩

theorem infix_of_closesDocument {line : List Char} (h : closesDocument line = true) :
  endDocument.toList <:+: line
  := by
  have hbegin : endDocument.toList <+: trimStart line := List.isPrefixOf_iff_prefix.mp h
  have htrim : trimStart line <:+ line := List.dropWhile_suffix _
  exact hbegin.isInfix.trans htrim.isInfix

theorem not_closes_whole :
  ∀ line ∈ lines l.whole, closesDocument line = false
  := by
  intro line hline
  rw [← Bool.not_eq_true]
  intro h
  apply l.first
  have hwhole := (infix_of_closesDocument h).trans (Text.infix_of_mem_lines hline)
  have hmarker : endDocument.toList ≠ [] := by decide
  rw [List.dropLast_append_of_ne_nil hmarker, List.append_assoc]
  exact hwhole.trans (List.prefix_append _ _).isInfix

/-- The line with the closing marker. -/
theorem exists_ending_eq :
  ∃ behind later, l.ending = (l.start ++ endDocument.toList ++ behind) :: later
  := by
  have hfeed := l.no_feed
  simp only [List.mem_append, not_or] at hfeed
  have hline : '\n' ∉ l.start ++ endDocument.toList := by
    rw [List.mem_append, not_or]
    exact ⟨hfeed.2, by decide⟩
  apply Text.exists_lines_append (c := '}') hline
  · rw [List.getLast?_append_of_ne_nil _ (by decide)]
    decide
  · decide

/-- The closing marker ends the document if nothing but white space stands in front of it. -/
theorem closes_iff (behind : List Char) :
  closesDocument (l.start ++ endDocument.toList ++ behind) = isBlankText l.start
  := by
  cases hstart : isBlankText l.start with
  | true =>
    rw [closesDocument, List.append_assoc, Text.trimStart_append_of_blank hstart]
    rw [List.isPrefixOf_iff_prefix]
    have htrim : trimStart (endDocument.toList ++ behind) = endDocument.toList ++ behind :=
      Text.trimStart_cons (by decide)
    rw [htrim]
    apply List.prefix_append
  | false =>
    obtain ⟨before, c, after, hsplit, -, htrim⟩ := Text.exists_trimStart_eq hstart
    rw [closesDocument, List.append_assoc, htrim, ← Bool.not_eq_true, List.isPrefixOf_iff_prefix]
    intro h
    -- The marker would begin inside the text in front of it.
    apply l.first
    have hmarker : endDocument.toList ≠ [] := by decide
    have hshort : endDocument.toList <+: c :: after ++ endDocument.toList.dropLast := by
      apply List.prefix_of_prefix_length_le h
      · apply (List.prefix_append_right_inj _).mpr
        exact (List.dropLast_prefix _).trans (List.prefix_append _ _)
      · simp only [List.length_append, List.length_dropLast, List.length_cons]
        omega
    have hend : c :: after ++ endDocument.toList.dropLast
        <:+ (l.whole ++ l.start ++ endDocument.toList).dropLast := by
      rw [List.dropLast_append_of_ne_nil hmarker, hsplit]
      use l.whole ++ before
      simp
    exact hshort.isInfix.trans hend.isInfix

/-! ### What a source is split into -/

/-- The text in front of the closing marker begins a line that opens the document only if it does
so by itself. -/
theorem opens_start {behind : List Char} (hstart : isBlankText l.start = false)
    (h : opensDocument (l.start ++ endDocument.toList ++ behind) = true) :
  opensDocument l.start = true
  := by
  obtain ⟨before, c, after, -, -, htrim⟩ := Text.exists_trimStart_eq hstart
  have htrimStart : trimStart l.start = c :: after := by simpa using htrim []
  have hbegin : beginDocument.toList = '\\' :: "begin\x7bdocument\x7d".toList := by decide
  have hend : endDocument.toList = '\\' :: "end\x7bdocument\x7d".toList := by decide
  rw [opensDocument, List.append_assoc, htrim, List.isPrefixOf_iff_prefix, hbegin, hend] at h
  rw [opensDocument, htrimStart, List.isPrefixOf_iff_prefix, hbegin]
  -- The opening marker holds the character that the closing one begins with only in front.
  obtain ⟨hc, hafter⟩ := List.cons_prefix_cons.mp h
  have hnone : '\\' ∉ "begin\x7bdocument\x7d".toList := by decide
  exact List.cons_prefix_cons.mpr ⟨hc, (Text.prefix_append_cons_iff hnone after _).mp hafter⟩

/-- The lines behind the line that opens the document, as far as they are kept. -/
theorem splitLines_source :
  splitLines (lines l.source) = (lines l.lead,
    (lines l.whole ++ l.ending.takeWhile fun line => !closesDocument line).filter
      fun line => !opensDocument line)
  := by
  have hlead : ∀ line ∈ lines l.lead,
      (!opensDocument line) = true ∧ (!closesDocument line) = true := by
    intro line hline
    obtain ⟨hopens, hcloses⟩ := Bool.or_eq_false_iff.mp (l.not_isBoundary line hline)
    rw [hopens, hcloses]
    exact ⟨rfl, rfl⟩
  obtain ⟨hopens, hcloses⟩ := l.opens_opening
  have hany : (lines l.source).any opensDocument = true := by
    rw [lines_source, List.any_append, List.any_cons, hopens, Bool.true_or, Bool.or_true]
  have hkept : (lines l.source).takeWhile (fun line => !closesDocument line)
      = lines l.lead ++ l.opening :: (lines l.whole
        ++ l.ending.takeWhile fun line => !closesDocument line) := by
    have hwhole : ∀ line ∈ lines l.whole, (!closesDocument line) = true := by
      intro line hline
      rw [l.not_closes_whole line hline]
      rfl
    rw [lines_source, List.takeWhile_append_of_pos fun line hline => (hlead line hline).2,
      List.takeWhile_cons_of_pos (by rw [hcloses]; rfl), List.takeWhile_append_of_pos hwhole]
  have hpreamble : ∀ line ∈ lines l.lead, (!opensDocument line) = true :=
    fun line hline => (hlead line hline).1
  rw [splitLines, if_pos hany, hkept, List.takeWhile_append_of_pos hpreamble,
    List.dropWhile_append_of_pos hpreamble, List.takeWhile_cons_of_neg (by simp [hopens]),
    List.dropWhile_cons_of_neg (by simp [hopens]), List.filter_cons_of_neg (by simp [hopens]),
    List.append_nil]

/-- What is kept of a source, and where. -/
structure Splits (f : Fragment) : Prop where
  preamble : f.preamble = (lines l.lead).map String.ofList
  /-- The body begins with the lines between those of the markers, except further ones that open
  the document, and what follows them comes from the line with the closing marker on. -/
  body : ∃ more, f.body
      = (((lines l.whole).filter fun line => !opensDocument line) ++ more).map String.ofList
    -- A closing marker that stands first on its line ends the body.
    ∧ (isBlankText l.start = true → more = [])
    -- Text in front of it begins the next line.
    ∧ (isBlankText l.start = false → opensDocument l.start = false →
      ∃ behind later, more = (l.start ++ endDocument.toList ++ behind) :: later)

/-- However a source is laid out, the lines in front of the opening marker are the preamble, and
the lines behind the one that it begins are the body, up to the next closing marker. -/
theorem splits_layout (origin : String) :
  l.Splits (ofMarkup origin (String.ofList l.source))
  := by
  have hsplit := l.splitLines_source
  obtain ⟨behind, later, hending⟩ := l.exists_ending_eq
  constructor
  · rw [ofMarkup_eq, String.toList_ofList, hsplit]
  · use (l.ending.takeWhile fun line => !closesDocument line).filter fun line => !opensDocument line
    refine ⟨?_, ?_, ?_⟩
    · rw [ofMarkup_eq, String.toList_ofList, hsplit, List.filter_append]
    · intro hstart
      rw [hending, List.takeWhile_cons_of_neg]
      · rfl
      · rw [l.closes_iff, hstart]
        exact Bool.false_ne_true
    · intro hstart hopens
      use behind
      rw [hending, List.takeWhile_cons_of_pos, List.filter_cons_of_pos]
      · exact ⟨_, rfl⟩
      · cases h : opensDocument (l.start ++ endDocument.toList ++ behind) with
        | false => rfl
        | true =>
          rw [l.opens_start hstart h] at hopens
          cases hopens
      · rw [l.closes_iff, hstart]
        rfl

end Layout

/-- Every source whose first boundary line opens the document, with a closing marker on a later
line, is split where its layout has the two markers. -/
theorem splits_ofMarkup (origin : String) {source : String} {line : List Char}
    {before after : List (List Char)} (hlines : lines source.toList = before ++ line :: after)
    (hbefore : ∀ line ∈ before, isBoundary line = false) (hopens : opensDocument line = true)
    (hend : ∃ line ∈ after, endDocument.toList <:+: line) :
  ∃ l : Layout, l.source = source.toList ∧ lines l.lead = before ∧ l.opening = line
    ∧ l.Splits (ofMarkup origin source)
  := by
  obtain ⟨l, hsource, hlead, hopening⟩ := Layout.exists_layout hlines hbefore hopens hend
  have hsplits := l.splits_layout origin
  rw [hsource, String.ofList_toList] at hsplits
  exact ⟨l, hsource, hlead, hopening, hsplits⟩

/-- A source with carriage returns, with blanks in front of the opening marker and text in front of
the closing one. -/
theorem splits_ofMarkup_indented :
  let source := "a\x0d\n  \\begin\x7bdocument\x7d\x0d\n\n b\x0d\nc\\end\x7bdocument\x7d d\ne"
  let line := ("  " ++ beginDocument).toList
  (∃ l : Layout, l.source = source.toList ∧ lines l.lead = ["a".toList] ∧ l.opening = line
      ∧ l.Splits (ofMarkup "f" source))
    ∧ ofMarkup "f" source
      = { origin := "f", preamble := ["a"], body := ["", " b", "c\\end\x7bdocument\x7d d", "e"] }
  := by
  intro source line
  constructor
  · have hlines : lines source.toList = ["a".toList]
        ++ line :: ["".toList, " b".toList, ("c" ++ endDocument ++ " d").toList, "e".toList] := by
      decide
    apply splits_ofMarkup "f" hlines
    · decide
    · decide
    · exact ⟨("c" ++ endDocument ++ " d").toList, by decide, by decide⟩
  · decide +kernel

/-- Text behind the opening marker goes with the line that the marker begins, and so does a further
marker.  A closing marker on a line in front of the opening one ends the document, and white space
in front of a closing marker goes with it. -/
theorem opening_line_dropped :
  let between := "\\maketitle\nA\n\\begin\x7bdocument\x7d\nB\n"
  let source := "\\title\x7bT\x7d\n" ++ beginDocument ++ between ++ endDocument ++ "\n"
  let f := ofMarkup "a.tex" source
  f = { origin := "a.tex", preamble := ["\\title\x7bT\x7d"], body := ["A", "B"] }
    ∧ ¬ List.Sublist (between.toList.filter (· != '\n')) (f.body.flatMap String.toList)
    ∧ ofMarkup "a.tex" (endDocument ++ "\n" ++ beginDocument ++ "\nA\n" ++ endDocument)
      = { origin := "a.tex" }
    ∧ ofMarkup "a.tex" (beginDocument ++ "\n " ++ endDocument) = { origin := "a.tex" }
  := by
  decide +kernel

end Bindery.Fragment
