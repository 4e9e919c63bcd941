import Bindery.Machine
import Bindery.Notebook.Render
import Bindery.Proofs.Notebook.Environment
import Bindery.Proofs.Notebook.Lines
import Bindery.Proofs.Source

/-!
# Environments in typeset notebooks

An outline writes the marks that lead from the lists that are open to those of the next line
(`reads_item`, `reads_finish`), fenced code and outputs are set only where no list is open, and the
text of a line holds no marks.  So the lines of a notebook are well nested, and so are those of its
first cells (`wellNested_extract`).  Markup in an output is set as it is: it may hold no marks
(`IsUnmarked`).
-/

namespace Bindery

/-- The markup among the representations of an output, if there is any, holds no marks. -/
def Bundle.IsUnmarked (b : Bundle) : Prop :=
  ∀ markup ∈ b.text? "text/latex", ∀ line ∈ Text.lines markup.toList,
    Notebook.marks (Escape.stripControls line) = []

instance (b : Bundle) : Decidable b.IsUnmarked :=
  inferInstanceAs (Decidable (∀ _ ∈ _, _))

/-- No markup in the output holds marks. -/
def Output.IsUnmarked : Output → Prop
  | rich bundle => bundle.IsUnmarked
  | stream _ | error _ _ | other => True

instance (output : Output) : Decidable output.IsUnmarked :=
  match output with
  | .rich bundle => inferInstanceAs (Decidable bundle.IsUnmarked)
  | .stream _ | .error _ _ | .other => inferInstanceAs (Decidable True)

/-- No markup in the outputs of the cell holds marks. -/
def Cell.IsUnmarked : Cell → Prop
  | code _ outputs => ∀ output ∈ outputs, output.IsUnmarked
  | markdown _ | other => True

instance (cell : Cell) : Decidable cell.IsUnmarked :=
  match cell with
  | .code _ outputs => inferInstanceAs (Decidable (∀ output ∈ outputs, output.IsUnmarked))
  | .markdown _ | .other => inferInstanceAs (Decidable True)

namespace Notebook

/-- No markup in the outputs of the notebook holds marks. -/
def IsUnmarked (n : Notebook) : Prop :=
  ∀ cell ∈ n.cells, cell.IsUnmarked

instance (n : Notebook) : Decidable n.IsUnmarked :=
  inferInstanceAs (Decidable (∀ _ ∈ _, _))

/-! ### Lists -/

theorem head?_lists (n : Nat) :
  (lists n).head? ≠ some .verbatim
  := by
  cases n <;> simp [lists, List.replicate_succ]

theorem isOrderly_lists {n : Nat} (h : n ≤ 8) :
  IsOrderly (lists n)
  := Or.inl ⟨n, h, rfl⟩

/-- Lines without marks may stand inside of lists. -/
theorem reads_lines {n : Nat} (hn : n ≤ 8) {lines : List String}
    (h : ∀ line ∈ lines, marks line.toList = []) :
  Reads (lists n) lines (lists n)
  := by
  apply Reads.of_idle (isOrderly_lists hn)
  intro line hline mark hmark
  rw [h line hline] at hmark
  cases hmark

theorem reads_line {n : Nat} (hn : n ≤ 8) {line : String} (h : marks line.toList = []) :
  Reads (lists n) [line] (lists n)
  := reads_lines hn (List.forall_mem_singleton.mpr h)

theorem reads_open {n k : Nat} (h : n + k ≤ 8) :
  Reads (lists n) (List.replicate k Outline.openMarker) (lists (n + k))
  := by
  induction k generalizing n with
  | zero => exact Reads.nil (isOrderly_lists h)
  | succ k ih =>
    have horderly : IsOrderly (lists n) := isOrderly_lists (by omega)
    have hopens := Mark.apply_opens (head?_lists n) .itemize
    have hsum : n + (k + 1) = n + 1 + k := by omega
    rw [hsum] at h ⊢
    exact Reads.mark horderly hopens (ih h)

theorem reads_close {n k : Nat} (h : n + k ≤ 8) :
  Reads (lists (n + k)) (List.replicate k Outline.closeMarker) (lists n)
  := by
  induction k with
  | zero => exact Reads.nil (isOrderly_lists h)
  | succ k ih =>
    have horderly : IsOrderly (lists (n + (k + 1))) := isOrderly_lists h
    have hcloses := Mark.apply_closes .itemize (lists (n + k))
    exact Reads.mark horderly hcloses (ih (by omega))

/-- The marks between two numbers of lists lead from one to the other. -/
theorem reads_between {n m : Nat} (hn : n ≤ 8) (hm : m ≤ 8) :
  Reads (lists n) (List.replicate (m - n) Outline.openMarker
    ++ List.replicate (n - m) Outline.closeMarker) (lists m)
  := by
  rcases Nat.le_total n m with hle | hle
  · obtain ⟨k, rfl⟩ := Nat.exists_eq_add_of_le hle
    rw [Nat.add_sub_cancel_left, Nat.sub_eq_zero_of_le hle, List.replicate_zero, List.append_nil]
    exact reads_open hm
  · obtain ⟨k, rfl⟩ := Nat.exists_eq_add_of_le hle
    rw [Nat.add_sub_cancel_left, Nat.sub_eq_zero_of_le hle, List.replicate_zero, List.nil_append]
    exact reads_close hn

/-- As many lists are open, and may be opened, as the typesetter can nest. -/
def IsShallow (o : Outline) : Prop :=
  o.maxDepth ≤ 8 ∧ o.opened ≤ 8

variable {o : Outline}

theorem reads_finish (ho : IsShallow o) :
  Reads (lists o.opened) o.finish.1 []
  := by
  have hbetween := reads_between ho.2 (Nat.zero_le 8)
  rw [Nat.zero_sub, Nat.sub_zero] at hbetween
  exact hbetween

theorem isShallow_finish (ho : IsShallow o) :
  IsShallow o.finish.2
  := ⟨ho.1, Nat.zero_le 8⟩

/-- What is written outside of every list is read with no list open. -/
theorem reads_finish_append (ho : IsShallow o) {line : String} (h : marks line.toList = []) :
  Reads (lists o.opened) (o.finish.1 ++ [line]) []
  := (reads_finish ho).append (reads_line (n := 0) (Nat.zero_le 8) h)

theorem marks_itemLine {text : String} (h : marks text.toList = []) :
  marks (Outline.itemLine text).toList = []
  := by
  have hblank : ∀ mark : Mark, ' ' ∉ mark.text.toList := by decide
  rw [Outline.itemLine, String.toList_append]
  exact (marks_append_cons hblank "\\item".toList text.toList).mpr ⟨by decide, h⟩

/-- An item is read with as many lists open as are then. -/
theorem reads_item (ho : IsShallow o) (level : Nat) {text : String} (h : marks text.toList = []) :
  Reads (lists o.opened) (o.item level text).1 (lists (o.item level text).2.opened)
    ∧ IsShallow (o.item level text).2
  := by
  obtain ⟨hmax, hopened⟩ := ho
  have hdepth : o.openedAt level ≤ 8 := by
    rw [Outline.openedAt]
    omega
  rw [Outline.item_eq (by omega)]
  refine ⟨?_, hmax, hdepth⟩
  exact (reads_between hopened hdepth).append (reads_line hdepth (marks_itemLine h))

/-! ### Verbatim blocks -/

/-- No line of a verbatim block holds its end. -/
theorem closes_not_mem_verbatimLine (line : List Char) :
  Mark.closes .verbatim ∉ marks (verbatimLine line)
  := by
  have hold : '\\' ∉ "end\x7bverbatim\x7d".toList := by decide
  have hnew : '\\' ∉ "end \x7bverbatim\x7d".toList := by decide
  rw [mem_marks]
  exact Text.not_infix_replace hold hnew (by decide) (by decide) _

theorem reads_verbatim (text : List Char) :
  Reads [] (verbatim text) []
  := by
  unfold verbatim
  split
  · exact Reads.nil (isOrderly_lists (Nat.zero_le 8))
  · apply Reads.block (Or.inr (Or.inr rfl))
    intro line hline mark hmark hcounts
    obtain ⟨raw, -, rfl⟩ := List.mem_map.mp hline
    rw [Function.comp_apply, String.toList_ofList, hcounts rfl] at hmark
    exact closes_not_mem_verbatimLine raw hmark

/-! ### Markdown -/

/-- No mark stands in a typeset line of markdown, whatever the line says. -/
theorem marks_inline (text : List Char) :
  marks (inline text) = []
  := marks_of_isTame (isTame_inline text)

theorem marks_ofList_inline (text : List Char) :
  marks (String.ofList (inline text)).toList = []
  := by
  rw [String.toList_ofList]
  exact marks_inline text

theorem marks_headingLine (level : Nat) (text : List Char) :
  marks (headingLine level text).toList = []
  := by
  have hcommand : Escape.IsTame ("\\" ++ headingCommand level ++ "*\x7b").toList
      ∧ '\\' ∉ ("\\" ++ headingCommand level ++ "*\x7b").toList.getLast? := by
    unfold headingCommand
    split <;> decide
  apply marks_of_isTame
  rw [headingLine, String.toList_append, String.toList_append, String.toList_ofList]
  exact (hcommand.1.append (isTame_inline text) hcommand.2).concat (by decide)

theorem reads_typeset (ho : IsShallow o) (l : MarkdownLine) :
  Reads (lists o.opened) (l.typeset o).1 (lists (l.typeset o).2.opened)
    ∧ IsShallow (l.typeset o).2
  := by
  cases l with
  | blank => exact ⟨reads_finish_append ho (by decide), isShallow_finish ho⟩
  | heading level text =>
    exact ⟨reads_finish_append ho (marks_headingLine level text), isShallow_finish ho⟩
  | item level text => exact reads_item ho level (marks_ofList_inline text)
  | plain text => exact ⟨reads_finish_append ho (marks_ofList_inline text), isShallow_finish ho⟩

/-- Lines of markdown are read with the lists open that the outline has open, of which there are
none inside of fenced code, and in the end none is open. -/
theorem reads_markdownLines (ho : IsShallow o) {fence : Option (List (List Char))}
    (hfence : fence.isSome → o.opened = 0) (lines : List (List Char)) :
  Reads (lists o.opened) (markdownLines o fence lines) []
  := by
  fun_induction markdownLines o fence lines with
  | case1 o fence =>
    cases fence with
    | none => exact reads_finish ho
    | some code =>
      have hfinish := reads_finish ho
      rw [hfence rfl] at hfinish ⊢
      exact (reads_verbatim _).append hfinish
  | case2 o line lines _ code ih =>
    have hrest := ih ho (by simp)
    rw [hfence rfl] at hrest ⊢
    exact (reads_verbatim _).append hrest
  | case3 o line lines _ ih =>
    exact (reads_finish ho).append (ih (isShallow_finish ho) fun _ => rfl)
  | case4 o line lines _ code ih => exact ih ho fun _ => hfence rfl
  | case5 o line lines _ out o' htypeset ih =>
    obtain ⟨hout, ho'⟩ := reads_typeset ho (MarkdownLine.of line)
    rw [htypeset] at hout ho'
    exact hout.append (ih ho' (by simp))

theorem reads_markdown (source : List Char) :
  Reads [] (markdown source) []
  := by
  have hempty : IsShallow {} := ⟨Nat.le_refl 8, Nat.zero_le 8⟩
  exact reads_markdownLines hempty (by simp) _

/-! ### Outputs -/

variable {label : String}

theorem not_mem_toString (n : Nat) :
  '\\' ∉ (toString n).toList
  := by
  intro hmem
  exact absurd (SourceKind.isNameChar_of_mem_toString hmem) (by decide)

/-- A label with a further part and a number has no marks if the label has none. -/
theorem marks_label (hlabel : marks label.toList = []) {part : String}
    (hpart : part.toList.head? = some '_') (hmem : '\\' ∉ part.toList) (n : Nat) :
  marks (label ++ part ++ toString n).toList = []
  := by
  rw [String.toList_append, String.toList_append, List.append_assoc]
  apply marks_append (c := '_') hlabel
  · rw [List.head?_append, hpart]
    rfl
  · decide
  · rw [List.mem_append, not_or]
    exact ⟨hmem, not_mem_toString n⟩

/-- A part of a notebook that leaves no environment open. -/
def Piece.IsClosed (p : Piece) : Prop :=
  Reads [] p.lines []

theorem Piece.IsClosed.append {p q : Piece} (hp : p.IsClosed) (hq : q.IsClosed) :
  (p ++ q).IsClosed
  := Reads.append hp hq

theorem isClosed_nil :
  Piece.IsClosed {}
  := Reads.nil (isOrderly_lists (Nat.zero_le 8))

theorem marks_includeLine (hlabel : marks label.toList = []) {extension : String}
    (hextension : extension ∈ ["png", "jpg"]) :
  marks ("\\includegraphics[width=0.8\\linewidth]\x7b" ++ (label ++ "." ++ extension)
    ++ "\x7d").toList = []
  := by
  have hend : ∀ extension ∈ ["png", "jpg"],
      '\\' ∉ ".".toList ++ (extension.toList ++ "\x7d".toList) := by decide
  have hname : marks (label.toList ++ (".".toList ++ (extension.toList ++ "\x7d".toList))) = [] :=
    marks_append hlabel rfl (by decide) (hend extension hextension)
  have hstart : "\\includegraphics[width=0.8\\linewidth]\x7b".toList
      = "\\includegraphics[width=0.8\\linewidth".toList ++ [']', '{'] := by decide
  have hbracket : ∀ mark : Mark, ']' ∉ mark.text.toList := by decide
  simp only [String.toList_append, hstart, List.append_assoc, List.cons_append, List.nil_append]
  rw [marks_append_cons hbracket, marks_cons (by decide)]
  exact ⟨by decide, hname⟩

theorem isClosed_ofImage (hlabel : marks label.toList = []) {extension : String}
    (hextension : extension ∈ ["png", "jpg"]) :
  (Piece.ofImage (label ++ "." ++ extension)).IsClosed
  := by
  have hidle : ∀ line ∈ ["\\includegraphics[width=0.8\\linewidth]\x7b"
      ++ (label ++ "." ++ extension) ++ "\x7d"], ∀ mark ∈ marks line.toList,
      ¬ mark.Counts [.center] := by
    rw [List.forall_mem_singleton, marks_includeLine hlabel hextension]
    exact List.forall_mem_nil _
  exact Reads.block (Or.inr (Or.inl rfl)) hidle

theorem reads_bundleLines {b : Bundle} (hb : b.IsUnmarked) :
  Reads [] (bundleLines b) []
  := by
  unfold bundleLines
  split
  · next markup hmarkup =>
    apply reads_lines (n := 0) (Nat.zero_le 8)
    rw [List.forall_mem_map]
    intro line hline
    obtain ⟨raw, hraw, rfl⟩ := List.mem_map.mp (List.mem_filter.mp hline).1
    rw [String.toList_ofList]
    exact hb markup hmarkup raw hraw
  · cases b.text? "text/plain" with
    | none => exact isClosed_nil
    | some text => exact reads_verbatim text.toList

theorem isClosed_renderBundle (hlabel : marks label.toList = []) {b : Bundle}
    (hb : b.IsUnmarked) :
  (renderBundle label b).Always Piece.IsClosed
  := by
  apply Dialogue.always_bind.mpr
  apply (saveFirst?_always _).mono
  intro saved h
  cases saved with
  | none => exact reads_bundleLines hb
  | some name =>
    obtain ⟨image, himage, rfl⟩ := h name rfl
    obtain ⟨extension, hextension, hname⟩ := name_of_mem_candidates himage
    rw [hname]
    exact isClosed_ofImage hlabel hextension

theorem isClosed_renderOutput (hlabel : marks label.toList = []) {output : Output}
    (h : output.IsUnmarked) :
  (renderOutput label output).Always Piece.IsClosed
  := by
  cases output with
  | stream text =>
    cases text with
    | none => exact isClosed_nil
    | some text => exact reads_verbatim text.toList
  | rich bundle => exact isClosed_renderBundle hlabel h
  | error name value => exact reads_verbatim _
  | other => exact isClosed_nil

/-! ### Cells -/

/-- A cell leaves nothing open. -/
theorem isClosed_renderCell (hlabel : marks label.toList = []) {cell : Cell}
    (h : cell.IsUnmarked) :
  (renderCell label cell).Always Piece.IsClosed
  := by
  have hempty : Piece.IsClosed { lines := [""] } := reads_line (n := 0) (Nat.zero_le 8) (by decide)
  cases cell with
  | markdown source => exact Reads.append (reads_markdown source.toList) hempty
  | code source outputs =>
    have houtputs : (renderOutputs label 0 outputs).Always Piece.IsClosed := by
      apply renderOutputs_always isClosed_nil Piece.IsClosed.append
      intro output houtput index
      exact isClosed_renderOutput (marks_label hlabel rfl (by decide) index) (h output houtput)
    apply Dialogue.always_bind.mpr
    apply houtputs.mono
    intro piece hpiece
    have hsource : Piece.IsClosed { lines := verbatim source.toList } := reads_verbatim _
    exact (hsource.append hpiece).append hempty
  | other => exact hempty

/-- A notebook leaves nothing open. -/
theorem isClosed_render {stem : String} (hstem : marks stem.toList = []) {n : Notebook}
    (hn : n.IsUnmarked) :
  (render stem n).Always Piece.IsClosed
  := by
  apply renderCells_always isClosed_nil Piece.IsClosed.append
  intro cell hcell index
  exact isClosed_renderCell (marks_label hstem rfl (by decide) index) (hn cell hcell)

theorem Piece.append_assoc (p q r : Piece) :
  p ++ q ++ r = p ++ (q ++ r)
  := by
  change Piece.mk (p.lines ++ q.lines ++ r.lines) (p.images ++ q.images ++ r.images) = _
  rw [List.append_assoc, List.append_assoc]
  rfl

/-- Cells are typeset one after another. -/
theorem renderCells_append (stem : String) (first : Nat) (cells cells' : List Cell) :
  renderCells stem first (cells ++ cells')
    = (renderCells stem first cells).bind fun piece =>
      (renderCells stem (first + cells.length) cells').bind fun pieces => .done (piece ++ pieces)
  := by
  induction cells generalizing first with
  | nil => exact (Dialogue.bind_done _).symm
  | cons cell cells ih =>
    have hfirst : first + 1 + cells.length = first + (cell :: cells).length := by
      rw [List.length_cons]
      omega
    simp only [List.cons_append, renderCells, ih, hfirst, Dialogue.bind_eq, Dialogue.pure_eq,
      Dialogue.bind_assoc, Dialogue.bind, Piece.append_assoc]

/-- The first cells of a notebook are typeset before the others. -/
theorem render_take (stem : String) (n : Notebook) (k : Nat) :
  render stem n = (render stem { cells := n.cells.take k }).bind fun piece =>
    (renderCells stem (n.cells.take k).length (n.cells.drop k)).bind fun pieces =>
      .done (piece ++ pieces)
  := by
  have happend := renderCells_append stem 0 (n.cells.take k) (n.cells.drop k)
  rw [List.take_append_drop, Nat.zero_add] at happend
  exact happend

/-! ### Notebooks -/

section Extract

variable {σ : Type} (answer : σ → (action : Action) → action.Answer × σ)

/-- The lines of a notebook that is typeset in some surroundings. -/
def typesetLines (s : σ) (stem : String) (assets : Path) (n : Notebook) : List String :=
  (((render stem n).interpret (saveImage assets)).run answer s).1.lines

/-- The lines of a notebook begin with those of its first cells. -/
theorem typesetLines_take (s : σ) (stem : String) (assets : Path) (n : Notebook) (k : Nat) :
  typesetLines answer s stem assets { cells := n.cells.take k }
    <+: typesetLines answer s stem assets n
  := by
  rw [typesetLines, typesetLines, render_take stem n k, Dialogue.interpret_bind, Dialogue.run_bind,
    Dialogue.interpret_bind, Dialogue.run_bind]
  apply List.prefix_append

theorem wellNested_typesetLines (s : σ) {stem : String} (hstem : marks stem.toList = [])
    (assets : Path) {n : Notebook} (hn : n.IsUnmarked) :
  WellNested (typesetLines answer s stem assets n)
  := by
  have hclosed := (isClosed_render hstem hn).interpret (saveImage assets)
  exact (hclosed.run_fst answer s).wellNested

/-- What is extracted from a notebook that can be read are its lines. -/
theorem run_extract (s : σ) {path : Path} (assets : Path) {bytes : Bytes} {n : Notebook}
    (hread : (answer s (.read path)).1 = .ok bytes) (hbytes : ofBytes? bytes = some n) :
  ∃ x, ((extract path assets).run answer s).1 = .ok x
    ∧ x.fragment.body = typesetLines answer (answer s (.read path)).2
      (path.fileStem?.getD "notebook") assets n
  := by
  have hsource : (readSource path).run answer s = (.ok bytes, (answer s (.read path)).2) := by
    have hact : (act (.read path)).run answer s = answer s (.read path) := rfl
    rw [readSource, Dialogue.bind_eq, Dialogue.run_bind, hact, hread]
    rfl
  rw [extract, Dialogue.bind_eq, Dialogue.run_bind, hsource]
  dsimp only
  rw [hbytes]
  dsimp only
  rw [Dialogue.bind_eq, Dialogue.run_bind]
  exact ⟨_, rfl, rfl⟩

/-- The stem of a kept notebook holds no marks. -/
theorem marks_stem (root : Path) (index : Nat) (default : String) :
  marks ((root.join (SourceKind.notebook.fileName index)).fileStem?.getD default).toList = []
  := by
  apply marks_of_not_mem
  intro hmem
  exact absurd (SourceKind.mem_fileStem_join .notebook index root default _ hmem) (by decide)

/-- Whatever the cells of a notebook hold, the lines that are extracted from it are well nested, and
so are those of any number of its first cells, if the notebook is kept under a name without marks
and no markup in an output holds one.  The text of a line, whether typeset or verbatim, holds no
mark that counts there. -/
theorem wellNested_extract (s : σ) {path : Path} (assets : Path) {bytes : Bytes} {n : Notebook}
    (hpath : marks (path.fileStem?.getD "notebook").toList = []
      ∨ ∃ (root : Path) (index : Nat), path = root.join (SourceKind.notebook.fileName index))
    (hread : (answer s (.read path)).1 = .ok bytes) (hbytes : ofBytes? bytes = some n)
    (hn : n.IsUnmarked) :
  (∃ x, ((extract path assets).run answer s).1 = .ok x ∧ WellNested x.fragment.body
    ∧ ∀ k, ∃ lines, lines = typesetLines answer (answer s (.read path)).2
        (path.fileStem?.getD "notebook") assets { cells := n.cells.take k }
      ∧ lines <+: x.fragment.body ∧ WellNested lines)
  ∧ (∀ text, marks (inline text) = [])
  ∧ ∀ line, Mark.closes .verbatim ∉ marks (verbatimLine line)
  := by
  refine ⟨?_, marks_inline, closes_not_mem_verbatimLine⟩
  have hstem : marks (path.fileStem?.getD "notebook").toList = [] := by
    rcases hpath with h | ⟨root, index, rfl⟩
    · exact h
    · exact marks_stem root index "notebook"
  obtain ⟨x, hx, hbody⟩ := run_extract answer s assets hread hbytes
  use x, hx
  rw [hbody]
  use wellNested_typesetLines answer _ hstem assets hn
  intro k
  have htake : IsUnmarked { cells := n.cells.take k } :=
    fun cell hcell => hn cell (List.mem_of_mem_take hcell)
  exact ⟨_, rfl, typesetLines_take answer _ _ assets n k,
    wellNested_typesetLines answer _ hstem assets htake⟩

end Extract

/-- Of a cell with two lists and fenced code that is not closed, all that is open is closed. -/
theorem wellNested_extract_fence :
  let surroundings : Surroundings := { programs := fun _ _ tree => (.error .notFound, tree) }
  let path : Path := ⟨"/book.ipynb"⟩
  let bytes := Text.utf8 ("\x7b\"cells\":[\x7b\"cell_type\":\"markdown\",\"source\":"
    ++ "\"- a\\n  - \\\\end\x7bitemize\x7d\\n\x60\x60\x60\\n\\\\end\x7bverbatim\x7d\""
    ++ "\x7d]\x7d").toList
  let m := (Machine.run surroundings (act (.write path bytes)) { tree := {} }).2
  let n : Notebook := { cells := [
    .markdown "- a\n  - \\end\x7bitemize\x7d\n\x60\x60\x60\n\\end\x7bverbatim\x7d"] }
  marks (path.fileStem?.getD "notebook").toList = []
    ∧ (Machine.answer surroundings m (.read path)).1 = .ok bytes ∧ ofBytes? bytes = some n
    ∧ n.IsUnmarked ∧ ∃ x, (Machine.run surroundings (extract path ⟨"/"⟩) m).1 = .ok x
      ∧ WellNested x.fragment.body
  := by
  intro surroundings path bytes m n
  have hstem : marks (path.fileStem?.getD "notebook").toList = [] := by decide +kernel
  have hread : (Machine.answer surroundings m (.read path)).1 = .ok bytes := by decide +kernel
  have hbytes : ofBytes? bytes = some n := by decide +kernel
  have hn : n.IsUnmarked := by decide +kernel
  obtain ⟨⟨x, hx, hnested, -⟩, -⟩ := wellNested_extract (Machine.answer surroundings) m ⟨"/"⟩
    (Or.inl hstem) hread hbytes hn
  exact ⟨hstem, hread, hbytes, hn, x, hx, hnested⟩

end Notebook

end Bindery
