import Mathlib.Data.List.Forall2
import Bindery.Proofs.Merge.Content
import Bindery.Proofs.Notebook.Nesting

/-!
# Code in a merged document

The code of a cell stands in a merged document as one verbatim block, line by line, in the order of
the cells (`listings_in_body`).  A line that would begin or end the document if it stood outside of
the block is left out by the merger, which does not look at what a line stands in
(`listing_not_in_body`).
-/

namespace Bindery.Notebook

open Merge (bodyOf merge_always_gathered)

/-! ### Lines of code -/

/-- The lines that the merger takes over. -/
def takenOver (lines : List String) : List String :=
  lines.filter fun line => !isBoundary line.toList

theorem takenOver_append (lines lines' : List String) :
  takenOver (lines ++ lines') = takenOver lines ++ takenOver lines'
  := List.filter_append ..

/-- The lines of code as they stand in a merged document. -/
def listing (source : String) : List String :=
  takenOver ((Text.lines source.toList).map (String.ofList ∘ verbatimLine))

/-- A line of a listing holds no control character, and not the end of the block. -/
theorem listing_defused {source line : String} (h : line ∈ listing source) :
  (∀ c ∈ line.toList, Escape.isStripped c = false) ∧ ¬ verbatimEnd.toList <:+: line.toList
  := by
  obtain ⟨raw, -, rfl⟩ := List.mem_map.mp (List.mem_filter.mp h).1
  rw [Function.comp_apply, String.toList_ofList]
  constructor
  · have hmarker : verbatimEndApart.toList.all (fun c => !Escape.isStripped c) = true := by decide
    apply forall_mem_verbatimLine
    · intro c hc
      simpa using (List.mem_filter.mp hc).2
    · intro c hc
      simpa using List.all_eq_true.mp hmarker c hc
  · have hclosed := closes_not_mem_verbatimLine raw
    rw [mem_marks] at hclosed
    exact hclosed

/-! ### Cells -/

/-- What a cell adds to the body of a merged document.  Code that is not blank comes first, in a
block of its own. -/
inductive Contributes : Cell → List String → Prop where
  | code {source : String} {outputs : List Output} {after : List String}
      (hsource : Text.isBlankText source.toList = false) :
      Contributes (.code source outputs) (verbatimBegin :: listing source ++ verbatimEnd :: after)
  | other {cell : Cell} {lines : List String}
      (hcell : ∀ source outputs, cell = .code source outputs →
        Text.isBlankText source.toList = true) :
      Contributes cell lines

theorem takenOver_verbatim {source : String} (h : Text.isBlankText source.toList = false) :
  takenOver (verbatim source.toList) = verbatimBegin :: listing source ++ [verbatimEnd]
  := by
  have hbegin : isBoundary verbatimBegin.toList = false := by decide
  have hend : isBoundary verbatimEnd.toList = false := by decide
  rw [verbatim, h, if_neg Bool.false_ne_true, takenOver, List.filter_append,
    List.filter_cons_of_pos (by simp [hbegin]), List.filter_cons_of_pos (by simp [hend])]
  rfl

theorem renderCell_always (label : String) (cell : Cell) :
  (renderCell label cell).Always fun piece => Contributes cell (takenOver piece.lines)
  := by
  cases cell with
  | markdown source => exact .other (fun _ _ h => by cases h)
  | other => exact .other (fun _ _ h => by cases h)
  | code source outputs =>
    cases hsource : Text.isBlankText source.toList with
    | true =>
      apply Dialogue.always_of_forall
      rintro piece
      apply Contributes.other
      rintro _ _ ⟨⟩
      exact hsource
    | false =>
      apply Dialogue.always_bind.mpr
      apply Dialogue.always_of_forall
      intro piece
      change Contributes _ (takenOver (verbatim source.toList ++ piece.lines ++ [""]))
      rw [List.append_assoc, takenOver_append, takenOver_verbatim hsource, List.append_assoc]
      exact .code hsource

/-- What a notebook is typeset to is taken over cell by cell. -/
theorem renderCells_always_contributes (stem : String) (first : Nat) (cells : List Cell) :
  (renderCells stem first cells).Always fun piece => ∃ contributions,
    takenOver piece.lines = contributions.flatten ∧ List.Forall₂ Contributes cells contributions
  := by
  induction cells generalizing first with
  | nil => exact ⟨[], rfl, .nil⟩
  | cons cell cells ih =>
    apply Dialogue.always_bind.mpr
    apply (renderCell_always _ cell).mono
    intro piece hpiece
    apply Dialogue.always_bind.mpr
    apply (ih (first + 1)).mono
    rintro pieces ⟨contributions, hlines, hcells⟩
    refine ⟨takenOver piece.lines :: contributions, ?_, .cons hpiece hcells⟩
    rw [List.flatten_cons, ← hlines]
    exact takenOver_append _ _

/-! ### Merged documents -/

section Merged

variable {σ τ : Type} (answer : σ → (action : Action) → action.Answer × σ) (s : σ)
  (has : τ → String → Bool × τ) (t : τ)

/-- Of every notebook that can be read, and in every document that its fragment was merged into,
the code of each cell that is not blank stands as one block, in the order of the cells.  Its lines
are those of the source, in order, with control characters dropped and the end of the block taken
apart, except those that begin with a boundary marker after white space. -/
theorem listings_in_body {path : Path} (assets : Path) {bytes : Bytes} {n : Notebook}
    (hread : (answer s (.read path)).1 = .ok bytes) (hbytes : ofBytes? bytes = some n) :
  (∃ x, ((extract path assets).run answer s).1 = .ok x
    ∧ ∀ fragments d, x.fragment ∈ fragments → ((merge fragments).run has t).1 = .ok d →
      ∃ before contributions after, d.body = before ++ contributions.flatten ++ after
        ∧ List.Forall₂ Contributes n.cells contributions)
  ∧ ∀ source, ∀ line ∈ listing source,
    (∀ c ∈ line.toList, Escape.isStripped c = false) ∧ ¬ verbatimEnd.toList <:+: line.toList
  := by
  refine ⟨?_, fun _ _ => listing_defused⟩
  obtain ⟨x, hx, hbody⟩ := run_extract answer s assets hread hbytes
  use x, hx
  intro fragments d hfragment hd
  obtain ⟨before, after, rfl⟩ := List.append_of_mem hfragment
  obtain ⟨hgathered, -⟩ := (merge_always_gathered _).run_fst has t d hd
  have hcells := renderCells_always_contributes (path.fileStem?.getD "notebook") 0 n.cells
  obtain ⟨contributions, hlines, hcells⟩ :=
    (hcells.interpret (saveImage assets)).run_fst answer (answer s (.read path)).2
  refine ⟨before.flatMap bodyOf, contributions, [""] ++ after.flatMap bodyOf, ?_, hcells⟩
  have hown : bodyOf x.fragment = contributions.flatten ++ [""] := by
    rw [← hlines, bodyOf, hbody]
    rfl
  rw [hgathered.body, List.flatMap_append, List.flatMap_cons, hown, List.append_assoc,
    List.append_assoc]

end Merged

/-- The code of the second cell holds a control character and the end of the block. -/
theorem listings_in_body_defused :
  let surroundings : Surroundings := { programs := fun _ _ tree => (.error .notFound, tree) }
  let path : Path := ⟨"/book.ipynb"⟩
  let bytes := Text.utf8 ("\x7b\"cells\":[\x7b\"cell_type\":\"code\",\"source\":\" \"\x7d,"
    ++ "\x7b\"cell_type\":\"code\",\"source\":"
    ++ "\"a\\u0007\\n\\\\end\x7bverbatim\x7d\"\x7d]\x7d").toList
  let m := (Machine.run surroundings (act (.write path bytes)) { tree := {} }).2
  let n : Notebook := { cells := [.code " " [], .code "a\x07\n\\end\x7bverbatim\x7d" []] }
  (Machine.answer surroundings m (.read path)).1 = .ok bytes ∧ ofBytes? bytes = some n
    ∧ ∃ x, (Machine.run surroundings (extract path ⟨"/"⟩) m).1 = .ok x
      ∧ ∀ fragments d, x.fragment ∈ fragments →
        ((merge fragments).run (fun _ _ => (true, ())) ()).1 = .ok d →
        ∃ before contributions after, d.body = before ++ contributions.flatten ++ after
          ∧ List.Forall₂ Contributes n.cells contributions
  := by
  intro surroundings path bytes m n
  have hread : (Machine.answer surroundings m (.read path)).1 = .ok bytes := by decide +kernel
  have hbytes : ofBytes? bytes = some n := by decide +kernel
  obtain ⟨hbody, -⟩ := listings_in_body (Machine.answer surroundings) m (fun _ _ => (true, ())) ()
    ⟨"/"⟩ hread hbytes
  exact ⟨hread, hbytes, hbody⟩

/-- A line of code that would begin the document is left out, so that the code does not stand in the
merged document as it is. -/
theorem listing_not_in_body :
  let surroundings : Surroundings := { programs := fun _ _ tree => (.error .notFound, tree) }
  let path : Path := ⟨"/book.ipynb"⟩
  let bytes := Text.utf8 ("\x7b\"cells\":[\x7b\"cell_type\":\"code\",\"source\":"
    ++ "\"\\\\begin\x7bdocument\x7d\\nx\"\x7d]\x7d").toList
  let m := (Machine.run surroundings (act (.write path bytes)) { tree := {} }).2
  let source := "\\begin\x7bdocument\x7d\nx"
  let f : Fragment := { origin := "book.ipynb", preamble, body := verbatim source.toList ++ [""] }
  let d := ((merge [f]).runPure fun _ => true).toOption.getD Document.empty
  ofBytes? bytes = some { cells := [.code source []] } ∧ Text.isBlankText source.toList = false
    ∧ (Machine.run surroundings (extract path ⟨"/"⟩) m).1 = .ok { fragment := f }
    ∧ ((merge [f]).runPure fun _ => true) = .ok d ∧ ¬ verbatim source.toList <:+: d.body
  := by
  decide +kernel

end Bindery.Notebook
