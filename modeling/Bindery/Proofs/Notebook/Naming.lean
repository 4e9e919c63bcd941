import Mathlib.Data.List.Nodup
import Bindery.Proofs.Notebook.Assets
import Bindery.Proofs.Path.Extension

/-!
# How the images of a notebook are named

The name of an image tells the notebook, the cell and the output that it belongs to, and its
type.  `images` lists the names of all images that a notebook may ask for; no two of them are the
same (`nodup_images`), and typesetting asks for some of them, each at most once
(`asked_render`).
-/

namespace Bindery.Notebook

open scoped List
open SourceKind (IsNameText)

/-! ### Names with numbers in them -/

/-- The number in a name can be read off what follows its label, up to a mark. -/
theorem eq_of_numbered {label : List Char} {mark : Char} (hmark : mark.isDigit = false)
    {n n' : Nat} {rest rest' : List Char}
    (h : label ++ (toString n).toList ++ mark :: rest
      = label ++ (toString n').toList ++ mark :: rest') :
  n = n'
  := by
  rw [List.append_assoc, List.append_assoc] at h
  have hnumbers := congrArg (List.takeWhile Char.isDigit) (List.append_cancel_left h)
  have htake (n : Nat) (rest : List Char) :
      ((toString n).toList ++ mark :: rest).takeWhile Char.isDigit = Nat.toDigits 10 n := by
    have hdigits : ∀ c ∈ Nat.toDigits 10 n, c.isDigit = true := fun c hc =>
      Nat.isDigit_of_mem_toDigits (by decide) (by decide) hc
    rw [Nat.toString_eq_ofList_toDigits, String.toList_ofList,
      List.takeWhile_append_of_pos hdigits, List.takeWhile_cons_of_neg (by simp [hmark]),
      List.append_nil]
  rw [htake, htake] at hnumbers
  have hread := congrArg (fun digits => Nat.ofDigitChars 10 digits 0) hnumbers
  simpa using hread

/-- The name is a label with a mark after it, and perhaps more. -/
def Continues (label : String) (mark : Char) (name : String) : Prop :=
  ∃ rest, name.toList = label.toList ++ mark :: rest

/-- Names are all different if those of one number are, and the number is followed by a mark. -/
theorem nodup_numbered {α : Type} {mark : Char} (hmark : mark.isDigit = false) (label : String)
    (names : String → α → List String) (hnodup : ∀ label a, (names label a).Nodup)
    (hnames : ∀ label a, ∀ name ∈ names label a, Continues label mark name) (l : List α)
    (first : Nat) :
  ((l.zipIdx first).flatMap fun (a, n) => names (label ++ toString n) a).Nodup
  := by
  rw [List.nodup_flatMap]
  constructor
  · intro entry _
    apply hnodup
  · have hnumbers : ((l.zipIdx first).map Prod.snd).Nodup := by
      rw [List.zipIdx_map_snd]
      exact List.nodup_range'
    rw [List.Nodup, List.pairwise_map] at hnumbers
    apply hnumbers.imp
    intro a b hne name ha hb
    obtain ⟨rest, hrest⟩ := hnames _ _ name ha
    obtain ⟨rest', hrest'⟩ := hnames _ _ name hb
    rw [hrest, String.toList_append, String.toList_append] at hrest'
    exact hne (eq_of_numbered hmark hrest')

/-! ### All images -/

/-- The names of the images of an output. -/
def imagesOfOutput (label : String) : Output → List String
  | .rich bundle => (candidates label bundle).map Image.name
  | _ => []

/-- The names of the images of outputs, of which the first has the given number. -/
def imagesOfOutputs (label : String) (first : Nat) (outputs : List Output) : List String :=
  (outputs.zipIdx first).flatMap fun (output, n) =>
    imagesOfOutput (label ++ "_output" ++ toString n) output

/-- The names of the images of a cell. -/
def imagesOfCell (label : String) : Cell → List String
  | .code _ outputs => imagesOfOutputs label 0 outputs
  | _ => []

/-- The names of the images of cells, of which the first has the given number. -/
def imagesOfCells (stem : String) (first : Nat) (cells : List Cell) : List String :=
  (cells.zipIdx first).flatMap fun (cell, n) => imagesOfCell (stem ++ "_cell" ++ toString n) cell

/-- The names of the images of a notebook. -/
def images (stem : String) (n : Notebook) : List String :=
  imagesOfCells stem 0 n.cells

theorem images_candidates (label : String) (b : Bundle) :
  (candidates label b).map Image.name <+ imageTypes.map fun type => label ++ "." ++ type.2.1
  := by
  unfold candidates
  generalize imageTypes = types
  induction types with
  | nil => exact List.Sublist.refl []
  | cons type types ih =>
    rw [List.map_cons, List.filterMap_cons]
    dsimp only
    cases (b.text? type.1).bind (decodeImage? type.2.2) with
    | none => exact ih.cons _
    | some bytes => exact ih.cons_cons _

theorem nodup_output (label : String) (output : Output) :
  (imagesOfOutput label output).Nodup
  := by
  cases output with
  | rich bundle =>
    apply (images_candidates label bundle).nodup
    simp [imageTypes, String.append_assoc]
  | _ => exact List.nodup_nil

theorem continues_output (label : String) (output : Output) :
  ∀ name ∈ imagesOfOutput label output, Continues label '.' name
  := by
  cases output with
  | rich bundle =>
    intro name hname
    obtain ⟨type, -, rfl⟩ := List.mem_map.mp ((images_candidates label bundle).subset hname)
    use type.2.1.toList
    simp [String.toList_append]
  | _ => exact List.forall_mem_nil _

theorem Continues.of_append {label number part : String} {mark mark' : Char} {name : String}
    (hpart : part.toList.head? = some mark)
    (h : Continues (label ++ part ++ number) mark' name) :
  Continues label mark name
  := by
  obtain ⟨rest, hrest⟩ := h
  obtain ⟨more, hmore⟩ := List.head?_eq_some_iff.mp hpart
  use more ++ number.toList ++ mark' :: rest
  rw [hrest, String.toList_append, String.toList_append, hmore]
  simp

theorem nodup_imagesOfOutputs (label : String) (first : Nat) (outputs : List Output) :
  (imagesOfOutputs label first outputs).Nodup
  := nodup_numbered (by decide) (label ++ "_output") imagesOfOutput
    nodup_output continues_output outputs first

theorem continues_imagesOfOutputs (label : String) (first : Nat) (outputs : List Output) :
  ∀ name ∈ imagesOfOutputs label first outputs, Continues label '_' name
  := by
  intro name hname
  obtain ⟨entry, -, hname⟩ := List.mem_flatMap.mp hname
  exact (continues_output _ _ name hname).of_append (by decide)

theorem nodup_cell (label : String) (cell : Cell) :
  (imagesOfCell label cell).Nodup
  := by
  cases cell with
  | code source outputs => exact nodup_imagesOfOutputs label 0 outputs
  | _ => exact List.nodup_nil

theorem continues_cell (label : String) (cell : Cell) :
  ∀ name ∈ imagesOfCell label cell, Continues label '_' name
  := by
  cases cell with
  | code source outputs => exact continues_imagesOfOutputs label 0 outputs
  | _ => exact List.forall_mem_nil _

/-- No two images of a notebook have the same name. -/
theorem nodup_images (stem : String) (n : Notebook) :
  (n.images stem).Nodup
  := nodup_numbered (by decide) (stem ++ "_cell") imagesOfCell
    nodup_cell continues_cell n.cells 0

theorem continues_images (stem : String) (n : Notebook) :
  ∀ name ∈ n.images stem, Continues stem '_' name
  := by
  intro name hname
  obtain ⟨entry, -, hname⟩ := List.mem_flatMap.mp hname
  exact (continues_cell _ _ name hname).of_append (by decide)

/-- All images of a notebook have names that images have. -/
theorem isImageName_images {stem : String} (hstem : IsNameText stem) (n : Notebook) :
  ∀ name ∈ n.images stem, IsImageName name
  := by
  intro name hname
  obtain ⟨⟨cell, i⟩, -, hname⟩ := List.mem_flatMap.mp hname
  cases cell with
  | code source outputs =>
    obtain ⟨⟨output, j⟩, -, hname⟩ := List.mem_flatMap.mp hname
    cases output with
    | rich bundle =>
      obtain ⟨image, himage, rfl⟩ := List.mem_map.mp hname
      have hcell := isNameText_numbered hstem "_cell" (by decide) i
      have houtput := isNameText_numbered hcell "_output" (by decide) j
      exact isImageName_candidates houtput bundle image himage
    | _ => cases hname
  | _ => cases hname

/-! ### Images that are asked for -/

variable {σ α β : Type} (answer : σ → Image → Bool × σ)

/-- The names of the images that typesetting asks for. -/
def asked (x : Rendering α) (s : σ) : List String :=
  (x.transcript answer s).map fun entry => entry.1.name

@[simp]
theorem asked_done (a : α) (s : σ) :
  asked answer (.done a) s = []
  := rfl

@[simp]
theorem asked_bind (x : Rendering α) (f : α → Rendering β) (s : σ) :
  asked answer (x.bind f) s
    = asked answer x s ++ asked answer (f (x.run answer s).1) (x.run answer s).2
  := by rw [asked, Dialogue.transcript_bind, List.map_append, asked, asked]

theorem asked_saveFirst? (images : List Image) (s : σ) :
  asked answer (saveFirst? images) s <+ images.map Image.name
  := by
  induction images generalizing s with
  | nil => exact List.Sublist.refl []
  | cons image images ih =>
    rw [saveFirst?, Dialogue.bind_eq, asked_bind, List.map_cons]
    change image.name :: asked answer (if (answer s image).1 then _ else _) (answer s image).2 <+ _
    apply List.Sublist.cons_cons
    cases (answer s image).1 with
    | true => exact List.nil_sublist _
    | false => exact ih _

theorem asked_renderOutput (label : String) (output : Output) (s : σ) :
  asked answer (renderOutput label output) s <+ imagesOfOutput label output
  := by
  cases output with
  | rich bundle =>
    rw [renderOutput, renderBundle, Dialogue.bind_eq, asked_bind]
    cases ((saveFirst? (candidates label bundle)).run answer s).1 with
    | none | some name =>
      change _ ++ [] <+ _
      rw [List.append_nil]
      exact asked_saveFirst? answer _ s
  | _ => exact List.nil_sublist _

theorem asked_renderOutputs (label : String) (first : Nat) (outputs : List Output) (s : σ) :
  asked answer (renderOutputs label first outputs) s <+ imagesOfOutputs label first outputs
  := by
  induction outputs generalizing first s with
  | nil => exact List.Sublist.refl []
  | cons output outputs ih =>
    rw [renderOutputs, Dialogue.bind_eq, asked_bind, Dialogue.bind_eq, asked_bind]
    apply (asked_renderOutput answer _ output s).append
    change _ ++ [] <+ _
    rw [List.append_nil]
    exact ih (first + 1) _

theorem asked_renderCell (label : String) (cell : Cell) (s : σ) :
  asked answer (renderCell label cell) s <+ imagesOfCell label cell
  := by
  cases cell with
  | code source outputs =>
    rw [renderCell, Dialogue.bind_eq, asked_bind]
    change _ ++ [] <+ _
    rw [List.append_nil]
    exact asked_renderOutputs answer label 0 outputs s
  | _ => exact List.nil_sublist _

theorem asked_renderCells (stem : String) (first : Nat) (cells : List Cell) (s : σ) :
  asked answer (renderCells stem first cells) s <+ imagesOfCells stem first cells
  := by
  induction cells generalizing first s with
  | nil => exact List.Sublist.refl []
  | cons cell cells ih =>
    rw [renderCells, Dialogue.bind_eq, asked_bind, Dialogue.bind_eq, asked_bind]
    apply (asked_renderCell answer _ cell s).append
    change _ ++ [] <+ _
    rw [List.append_nil]
    exact ih (first + 1) _

/-- Typesetting a notebook asks for images of it, each at most once. -/
theorem asked_render (stem : String) (n : Notebook) (s : σ) :
  asked answer (render stem n) s <+ n.images stem
  := asked_renderCells answer stem 0 n.cells s

end Bindery.Notebook
