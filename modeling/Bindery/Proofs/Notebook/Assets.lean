import Bindery.Notebook.Render
import Bindery.Proofs.Source
import Bindery.Proofs.Transcript

/-!
# The images of notebooks

The images that a typeset notebook includes are those that were saved for it, in the same order
(`images_render`).  Their names begin with the stem that the notebook is given and end like those
of images, so that no image has the name of a source (`ne_fileName`).
-/

namespace Bindery.Notebook

variable {σ α β : Type} (answer : σ → Image → Bool × σ)

/-! ### Images that are saved -/

/-- The names of the images that are saved. -/
def saved (x : Rendering α) (s : σ) : List String :=
  (x.transcript answer s).filterMap fun entry =>
    if entry.2 then some entry.1.name else none

theorem saved_done (a : α) (s : σ) :
  saved answer (.done a) s = []
  := rfl

theorem saved_bind (x : Rendering α) (f : α → Rendering β) (s : σ) :
  saved answer (x.bind f) s
    = saved answer x s ++ saved answer (f (x.run answer s).1) (x.run answer s).2
  := by rw [saved, Dialogue.transcript_bind, List.filterMap_append, saved, saved]

theorem saved_question (image : Image) (s : σ) :
  saved answer (Dialogue.question image) s
    = if (answer s image).1 then [image.name] else []
  := by
  rw [saved, Dialogue.transcript_question, List.filterMap_cons, List.filterMap_nil]
  dsimp only
  cases (answer s image).1 <;> rfl

/-- Of several images at most one is saved, and its name is the answer. -/
theorem saved_saveFirst? (images : List Image) (s : σ) :
  saved answer (saveFirst? images) s = ((saveFirst? images).run answer s).1.toList
  := by
  induction images generalizing s with
  | nil => rfl
  | cons image images ih =>
    rw [saveFirst?, Dialogue.bind_eq, saved_bind, saved_question, Dialogue.run_bind]
    change (if (answer s image).1 then [image.name] else [])
      ++ saved answer (if (answer s image).1 then _ else _) (answer s image).2 = Option.toList
        (Dialogue.run answer (if (answer s image).1 then _ else _) (answer s image).2).1
    cases (answer s image).1 with
    | true => rfl
    | false => exact ih _

/-- A part of a notebook includes the images that are saved for it. -/
def Includes (x : Rendering Piece) : Prop :=
  ∀ s, (x.run answer s).1.images = saved answer x s

theorem includes_lines (lines : List String) :
  Includes answer (.done { lines })
  := fun _ => rfl

/-- One part after another includes the images of both. -/
theorem Includes.append {x y : Rendering Piece} (hx : Includes answer x)
    (hy : Includes answer y) :
  Includes answer (x.bind fun piece => y.bind fun pieces => .done (piece ++ pieces))
  := by
  intro s
  rw [Dialogue.run_bind, Dialogue.run_bind, saved_bind, saved_bind, saved_done, List.append_nil,
    ← hx, ← hy]
  rfl

theorem includes_renderBundle (label : String) (b : Bundle) :
  Includes answer (renderBundle label b)
  := by
  intro s
  rw [renderBundle, Dialogue.bind_eq, Dialogue.run_bind, saved_bind, saved_saveFirst?]
  cases ((saveFirst? (candidates label b)).run answer s).1 with
  | none => rfl
  | some name => rfl

theorem includes_renderOutput (label : String) (output : Output) :
  Includes answer (renderOutput label output)
  := by
  cases output with
  | stream text => exact includes_lines answer _
  | rich bundle => exact includes_renderBundle answer label bundle
  | error name value => exact includes_lines answer _
  | other => exact includes_lines answer _

theorem includes_renderOutputs (label : String) (first : Nat) (outputs : List Output) :
  Includes answer (renderOutputs label first outputs)
  := by
  induction outputs generalizing first with
  | nil => exact includes_lines answer _
  | cons output outputs ih =>
    exact (includes_renderOutput answer _ output).append answer (ih (first + 1))

theorem includes_renderCell (label : String) (cell : Cell) :
  Includes answer (renderCell label cell)
  := by
  cases cell with
  | markdown source => exact includes_lines answer _
  | code source outputs =>
    intro s
    have houtputs := includes_renderOutputs answer label 0 outputs s
    rw [renderCell, Dialogue.bind_eq, Dialogue.run_bind, saved_bind, ← houtputs]
    change ([] ++ _) ++ [] = _ ++ []
    rw [List.nil_append]
  | other => exact includes_lines answer _

theorem includes_renderCells (stem : String) (first : Nat) (cells : List Cell) :
  Includes answer (renderCells stem first cells)
  := by
  induction cells generalizing first with
  | nil => exact includes_lines answer _
  | cons cell cells ih =>
    exact (includes_renderCell answer _ cell).append answer (ih (first + 1))

/-- The images that a typeset notebook includes are those that were saved. -/
theorem images_render (stem : String) (n : Notebook) (s : σ) :
  ((render stem n).run answer s).1.images = saved answer (render stem n) s
  := includes_renderCells answer stem 0 n.cells s

/-! ### Names of images -/

open SourceKind (IsNameChar IsNameText)

/-- The name is made of the characters of names, and ends like that of an image. -/
structure IsImageName (name : String) : Prop where
  chars : IsNameText name
  last : name.toList.getLast? = some 'g'

variable {name : String}

theorem IsImageName.isName (h : IsImageName name) :
  Path.IsName name
  := by
  have hne (other : String) (hlast : other.toList.getLast? ≠ some 'g') : name ≠ other := by
    rintro rfl
    exact hlast h.last
  constructor
  · intro hnil
    have hlast := h.last
    rw [hnil] at hlast
    cases hlast
  · intro hslash
    exact absurd (h.chars '/' hslash) (by decide)
  · exact hne "." (by decide)
  · exact hne ".." (by decide)

/-- No image has the name of a source. -/
theorem IsImageName.ne_fileName (h : IsImageName name) (kind : SourceKind) (index : Nat) :
  name ≠ kind.fileName index
  := by
  rintro rfl
  have hlast := h.last
  have hne : kind.extension.toList ≠ [] := by cases kind <;> decide
  rw [SourceKind.fileName, String.toList_append, List.getLast?_append_of_ne_nil _ hne] at hlast
  revert hlast
  cases kind <;> decide

theorem isNameText_append {a b : String} (ha : IsNameText a) (hb : IsNameText b) :
  IsNameText (a ++ b)
  := by
  rw [IsNameText, String.toList_append]
  exact List.forall_mem_append.mpr ⟨ha, hb⟩

/-- A label with a part and its number added. -/
theorem isNameText_numbered {label : String} (hlabel : IsNameText label) (part : String)
    (hpart : IsNameText part) (n : Nat) :
  IsNameText (label ++ part ++ toString n)
  := by
  apply isNameText_append (isNameText_append hlabel hpart)
  exact fun _ => SourceKind.isNameChar_of_mem_toString

theorem extension_of_mem_imageTypes :
  ∀ type ∈ imageTypes, IsNameText ("." ++ type.2.1)
    ∧ ("." ++ type.2.1).toList.getLast? = some 'g' ∧ ("." ++ type.2.1).toList ≠ []
  := by
  intro type htype
  simp only [imageTypes, List.mem_cons, List.not_mem_nil, or_false] at htype
  rcases htype with rfl | rfl <;> decide

theorem isImageName_candidates {label : String} (hlabel : IsNameText label) (b : Bundle) :
  ∀ image ∈ candidates label b, IsImageName image.name
  := by
  intro image himage
  obtain ⟨type, htype, hfound⟩ := List.mem_filterMap.mp himage
  obtain ⟨hchars, hlast, hne⟩ := extension_of_mem_imageTypes type htype
  obtain ⟨bytes, -, rfl⟩ := Option.map_eq_some_iff.mp hfound
  dsimp only
  rw [String.append_assoc]
  constructor
  · exact isNameText_append hlabel hchars
  · rw [String.toList_append, List.getLast?_append_of_ne_nil _ hne, hlast]

/-- All images have names that images have. -/
abbrev Proper (x : Rendering α) : Prop :=
  x.Only fun image => IsImageName image.name

theorem proper_saveFirst? {images : List Image}
    (h : ∀ image ∈ images, IsImageName image.name) :
  Proper (saveFirst? images)
  := by
  induction images with
  | nil => exact Dialogue.only_done _
  | cons image images ih =>
    obtain ⟨himage, himages⟩ := List.forall_mem_cons.mp h
    have hquestion : Proper (Dialogue.question image) := Dialogue.only_question himage
    refine hquestion.bind ?_
    rintro (_ | _)
    · exact ih himages
    · exact Dialogue.only_done _

theorem proper_renderOutput {label : String} (hlabel : IsNameText label) (output : Output) :
  Proper (renderOutput label output)
  := by
  cases output with
  | stream text => exact Dialogue.only_done _
  | rich bundle =>
    refine (proper_saveFirst? (isImageName_candidates hlabel bundle)).bind ?_
    rintro (_ | name) <;> exact Dialogue.only_done _
  | error name value => exact Dialogue.only_done _
  | other => exact Dialogue.only_done _

theorem proper_renderOutputs {label : String} (hlabel : IsNameText label) (first : Nat)
    (outputs : List Output) :
  Proper (renderOutputs label first outputs)
  := by
  induction outputs generalizing first with
  | nil => exact Dialogue.only_done _
  | cons output outputs ih =>
    have hnumbered := isNameText_numbered hlabel "_output" (by decide) first
    exact (proper_renderOutput hnumbered output).bind fun _ =>
      (ih (first + 1)).bind fun _ => Dialogue.only_done _

theorem proper_renderCells {stem : String} (hstem : IsNameText stem) (first : Nat)
    (cells : List Cell) :
  Proper (renderCells stem first cells)
  := by
  induction cells generalizing first with
  | nil => exact Dialogue.only_done _
  | cons cell cells ih =>
    have hnumbered := isNameText_numbered hstem "_cell" (by decide) first
    have hcell : Proper (renderCell (stem ++ "_cell" ++ toString first) cell) := by
      cases cell with
      | markdown source => exact Dialogue.only_done _
      | code source outputs =>
        exact (proper_renderOutputs hnumbered 0 outputs).bind fun _ => Dialogue.only_done _
      | other => exact Dialogue.only_done _
    exact hcell.bind fun _ => (ih (first + 1)).bind fun _ => Dialogue.only_done _

/-- The images of a notebook have names that images have. -/
theorem proper_render {stem : String} (hstem : IsNameText stem) (n : Notebook) :
  Proper (render stem n)
  := proper_renderCells hstem 0 n.cells

end Bindery.Notebook
