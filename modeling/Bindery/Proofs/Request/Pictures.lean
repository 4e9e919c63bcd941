import Bindery.Proofs.Notebook.Pictures
import Bindery.Proofs.Request.Apart
import Bindery.Proofs.Request.Isolation

/-!
# The images of a request

The images that are set for the outputs of a notebook are those that were written for it
(`pictured_extract`), one source after another (`pictured_extractAll`).  All of them have names of
their own (`names_sublist`), so that each file holds in the end what was decoded for it: the images
of a request make a `Gallery`, and a payload that is rejected leaves no trace
(`gallery_of_process`).
-/

namespace Bindery

open Machine (run run_bind)
open scoped List

/-! ### Saving images -/

namespace Notebook

variable {s : Surroundings} {α : Type}

/-- Images are saved in a directory. -/
def saving (s : Surroundings) (assets : Path) (m : Machine) (image : Image) : Bool × Machine :=
  run s (saveImage assets image) m

/-- The file of an image in a directory. -/
def Image.file (assets : Path) (image : Image) : Path × Bytes :=
  (assets.join image.name, image.bytes)

theorem saving_eq (assets : Path) (m : Machine) (image : Image) :
  saving s assets m image = match m.tree.write m.cwd (assets.join image.name) image.bytes with
    | .error _ => (false, m)
    | .ok tree => (true, { m with tree })
  := by
  rw [saving, saveImage, Dialogue.bind_eq, run_bind, Machine.run_write]
  cases m.tree.write m.cwd (assets.join image.name) image.bytes <;> rfl

/-- Exactly the images that are saved are written. -/
theorem writes_savedImages (assets : Path) (x : Rendering α) (m : Machine) :
  m.tree.Writes m.cwd ((savedImages (saving s assets) x m).map (Image.file assets))
      (x.run (saving s assets) m).2.tree
    ∧ (x.run (saving s assets) m).2.cwd = m.cwd
  := by
  induction x generalizing m with
  | done a => exact ⟨.nil, rfl⟩
  | ask image next ih =>
    rw [savedImages, Dialogue.transcript, List.filterMap_cons, Dialogue.run]
    have hsaving := saving_eq (s := s) assets m image
    cases hwrite : m.tree.write m.cwd (assets.join image.name) image.bytes with
    | error cause =>
      rw [hwrite] at hsaving
      rw [hsaving]
      exact ih false m
    | ok tree =>
      rw [hwrite] at hsaving
      rw [hsaving]
      obtain ⟨hwrites, hcwd⟩ := ih true { m with tree }
      exact ⟨.cons hwrite hwrites, hcwd⟩

/-- What is extracted from a notebook that is kept under a name, for its typeset contents. -/
def extractedAs (origin : String) (assets : Path) (piece : Piece) : Extracted where
  fragment := { origin, preamble, body := piece.lines }
  assets := piece.images.map assets.join

theorem run_typeset (path assets : Path) (n : Notebook) (m : Machine) :
  run s (typeset path assets n) m
    = let r := (render (path.fileStem?.getD "notebook") n).run (saving s assets) m
      (.ok (extractedAs path.nameForReports assets r.1), r.2)
  := by
  have hrun : run s ((render (path.fileStem?.getD "notebook") n).interpret (saveImage assets)) m
      = (render (path.fileStem?.getD "notebook") n).run (saving s assets) m :=
    Dialogue.run_interpret (Machine.answer s) (saveImage assets) _ m
  rw [typeset, run_bind, hrun]
  rfl

/-- The payload of a media type is rejected while a notebook is typeset: it cannot be decoded, or
its image cannot be written whenever this is tried. -/
def Rejects (s : Surroundings) (path assets : Path) (slot : Slot) (b : Bundle)
    (type : String × String × (Bytes → Bool)) (m : Machine) : Prop :=
  let stem := path.fileStem?.getD "notebook"
  ∀ image ∈ candidate? (slot.label stem) b type,
    ∀ asking ∈ (render stem (slot.fill (.rich b))).moments (saving s assets) m, asking.1 = image →
      ∃ cause, asking.2.tree.write asking.2.cwd (assets.join image.name) image.bytes = .error cause

/-- A payload that is rejected leaves no trace: what is extracted and what is written is the same as
without it. -/
theorem run_typeset_put (path assets : Path) (slot : Slot) (b : Bundle)
    {type : String × String × (Bytes → Bool)} (htype : type ∈ imageTypes) {m : Machine}
    (h : Rejects s path assets slot b type m) :
  run s (typeset path assets (slot.fill (.rich b))) m
    = run s (typeset path assets (slot.fill (.rich (b.put type.1 none)))) m
  := by
  have hkeeps (m : Machine) (image : Image) (hrefused : (saving s assets m image).1 = false) :
      (saving s assets m image).2 = m := by
    rw [saving_eq] at hrefused ⊢
    cases hwrite : m.tree.write m.cwd (assets.join image.name) image.bytes with
    | error cause => rfl
    | ok tree =>
      rw [hwrite] at hrefused
      cases hrefused
  rw [run_typeset, run_typeset, sameUnlessSaved_render hkeeps _ slot b htype m]
  intro image himage asking hasking hsame
  obtain ⟨cause, hcause⟩ := h image himage asking hasking hsame
  rw [saving_eq, hcause]

end Notebook

namespace Request

open Notebook (Shown Illustrates imagesIn extractedAs)

variable {s : Surroundings} {context : Context} {c : Config} {sources : List SourceFile}
  {w : Workspace} {m m' : Machine} {kept : List Kept}

/-! ### Sources with their images -/

/-- What is extracted from a source, with the outputs of a notebook and the images that are set for
them, which are the files that are reported. -/
inductive Pictured (root : Path) (source : SourceFile × Nat) : Extraction → List Shown → Prop where
  | notebook {n : Notebook} {piece : Notebook.Piece} {shown : List Shown}
      (kind : source.1.kind = .notebook) (holds : Notebook.ofBytes? source.1.bytes = some n)
      (outputs : shown.map Shown.key
        = n.labelledOutputs (Path.stemOf (source.1.kind.fileName source.2)))
      (illustrates : Illustrates shown piece) :
    Pictured root source
      (extraction source (.ok (extractedAs (source.1.kind.fileName source.2) root piece))) shown
  | other {result : Except SourceError Extracted}
      (unread : source.1.kind = .notebook → Notebook.ofBytes? source.1.bytes = none)
      (nothing : assetsOf result = []) :
    Pictured root source (extraction source result) []

/-- The names of the images. -/
abbrev imageNamesIn (shown : List Shown) : List String :=
  (imagesIn shown).map Notebook.Image.name

theorem Pictured.assets {root : Path} {source : SourceFile × Nat} {x : Extraction}
    {shown : List Shown} (h : Pictured root source x shown) :
  x.outcome.assets = (imageNamesIn shown).map root.join
  := by
  cases h with
  | notebook kind holds outputs illustrates =>
    rw [assets_outcome, imageNamesIn, ← illustrates.images]
    rfl
  | other unread nothing =>
    rw [assets_outcome]
    exact nothing

/-- The images that are set for a source have names that the source gives them. -/
theorem Pictured.names {root : Path} {source : SourceFile × Nat} {x : Extraction}
    {shown : List Shown} (h : Pictured root source x shown) :
  imageNamesIn shown <+ imagesOf source
  := by
  cases h with
  | notebook kind holds outputs illustrates =>
    have hnames := Notebook.names_imagesIn illustrates.faithful
    rw [outputs, ← Notebook.images_eq] at hnames
    rw [imagesOf, imagesFrom, kind, holds]
    rw [kind] at hnames
    exact hnames
  | other unread nothing => exact List.nil_sublist _

/-- A source whose file can be read is extracted with the images that are written for it. -/
theorem pictured_extract {source : SourceFile × Nat}
    (hread : m.tree.read m.cwd (keptSource w source).path = .ok source.1.bytes) :
  let r := run s (source.1.kind.extract (keptSource w source).path w.root) m
  ∃ shown, Pictured w.root source (extraction source r.1) shown
    ∧ m.tree.Writes m.cwd ((imagesIn shown).map (Notebook.Image.file w.root)) r.2.tree
    ∧ r.2.cwd = m.cwd
  := by
  have hstem : (keptSource w source).path.fileStem?.getD "notebook"
      = Path.stemOf (source.1.kind.fileName source.2) := by
    rw [Path.fileStem?, keptSource, Path.fileName?_join _ (SourceKind.isName_fileName _ _)]
    rfl
  cases hkind : source.1.kind with
  | latex =>
    rw [SourceKind.extract, run_markup, hread]
    dsimp only
    refine ⟨[], .other (by simp [hkind]) ?_, .nil, rfl⟩
    cases Markup.fragment? _ source.1.bytes <;> rfl
  | slides =>
    rw [SourceKind.extract, run_deck hread]
    refine ⟨[], .other (by simp [hkind]) ?_, .nil, rfl⟩
    cases Deck.fragment? _ source.1.bytes <;> rfl
  | notebook =>
    rw [SourceKind.extract, run_notebook _ hread]
    cases hn : Notebook.ofBytes? source.1.bytes with
    | none => exact ⟨[], .other (fun _ => hn) rfl, .nil, rfl⟩
    | some n =>
      set stem := Path.stemOf (source.1.kind.fileName source.2)
      have hrender : Notebook.Illustrating (Notebook.saving s w.root) (n.labelledOutputs stem)
          (Notebook.render stem n) := Notebook.illustrating_render stem n
      obtain ⟨shown, hkeys, hshown, hsaved⟩ := hrender m
      obtain ⟨hwrites, hcwd⟩ :=
        Notebook.writes_savedImages (s := s) w.root (Notebook.render stem n) m
      rw [← hsaved] at hwrites
      dsimp only
      rw [Notebook.run_typeset, hstem, origin_keptSource]
      exact ⟨shown, .notebook hkind hn hkeys hshown, hwrites, hcwd⟩

/-- What is extracted from several sources, one after another. -/
abbrev PicturedEach (root : Path) (sources : List (SourceFile × Nat))
    (entries : List (Extraction × List Shown)) : Prop :=
  List.Forall₂ (fun source entry => Pictured root source entry.1 entry.2) sources entries

/-- The images of sources are written one after another. -/
theorem pictured_extractAll {sources : List (SourceFile × Nat)}
    (hread : ∀ source ∈ sources,
      m.tree.read m.cwd (keptSource w source).path = .ok source.1.bytes)
    (total position : Nat) :
  let r := run s (extractAll c w total position (sources.map (keptSource w))) m
  ∃ entries : List (Extraction × List Shown), entries.map Prod.fst = r.1
    ∧ PicturedEach w.root sources entries
    ∧ m.tree.Writes m.cwd
      ((entries.flatMap fun entry => imagesIn entry.2).map (Notebook.Image.file w.root)) r.2.tree
  := by
  induction sources generalizing position m with
  | nil => exact ⟨[], rfl, .nil, .nil⟩
  | cons source rest ih =>
    obtain ⟨hfirst, hrest⟩ := List.forall_mem_cons.mp hread
    have hmild := mild_extractOne (c := c) (w := w) total position source
    obtain ⟨entries, hothers, hpictured, hwrites⟩ := ih
      (fun other hother => read_after_mild (s := s) hmild (hrest other hother)) (position + 1)
    obtain ⟨shown, hshown, hwritten, hcwd⟩ := pictured_extract (s := s) hfirst
    rw [List.map_cons, extractAll_cons, run_bind, run_bind]
    rw [run_extractOne] at hothers hwrites ⊢
    dsimp only at hothers hwrites ⊢
    rw [← hcwd] at hwritten ⊢
    refine ⟨(_, shown) :: entries, congrArg (_ :: ·) hothers, .cons hshown hpictured, ?_⟩
    rw [List.flatMap_cons, List.map_append]
    exact hwritten.append hwrites

section PicturedEach

variable {root : Path} {numbered : List (SourceFile × Nat)}
  {entries : List (Extraction × List Shown)}

theorem names_sublist (h : PicturedEach root numbered entries) :
  (entries.flatMap fun entry => imageNamesIn entry.2) <+ numbered.flatMap imagesOf
  := by
  induction h with
  | nil => exact List.Sublist.refl []
  | cons head _ ih => exact head.names.append ih

theorem assets_eq (h : PicturedEach root numbered entries) :
  (entries.flatMap fun entry => entry.1.outcome.assets)
    = (entries.flatMap fun entry => imageNamesIn entry.2).map root.join
  := by
  induction h with
  | nil => rfl
  | cons head _ ih => rw [List.flatMap_cons, head.assets, ih, List.flatMap_cons, List.map_append]

end PicturedEach

/-! ### All images of a request -/

/-- What a request extracts from its sources, with the outputs of notebooks and the images that are
set for them. -/
structure Gallery (s : Surroundings) (context : Context) (c : Config) (sources : List SourceFile)
    (m : Machine) (entries : List (Extraction × List Shown)) : Prop where
  extractions : entries.map Prod.fst = extractions s context c sources m
  pictured : PicturedEach context.directory (inOrder sources) entries
  /-- No file of an image is that of another image or of a source. -/
  apart : ((inOrder sources).map (fun source => (keptSource ⟨context.directory⟩ source).path)
    ++ entries.flatMap fun entry => entry.1.outcome.assets).Pairwise fun p q =>
      (p.place m.cwd).location ≠ (q.place m.cwd).location
  /-- When all sources are extracted, every file holds what was decoded for it. -/
  saved : ∀ entry ∈ entries, ∀ image ∈ imagesIn entry.2,
    (extracted s context c sources m).tree.read m.cwd (context.directory.join image.name)
      = .ok image.bytes
  reported : ∀ report, (run s (process context c sources) m).1 = .ok report →
    report.sources = entries.map fun entry => entry.1.outcome

/-- The outcomes in a report are those of what was extracted. -/
theorem sources_of_report (hkept : run s (keeping context c sources) m = (.ok (w, kept), m'))
    {report : Report} (h : (run s (process context c sources) m).1 = .ok report) :
  report.sources = (extractions s context c sources m).map Extraction.outcome
  := by
  rw [run_process_of_keeping hkept] at h
  exact (sources_of_mergeExtracted context c w _).run_fst (Machine.answer s) _ report h

/-- Once its sources are kept, the images of a request make a gallery. -/
theorem exists_gallery (h : run s (keeping context c sources) m = (.ok (w, kept), m')) :
  ∃ entries, Gallery s context c sources m entries
  := by
  obtain ⟨rfl, rfl, -⟩ := of_run_keeping h
  obtain ⟨hcwd, hread⟩ := read_of_run_keeping h
  obtain ⟨entries, hentries, hpictured, hwrites⟩ :=
    pictured_extractAll (s := s) (c := c) hread sources.length 1
  rw [← extractions_eq h] at hentries
  rw [← extracted_eq h, hcwd] at hwrites
  have hnames : keptNames sources ++ (entries.flatMap fun entry => imageNamesIn entry.2)
      <+ keptNames sources ++ imageNames sources :=
    (List.Sublist.refl _).append (names_sublist hpictured)
  have hapart := Path.pairwise_location_join m.cwd context.directory
    (fun name hname => isName_kept_images sources name (hnames.subset hname))
    (hnames.nodup (nodup_kept_images sources))
  rw [List.map_append, keptNames, List.map_map] at hapart
  refine ⟨entries, hentries, hpictured, ?_, ?_, ?_⟩
  · rw [assets_eq hpictured]
    exact hapart
  · intro entry hentry image himage
    refine hwrites.read_of_mem ?_ (image.file context.directory) ?_
    · rw [List.pairwise_map]
      have himages := (List.pairwise_append.mp hapart).2.1
      rw [← List.map_flatMap, List.map_map, List.pairwise_map] at himages
      exact himages
    · exact List.mem_map_of_mem (List.mem_flatMap.mpr ⟨entry, hentry, himage⟩)
  · intro report hreport
    rw [sources_of_report h hreport, ← hentries, List.map_map]
    rfl

/-- Unless the sources of a request cannot be kept, the images of its notebooks make a gallery: the
files that are reported are all different, and none is that of a source; in each notebook the lines
that include images are those of its files, in order, at most one for an output, but for the lines
that outputs pass on as they are; and every file holds what was decoded for it.  A payload that is
rejected leaves no trace. -/
theorem gallery_of_process (s : Surroundings) (context : Context) (c : Config)
    (sources : List SourceFile) (m : Machine) :
  ((∃ e, (run s (keeping context c sources) m).1 = .error e
      ∧ (run s (process context c sources) m).1 = .error e)
    ∨ ∃ entries, Gallery s context c sources m entries)
  ∧ ∀ (path assets : Path) (slot : Notebook.Slot) (b : Bundle), ∀ type ∈ Notebook.imageTypes,
    ∀ n : Machine, Notebook.Rejects s path assets slot b type n →
      run s (Notebook.typeset path assets (slot.fill (.rich b))) n
        = run s (Notebook.typeset path assets (slot.fill (.rich (b.put type.1 none)))) n
  := by
  constructor
  · cases hkept : run s (keeping context c sources) m with
    | mk result m' =>
      cases result with
      | error e =>
        left
        refine ⟨e, rfl, ?_⟩
        rw [process_eq, run_bind, hkept]
        rfl
      | ok found => exact Or.inr (exists_gallery hkept)
  · intro path assets slot b type htype n h
    exact Notebook.run_typeset_put path assets slot b htype h

/-- A plot is saved and reported.  Where there is no directory to save it in, the notebook is
typeset as if it had only text. -/
theorem gallery_of_process_plot :
  let s : Surroundings := { programs := fun _ _ tree => (.error .notFound, tree) }
  let context := Context.consulting "1" ⟨"/w"⟩
  let payload := "iVBORw0KGgoAAAANSUhEUgAAAAIAAAADCAIAAAA2iEnWAAAADklEQVR4nGMQBAMGFAoADKIB"
    ++ "M9sRhtUAAAAASUVORK5CYII="
  let text := "\x7b\"cells\":[\x7b\"cell_type\":\"code\",\"outputs\":[\x7b\"output_type\":"
    ++ "\"display_data\",\"data\":\x7b\"image/png\":\"" ++ payload ++ "\"\x7d\x7d]\x7d]\x7d"
  let sources : List SourceFile := [
    { kind := .notebook, name := "a", bytes := Text.utf8 text.toList }]
  let m : Machine := { tree := {} }
  let slot : Notebook.Slot := { before := [], source := "", outputs := [], more := [], after := [] }
  let typeset (b : Bundle) : Except SourceError Extracted × Machine :=
    run s (Notebook.typeset ⟨"/w/a.ipynb"⟩ ⟨"/w"⟩ (slot.fill (.rich b))) m
  (∃ entries, Gallery s context {} sources m entries
      ∧ (entries.map fun entry => entry.1.outcome.assets)
        = [[⟨"/w/notebook_0_cell0_output0.png"⟩]])
    ∧ typeset [("image/png", payload), ("text/plain", "plot")] = typeset [("text/plain", "plot")]
  := by
  intro s context payload text sources m slot typeset
  obtain ⟨hgallery, hrejected⟩ := gallery_of_process s context {} sources m
  constructor
  · have hok : (run s (keeping context {} sources) m).1.isOk := by decide +kernel
    have hassets : ((extractions s context {} sources m).map fun x => x.outcome.assets)
        = [[⟨"/w/notebook_0_cell0_output0.png"⟩]] := by decide +kernel
    rcases hgallery with ⟨e, he, -⟩ | ⟨entries, hentries⟩
    · rw [he] at hok
      cases hok
    · rw [← hentries.extractions, List.map_map] at hassets
      exact ⟨entries, hentries, hassets⟩
  · apply hrejected ⟨"/w/a.ipynb"⟩ ⟨"/w"⟩ slot [("image/png", payload), ("text/plain", "plot")] _
      List.mem_cons_self m
    intro image _ asking hasking hsame
    have hrefused : ∀ asking ∈ (Notebook.render "a" (slot.fill
        (.rich [("image/png", payload), ("text/plain", "plot")]))).moments
          (Notebook.saving s ⟨"/w"⟩) m,
        (asking.2.tree.write asking.2.cwd ((⟨"/w"⟩ : Path).join asking.1.name)
          asking.1.bytes).isOk = false := by decide +kernel
    have hwrite := hrefused asking hasking
    rw [hsame] at hwrite
    cases hresult : asking.2.tree.write asking.2.cwd ((⟨"/w"⟩ : Path).join image.name)
        image.bytes with
    | error cause => exact ⟨cause, rfl⟩
    | ok tree =>
      rw [hresult] at hwrite
      cases hwrite

/-- A notebook whose output is markup that includes an image has no file of an image. -/
theorem markup_includes_image :
  let s : Surroundings := { programs := fun _ _ tree => (.error .notFound, tree) }
  let context := Context.consulting "1" ⟨"/w"⟩
  let text := "\x7b\"cells\":[\x7b\"cell_type\":\"code\",\"outputs\":[\x7b\"output_type\":"
    ++ "\"display_data\",\"data\":\x7b\"text/latex\":\"\\\\includegraphics\x7bx.png\x7d\""
    ++ "\x7d\x7d]\x7d]\x7d"
  let sources : List SourceFile := [
    { kind := .notebook, name := "a", bytes := Text.utf8 text.toList }]
  ∃ x ∈ extractions s context {} sources { tree := {} }, ∃ extracted, x.result = .ok extracted
    ∧ Notebook.includeLines extracted.fragment.body = ["\\includegraphics\x7bx.png\x7d"]
    ∧ extracted.assets = []
  := by
  intro s context text sources
  have hmade : (extractions s context {} sources { tree := {} }).map (fun x =>
      x.result.toOption.map fun extracted =>
        (Notebook.includeLines extracted.fragment.body, extracted.assets))
      = [some (["\\includegraphics\x7bx.png\x7d"], [])] := by decide +kernel
  obtain ⟨x, hxs, hx⟩ := List.map_eq_singleton_iff.mp hmade
  rw [hxs]
  use x, List.mem_singleton_self x
  cases hresult : x.result with
  | error e =>
    rw [hresult] at hx
    cases hx
  | ok extracted =>
    rw [hresult] at hx
    injection hx with hx
    exact ⟨extracted, rfl, congrArg Prod.fst hx, congrArg Prod.snd hx⟩

end Request

end Bindery
