import Bindery.Proofs.Frame
import Bindery.Proofs.Notebook.Assets
import Bindery.Proofs.Request.Stages

/-!
# Sources that can be extracted

Whether a source can be extracted is a matter of its kind and its bytes alone
(`SourceKind.accepts`), if its file can be read (`isOk_extract`).  Extracting writes nothing but
the files that it reports (`written_extract`), which are never sources, so that each of several
sources is extracted as if it were alone (`isOk_extractAll`).
-/

namespace Bindery

open Machine (run run_bind Mild written written_bind)

/-- A source of the kind that holds the bytes can be extracted. -/
def SourceKind.accepts (kind : SourceKind) (bytes : Bytes) : Bool :=
  match kind with
  | latex => (Text.decode? bytes).isSome
  | slides => (Deck.slides bytes).isOk
  | notebook => (Notebook.ofBytes? bytes).isSome

/-- The files that were written for a source. -/
def assetsOf : Except SourceError Extracted → List Path
  | .ok extracted => extracted.assets
  | .error _ => []

variable {s : Surroundings} {m : Machine} {path : Path} {bytes : Bytes}

/-! ### Extracting a file that can be read -/

theorem run_readSource (path : Path) (m : Machine) :
  run s (readSource path) m = ((m.tree.read m.cwd path).mapError fun e =>
    .unreadable path.nameForReports e.message, m)
  := by
  rw [readSource, Dialogue.bind_eq, run_bind, Machine.run_read]
  cases m.tree.read m.cwd path <;> rfl

theorem run_deck (hread : m.tree.read m.cwd path = .ok bytes) :
  run s (Deck.extract path) m
    = ((Deck.fragment? path.nameForReports bytes).map fun fragment => { fragment }, m)
  := by
  rw [Deck.extract, Dialogue.bind_eq, run_bind, Machine.run_read, hread]
  rfl

/-- Typesets a notebook and saves its images. -/
def Notebook.typeset (path assets : Path) (n : Notebook) : Job (Except SourceError Extracted) :=
  ((render (path.fileStem?.getD "notebook") n).interpret (saveImage assets)).bind fun piece =>
    .done (.ok {
      fragment := { origin := path.nameForReports, preamble, body := piece.lines }
      assets := piece.images.map assets.join })

theorem run_notebook (assets : Path) (hread : m.tree.read m.cwd path = .ok bytes) :
  run s (Notebook.extract path assets) m = match Notebook.ofBytes? bytes with
    | none => (.error (.malformedNotebook path.nameForReports "no notebook"), m)
    | some n => run s (Notebook.typeset path assets n) m
  := by
  rw [Notebook.extract, Dialogue.bind_eq, run_bind, run_readSource, hread]
  dsimp only [Except.mapError]
  cases Notebook.ofBytes? bytes <;> rfl

/-- A file that can be read can be extracted if what it holds is accepted. -/
theorem isOk_extract (kind : SourceKind) (assets : Path)
    (hread : m.tree.read m.cwd path = .ok bytes) :
  (run s (kind.extract path assets) m).1.isOk = kind.accepts bytes
  := by
  cases kind with
  | latex =>
    rw [SourceKind.extract, Request.run_markup, hread]
    dsimp only
    unfold Markup.fragment? SourceKind.accepts
    cases Text.decode? bytes <;> rfl
  | slides =>
    rw [SourceKind.extract, run_deck hread]
    unfold Deck.fragment? SourceKind.accepts
    cases Deck.slides bytes <;> rfl
  | notebook =>
    rw [SourceKind.extract, run_notebook assets hread]
    unfold SourceKind.accepts
    cases Notebook.ofBytes? bytes with
    | none => rfl
    | some n =>
      change (run s (Notebook.typeset path assets n) m).1.isOk = true
      rw [Notebook.typeset, run_bind]
      rfl

/-- Extracting a file that is not accepted fails and changes nothing. -/
theorem run_extract_of_not_accepts (kind : SourceKind) (assets : Path)
    (hread : m.tree.read m.cwd path = .ok bytes) (h : kind.accepts bytes = false) :
  ∃ e, e.origin = path.nameForReports ∧ run s (kind.extract path assets) m = (.error e, m)
  := by
  cases kind with
  | latex =>
    have hnone : Text.decode? bytes = none := by simpa [SourceKind.accepts] using h
    refine ⟨.invalidEncoding path.nameForReports, rfl, ?_⟩
    rw [SourceKind.extract, Request.run_markup, hread]
    dsimp only
    rw [Markup.fragment?, hnone]
    rfl
  | slides =>
    cases hslides : Deck.slides bytes with
    | ok slides =>
      rw [SourceKind.accepts, hslides] at h
      cases h
    | error detail =>
      refine ⟨.malformedSlides path.nameForReports detail, rfl, ?_⟩
      rw [SourceKind.extract, run_deck hread, Deck.fragment?, hslides]
      rfl
  | notebook =>
    have hnone : Notebook.ofBytes? bytes = none := by simpa [SourceKind.accepts] using h
    refine ⟨.malformedNotebook path.nameForReports "no notebook", rfl, ?_⟩
    rw [SourceKind.extract, run_notebook assets hread, hnone]

/-! ### What extracting writes -/

/-- The path of an image in a directory. -/
def IsImageIn (assets path : Path) : Prop :=
  ∃ name, Notebook.IsImageName name ∧ path = assets.join name

/-- The job announces nothing, looks at nothing but a source, and writes nothing but images into a
directory. -/
abbrev SavesImages {α : Type} (source assets : Path) (job : Job α) : Prop :=
  job.Only (Mild (· = source) (IsImageIn assets) fun _ => False)

theorem written_readSource (path : Path) (m : Machine) :
  written s (readSource path) m = []
  := by
  rw [readSource, Dialogue.bind_eq, written_bind, Machine.run_read]
  cases m.tree.read m.cwd path <;> rfl

/-- An image is written if saving it succeeds. -/
theorem written_saveImage (assets : Path) (image : Notebook.Image) (m : Machine) :
  written s (Notebook.saveImage assets image) m
    = if (run s (Notebook.saveImage assets image) m).1 then [assets.join image.name] else []
  := by
  rw [Notebook.saveImage, Dialogue.bind_eq, written_bind, run_bind, Machine.written_write,
    Machine.run_write]
  cases m.tree.write m.cwd (assets.join image.name) image.bytes <;> rfl

/-- What is written for a notebook is the images that are saved. -/
theorem written_interpret {α : Type} (assets : Path) (x : Notebook.Rendering α) (m : Machine) :
  written s (x.interpret (Notebook.saveImage assets)) m
    = (Notebook.saved (fun m image => run s (Notebook.saveImage assets image) m) x m).map
      assets.join
  := by
  induction x generalizing m with
  | done a => rfl
  | ask image next ih =>
    rw [Dialogue.interpret, written_bind, written_saveImage, ih]
    rw [Notebook.saved, Notebook.saved, Dialogue.transcript, List.filterMap_cons]
    dsimp only
    cases (run s (Notebook.saveImage assets image) m).1 <;> rfl

theorem written_typeset (path assets : Path) (n : Notebook) (m : Machine) :
  written s (Notebook.typeset path assets n) m
    = assetsOf (run s (Notebook.typeset path assets n) m).1
  := by
  rw [Notebook.typeset, written_bind, written_interpret, run_bind]
  have himages := Notebook.images_render (fun m image => run s (Notebook.saveImage assets image) m)
    (path.fileStem?.getD "notebook") n m
  rw [← himages, run, Dialogue.run_interpret]
  exact List.append_nil _

/-- Extracting a source writes nothing but the files that it reports. -/
theorem written_extract (kind : SourceKind) (path assets : Path) (m : Machine) :
  written s (kind.extract path assets) m = assetsOf (run s (kind.extract path assets) m).1
  := by
  cases kind with
  | latex =>
    rw [SourceKind.extract, Markup.extract, Dialogue.bind_eq, written_bind, written_readSource,
      run_bind, run_readSource]
    cases m.tree.read m.cwd path with
    | error e => rfl
    | ok bytes =>
      change [] = assetsOf ((Markup.fragment? path.nameForReports bytes).map _)
      cases Markup.fragment? path.nameForReports bytes <;> rfl
  | slides =>
    rw [SourceKind.extract, Deck.extract, Dialogue.bind_eq, written_bind, run_bind,
      Machine.run_read]
    cases m.tree.read m.cwd path with
    | error e => cases e <;> rfl
    | ok bytes =>
      change [] = assetsOf ((Deck.fragment? path.nameForReports bytes).map _)
      cases Deck.fragment? path.nameForReports bytes <;> rfl
  | notebook =>
    rw [SourceKind.extract, Notebook.extract, Dialogue.bind_eq, written_bind,
      written_readSource, run_bind, run_readSource]
    cases m.tree.read m.cwd path with
    | error e => rfl
    | ok bytes =>
      dsimp only [Except.mapError]
      cases Notebook.ofBytes? bytes with
      | none => rfl
      | some n => exact written_typeset path assets n m

/-- Extracting a source that is kept looks at nothing else, and writes nothing but images into its
directory. -/
theorem mild_extract (kind : SourceKind) (index : Nat) (root : Path) :
  SavesImages (root.join (kind.fileName index)) root
    (kind.extract (root.join (kind.fileName index)) root)
  := by
  have hstem : SourceKind.IsNameText
      ((root.join (kind.fileName index)).fileStem?.getD "notebook") :=
    SourceKind.mem_fileStem_join kind index root "notebook"
  refine Request.only_extract kind ?_ (Notebook.proper_render hstem) ?_
  · rfl
  · exact fun image himage => ⟨image.name, himage, rfl⟩

namespace Request

/-! ### One source after another -/

/-- Extracts one source of so many. -/
def extractOne (c : Config) (w : Workspace) (total position : Nat) (k : Kept) :
    Job Extraction := do
  announce c (.sourceBegun position total k.path.nameForReports)
  let result ← k.kind.extract k.path w.root
  announce c (extractedEvent position total result)
  return { kind := k.kind, origin := k.path.nameForReports, result }

theorem extractAll_cons (c : Config) (w : Workspace) (total position : Nat) (k : Kept)
    (rest : List Kept) :
  extractAll c w total position (k :: rest) = (extractOne c w total position k).bind fun x =>
    (extractAll c w total (position + 1) rest).bind fun others => .done (x :: others)
  := by
  rw [extractAll, extractOne]
  simp only [Dialogue.bind_eq, Dialogue.bind_assoc]
  rfl

/-- The job tells of nothing but sources, and writes nothing but images into a directory. -/
abbrev ExtractsInto {α : Type} (root : Path) (job : Job α) : Prop :=
  job.Only (Mild (fun _ => True) (IsImageIn root) Event.IsEarly)

variable {c : Config} {w : Workspace} {R P : Path → Prop} {E : Event → Prop}

theorem isEarly_extractedEvent (position total : Nat) (result : Except SourceError Extracted) :
  (extractedEvent position total result).IsEarly
  := by cases result <;> trivial

theorem written_announce (c : Config) (event : Event) (m : Machine) :
  written s (announce c event) m = []
  := by
  unfold announce
  split <;> rfl

theorem mild_extractOne (total position : Nat) (source : SourceFile × Nat) :
  ExtractsInto w.root (extractOne c w total position (keptSource w source))
  := by
  have hextract : ExtractsInto w.root
      (source.1.kind.extract (keptSource w source).path w.root) :=
    (mild_extract source.1.kind source.2 w.root).mono fun _ =>
      Mild.mono (fun _ _ => trivial) (fun _ h => h) fun _ => False.elim
  have hannounce {event : Event} (h : event.IsEarly) : ExtractsInto w.root (announce c event) :=
    only_announce c h
  have hbegun (origin : String) : (Event.sourceBegun position total origin).IsEarly := trivial
  exact (hannounce (hbegun _)).bind fun _ => hextract.bind fun _ =>
    (hannounce (isEarly_extractedEvent _ _ _)).bind fun _ => Dialogue.only_done _

theorem assets_outcome (x : Extraction) :
  x.outcome.assets = assetsOf x.result
  := by
  unfold Extraction.outcome
  split <;> next h => rw [h]; rfl

theorem isOk_outcome (x : Extraction) :
  x.outcome.isOk = x.result.isOk
  := by
  unfold Extraction.outcome
  split <;> next h => rw [h]; rfl

theorem written_extractOne (total position : Nat) (k : Kept) (m : Machine) :
  written s (extractOne c w total position k) m
    = (run s (extractOne c w total position k) m).1.outcome.assets
  := by
  rw [extractOne]
  simp only [Dialogue.bind_eq, written_bind, written_announce, written_extract, run_bind]
  rw [assets_outcome, List.nil_append, List.nil_append]
  exact List.append_nil _

/-- A source whose file can be read is extracted if it is accepted. -/
theorem isOk_extractOne {source : SourceFile × Nat}
    (hread : m.tree.read m.cwd (keptSource w source).path = .ok source.1.bytes)
    (total position : Nat) :
  (run s (extractOne c w total position (keptSource w source)) m).1.outcome.isOk
    = source.1.kind.accepts source.1.bytes
  := by
  obtain ⟨htree, hcwd⟩ := run_announce (s := s) c
    (.sourceBegun position total (keptSource w source).path.nameForReports) m
  rw [isOk_outcome, extractOne]
  simp only [Dialogue.bind_eq, run_bind]
  apply isOk_extract
  rw [htree, hcwd]
  exact hread

theorem written_extractAll (total position : Nat) (kept : List Kept) (m : Machine) :
  written s (extractAll c w total position kept) m
    = (run s (extractAll c w total position kept) m).1.flatMap fun x => x.outcome.assets
  := by
  induction kept generalizing position m with
  | nil => rfl
  | cons k rest ih =>
    rw [extractAll_cons, written_bind, written_extractOne, written_bind, ih, run_bind, run_bind]
    exact congrArg (_ ++ ·) (List.append_nil _)

theorem mild_extractAll (total position : Nat) (sources : List (SourceFile × Nat)) :
  ExtractsInto w.root (extractAll c w total position (sources.map (keptSource w)))
  := by
  induction sources generalizing position with
  | nil => exact Dialogue.only_done _
  | cons source rest ih =>
    rw [List.map_cons, extractAll_cons]
    exact (mild_extractOne _ _ source).bind fun _ =>
      (ih (position + 1)).bind fun _ => Dialogue.only_done _

/-- An image is never where a source is. -/
theorem location_ne_of_isImageIn {path : Path} (h : IsImageIn w.root path) (cwd : Location)
    (source : SourceFile × Nat) :
  (path.place cwd).location ≠ ((keptSource w source).path.place cwd).location
  := by
  obtain ⟨name, hname, rfl⟩ := h
  rw [keptSource, Path.location_join _ _ hname.isName,
    Path.location_join _ _ (SourceKind.isName_fileName _ _)]
  intro hlocation
  have hsame := List.append_cancel_left hlocation
  injection hsame with hsame
  exact hname.ne_fileName _ _ hsame

/-- What is read from the file of a source is the same after extracting others. -/
theorem read_after_mild {α : Type} {job : Job α} (hjob : ExtractsInto w.root job)
    {source : SourceFile × Nat}
    (hread : m.tree.read m.cwd (keptSource w source).path = .ok bytes) :
  (run s job m).2.tree.read (run s job m).2.cwd (keptSource w source).path = .ok bytes
  := by
  apply Machine.read_of_mild hjob _ hread
  intro path hpath
  exact location_ne_of_isImageIn (Machine.forall_mem_written hjob m path hpath) _ _

/-- Of several sources whose files can be read, those are extracted that are accepted. -/
theorem isOk_extractAll {sources : List (SourceFile × Nat)}
    (hread : ∀ source ∈ sources,
      m.tree.read m.cwd (keptSource w source).path = .ok source.1.bytes)
    (total position : Nat) :
  (run s (extractAll c w total position (sources.map (keptSource w))) m).1.map
      (fun x => x.outcome.isOk)
    = sources.map fun source => source.1.kind.accepts source.1.bytes
  := by
  induction sources generalizing position m with
  | nil => rfl
  | cons source rest ih =>
    obtain ⟨hfirst, hrest⟩ := List.forall_mem_cons.mp hread
    have hmild := mild_extractOne (c := c) (w := w) total position source
    have hothers := ih
      (fun other hother => read_after_mild (s := s) hmild (hrest other hother)) (position + 1)
    rw [List.map_cons, extractAll_cons, run_bind, run_bind]
    exact congrArg₂ List.cons (isOk_extractOne hfirst total position) hothers

end Request

end Bindery
