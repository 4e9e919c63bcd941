import Bindery.Proofs.Request.Malformed
import Bindery.Proofs.Transcript

/-!
# The stages of a request

A request first keeps its sources (`keeping`), then extracts them, and then merges and compiles
what was extracted (`process_eq`).  Once the sources are kept, all of them can be read back
(`of_run_keeping`), and each is extracted under the name that its kind and number give it
(`map_key_extractAll`).

Which actions a stage asks for does not depend on the answers: it has a lemma `only_...` that says
what has to hold of a few actions, for it to hold of all that the stage asks for.
-/

namespace Bindery.Request

open Machine (run run_bind)

/-- The first stage of a request: the sources are kept. -/
def keeping (context : Context) (c : Config) (sources : List SourceFile) :
    Job (Except RequestError (Workspace × List Kept)) := do
  match ← Workspace.prepare context.directory with
  | .error e => return .error e
  | .ok w =>
    announce c (.begun sources.length)
    match ← keepAll w (inOrder sources) with
    | .error e => return .error e
    | .ok kept => return .ok (w, kept)

/-- The other stages of a request with so many sources. -/
def finishing (context : Context) (c : Config) (total : Nat) :
    Except RequestError (Workspace × List Kept) → Job (Except RequestError Report)
  | .error e => return .error e
  | .ok (w, kept) => do mergeExtracted context c w (← extractAll c w total 1 kept)

/-- A request keeps its sources and goes on from there. -/
theorem process_eq (context : Context) (c : Config) (sources : List SourceFile) :
  process context c sources
    = (keeping context c sources).bind (finishing context c sources.length)
  := by
  unfold process keeping
  simp only [Dialogue.bind_eq, Dialogue.bind_assoc]
  congr
  funext prepared
  cases prepared with
  | error e => rfl
  | ok w =>
    dsimp only
    rw [Dialogue.bind_assoc]
    congr
    funext _
    rw [Dialogue.bind_assoc]
    congr
    funext kept
    cases kept <;> rfl

/-! ### Actions -/

section Actions

open Dialogue (Only only_done only_question)

variable {P : Action → Prop}

theorem only_announce (c : Config) {event : Event} (h : P (.announce event)) :
  (announce c event).Only P
  := by
  unfold announce
  split
  · exact only_question h
  · exact only_done _

theorem only_prepare {root : Path} (hmake : P (.makeDirs root)) (hstat : P (.stat root)) :
  (Workspace.prepare root).Only P
  := by
  refine Only.bind (only_question hmake) ?_
  rintro (cause | _)
  · exact only_done _
  · refine Only.bind (only_question hstat) ?_
    rintro (cause | stat)
    · exact only_done _
    · dsimp only
      split <;> exact only_done _

theorem only_write {w : Workspace} {name : String} {bytes : Bytes}
    (h : P (.write (w.root.join name) bytes)) :
  (w.write name bytes).Only P
  := by
  refine Only.bind (only_question h) ?_
  rintro (cause | _) <;> exact only_done _

/-- Keeping sources does nothing but to write their files. -/
theorem only_keepAll {w : Workspace} {sources : List (SourceFile × Nat)}
    (h : ∀ source ∈ sources, P (.write (keptSource w source).path source.1.bytes)) :
  (keepAll w sources).Only P
  := by
  induction sources with
  | nil => exact only_done _
  | cons source rest ih =>
    obtain ⟨hsource, hrest⟩ := List.forall_mem_cons.mp h
    have hwrite : (w.persist source.1.kind source.2 source.1.bytes).Only P := only_write hsource
    refine hwrite.bind ?_
    rintro (e | path)
    · exact only_done _
    · refine (ih hrest).bind ?_
      rintro (e | kept) <;> exact only_done _

theorem only_readSource {path : Path} (h : P (.read path)) :
  (readSource path).Only P
  := by
  refine Only.bind (only_question h) ?_
  rintro (e | bytes) <;> exact only_done _

theorem only_deck {path : Path} (h : P (.read path)) :
  (Deck.extract path).Only P
  := by
  refine Only.bind (only_question h) ?_
  rintro (e | bytes)
  · cases e <;> exact only_done _
  · exact only_done _

theorem only_saveImage {assets : Path} {image : Notebook.Image}
    (h : P (.write (assets.join image.name) image.bytes)) :
  (Notebook.saveImage assets image).Only P
  := by
  refine Only.bind (only_question h) ?_
  rintro (e | _) <;> exact only_done _

/-- Extracting a source does nothing but to read it and to write images that typesetting asks
for. -/
theorem only_extract (kind : SourceKind) {path assets : Path} {Q : Notebook.Image → Prop}
    (hread : P (.read path))
    (hrender : ∀ n, (Notebook.render (path.fileStem?.getD "notebook") n).Only Q)
    (hsave : ∀ image, Q image → P (.write (assets.join image.name) image.bytes)) :
  (kind.extract path assets).Only P
  := by
  cases kind with
  | latex =>
    refine (only_readSource hread).bind ?_
    rintro (e | bytes) <;> exact only_done _
  | slides => exact only_deck hread
  | notebook =>
    refine (only_readSource hread).bind ?_
    rintro (e | bytes)
    · exact only_done _
    · dsimp only
      cases Notebook.ofBytes? bytes with
      | none => exact only_done _
      | some n =>
        exact ((hrender n).interpret fun image himage => only_saveImage (hsave image himage)).bind
          fun _ => only_done _

theorem only_isAvailable {c : LookupConfig} {name : String} (h : P (.launch (c.invocation name))) :
  (c.isAvailable name).Only P
  := by
  unfold LookupConfig.isAvailable
  split
  · refine Only.bind (only_question h) ?_
    rintro (cause | _ | _ | _ | cause) <;> exact only_done _
  · exact only_done _

/-- Merging does nothing but to look packages up. -/
theorem only_merge {context : Context} (hlook : ∀ name, (context.isAvailable name).Only P)
    (fragments : List Fragment) :
  ((merge fragments).interpret context.isAvailable).Only P
  := by
  have hmerge : (merge fragments).Only fun _ => True :=
    Dialogue.only_of_forall (fun _ => trivial) _
  exact hmerge.interpret fun name _ => hlook name

end Actions

/-! ### Keeping -/

variable {s : Surroundings} {context : Context} {c : Config} {sources : List SourceFile}
  {m m' : Machine} {w : Workspace} {kept : List Kept}

theorem root_of_run_prepare {root : Path} (h : run s (Workspace.prepare root) m = (.ok w, m')) :
  w = ⟨root⟩ ∧ m'.cwd = m.cwd
  := by
  rw [Workspace.prepare, Dialogue.bind_eq, run_bind] at h
  have hcwd : (run s (act (.makeDirs root)) m).2.cwd = m.cwd := rfl
  cases hmade : (run s (act (.makeDirs root)) m).1 with
  | error cause =>
    rw [hmade] at h
    cases h
  | ok _ =>
    rw [hmade] at h
    dsimp only at h
    rw [Dialogue.bind_eq, run_bind, Machine.run_stat] at h
    generalize (run s (act (.makeDirs root)) m).2 = made at h hcwd
    cases hstat : (made.tree.node made.cwd root).map (Machine.statOf ·.2) with
    | error cause =>
      rw [hstat] at h
      cases h
    | ok stat =>
      rw [hstat] at h
      dsimp only at h
      split at h
      · cases h
        exact ⟨rfl, hcwd⟩
      · cases h

/-- Preparing a directory makes it. -/
theorem run_prepare_snd (root : Path) (m : Machine) :
  (run s (Workspace.prepare root) m).2 = { m with tree := (m.tree.makeDirs m.cwd root).2 }
  := by
  have hmade : (run s (act (.makeDirs root)) m).2
      = { m with tree := (m.tree.makeDirs m.cwd root).2 } := rfl
  rw [Workspace.prepare, Dialogue.bind_eq, run_bind, hmade]
  cases (run s (act (.makeDirs root)) m).1 with
  | error cause => rfl
  | ok _ =>
    dsimp only
    rw [Dialogue.bind_eq, run_bind, Machine.run_stat]
    cases (Tree.node (m.tree.makeDirs m.cwd root).2 m.cwd root).map (Machine.statOf ·.2) with
    | error cause => rfl
    | ok stat =>
      dsimp only
      split <;> rfl

/-- Keeping the sources makes sure of the directory, and then writes them one after another. -/
theorem of_run_keeping (h : run s (keeping context c sources) m = (.ok (w, kept), m')) :
  w = ⟨context.directory⟩ ∧ kept = (inOrder sources).map (keptSource w) ∧ ∃ m₁ m₂,
    run s (Workspace.prepare context.directory) m = (.ok w, m₁)
      ∧ m₂ = (run s (announce c (.begun sources.length)) m₁).2
      ∧ run s (keepAll w (inOrder sources)) m₂ = (.ok kept, m')
  := by
  rw [keeping, Dialogue.bind_eq, run_bind] at h
  cases hprepared : run s (Workspace.prepare context.directory) m with
  | mk result m₁ =>
    rw [hprepared] at h
    cases result with
    | error e => cases h
    | ok w₁ =>
      dsimp only at h
      rw [Dialogue.bind_eq, run_bind, Dialogue.bind_eq, run_bind] at h
      generalize hm₂ : (run s (announce c (.begun sources.length)) m₁).2 = m₂ at h
      cases hkept : run s (keepAll w₁ (inOrder sources)) m₂ with
      | mk result m₃ =>
        rw [hkept] at h
        cases result with
        | error e => cases h
        | ok kept₁ =>
          cases h
          obtain ⟨hkeep, -, -⟩ := run_keepAll hkept
          exact ⟨(root_of_run_prepare hprepared).1, hkeep, m₁, m₂, rfl, hm₂.symm, hkept⟩

/-- Sources that were kept can be read back. -/
theorem read_of_run_keeping (h : run s (keeping context c sources) m = (.ok (w, kept), m')) :
  m'.cwd = m.cwd ∧ ∀ source ∈ inOrder sources,
    m'.tree.read m'.cwd (keptSource w source).path = .ok source.1.bytes
  := by
  obtain ⟨-, -, m₁, m₂, hprepared, rfl, hkept⟩ := of_run_keeping h
  obtain ⟨-, hcwd⟩ := root_of_run_prepare hprepared
  obtain ⟨-, hcwd'⟩ := run_announce (s := s) c (.begun sources.length) m₁
  obtain ⟨-, hcwd'', -⟩ := run_keepAll hkept
  refine ⟨?_, read_keepAll hkept⟩
  rw [hcwd'', hcwd', hcwd]

/-! ### Extracting -/

/-- The kind of an extraction and the name under which its source is kept. -/
def Extraction.key (x : Extraction) : SourceKind × String :=
  (x.kind, x.origin)

/-- The kind of a source and the name under which it is kept. -/
def sourceKey (source : SourceFile × Nat) : SourceKind × String :=
  (source.1.kind, source.1.kind.fileName source.2)

theorem origin_keptSource (w : Workspace) (source : SourceFile × Nat) :
  (keptSource w source).path.nameForReports = source.1.kind.fileName source.2
  := by
  rw [Path.nameForReports, keptSource, Path.fileName?_join _ (SourceKind.isName_fileName _ _)]
  rfl

/-- Every source is extracted, in order, under the name of its file. -/
theorem map_key_extractAll (c : Config) (w : Workspace) (total position : Nat)
    (kept : List Kept) :
  (extractAll c w total position kept).Always fun xs =>
    xs.map Extraction.key = kept.map fun k => (k.kind, k.path.nameForReports)
  := by
  induction kept generalizing position with
  | nil => rfl
  | cons k rest ih =>
    apply Dialogue.always_bind.mpr
    apply Dialogue.always_of_forall
    intro _
    apply Dialogue.always_bind.mpr
    apply Dialogue.always_of_forall
    intro result
    apply Dialogue.always_bind.mpr
    apply Dialogue.always_of_forall
    intro _
    apply Dialogue.always_bind.mpr
    apply (ih (position + 1)).mono
    intro others hothers
    exact congrArg ((k.kind, k.path.nameForReports) :: ·) hothers

theorem map_key_keptSource (w : Workspace) (sources : List (SourceFile × Nat)) :
  ((sources.map (keptSource w)).map fun k => (k.kind, k.path.nameForReports))
    = sources.map sourceKey
  := by
  rw [List.map_map]
  apply List.map_congr_left
  intro source _
  rw [Function.comp_apply, origin_keptSource]
  rfl

/-! ### Reporting -/

/-- A report is about the outcomes of all extractions. -/
theorem sources_of_mergeExtracted (context : Context) (c : Config) (w : Workspace)
    (extractions : List Extraction) :
  (mergeExtracted context c w extractions).Always fun result =>
    ∀ report, result = .ok report → report.sources = extractions.map Extraction.outcome
  := by
  unfold mergeExtracted
  dsimp only
  split
  · rintro report ⟨⟩
  · apply Dialogue.always_bind.mpr
    apply Dialogue.always_of_forall
    rintro (malformed | document)
    · rintro report ⟨⟩
    · apply Dialogue.always_bind.mpr
      apply Dialogue.always_of_forall
      rintro (e | merged)
      · rintro report ⟨⟩
      · apply Dialogue.always_bind.mpr
        apply Dialogue.always_of_forall
        intro _
        apply Dialogue.always_bind.mpr
        apply Dialogue.always_of_forall
        intro compilation
        apply Dialogue.always_bind.mpr
        apply Dialogue.always_of_forall
        rintro _ report ⟨⟩
        rfl

theorem key_outcome (x : Extraction) :
  (x.outcome.kind, x.outcome.origin) = x.key
  := by
  unfold Extraction.outcome
  split <;> rfl

end Bindery.Request
