import Bindery.Proofs.Config
import Bindery.Proofs.Notebook.Naming
import Bindery.Proofs.Request.Malformed

/-!
# The names that a request uses

In its working directory a request uses a name for each source, for each image of a notebook, for
the merged document, for the artifact and for the log (`names`).  The names of sources, images
and the artifact never clash with each other; the merged document may only clash with a source,
and the log with anything (`names_nodup_iff`).
-/

namespace Bindery.Request

open SourceKind (IsNameText)

/-! ### Sources and images -/

/-- The names under which the sources are kept. -/
def keptNames (sources : List SourceFile) : List String :=
  (inOrder sources).map fun source => source.1.kind.fileName source.2

/-- The names of the images of a source that is a notebook, if they begin with the stem. -/
def imagesFrom (stem : String) (source : SourceFile) : List String :=
  match source.kind with
  | .notebook => ((Notebook.ofBytes? source.bytes).map (Notebook.images stem)).getD []
  | _ => []

/-- The names of the images of a source of a number. -/
def imagesOf (source : SourceFile × Nat) : List String :=
  imagesFrom (Path.stemOf (source.1.kind.fileName source.2)) source.1

/-- The names of the images of all sources. -/
def imageNames (sources : List SourceFile) : List String :=
  (inOrder sources).flatMap imagesOf

/-- The names that a request uses in its working directory. -/
def names (c : Config) (sources : List SourceFile) : List String :=
  keptNames sources ++ imageNames sources ++ [c.mergedName, c.artifactName, c.compiler.logName]

variable {c : Config} {sources : List SourceFile}

theorem nodup_keptNames (sources : List SourceFile) :
  (keptNames sources).Nodup
  := by
  rw [keptNames, List.Nodup, List.pairwise_map]
  apply (inOrder_pairwise sources).imp
  intro a b hne hname
  exact hne (SourceKind.fileName_inj hname)

theorem stemOf_fileName (kind : SourceKind) (index : Nat) :
  Path.stemOf (kind.fileName index) = kind.fileStem ++ "_" ++ toString index
  := by
  rw [SourceKind.fileName]
  apply Path.stemOf_append
  · cases kind <;> simp [SourceKind.fileStem, String.toList_append]
  · cases kind <;> decide

theorem nodup_imagesFrom (stem : String) (source : SourceFile) :
  (imagesFrom stem source).Nodup
  := by
  unfold imagesFrom
  split
  · cases Notebook.ofBytes? source.bytes with
    | none => exact List.nodup_nil
    | some n => exact n.nodup_images stem
  · exact List.nodup_nil

theorem continues_imagesFrom (stem : String) (source : SourceFile) :
  ∀ name ∈ imagesFrom stem source, Notebook.Continues stem '_' name
  := by
  unfold imagesFrom
  split
  · cases Notebook.ofBytes? source.bytes with
    | none => exact List.forall_mem_nil _
    | some n => exact n.continues_images stem
  · exact List.forall_mem_nil _

/-- Only notebooks have images. -/
theorem imageNames_eq (sources : List SourceFile) :
  imageNames sources = (numbered sources .notebook).flatMap fun (source, n) =>
    imagesFrom ("notebook_" ++ toString n) source
  := by
  have hothers (kind : SourceKind) (hkind : kind ≠ .notebook) :
      (numbered sources kind).flatMap imagesOf = [] := by
    rw [List.flatMap_eq_nil_iff]
    intro source hsource
    obtain ⟨-, hsame⟩ := of_mem_numbered hsource
    rw [imagesOf, imagesFrom, hsame]
    cases kind with
    | notebook => exact absurd rfl hkind
    | _ => rfl
  have hall : inOrder sources
      = numbered sources .latex ++ (numbered sources .slides ++ numbered sources .notebook) := by
    simp [inOrder, SourceKind.all, numbered]
  rw [imageNames, hall, List.flatMap_append, List.flatMap_append, hothers .latex (by decide),
    hothers .slides (by decide), List.nil_append, List.nil_append]
  apply List.flatMap_congr
  intro source hsource
  obtain ⟨-, hkind⟩ := of_mem_numbered hsource
  rw [imagesOf, hkind, stemOf_fileName]
  rfl

/-- No two images have the same name. -/
theorem nodup_imageNames (sources : List SourceFile) :
  (imageNames sources).Nodup
  := by
  rw [imageNames_eq]
  exact Notebook.nodup_numbered (by decide) "notebook_" imagesFrom nodup_imagesFrom
    continues_imagesFrom _ 0

theorem isImageName_imageNames (sources : List SourceFile) :
  ∀ name ∈ imageNames sources, Notebook.IsImageName name
  := by
  intro name hname
  obtain ⟨source, -, hname⟩ := List.mem_flatMap.mp hname
  rw [imagesOf, imagesFrom] at hname
  split at hname
  · cases hn : Notebook.ofBytes? source.1.bytes with
    | none =>
      rw [hn] at hname
      cases hname
    | some n =>
      rw [hn] at hname
      refine n.isImageName_images ?_ name hname
      intro char hchar
      exact SourceKind.mem_fileName char (Path.stemOf_subset _ hchar)
  · cases hname

/-! ### Names that differ at the end -/

theorem ne_of_getLast?_ne {a b : String} (h : a.toList.getLast? ≠ b.toList.getLast?) :
  a ≠ b
  := by
  rintro rfl
  exact h rfl

theorem getLast?_append (stem : String) {ending : String} (h : ending.toList ≠ []) :
  (stem ++ ending).toList.getLast? = ending.toList.getLast?
  := by rw [String.toList_append, List.getLast?_append_of_ne_nil _ h]

theorem getLast?_fileName (kind : SourceKind) (index : Nat) :
  (kind.fileName index).toList.getLast? = kind.extension.toList.getLast?
  := getLast?_append _ (by cases kind <;> decide)

/-- The artifact has a name of its own. -/
theorem artifactName_not_mem (hc : c.Fits) :
  c.artifactName ∉ keptNames sources ++ imageNames sources ++ [c.mergedName]
  := by
  have hlast : c.artifactName.toList.getLast? = some 'f' := by
    rw [hc.artifactName_eq]
    exact getLast?_append _ (by decide)
  rw [List.mem_append, List.mem_append, List.mem_singleton, not_or, not_or]
  refine ⟨⟨?_, ?_⟩, ?_⟩
  · intro hkept
    obtain ⟨source, -, hname⟩ := List.mem_map.mp hkept
    rw [← hname, getLast?_fileName] at hlast
    revert hlast
    cases source.1.kind <;> decide
  · intro himage
    rw [(isImageName_imageNames sources _ himage).last] at hlast
    cases hlast
  · apply ne_of_getLast?_ne
    rw [hlast, Config.mergedName, getLast?_append _ (by decide)]
    decide

theorem mergedName_not_mem_imageNames (c : Config) (sources : List SourceFile) :
  c.mergedName ∉ imageNames sources
  := by
  intro himage
  have hlast := (isImageName_imageNames sources _ himage).last
  rw [Config.mergedName, getLast?_append _ (by decide)] at hlast
  revert hlast
  decide

theorem nodup_kept_images (sources : List SourceFile) :
  (keptNames sources ++ imageNames sources).Nodup
  := by
  rw [List.nodup_append]
  refine ⟨nodup_keptNames sources, nodup_imageNames sources, ?_⟩
  intro name hkept image himage
  obtain ⟨source, -, rfl⟩ := List.mem_map.mp hkept
  exact ((isImageName_imageNames sources image himage).ne_fileName _ _).symm

theorem isName_kept_images (sources : List SourceFile) :
  ∀ name ∈ keptNames sources ++ imageNames sources, Path.IsName name
  := by
  rw [List.forall_mem_append, keptNames, List.forall_mem_map]
  constructor
  · exact fun _ _ => SourceKind.isName_fileName _ _
  · exact fun name hname => (isImageName_imageNames sources name hname).isName

private theorem nodup_append_singleton {α : Type} {l : List α} {a : α} :
  (l ++ [a]).Nodup ↔ a ∉ l ∧ l.Nodup
  := by rw [← List.concat_eq_append, List.nodup_concat]

/-- The names that a request uses are all different exactly if the merged document has not the
name of a source and the log has not the name of anything else. -/
theorem names_nodup_iff (hc : c.Fits) (sources : List SourceFile) :
  (names c sources).Nodup ↔ c.mergedName ∉ keptNames sources
    ∧ c.compiler.logName ∉ keptNames sources ++ imageNames sources
      ++ [c.mergedName, c.artifactName]
  := by
  have hparts (l : List String) : l ++ [c.mergedName, c.artifactName, c.compiler.logName]
      = l ++ [c.mergedName, c.artifactName] ++ [c.compiler.logName] := by simp
  have hparts' (l : List String) :
      l ++ [c.mergedName, c.artifactName] = l ++ [c.mergedName] ++ [c.artifactName] := by simp
  have hmerged : c.mergedName ∉ keptNames sources ++ imageNames sources
      ↔ c.mergedName ∉ keptNames sources := by
    rw [List.mem_append, not_or, and_iff_left (mergedName_not_mem_imageNames c sources)]
  rw [names, hparts, nodup_append_singleton, and_comm, hparts', nodup_append_singleton,
    and_iff_right (artifactName_not_mem hc), nodup_append_singleton, hmerged,
    and_iff_left (nodup_kept_images sources)]

end Bindery.Request
