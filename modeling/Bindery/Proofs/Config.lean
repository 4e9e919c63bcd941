import Bindery.Config
import Bindery.Proofs.Path.Extension

/-!
# Configurations that are built

A caller sets some fields of a configuration one after another (`Config.Choice`) and has the
result checked (`Config.build`).  The extension of the artifact cannot be set, and the two file
names of a configuration that passes are plain, so that the merged document, its artifact and the
log are named by one step below the working directory.
-/

namespace Bindery

theorem isName_of_isPlainFileName {name : String} (h : isPlainFileName name = true) :
  Path.IsName name
  := by
  simp only [isPlainFileName, Bool.and_eq_true, Bool.not_eq_true', bne_iff_ne] at h
  obtain ⟨⟨⟨⟨hempty, hslash⟩, -⟩, hdot⟩, hdots⟩ := h
  constructor
  · simpa using hempty
  · simpa using hslash
  · exact hdot
  · exact hdots

namespace Config

/-- A field that the caller sets. -/
inductive Choice where
  | compilerProgram (program : String)
  | compilerFlags (flags : List String)
  | passTimeout (seconds : Nat)
  | logName (name : String)
  | lookupProgram (program : String)
  | allowPartial (allowed : Bool)
  | mergedStem (stem : String)
  /-- Progress is to be announced. -/
  | announces
deriving DecidableEq, Repr

/-- The configuration after a choice. -/
def choose (c : Config) : Choice → Config
  | .compilerProgram program => { c with compiler.program := program }
  | .compilerFlags flags => { c with compiler.flags := flags }
  | .passTimeout seconds => c.withPassTimeout seconds
  | .logName name => { c with compiler.logName := name }
  | .lookupProgram program => { c with lookup.program := program }
  | .allowPartial allowed => { c with allowPartial := allowed }
  | .mergedStem stem => { c with mergedStem := stem }
  | .announces => { c with announces := true }

/-- The configuration that some choices lead to, if it has no fault. -/
def build (choices : List Choice) : Except RequestError Config :=
  (choices.foldl choose {}).check

/-- The name under which the artifact of a request is expected. -/
def artifactName (c : Config) : String :=
  Path.stemOf c.mergedName ++ "." ++ c.compiler.artifactExtension

/-- The files that every request has of its own go by names in the working directory, and the
artifact has the extension that artifacts have. -/
structure Fits (c : Config) : Prop where
  stem : Path.IsName c.mergedStem
  log : Path.IsName c.compiler.logName
  extension : c.compiler.artifactExtension = "pdf"

variable {c : Config}

theorem extension_foldl_choose (choices : List Choice) (c : Config) :
  (choices.foldl choose c).compiler.artifactExtension = c.compiler.artifactExtension
  := by
  induction choices generalizing c with
  | nil => rfl
  | cons choice choices ih =>
    rw [List.foldl_cons, ih]
    cases choice <;> rfl

/-- Every configuration that is built fits. -/
theorem fits_of_build {choices : List Choice} (h : build choices = .ok c) :
  c.Fits
  := by
  unfold build check at h
  split at h
  · cases h
  · next hfault =>
    injection h with h
    rw [h] at hfault
    unfold fault? at hfault
    split at hfault
    · cases hfault
    split at hfault
    · cases hfault
    split at hfault
    · cases hfault
    next hstem =>
    split at hfault
    · cases hfault
    next hlog =>
    constructor
    · exact isName_of_isPlainFileName (by simpa using hstem)
    · exact isName_of_isPlainFileName (by simpa using hlog)
    · rw [← h, extension_foldl_choose]

/-! ### The names of a request's own files -/

theorem Fits.isName_append (h : c.Fits) {ending : String} (hslash : '/' ∉ ending.toList)
    (hlong : 2 ≤ ending.toList.length) :
  Path.IsName (c.mergedStem ++ ending)
  := by
  have hstem := List.length_pos_of_ne_nil h.stem.nonempty
  apply Path.isName_of_length
  · rw [String.toList_append, List.length_append]
    omega
  · rw [String.toList_append, List.mem_append, not_or]
    exact ⟨h.stem.noSlash, hslash⟩

/-- The merged document goes by a name in the working directory. -/
theorem Fits.isName_mergedName (h : c.Fits) :
  Path.IsName c.mergedName
  := h.isName_append (by decide) (by decide)

/-- The artifact is named after the merged document. -/
theorem Fits.artifactName_eq (h : c.Fits) :
  c.artifactName = c.mergedStem ++ ".pdf"
  := by
  have hstem : Path.stemOf c.mergedName = c.mergedStem := by
    have hname : c.mergedName = c.mergedStem ++ "." ++ "tex" := by
      rw [mergedName, String.append_assoc]
      rfl
    rw [hname]
    exact Path.stemOf_append h.stem.nonempty (by decide)
  rw [artifactName, hstem, h.extension, String.append_assoc]
  rfl

theorem Fits.isName_artifactName (h : c.Fits) :
  Path.IsName c.artifactName
  := by
  rw [h.artifactName_eq]
  exact h.isName_append (by decide) (by decide)

end Config

end Bindery
