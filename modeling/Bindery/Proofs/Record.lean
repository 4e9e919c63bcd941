import Bindery.Record

/-!
# Records that are read back

Nothing is lost when a record is written: it is read back as it was, as long as its counts and exit
codes fit their words (`Report.Fits`).  A structure is an object whose members have different names,
so each field is found where it was put (`Json.fields?_obj`); a field that is there is never written
as null, so it is told from one that is absent (`Json.optional?_ofOption`); and an alternative that
is a member `kind` beside its fields is never taken for one that is the only member of an object
(`toJson_lossless`).
-/

namespace Bindery

/-! ### Values -/

namespace Json

variable {α : Type} {read : Json → Option α} {write : α → Json}

theorem field?_of_mem {members : List (String × Json)} (h : (members.map Prod.fst).Nodup)
    {member : String × Json} (hmem : member ∈ members) :
  field? member.1 members = some member.2
  := by
  induction members with
  | nil => cases hmem
  | cons first members ih =>
    rw [List.map_cons, List.nodup_cons] at h
    rw [field?]
    rcases List.mem_cons.mp hmem with rfl | hmem
    · exact if_pos rfl
    · rw [if_neg]
      · exact ih h.2 hmem
      · rintro hsame
        apply h.1
        rw [hsame]
        exact List.mem_map_of_mem hmem

/-- The fields of an object are its members, if these have different names. -/
theorem fields?_obj {names : List String} {members : List (String × Json)}
    (hnames : members.map Prod.fst = names) (hdistinct : names.Nodup) :
  (obj members).fields? names = some (members.map Prod.snd)
  := by
  subst hnames
  rw [fields?, List.map_map]
  apply congrArg some
  apply List.map_congr_left
  intro member hmem
  rw [Function.comp_apply, field?_of_mem hdistinct hmem]
  rfl

/-- A list is read back if its items are. -/
theorem list?_ofList {items : List α} (h : ∀ a ∈ items, read (write a) = some a) :
  (ofList write items).list? read = some items
  := by
  rw [ofList, list?]
  induction items with
  | nil => rfl
  | cons a items ih =>
    rw [List.forall_mem_cons] at h
    rw [List.map_cons, List.mapM_cons, h.1, ih h.2]
    rfl

theorem optional?_of_ne_null {j : Json} (h : j ≠ null) :
  j.optional? read = (read j).map some
  := by
  cases j with
  | null => exact absurd rfl h
  | _ => rfl

/-- What may be absent is read back if it is never written as null. -/
theorem optional?_ofOption (hnull : ∀ a, write a ≠ null) {o : Option α}
    (h : ∀ a ∈ o, read (write a) = some a) :
  (ofOption write o).optional? read = some o
  := by
  cases o with
  | none => rfl
  | some a =>
    rw [ofOption, optional?_of_ne_null (hnull a), h a rfl]
    rfl

theorem count?_ofNat {n : Nat} (h : n < UInt64.size) :
  (ofNat n).count? = some n
  := by
  have hword : 0 ≤ (n : Int) ∧ (n : Int) < UInt64.size :=
    ⟨Int.natCast_nonneg n, by exact_mod_cast h⟩
  rw [ofNat, count?, if_pos hword, Int.toNat_natCast]

/-- An exit code fits 32 bits with a sign. -/
def IsCode (code : Int) : Prop :=
  -0x80000000 ≤ code ∧ code < 0x80000000

theorem code?_int {code : Int} (h : IsCode code) :
  (int code).code? = some code
  := if_pos h

theorem str_ne_null (s : String) :
  str s ≠ null
  := nofun

theorem int_ne_null (n : Int) :
  int n ≠ null
  := nofun

theorem ofPath_ne_null (p : Path) :
  ofPath p ≠ null
  := nofun

theorem lines_ofList (lines : List String) :
  (ofList str lines).list? str? = some lines
  := list?_ofList fun _ _ => rfl

theorem paths_ofList (paths : List Path) :
  (ofList ofPath paths).list? path? = some paths
  := list?_ofList fun _ _ => rfl

end Json

open Json

/-! ### Documents -/

namespace Fragment

theorem ofJson?_toJson (f : Fragment) :
  ofJson? f.toJson = some f
  := by
  rw [ofJson?, toJson, fields?_obj]
  case hnames => rfl
  case hdistinct => decide
  dsimp only [List.map]
  rw [lines_ofList, lines_ofList]
  rfl

end Fragment

namespace Directive

theorem kind?_kindName (kind : DirectiveKind) :
  kind? (str (kindName kind)) = some kind
  := by cases kind <;> rfl

theorem ofJson?_toJson (d : Directive) :
  ofJson? d.toJson = some d
  := by
  have hname : (ofOption str d.capability).optional? str? = some d.capability :=
    optional?_ofOption str_ne_null fun _ _ => rfl
  rw [ofJson?, toJson, fields?_obj]
  case hnames => rfl
  case hdistinct => decide
  dsimp only [List.map]
  rw [kind?_kindName, hname]
  rfl

end Directive

theorem Diagnostic.ofJson?_toJson (g : Diagnostic) :
  ofJson? g.toJson = some g
  := by cases g <;> rfl

theorem diagnostics_ofList (diagnostics : List Diagnostic) :
  (ofList Diagnostic.toJson diagnostics).list? Diagnostic.ofJson? = some diagnostics
  := list?_ofList fun g _ => g.ofJson?_toJson

theorem Document.ofJson?_toJson (d : Document) :
  ofJson? d.toJson = some d
  := by
  have hcustom : (ofList Directive.toJson d.custom).list? Directive.ofJson? = some d.custom :=
    list?_ofList fun x _ => x.ofJson?_toJson
  rw [ofJson?, toJson, fields?_obj]
  case hnames => rfl
  case hdistinct => decide
  dsimp only [List.map]
  rw [lines_ofList, hcustom, lines_ofList, diagnostics_ofList]
  rfl

/-! ### Reports -/

/-- The numbers of a pass fit their words. -/
structure Pass.Fits (p : Pass) : Prop where
  number : p.number < UInt64.size
  exitCode : ∀ code ∈ p.exitCode, IsCode code
  durationMs : p.durationMs < UInt64.size

theorem Pass.ofJson?_toJson {p : Pass} (h : p.Fits) :
  ofJson? p.toJson = some p
  := by
  have hcode : (ofOption int p.exitCode).optional? code? = some p.exitCode :=
    optional?_ofOption int_ne_null fun code hcode => code?_int (h.exitCode code hcode)
  rw [ofJson?, toJson, fields?_obj]
  case hnames => rfl
  case hdistinct => decide
  dsimp only [List.map]
  rw [count?_ofNat h.number, hcode, count?_ofNat h.durationMs]
  rfl

theorem Compilation.ofJson?_toJson {c : Compilation} (h : ∀ pass ∈ c.passes, pass.Fits) :
  ofJson? c.toJson = some c
  := by
  have hartifact : (ofOption ofPath c.artifact).optional? path? = some c.artifact :=
    optional?_ofOption ofPath_ne_null fun _ _ => rfl
  have hpasses : (ofList Pass.toJson c.passes).list? Pass.ofJson? = some c.passes :=
    list?_ofList fun pass hpass => Pass.ofJson?_toJson (h pass hpass)
  rw [ofJson?, toJson, fields?_obj]
  case hnames => rfl
  case hdistinct => decide
  dsimp only [List.map]
  rw [hartifact, hpasses]
  rfl

theorem SourceKind.ofJson?_toJson (kind : SourceKind) :
  ofJson? kind.toJson = some kind
  := by cases kind <;> rfl

theorem SourceError.ofJson?_toJson (e : SourceError) :
  ofJson? e.toJson = some e
  := by cases e <;> rfl

theorem SourceError.toJson_ne_null (e : SourceError) :
  e.toJson ≠ .null
  := by cases e <;> nofun

theorem Outcome.ofJson?_toJson {o : Outcome} (h : o.bodyLines < UInt64.size) :
  ofJson? o.toJson = some o
  := by
  have herror : (ofOption SourceError.toJson o.error).optional? SourceError.ofJson?
      = some o.error :=
    optional?_ofOption SourceError.toJson_ne_null fun e _ => e.ofJson?_toJson
  rw [ofJson?, toJson, fields?_obj]
  case hnames => rfl
  case hdistinct => decide
  dsimp only [List.map]
  rw [SourceKind.ofJson?_toJson, count?_ofNat h, paths_ofList, herror]
  rfl

/-- Counts and timings fit their words. -/
structure Stats.Fits (s : Stats) : Prop where
  totalSources : s.totalSources < UInt64.size
  extractedSources : s.extractedSources < UInt64.size
  failedSources : s.failedSources < UInt64.size
  customDirectives : s.customDirectives < UInt64.size
  extractDurationMs : s.extractDurationMs < UInt64.size
  compileDurationMs : s.compileDurationMs < UInt64.size
  totalDurationMs : s.totalDurationMs < UInt64.size

theorem Stats.ofJson?_toJson {s : Stats} (h : s.Fits) :
  ofJson? s.toJson = some s
  := by
  rw [ofJson?, toJson, fields?_obj]
  case hnames => rfl
  case hdistinct => decide
  dsimp only [List.map]
  rw [count?_ofNat h.totalSources, count?_ofNat h.extractedSources, count?_ofNat h.failedSources,
    count?_ofNat h.customDirectives, count?_ofNat h.extractDurationMs,
    count?_ofNat h.compileDurationMs, count?_ofNat h.totalDurationMs]
  rfl

/-- All numbers of a report fit their words. -/
structure Report.Fits (r : Report) : Prop where
  passes : ∀ pass ∈ r.compilation.passes, pass.Fits
  bodyLines : ∀ outcome ∈ r.sources, outcome.bodyLines < UInt64.size
  stats : r.stats.Fits

theorem Report.ofJson?_toJson {r : Report} (h : r.Fits) :
  ofJson? r.toJson = some r
  := by
  have hsources : (ofList Outcome.toJson r.sources).list? Outcome.ofJson? = some r.sources :=
    list?_ofList fun outcome hmem => Outcome.ofJson?_toJson (h.bodyLines outcome hmem)
  rw [ofJson?, toJson, fields?_obj]
  case hnames => rfl
  case hdistinct => decide
  dsimp only [List.map]
  rw [Compilation.ofJson?_toJson h.passes, hsources, diagnostics_ofList,
    Stats.ofJson?_toJson h.stats]
  rfl

/-! ### Alternatives -/

/-- An error of a source is not read as a diagnostic. -/
theorem Diagnostic.ofJson?_error (e : SourceError) :
  ofJson? e.toJson = none
  := by cases e <;> rfl

/-- A diagnostic is not read as an error of a source. -/
theorem SourceError.ofJson?_diagnostic (g : Diagnostic) :
  ofJson? g.toJson = none
  := by cases g <;> rfl

/-- Nothing is lost when a record is written: what was written is read back as it was, whatever the
fields hold, and the two ways to write alternatives are not taken for each other. -/
theorem toJson_lossless :
  (∀ r : Report, r.Fits → Report.ofJson? r.toJson = some r)
    ∧ (∀ d : Document, Document.ofJson? d.toJson = some d)
    ∧ (∀ f : Fragment, Fragment.ofJson? f.toJson = some f)
    ∧ ∀ (g : Diagnostic) (e : SourceError),
      SourceError.ofJson? g.toJson = none ∧ Diagnostic.ofJson? e.toJson = none
  := by
  refine ⟨?_, ?_, ?_, ?_⟩
  · intro r hr
    exact Report.ofJson?_toJson hr
  · intro d
    exact d.ofJson?_toJson
  · intro f
    exact f.ofJson?_toJson
  · intro g e
    exact ⟨SourceError.ofJson?_diagnostic g, Diagnostic.ofJson?_error e⟩

/-- A report with the largest counts, the least exit code and all alternatives, whose texts are the
names of members, is read back. -/
theorem toJson_lossless_limits :
  let r : Report := {
    compilation := {
      success := true
      message := "null"
      artifact := some ⟨"/w/merged.pdf"⟩
      log := ⟨"/w/latex_output.log"⟩
      softWarning := true
      passes := [
        { number := 1, exitCode := none, durationMs := 18446744073709551615 },
        { number := 18446744073709551615, exitCode := some (-2147483648) }] }
    sources := [
      { kind := .latex, origin := "", bodyLines := 18446744073709551615, assets := [],
        error := none },
      { kind := .slides, origin := "Unreadable", bodyLines := 0, assets := [⟨""⟩],
        error := some (.unreadable "origin" "detail") },
      { kind := .latex, origin := "kind", bodyLines := 0, assets := [],
        error := some (.invalidEncoding "kind") },
      { kind := .notebook, origin := "kind", bodyLines := 0, assets := [],
        error := some (.malformedNotebook "kind" "null") },
      { kind := .slides, origin := "kind", bodyLines := 0, assets := [],
        error := some (.malformedSlides "detail" "origin") }]
    diagnostics := [.unavailable "kind" "conflicting_options" "raw_text",
      .unparseable "capability_unavailable" "origin", .conflict "" "kept" "dropped" "kept"]
    merged := ⟨"/w/merged.tex"⟩
    stats := {
      totalSources := 5
      extractedSources := 1
      failedSources := 4
      customDirectives := 18446744073709551615 } }
  r.Fits ∧ Report.ofJson? r.toJson = some r
  := by
  intro r
  have hr : r.Fits := by
    constructor
    · intro pass hpass
      rcases List.mem_cons.mp hpass with rfl | hlast
      · exact ⟨by decide, nofun, by decide⟩
      · obtain rfl := List.mem_singleton.mp hlast
        refine ⟨by decide, ?_, by decide⟩
        rintro code ⟨⟩
        exact ⟨by decide, by decide⟩
    · decide
    · exact ⟨by decide, by decide, by decide, by decide, by decide, by decide, by decide⟩
  exact ⟨hr, toJson_lossless.1 r hr⟩

end Bindery
