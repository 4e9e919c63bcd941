import Bindery.Proofs.Merge.Preamble

/-!
# An account of the declaration lines

Every declaration line meets one `Fate`: it is discarded, repeats a line of the preamble,
becomes a directive, or becomes a diagnostic.  `Fate.Meets` says which, given the preamble so
far, and `Fates` says it of the lines of all fragments one after another.  Merging gives the
directives and the diagnostics of these fates (`Account`), and what it decided against the
preamble so far stays true of the final preamble (`Fates.not_mem_of_barred`,
`Fates.conflict_stays`).
-/

namespace Bindery

namespace Diagnostic

/-- The source of the line that was left out. -/
def origin : Diagnostic → String
  | unavailable origin _ _ => origin
  | unparseable origin _ => origin
  | conflict origin _ _ _ => origin

/-- The line that was left out. -/
def line : Diagnostic → String
  | unavailable _ _ text => text
  | unparseable _ text => text
  | conflict _ _ _ dropped => dropped

end Diagnostic

/-- What becomes of a declaration line. -/
inductive Fate where
  | discarded
  /-- The line is already part of the preamble, word for word. -/
  | repeated
  | declared (directive : Directive)
  | reported (diagnostic : Diagnostic)
deriving DecidableEq, Repr

namespace Fate

/-- The directive that the line becomes. -/
def directive? : Fate → Option Directive
  | declared directive => some directive
  | _ => none

/-- The diagnostic that records the line. -/
def diagnostic? : Fate → Option Diagnostic
  | reported diagnostic => some diagnostic
  | _ => none

theorem mem_filterMap_directive? {fates : List Fate} {x : Directive} :
  x ∈ fates.filterMap directive? ↔ declared x ∈ fates
  := by
  constructor
  · intro h
    obtain ⟨fate, hfate, hdirective⟩ := List.mem_filterMap.mp h
    cases fate <;> cases hdirective
    exact hfate
  · intro h
    exact List.mem_filterMap.mpr ⟨_, h, rfl⟩

theorem mem_filterMap_diagnostic? {fates : List Fate} {g : Diagnostic} :
  g ∈ fates.filterMap diagnostic? ↔ reported g ∈ fates
  := by
  constructor
  · intro h
    obtain ⟨fate, hfate, hdiagnostic⟩ := List.mem_filterMap.mp h
    cases fate <;> cases hdiagnostic
    exact hfate
  · intro h
    exact List.mem_filterMap.mpr ⟨_, h, rfl⟩

/-- The document after a line with this fate. -/
def applyTo (d : Document) : Fate → Document
  | discarded => d
  | repeated => d
  | declared directive => d.declare directive
  | reported diagnostic => d.note diagnostic

/-- A line meets a fate after the preamble lines `before`, if just the packages that satisfy
`available` are there. -/
inductive Meets (available : String → Bool) (before : List String) (origin line : String) :
    Fate → Prop
  | discarded (h : LineClass.of line = .discarded) :
    Meets available before origin line discarded
  | repeatedPlain (h : LineClass.of line = .other) (hline : line ∈ before) :
    Meets available before origin line repeated
  | repeatedRequest {name : String} (h : LineClass.of line = .request name)
      (hline : line ∈ before) :
    Meets available before origin line repeated
  | plain (h : LineClass.of line = .other) (hline : line ∉ before) :
    Meets available before origin line (declared (.plain line))
  | unparseable (h : LineClass.of line = .unparseable) :
    Meets available before origin line (reported (.unparseable origin line))
  | conflict {name kept : String} (h : LineClass.of line = .request name)
      (hline : line ∉ before) (hkept : before.find? (overlaps · line) = some kept) :
    Meets available before origin line (reported (.conflict origin name kept line))
  | unavailable {name : String} (h : LineClass.of line = .request name) (hline : line ∉ before)
      (hkept : before.find? (overlaps · line) = none)
      (hmissing : ¬ ∀ package ∈ packages name, available package) :
    Meets available before origin line (reported (.unavailable origin name line))
  | request {name : String} (h : LineClass.of line = .request name) (hline : line ∉ before)
      (hkept : before.find? (overlaps · line) = none)
      (hall : ∀ package ∈ packages name, available package) :
    Meets available before origin line (declared (.request name line))

variable {available : String → Bool} {before : List String} {origin line : String}

/-- The line becomes no directive, however many lines join the preamble before it comes. -/
def Barred (available : String → Bool) (before : List String) (line : String) : Prop :=
  ∀ more origin x, ¬ (declared x).Meets available (before ++ more) origin line

/-- A line that overlaps the preamble is barred. -/
theorem barred_of_overlap {name kept : String} (h : LineClass.of line = .request name)
    (hkept : before.find? (overlaps · line) = some kept) :
  Barred available before line
  := by
  intro more origin x hx
  cases hx with
  | plain h' _ => simp [h] at h'
  | request _ _ hnone _ => simp [List.find?_append, hkept] at hnone

/-- A line that requests a missing package is barred. -/
theorem barred_of_missing {name : String} (h : LineClass.of line = .request name)
    (hmissing : ¬ ∀ package ∈ packages name, available package) :
  Barred available before line
  := by
  intro more origin x hx
  cases hx with
  | plain h' _ => simp [h] at h'
  | request h' _ _ hall =>
    cases h.symm.trans h'
    apply hmissing hall

theorem Barred.append (h : Barred available before line) (more : List String) :
  Barred available (before ++ more) line
  := by
  intro others origin x
  rw [List.append_assoc]
  apply h

/-- A line meets one fate only. -/
theorem Meets.unique {a b : Fate} (ha : a.Meets available before origin line)
    (hb : b.Meets available before origin line) :
  a = b
  := by
  cases ha <;> cases hb <;> simp_all

end Fate

/-- The texts of the directives that lines with these fates become. -/
def declaredTexts (fates : List Fate) : List String :=
  (fates.filterMap Fate.directive?).map Directive.text

/-- Each fate is of one of four kinds. -/
theorem length_eq_kinds (fates : List Fate) :
  fates.length = fates.count .discarded + fates.count .repeated
    + (fates.filterMap Fate.directive?).length + (fates.filterMap Fate.diagnostic?).length
  := by
  induction fates with
  | nil => rfl
  | cons fate fates ih =>
    rw [List.length_cons, ih]
    cases fate <;> simp [List.filterMap_cons, Fate.directive?, Fate.diagnostic?] <;> omega

theorem declaredTexts_append (fates others : List Fate) :
  declaredTexts (fates ++ others) = declaredTexts fates ++ declaredTexts others
  := by
  simp [declaredTexts]

/-- The preamble grows by what the first line adds and then by what the others add. -/
theorem append_declaredTexts_cons (before : List String) (fate : Fate) (fates : List Fate) :
  before ++ declaredTexts (fate :: fates)
    = before ++ declaredTexts [fate] ++ declaredTexts fates
  := by
  rw [← List.singleton_append, declaredTexts_append, List.append_assoc]

/-- Lines, each with the name of its source, that meet these fates one after another, the first
of them after the preamble lines `before`. -/
inductive Fates (available : String → Bool) :
    List String → List (String × String) → List Fate → Prop
  | nil {before : List String} : Fates available before [] []
  | cons {before : List String} {origin line : String} {fate : Fate}
      {lines : List (String × String)} {fates : List Fate}
      (head : fate.Meets available before origin line)
      (tail : Fates available (before ++ declaredTexts [fate]) lines fates) :
    Fates available before ((origin, line) :: lines) (fate :: fates)

namespace Fates

variable {available : String → Bool} {before : List String}
  {lines others : List (String × String)} {fates more : List Fate}

theorem append (h : Fates available before lines fates)
    (h' : Fates available (before ++ declaredTexts fates) others more) :
  Fates available before (lines ++ others) (fates ++ more)
  := by
  induction h with
  | nil => simpa [declaredTexts] using h'
  | cons head tail ih =>
    apply cons head
    apply ih
    rw [List.append_assoc, ← declaredTexts_append]
    apply h'

/-- Lines meet one sequence of fates only. -/
theorem unique (h : Fates available before lines fates)
    (h' : Fates available before lines more) :
  fates = more
  := by
  induction h generalizing more with
  | nil => cases h'; rfl
  | cons head tail ih =>
    cases h' with
    | cons head' tail' =>
      obtain rfl := head.unique head'
      rw [ih tail']

/-! ### Nothing is lost and nothing is invented -/

/-- The directives are among the lines, in their order. -/
theorem declared_sublist (h : Fates available before lines fates) :
  (declaredTexts fates).Sublist (lines.map Prod.snd)
  := by
  induction h with
  | nil => apply List.Sublist.refl
  | @cons before origin line fate lines fates head tail ih =>
    cases head with
    | plain _ _ => apply ih.cons_cons
    | request _ _ _ _ => apply ih.cons_cons
    | _ => apply ih.cons

/-- The diagnostics record lines, in their order, with the sources they come from. -/
theorem reported_sublist (h : Fates available before lines fates) :
  ((fates.filterMap Fate.diagnostic?).map fun g => (g.origin, g.line)).Sublist lines
  := by
  induction h with
  | nil => apply List.Sublist.refl
  | cons head tail ih =>
    cases head with
    | unparseable _ => apply ih.cons_cons
    | conflict _ _ _ => apply ih.cons_cons
    | unavailable _ _ _ _ => apply ih.cons_cons
    | _ => apply ih.cons

theorem length_eq (h : Fates available before lines fates) :
  lines.length = fates.length
  := by
  induction h with
  | nil => rfl
  | cons head tail ih => rw [List.length_cons, List.length_cons, ih]

/-! ### What was decided stays -/

/-- A barred line that is not in the preamble never enters it. -/
theorem not_mem_of_barred {line : String} (h : Fates available before lines fates)
    (hbarred : Fate.Barred available before line) (hline : line ∉ before) :
  line ∉ before ++ declaredTexts fates
  := by
  induction h with
  | nil => simpa [declaredTexts] using hline
  | @cons before origin other fate lines fates head tail ih =>
    rw [append_declaredTexts_cons]
    apply ih (hbarred.append _)
    rw [List.mem_append, not_or]
    use hline
    intro hmem
    -- The head would have to be the line itself, which is barred.
    cases fate with
    | declared x =>
      obtain rfl : line = x.text := by simpa [declaredTexts, Fate.directive?] using hmem
      have hother : other = x.text := by cases head <;> rfl
      rw [hother] at head
      apply hbarred [] origin x
      rwa [List.append_nil]
    | _ => simp [declaredTexts, Fate.directive?] at hmem

/-- Each fate is met after the preamble that the fates before it have led to. -/
theorem exists_meets {fate : Fate} (h : Fates available before lines fates)
    (hfate : fate ∈ fates) :
  ∃ origin line before' lines' fates',
    fate.Meets available before' origin line
      ∧ Fates available before' ((origin, line) :: lines') (fate :: fates')
      ∧ before ++ declaredTexts fates = before' ++ declaredTexts (fate :: fates')
  := by
  induction h with
  | nil => cases hfate
  | @cons before origin line head lines fates hhead htail ih =>
    rcases List.mem_cons.mp hfate with rfl | hmem
    · exact ⟨origin, line, before, lines, fates, hhead, cons hhead htail, rfl⟩
    · rw [append_declaredTexts_cons]
      apply ih hmem

/-- A request of a missing package is not in the preamble at the end. -/
theorem not_mem_of_unavailable {origin name line : String}
    (h : Fates available before lines fates)
    (hfate : .reported (.unavailable origin name line) ∈ fates) :
  line ∉ before ++ declaredTexts fates
  := by
  obtain ⟨_, _, before', _, _, hmeets, hfates, htexts⟩ := h.exists_meets hfate
  rw [htexts]
  cases hmeets with
  | unavailable hclass hline _ hmissing =>
    apply hfates.not_mem_of_barred _ hline
    apply Fate.barred_of_missing hclass hmissing

/-- A conflicting request is not in the preamble at the end, and the line that was kept is
still the first one that it overlaps. -/
theorem conflict_stays {origin name kept line : String}
    (h : Fates available before lines fates)
    (hfate : .reported (.conflict origin name kept line) ∈ fates) :
  line ∉ before ++ declaredTexts fates ∧ kept ≠ line
    ∧ (before ++ declaredTexts fates).find? (overlaps · line) = some kept
  := by
  obtain ⟨_, _, before', _, _, hmeets, hfates, htexts⟩ := h.exists_meets hfate
  rw [htexts]
  cases hmeets with
  | conflict hclass hline hkept =>
    refine ⟨?_, ?_, ?_⟩
    · apply hfates.not_mem_of_barred _ hline
      apply Fate.barred_of_overlap hclass hkept
    · rintro rfl
      apply hline (List.mem_of_find?_eq_some hkept)
    · rw [List.find?_append, hkept]
      rfl

end Fates

/-! ### Merging -/

/-- The declaration lines of the fragments in order, each with the name of its source. -/
def declarationLines (fragments : List Fragment) : List (String × String) :=
  fragments.flatMap fun f => f.preamble.map fun line => (f.origin, line)

theorem map_snd_declarationLines (fragments : List Fragment) :
  (declarationLines fragments).map Prod.snd = fragments.flatMap Fragment.preamble
  := by
  rw [declarationLines, List.map_flatMap]
  apply List.flatMap_congr
  intro f _
  rw [List.map_map]
  apply List.map_id

/-- Lines that take one document to another, and the fates that they meet. -/
structure Account (available : String → Bool) (d : Document) (lines : List (String × String))
    (fates : List Fate) (d' : Document) : Prop where
  met : Fates available d.preamble lines fates
  fixed : d'.fixed = d.fixed
  custom : d'.custom = d.custom ++ fates.filterMap Fate.directive?
  diagnostics : d'.diagnostics = d.diagnostics ++ fates.filterMap Fate.diagnostic?

namespace Account

variable {available : String → Bool} {d d₁ d₂ : Document}
  {lines others : List (String × String)} {fates more : List Fate}

theorem preamble (h : Account available d lines fates d₁) :
  d₁.preamble = d.preamble ++ declaredTexts fates
  := by
  simp [Document.preamble, declaredTexts, h.fixed, h.custom]

theorem refl (d : Document) :
  Account available d [] [] d
  := by
  constructor
  · apply Fates.nil
  · rfl
  · simp
  · simp

theorem trans (h : Account available d lines fates d₁)
    (h' : Account available d₁ others more d₂) :
  Account available d (lines ++ others) (fates ++ more) d₂
  := by
  constructor
  · apply h.met.append
    rw [← h.preamble]
    apply h'.met
  · rw [h'.fixed, h.fixed]
  · rw [h'.custom, h.custom, List.filterMap_append, List.append_assoc]
  · rw [h'.diagnostics, h.diagnostics, List.filterMap_append, List.append_assoc]

/-- Content is no matter of the account. -/
theorem appendBody (h : Account available d lines fates d₁) (body : List String) :
  Account available d lines fates (d₁.appendBody body)
  := ⟨h.met, h.fixed, h.custom, h.diagnostics⟩

theorem of_meets {fate : Fate} {origin line : String}
    (h : fate.Meets available d.preamble origin line) :
  Account available d [(origin, line)] [fate] (fate.applyTo d)
  := by
  constructor
  · apply Fates.cons h Fates.nil
  · cases fate <;> rfl
  · cases fate <;> simp [Fate.applyTo, Fate.directive?, Document.declare, Document.note]
  · cases fate <;> simp [Fate.applyTo, Fate.diagnostic?, Document.declare, Document.note]

end Account

namespace Merge

theorem runPure_allAvailable (available : String → Bool) (names : List String) :
  (allAvailable names).runPure available = names.all available
  := by
  induction names with
  | nil => rfl
  | cons name names ih =>
    rw [allAvailable, Dialogue.bind_eq, Dialogue.runPure_bind, Dialogue.runPure_question,
      List.all_cons, ← ih]
    cases available name <;> rfl

/-- Taking in a line gives the document of the fate that the line meets. -/
theorem exists_fate (available : String → Bool) (origin line : String) {d : Document}
    (hd : d.WellFormed) :
  ∃ fate : Fate, fate.Meets available d.preamble origin line
    ∧ (addDeclaration origin d line).runPure available = fate.applyTo d
  := by
  have hdeclares : d.declares line = true ↔ line ∈ d.preamble := by simp [Document.declares]
  cases h : LineClass.of line with
  | discarded =>
    simp only [addDeclaration, h]
    exact ⟨_, .discarded h, rfl⟩
  | unparseable =>
    simp only [addDeclaration, h]
    exact ⟨_, .unparseable h, rfl⟩
  | other =>
    simp only [addDeclaration, h, hdeclares]
    split
    · next hline => exact ⟨_, .repeatedPlain h hline, rfl⟩
    · next hline => exact ⟨_, .plain h hline, rfl⟩
  | request name =>
    simp only [addDeclaration, h, hdeclares, hd.loader?_eq h]
    split
    · next hline => exact ⟨_, .repeatedRequest h hline, rfl⟩
    · next hline =>
      split
      · next kept hkept => exact ⟨_, .conflict h hline hkept, rfl⟩
      · next hkept =>
        rw [Dialogue.bind_eq, Dialogue.runPure_bind, runPure_allAvailable]
        split
        · next hall =>
          exact ⟨_, .request h hline hkept (List.all_eq_true.mp hall), rfl⟩
        · next hall =>
          exact ⟨_, .unavailable h hline hkept (mt List.all_eq_true.mpr hall), rfl⟩

/-- Steps that each account for some lines account together for all of them. -/
theorem exists_account_foldl {available : String → Bool} {γ : Type}
    {linesOf : γ → List (String × String)} {step : Document → γ → Document}
    (hstep : ∀ d c, d.WellFormed →
      (step d c).WellFormed ∧ ∃ fates, Account available d (linesOf c) fates (step d c))
    (cs : List γ) {d : Document} (hd : d.WellFormed) :
  (cs.foldl step d).WellFormed
    ∧ ∃ fates, Account available d (cs.flatMap linesOf) fates (cs.foldl step d)
  := by
  induction cs generalizing d with
  | nil => exact ⟨hd, [], .refl d⟩
  | cons c cs ih =>
    obtain ⟨hc, fates, hfates⟩ := hstep d c hd
    obtain ⟨hcs, more, hmore⟩ := ih hc
    exact ⟨hcs, fates ++ more, hfates.trans hmore⟩

theorem exists_account_addDeclaration (available : String → Bool) (origin : String)
    (d : Document) (line : String) (hd : d.WellFormed) :
  ((addDeclaration origin d line).runPure available).WellFormed
    ∧ ∃ fates, Account available d [(origin, line)] fates
      ((addDeclaration origin d line).runPure available)
  := by
  obtain ⟨fate, hmeets, hrun⟩ := exists_fate available origin line hd
  use (addDeclaration_wellFormed origin d line hd).runPure available, [fate]
  rw [hrun]
  apply Account.of_meets hmeets

theorem exists_account_addFragment (available : String → Bool) (d : Document) (f : Fragment)
    (hd : d.WellFormed) :
  ((addFragment d f).runPure available).WellFormed
    ∧ ∃ fates, Account available d (f.preamble.map fun line => (f.origin, line)) fates
      ((addFragment d f).runPure available)
  := by
  obtain ⟨-, fates, hfates⟩ :=
    exists_account_foldl (exists_account_addDeclaration available f.origin) f.preamble hd
  use (addFragment_wellFormed d f hd).runPure available, fates
  rw [addFragment, Dialogue.bind_eq, Dialogue.runPure_bind, Dialogue.runPure_foldlM,
    List.map_eq_flatMap]
  apply hfates.appendBody

/-- Merging succeeds if no fragment is malformed, and then takes in one fragment after another. -/
theorem runPure_merge_eq_ok_iff {available : String → Bool} {fragments : List Fragment}
    {d : Document} :
  (merge fragments).runPure available = .ok d
    ↔ (∀ f ∈ fragments, f.malformed? = none)
      ∧ fragments.foldl (fun d f => (addFragment d f).runPure available) .empty = d
  := by
  rw [← List.findSome?_eq_none_iff, merge]
  cases fragments.findSome? Fragment.malformed? with
  | some malformed => simp
  | none =>
    rw [← bind_pure_comp, Dialogue.bind_eq, Dialogue.runPure_bind, Dialogue.runPure_foldlM]
    simp

theorem exists_account_of_merge {available : String → Bool} {fragments : List Fragment}
    {d : Document} (h : (merge fragments).runPure available = .ok d) :
  ∃ fates, Account available .empty (declarationLines fragments) fates d
  := by
  obtain ⟨-, hfates⟩ := exists_account_foldl (exists_account_addFragment available) fragments
    Document.wellFormed_empty
  rw [(runPure_merge_eq_ok_iff.mp h).2] at hfates
  exact hfates

/-- The document accounts for every declaration line of the fragments by the fate of the
line. -/
structure AccountsFor (available : String → Bool) (fragments : List Fragment) (d : Document)
    (fates : List Fate) : Prop where
  /-- The lines meet these fates and no others, one each. -/
  met_iff : ∀ others,
    Fates available fixedPreamble (declarationLines fragments) others ↔ others = fates
  fixed : d.fixed = fixedPreamble
  custom : d.custom = fates.filterMap Fate.directive?
  diagnostics : d.diagnostics = fates.filterMap Fate.diagnostic?
  declared : (d.custom.map Directive.text).Sublist ((declarationLines fragments).map Prod.snd)
  reported : (d.diagnostics.map fun g => (g.origin, g.line)).Sublist (declarationLines fragments)
  length_eq : (declarationLines fragments).length = fates.count .discarded
    + fates.count .repeated + d.custom.length + d.diagnostics.length
  /-- A request of a missing package is not in the preamble. -/
  unavailable : ∀ origin name line,
    .unavailable origin name line ∈ d.diagnostics → line ∉ d.preamble
  /-- Nor is a conflicting request, and the line kept is another one, the first that the request
  overlaps. -/
  conflict : ∀ origin name kept line, .conflict origin name kept line ∈ d.diagnostics →
    line ∉ d.preamble ∧ kept ≠ line ∧ d.preamble.find? (overlaps · line) = some kept

/-- If it depends on the package alone whether it is available, a merged document accounts for
every declaration line. -/
theorem accountsFor_of_merge {available : String → Bool} {fragments : List Fragment}
    {d : Document} (h : (merge fragments).runPure available = .ok d) :
  ∃ fates, AccountsFor available fragments d fates
  := by
  obtain ⟨fates, haccount⟩ := exists_account_of_merge h
  have hempty : Document.empty.preamble = fixedPreamble := List.append_nil fixedPreamble
  have hmet := haccount.met
  have hpreamble := haccount.preamble
  have hcustom : d.custom = fates.filterMap Fate.directive? := haccount.custom
  have hdiagnostics : d.diagnostics = fates.filterMap Fate.diagnostic? := haccount.diagnostics
  rw [hempty] at hmet hpreamble
  have hreported : ∀ g ∈ d.diagnostics, Fate.reported g ∈ fates := by
    intro g hg
    rw [hdiagnostics] at hg
    exact Fate.mem_filterMap_diagnostic?.mp hg
  use fates
  constructor
  case met_iff =>
    intro others
    constructor
    · intro hothers
      apply hothers.unique hmet
    · rintro rfl
      apply hmet
  case fixed => apply haccount.fixed
  case custom => apply hcustom
  case diagnostics => apply hdiagnostics
  case declared =>
    rw [hcustom]
    apply hmet.declared_sublist
  case reported =>
    rw [hdiagnostics]
    apply hmet.reported_sublist
  case length_eq => rw [hmet.length_eq, length_eq_kinds, hcustom, hdiagnostics]
  case unavailable =>
    intro origin name line hg
    rw [hpreamble]
    apply hmet.not_mem_of_unavailable (hreported _ hg)
  case conflict =>
    intro origin name kept line hg
    rw [hpreamble]
    apply hmet.conflict_stays (hreported _ hg)

/-- Of a comment, a request that shares a package with a fixed declaration, a list of packages,
a macro, the macro again, a request that shares a package with the list, a request of a missing
package and one that cannot be read, the list and the macro are declared and four lines are
recorded. -/
theorem accountsFor_of_merge_mixed :
  let fragments : List Fragment := [
    { origin := "a"
      preamble := ["% a", "\\usepackage[x]\x7bulem\x7d", "\\usepackage\x7bp, q\x7d",
        "\\def\\m\x7b\x7d"] },
    { origin := "b"
      preamble := ["\\def\\m\x7b\x7d", "\\usepackage\x7bq\x7d", "\\usepackage\x7br\x7d",
        "\\usepackage\x7b\x7d"] }]
  let d : Document := {
    fixed := fixedPreamble
    custom := [.request "p, q" "\\usepackage\x7bp, q\x7d", .plain "\\def\\m\x7b\x7d"]
    body := ["", ""]
    diagnostics := [
      .conflict "a" "ulem" "\\usepackage\x7bulem\x7d" "\\usepackage[x]\x7bulem\x7d",
      .conflict "b" "q" "\\usepackage\x7bp, q\x7d" "\\usepackage\x7bq\x7d",
      .unavailable "b" "r" "\\usepackage\x7br\x7d",
      .unparseable "b" "\\usepackage\x7b\x7d"] }
  (merge fragments).runPure (· != "r") = .ok d
    ∧ ∃ fates, AccountsFor (· != "r") fragments d fates
  := by
  intro fragments d
  apply (and_iff_left_of_imp accountsFor_of_merge).mpr
  decide +kernel

end Merge

end Bindery
