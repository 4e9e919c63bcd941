import Bindery.Proofs.Merge.Preamble
import Bindery.Proofs.Transcript

/-!
# What merging asks

Every declaration line gets a `Hearing`: what is asked when its turn comes, with the answers, and
the directive that it becomes.  After the preamble lines `before` a hearing is `Proper` if only a
request that is new and overlaps none of them leads to questions, one for each of its packages up to
the first that is not available (`Asked`), and if it becomes a directive exactly when all of them
are.  Merging gives the lines proper hearings one after another, whatever the answers are and also
if they change from question to question (`heard_of_merge`).
-/

namespace Bindery

/-- A question about a package, with its answer. -/
abbrev Reply : Type :=
  (_ : String) × Bool

/-- Packages are asked about from left to right, up to the first that is not available. -/
inductive Asked : List String → List Reply → Prop
  | nil : Asked [] []
  | refused {name : String} {names : List String} : Asked (name :: names) [⟨name, false⟩]
  | granted {name : String} {names : List String} {replies : List Reply}
      (rest : Asked names replies) :
    Asked (name :: names) (⟨name, true⟩ :: replies)

/-- Each of the packages is asked about and available. -/
def allGranted (names : List String) : List Reply :=
  names.map fun name => ⟨name, true⟩

theorem Asked.mem {names : List String} {replies : List Reply} (h : Asked names replies) :
  ∀ reply ∈ replies, reply.1 ∈ names
  := by
  induction h with
  | nil => exact List.forall_mem_nil _
  | refused => exact List.forall_mem_singleton.mpr List.mem_cons_self
  | granted rest ih =>
    intro reply hreply
    rcases List.mem_cons.mp hreply with rfl | hmem
    · exact List.mem_cons_self
    · exact List.mem_cons_of_mem _ (ih reply hmem)

/-- A request names at least one package. -/
theorem packages_ne_nil (name : String) :
  packages name ≠ []
  := by
  rw [packages, packageTexts, List.map_map]
  exact mt List.map_eq_nil_iff.mp (Text.splitWhere_ne_nil _ _)

theorem allGranted_packages_ne_nil (name : String) :
  allGranted (packages name) ≠ []
  := mt List.map_eq_nil_iff.mp (packages_ne_nil name)

/-! ### Hearings -/

/-- The turn of a declaration line. -/
structure Hearing where
  line : String
  /-- What is asked, with the answers. -/
  replies : List Reply
  /-- The directive that the line becomes. -/
  directive? : Option Directive

/-- The lines that enter the preamble in the hearings. -/
def enteredLines (hearings : List Hearing) : List String :=
  (hearings.filterMap Hearing.directive?).map Directive.text

namespace Hearing

/-- After the preamble lines `before` the hearing goes as it should. -/
structure Proper (before : List String) (h : Hearing) : Prop where
  /-- Nothing is asked about a package that the preamble loads. -/
  not_loaded : ∀ reply ∈ h.replies, ∀ other ∈ before, reply.1 ∉ requested other
  /-- A request that is new and overlaps no line leads to questions about its packages. -/
  asked : ∀ name, LineClass.of h.line = .request name → h.line ∉ before →
    (∀ other ∈ before, overlaps other h.line = false) → Asked (packages name) h.replies
  /-- No other line leads to any question. -/
  silent : ((∀ name, LineClass.of h.line ≠ .request name) ∨ h.line ∈ before
    ∨ ∃ other ∈ before, overlaps other h.line = true) → h.replies = []
  /-- A request becomes a directive exactly if all its packages were asked about and available. -/
  granted_iff : ∀ name, LineClass.of h.line = .request name →
    (h.directive?.isSome ↔ h.replies = allGranted (packages name))
  text_eq : ∀ x, h.directive? = some x → x.text = h.line

variable {before : List String} {line name : String} {replies : List Reply}
  {directive? : Option Directive}

theorem proper_of_not_request (hclass : ∀ name, LineClass.of line ≠ .request name)
    (htext : ∀ x, directive? = some x → x.text = line) :
  Proper before { line, replies := [], directive? }
  := by
  constructor
  · exact List.forall_mem_nil _
  · intro name h
    exact absurd h (hclass name)
  · intro _
    rfl
  · intro name h
    exact absurd h (hclass name)
  · exact htext

/-- A request that is barred by the preamble is passed over. -/
theorem proper_of_barred
    (hbarred : line ∈ before ∨ ∃ other ∈ before, overlaps other line = true) :
  Proper before { line, replies := [], directive? := none }
  := by
  constructor
  · exact List.forall_mem_nil _
  · intro name _ hline hapart
    rcases hbarred with hmem | ⟨other, hother, hoverlaps⟩
    · exact absurd hmem hline
    · rw [hapart other hother] at hoverlaps
      cases hoverlaps
  · intro _
    rfl
  · intro name _
    exact iff_of_false Bool.false_ne_true (allGranted_packages_ne_nil name).symm
  · intro x hx
    cases hx

theorem proper_of_asked (hclass : LineClass.of line = .request name) (hline : line ∉ before)
    (hapart : ∀ other ∈ before, overlaps other line = false)
    (hasked : Asked (packages name) replies)
    (hgranted : directive?.isSome ↔ replies = allGranted (packages name))
    (htext : ∀ x, directive? = some x → x.text = line) :
  Proper before { line, replies, directive? }
  := by
  constructor
  · intro reply hreply other hother hloaded
    have hrequested : reply.1 ∈ requested line := by
      rw [requested_of_request hclass]
      exact hasked.mem reply hreply
    exact overlaps_eq_false_iff.mp (hapart other hother) hloaded hrequested
  · intro name' hclass' _ _
    cases hclass.symm.trans hclass'
    exact hasked
  · rintro (hother | hmem | ⟨other, hother, hoverlaps⟩)
    · exact absurd hclass (hother name)
    · exact absurd hmem hline
    · rw [hapart other hother] at hoverlaps
      cases hoverlaps
  · intro name' hclass'
    cases hclass.symm.trans hclass'
    exact hgranted
  · exact htext

theorem Proper.exists_directive {h : Hearing} (hproper : h.Proper before)
    (hclass : LineClass.of h.line = .request name)
    (hgranted : h.replies = allGranted (packages name)) :
  ∃ x, h.directive? = some x ∧ x.text = h.line
  := by
  obtain ⟨x, hx⟩ := Option.isSome_iff_exists.mp ((hproper.granted_iff name hclass).mpr hgranted)
  exact ⟨x, hx, hproper.text_eq x hx⟩

end Hearing

/-! ### Hearings one after another -/

/-- Each hearing is proper after the lines `before` and the lines that those before it have
added. -/
inductive Hearings : List String → List Hearing → Prop
  | nil {before : List String} : Hearings before []
  | cons {before : List String} {h : Hearing} {hearings : List Hearing} (head : h.Proper before)
      (tail : Hearings (before ++ enteredLines [h]) hearings) :
    Hearings before (h :: hearings)

theorem enteredLines_append (hearings more : List Hearing) :
  enteredLines (hearings ++ more) = enteredLines hearings ++ enteredLines more
  := by
  simp [enteredLines]

namespace Hearings

variable {before : List String} {hearings more : List Hearing}

theorem append (h : Hearings before hearings)
    (h' : Hearings (before ++ enteredLines hearings) more) :
  Hearings before (hearings ++ more)
  := by
  induction h with
  | nil => simpa [enteredLines] using h'
  | cons head tail ih =>
    apply cons head
    apply ih
    rw [List.append_assoc, ← enteredLines_append]
    exact h'

theorem proper {earlier later : List Hearing} {h : Hearing}
    (hall : Hearings before (earlier ++ h :: later)) :
  h.Proper (before ++ enteredLines earlier)
  := by
  induction earlier generalizing before with
  | nil =>
    cases hall with
    | cons head _ => simpa [enteredLines] using head
  | cons first earlier ih =>
    cases hall with
    | cons _ tail =>
      rw [← List.singleton_append, enteredLines_append, ← List.append_assoc]
      exact ih tail

end Hearings

/-- Lines that take one document to another, and the hearings that they get. -/
structure Minutes (d : Document) (lines : List String) (replies : List Reply)
    (hearings : List Hearing) (d' : Document) : Prop where
  proper : Hearings d.preamble hearings
  lines : hearings.map Hearing.line = lines
  replies : hearings.flatMap Hearing.replies = replies
  fixed : d'.fixed = d.fixed
  custom : d'.custom = d.custom ++ hearings.filterMap Hearing.directive?

namespace Minutes

variable {d d₁ d₂ : Document} {lines others : List String} {replies answered : List Reply}
  {hearings more : List Hearing}

theorem preamble (h : Minutes d lines replies hearings d₁) :
  d₁.preamble = d.preamble ++ enteredLines hearings
  := by
  simp [Document.preamble, enteredLines, h.fixed, h.custom]

theorem refl (d : Document) :
  Minutes d [] [] [] d
  := by
  constructor
  · exact .nil
  · rfl
  · rfl
  · rfl
  · simp

theorem trans (h : Minutes d lines replies hearings d₁)
    (h' : Minutes d₁ others answered more d₂) :
  Minutes d (lines ++ others) (replies ++ answered) (hearings ++ more) d₂
  := by
  constructor
  · apply h.proper.append
    rw [← h.preamble]
    exact h'.proper
  · rw [List.map_append, h.lines, h'.lines]
  · rw [List.flatMap_append, h.replies, h'.replies]
  · rw [h'.fixed, h.fixed]
  · rw [h'.custom, h.custom, List.filterMap_append, List.append_assoc]

theorem appendBody (h : Minutes d lines replies hearings d₁) (body : List String) :
  Minutes d lines replies hearings (d₁.appendBody body)
  := ⟨h.proper, h.lines, h.replies, h.fixed, h.custom⟩

theorem of_proper {h : Hearing} (hproper : h.Proper d.preamble) (hfixed : d₁.fixed = d.fixed)
    (hcustom : d₁.custom = d.custom ++ h.directive?.toList) :
  Minutes d [h.line] h.replies [h] d₁
  := by
  constructor
  · exact .cons hproper .nil
  · rfl
  · simp
  · exact hfixed
  · cases hx : h.directive? <;> simp [hcustom, hx]

end Minutes

namespace Merge

variable {σ : Type} (answer : σ → String → Bool × σ)

/-- Packages are asked about in order, and they are all available exactly if each of them is said
to be. -/
theorem asked_allAvailable (names : List String) (s : σ) :
  Asked names ((allAvailable names).transcript answer s)
    ∧ (((allAvailable names).run answer s).1 = true
      ↔ (allAvailable names).transcript answer s = allGranted names)
  := by
  induction names generalizing s with
  | nil => exact ⟨.nil, iff_of_true rfl rfl⟩
  | cons name names ih =>
    obtain ⟨hrest, hall⟩ := ih (answer s name).2
    rw [allAvailable, Dialogue.bind_eq, Dialogue.transcript_bind, Dialogue.run_bind,
      Dialogue.transcript_question]
    simp only [Dialogue.question, Dialogue.run, allGranted, List.map_cons, List.singleton_append]
    cases answered : (answer s name).1 with
    | false => exact ⟨.refused, by simp [Dialogue.run]⟩
    | true =>
      simp only [if_true, List.cons.injEq, true_and]
      exact ⟨.granted hrest, hall⟩

/-- A declaration line gets a proper hearing. -/
theorem exists_hearing (origin line : String) {d : Document} (hd : d.WellFormed) (s : σ) :
  ∃ h, Minutes d [line] ((addDeclaration origin d line).transcript answer s) [h]
    ((addDeclaration origin d line).run answer s).1
  := by
  have hdeclares : d.declares line = true ↔ line ∈ d.preamble := by simp [Document.declares]
  have hunchanged : d.custom = d.custom ++ (none : Option Directive).toList := by simp
  cases hclass : LineClass.of line with
  | discarded =>
    simp only [addDeclaration, hclass]
    use { line, replies := [], directive? := none }
    exact .of_proper (Hearing.proper_of_not_request (by simp [hclass]) (by simp)) rfl hunchanged
  | unparseable =>
    simp only [addDeclaration, hclass]
    use { line, replies := [], directive? := none }
    exact .of_proper (Hearing.proper_of_not_request (by simp [hclass]) (by simp)) rfl hunchanged
  | other =>
    simp only [addDeclaration, hclass]
    split
    · use { line, replies := [], directive? := none }
      exact .of_proper (Hearing.proper_of_not_request (by simp [hclass]) (by simp)) rfl hunchanged
    · use { line, replies := [], directive? := some (.plain line) }
      exact .of_proper (Hearing.proper_of_not_request (by simp [hclass]) (by simp)) rfl rfl
  | request name =>
    simp only [addDeclaration, hclass, hd.loader?_eq hclass]
    split
    · next hmem =>
      use { line, replies := [], directive? := none }
      exact .of_proper (Hearing.proper_of_barred (.inl (hdeclares.mp hmem))) rfl hunchanged
    · next hnew =>
      split
      · next kept hkept =>
        have hoverlaps : ∃ other ∈ d.preamble, overlaps other line = true :=
          ⟨kept, List.mem_of_find?_eq_some hkept, by simpa using List.find?_some hkept⟩
        use { line, replies := [], directive? := none }
        exact .of_proper (Hearing.proper_of_barred (.inr hoverlaps)) rfl hunchanged
      · next hnone =>
        have hapart : ∀ other ∈ d.preamble, overlaps other line = false := by
          simpa using List.find?_eq_none.mp hnone
        obtain ⟨hasked, hall⟩ := asked_allAvailable answer (packages name) s
        have hnew : line ∉ d.preamble := hdeclares.not.mp hnew
        rw [Dialogue.bind_eq, Dialogue.transcript_bind, Dialogue.run_bind]
        cases hresult : ((allAvailable (packages name)).run answer s).1 with
        | false =>
          use { line, replies := (allAvailable (packages name)).transcript answer s
                directive? := none }
          simp only [Bool.false_eq_true, if_false, Dialogue.pure_eq, Dialogue.transcript_done,
            List.append_nil]
          exact .of_proper (Hearing.proper_of_asked hclass hnew hapart hasked
            (by simp [← hall, hresult]) (by simp)) rfl hunchanged
        | true =>
          use { line, replies := (allAvailable (packages name)).transcript answer s
                directive? := some (.request name line) }
          simp only [if_true, Dialogue.pure_eq, Dialogue.transcript_done, List.append_nil]
          exact .of_proper (Hearing.proper_of_asked hclass hnew hapart hasked
            (by simp [← hall, hresult]) (by simp)) rfl rfl

/-- The lines take one document to the other in proper hearings, in which the replies are given. -/
def HeardBetween (d : Document) (lines : List String) (replies : List Reply) (d' : Document) :
    Prop :=
  d.WellFormed → d'.WellFormed ∧ ∃ hearings, Minutes d lines replies hearings d'

theorem heardBetween_refl (d : Document) :
  HeardBetween d [] [] d
  := fun hd => ⟨hd, [], .refl d⟩

theorem HeardBetween.trans {d d₁ d₂ : Document} {lines others : List String}
    {replies answered : List Reply} (h : HeardBetween d lines replies d₁)
    (h' : HeardBetween d₁ others answered d₂) :
  HeardBetween d (lines ++ others) (replies ++ answered) d₂
  := by
  intro hd
  obtain ⟨hd₁, hearings, hminutes⟩ := h hd
  obtain ⟨hd₂, more, hmore⟩ := h' hd₁
  exact ⟨hd₂, hearings ++ more, hminutes.trans hmore⟩

theorem heardBetween_addDeclaration (origin : String) (d : Document) (line : String) (s : σ) :
  HeardBetween d [line] ((addDeclaration origin d line).transcript answer s)
    ((addDeclaration origin d line).run answer s).1
  := by
  intro hd
  obtain ⟨h, hminutes⟩ := exists_hearing answer origin line hd s
  exact ⟨(addDeclaration_wellFormed origin d line hd).run_fst answer s, [h], hminutes⟩

theorem heardBetween_addFragment (d : Document) (f : Fragment) (s : σ) :
  HeardBetween d f.preamble ((addFragment d f).transcript answer s)
    ((addFragment d f).run answer s).1
  := by
  intro hd
  obtain ⟨hd', hearings, hminutes⟩ := Dialogue.foldlM_transcript answer heardBetween_refl
    (heardBetween_addDeclaration answer f.origin) HeardBetween.trans f.preamble d s hd
  rw [addFragment, Dialogue.bind_eq, Dialogue.transcript_bind, Dialogue.run_bind]
  refine ⟨hd'.appendBody _, hearings, ?_⟩
  rw [Dialogue.pure_eq, Dialogue.transcript_done, List.append_nil]
  exact hminutes.appendBody _

/-- Fragments are heard one after another. -/
theorem heardBetween_fragments (fragments : List Fragment) (d : Document) (s : σ) :
  HeardBetween d (fragments.flatMap Fragment.preamble)
    ((fragments.foldlM addFragment d).transcript answer s)
    ((fragments.foldlM addFragment d).run answer s).1
  := by
  apply Dialogue.foldlM_transcript answer
    (P := fun d fs => HeardBetween d (fs.flatMap Fragment.preamble))
  · exact heardBetween_refl
  · intro d f s
    rw [List.flatMap_singleton]
    exact heardBetween_addFragment answer d f s
  · intro d d' d'' fs gs replies answered h h'
    rw [List.flatMap_append]
    exact h.trans h'

/-- The declaration lines of the fragments have got these hearings, in which the replies were given
and the directives of the document were found. -/
structure Heard (fragments : List Fragment) (replies : List Reply) (d : Document)
    (hearings : List Hearing) : Prop where
  lines : hearings.map Hearing.line = fragments.flatMap Fragment.preamble
  replies : hearings.flatMap Hearing.replies = replies
  custom : hearings.filterMap Hearing.directive? = d.custom
  /-- The preamble of a hearing are the fixed lines and those that earlier hearings have added. -/
  proper : ∀ earlier h later, hearings = earlier ++ h :: later →
    h.Proper (fixedPreamble ++ enteredLines earlier)
  /-- The packages of a directive are not asked about again. -/
  once : ∀ earlier h later x, hearings = earlier ++ h :: later → h.directive? = some x →
    ∀ reply ∈ later.flatMap Hearing.replies, reply.1 ∉ requested x.text
  /-- A request is declared exactly if in the hearing of some line with this text all its packages
  were asked about and available. -/
  declared_iff : ∀ line name, LineClass.of line = .request name →
    (line ∈ d.custom.map Directive.text
      ↔ ∃ h ∈ hearings, h.line = line ∧ h.replies = allGranted (packages name))

theorem heard_of_minutes {fragments : List Fragment} {replies : List Reply} {d : Document}
    {hearings : List Hearing}
    (h : Minutes .empty (fragments.flatMap Fragment.preamble) replies hearings d) :
  Heard fragments replies d hearings
  := by
  have hcustom : hearings.filterMap Hearing.directive? = d.custom := h.custom.symm
  have hproper : ∀ earlier h later, hearings = earlier ++ h :: later →
      h.Proper (fixedPreamble ++ enteredLines earlier) := by
    rintro earlier first later rfl
    have hempty : Document.empty.preamble = fixedPreamble := List.append_nil fixedPreamble
    rw [← hempty]
    exact h.proper.proper
  constructor
  case lines => exact h.lines
  case replies => exact h.replies
  case custom => exact hcustom
  case proper => exact hproper
  case once =>
    rintro earlier first later x rfl hx reply hreply
    obtain ⟨other, hother, hmem⟩ := List.mem_flatMap.mp hreply
    obtain ⟨between, rest, rfl⟩ := List.append_of_mem hother
    -- When the later hearing comes, the directive is among the lines that have entered.
    apply (hproper (earlier ++ first :: between) other rest (by simp)).not_loaded reply hmem
    apply List.mem_append_right
    apply List.mem_map_of_mem
    exact List.mem_filterMap.mpr ⟨first, by simp, hx⟩
  case declared_iff =>
    intro line name hclass
    rw [← hcustom]
    constructor
    · intro hline
      obtain ⟨x, hx, rfl⟩ := List.mem_map.mp hline
      obtain ⟨first, hfirst, hdirective⟩ := List.mem_filterMap.mp hx
      obtain ⟨earlier, later, hsplit⟩ := List.append_of_mem hfirst
      have hfirstProper := hproper earlier first later hsplit
      have htext := hfirstProper.text_eq x hdirective
      refine ⟨first, hfirst, htext.symm, ?_⟩
      rw [htext] at hclass
      exact (hfirstProper.granted_iff name hclass).mp (by simp [hdirective])
    · rintro ⟨first, hfirst, rfl, hgranted⟩
      obtain ⟨earlier, later, hsplit⟩ := List.append_of_mem hfirst
      obtain ⟨x, hx, htext⟩ := (hproper earlier first later hsplit).exists_directive hclass hgranted
      rw [← htext]
      exact List.mem_map_of_mem (List.mem_filterMap.mpr ⟨first, hfirst, hx⟩)

/-- Whatever a merge is told about packages, also if it is told something else each time, its
questions are those of proper hearings, and it asks nothing if it fails. -/
theorem heard_of_merge (fragments : List Fragment) (s : σ) :
  (∀ malformed, ((merge fragments).run answer s).1 = .error malformed →
      (merge fragments).transcript answer s = [])
    ∧ ∀ d, ((merge fragments).run answer s).1 = .ok d →
      ∃ hearings, Heard fragments ((merge fragments).transcript answer s) d hearings
  := by
  rw [merge]
  split
  · constructor
    · intro _ _
      rfl
    · intro d hd
      cases hd
  · obtain ⟨-, hearings, hminutes⟩ :=
      heardBetween_fragments answer fragments .empty s Document.wellFormed_empty
    rw [← bind_pure_comp, Dialogue.bind_eq, Dialogue.transcript_bind, Dialogue.run_bind]
    constructor
    · intro malformed herror
      cases herror
    · rintro d ⟨⟩
      use hearings
      simp only [Dialogue.pure_eq, Dialogue.transcript_done, List.append_nil]
      exact heard_of_minutes hminutes

/-- Surroundings that have a package from the second question about it on. -/
def fromSecond (known : List String) (package : String) : Bool × List String :=
  (known.contains package, package :: known)

/-- Two packages are asked about again until both are there, and not again after that; the package
that one line names twice is asked about twice. -/
theorem heard_of_merge_again :
  let fragments : List Fragment := [
    { origin := "a"
      preamble := ["\\usepackage\x7bp, q\x7d", "\\usepackage\x7bp, q\x7d",
        "\\usepackage\x7bp, q\x7d"] },
    { origin := "b"
      preamble := ["\\usepackage\x7bp, q\x7d", "\\usepackage\x7bp\x7d",
        "\\usepackage\x7bq, ulem\x7d", "\\usepackage\x7br, r\x7d",
        "\\usepackage\x7br, r\x7d"] }]
  let replies : List Reply := [⟨"p", false⟩, ⟨"p", true⟩, ⟨"q", false⟩, ⟨"p", true⟩, ⟨"q", true⟩,
    ⟨"r", false⟩, ⟨"r", true⟩, ⟨"r", true⟩]
  let d : Document := {
    fixed := fixedPreamble
    custom := [.request "p, q" "\\usepackage\x7bp, q\x7d",
      .request "r, r" "\\usepackage\x7br, r\x7d"]
    body := ["", ""]
    diagnostics := [.unavailable "a" "p, q" "\\usepackage\x7bp, q\x7d",
      .unavailable "a" "p, q" "\\usepackage\x7bp, q\x7d",
      .conflict "b" "p" "\\usepackage\x7bp, q\x7d" "\\usepackage\x7bp\x7d",
      .conflict "b" "q, ulem" "\\usepackage\x7bulem\x7d" "\\usepackage\x7bq, ulem\x7d",
      .unavailable "b" "r, r" "\\usepackage\x7br, r\x7d"] }
  ((merge fragments).run fromSecond []).1 = .ok d ∧ ∃ hearings, Heard fragments replies d hearings
  := by
  intro fragments replies d
  have h : ((merge fragments).run fromSecond []).1 = .ok d := by decide +kernel
  have hreplies : (merge fragments).transcript fromSecond [] = replies := by decide +kernel
  use h
  rw [← hreplies]
  exact (heard_of_merge fromSecond fragments []).2 d h

end Merge

end Bindery
