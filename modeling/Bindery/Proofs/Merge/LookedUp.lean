import Bindery.Lookup
import Bindery.Machine
import Bindery.Proofs.Merge.Hearing

/-!
# What merging looks up

A merge whose questions are left to a program starts it with names that it reads from preamble
lines, so with text that anybody may have written.  `IsHarmless` says what a name must be to come
that far: short, made of a few ASCII characters, and no option.  A name that is not harmless is
refused without a call (`LookupConfig.transcript_isAvailable`), and the refusal counts like that of
the program (`LookupConfig.run_isAvailable_eq_true_iff`).  So the calls of a merge are harmless,
each for a part of a request of some line, and the document requests nothing but what the program
has found (`guarded_of_merge`).
-/

namespace Bindery

/-! ### Harmless names -/

/-- A name that a program takes for a name: not too long, of ASCII letters, digits and four other
characters, and not the start of an option. -/
structure IsHarmless (name : String) : Prop where
  ne_empty : name ≠ ""
  short : name.utf8ByteSize ≤ 128
  plain : ∀ c ∈ name.toList, c.isAlphanum = true ∨ c ∈ ['-', '_', '.', '+']
  not_option : name.toList.head? ≠ some '-'

theorem isPackageChar_iff (c : Char) :
  isPackageChar c = true ↔ c.isAlphanum = true ∨ c ∈ ['-', '_', '.', '+']
  := by
  have halphanum : c.isAlphanum = (c.isUpper || c.isLower || c.isDigit) := rfl
  have hupper : c.isUpper = true ↔ 'A' ≤ c ∧ c ≤ 'Z' := decide_eq_true_iff
  have hlower : c.isLower = ('a' ≤ c && c ≤ 'z') := rfl
  have hdigit : c.isDigit = ('0' ≤ c && c ≤ '9') := rfl
  simp only [isPackageChar, halphanum, Bool.or_eq_true, hupper, hlower, hdigit, Bool.and_eq_true,
    decide_eq_true_eq, beq_iff_eq, List.mem_cons, List.not_mem_nil, or_false]
  grind

/-- The names that are looked up are the harmless ones. -/
theorem isPackageName_iff {name : String} :
  isPackageName name = true ↔ IsHarmless name
  := by
  simp only [isPackageName, Bool.and_eq_true, Bool.not_eq_true', decide_eq_true_eq,
    List.all_eq_true, isPackageChar_iff, bne_iff_ne, String.isEmpty_eq_false_iff]
  constructor
  · rintro ⟨⟨⟨hempty, hshort⟩, hplain⟩, hoption⟩
    exact ⟨hempty, hshort, hplain, hoption⟩
  · rintro ⟨hempty, hshort, hplain, hoption⟩
    exact ⟨⟨⟨hempty, hshort⟩, hplain⟩, hoption⟩

/-! ### Looking one name up -/

namespace LookupConfig

variable {σ : Type} (answer : σ → (action : Action) → action.Answer × σ) (c : LookupConfig)

/-- A name is looked up by one call, and only if it is harmless. -/
theorem transcript_isAvailable (name : String) (s : σ) :
  (c.isAvailable name).transcript answer s = if isPackageName name then
    [⟨.launch (c.invocation name), (answer s (.launch (c.invocation name))).1⟩] else []
  := by
  unfold isAvailable
  split
  · rw [Dialogue.bind_eq, act, Dialogue.transcript_bind, Dialogue.transcript_question]
    split <;> rfl
  · rfl

/-- A package is available exactly if its name is harmless and the program ends with status 0. -/
theorem run_isAvailable_eq_true_iff (name : String) (s : σ) :
  ((c.isAvailable name).run answer s).1 = true
    ↔ IsHarmless name ∧ (answer s (.launch (c.invocation name))).1 = .ok (.exited 0)
  := by
  rw [← isPackageName_iff]
  unfold isAvailable
  split
  · next hname =>
    rw [Dialogue.bind_eq, act, Dialogue.run_bind]
    simp only [Dialogue.question, Dialogue.run, hname, true_and]
    split
    · next code hcode =>
      simp [hcode, Dialogue.run]
    · next hother =>
      simp only [Dialogue.pure_eq, Dialogue.run, Bool.false_eq_true, false_iff]
      exact hother 0
  · next hname => simp [hname, Dialogue.run]

/-- The surroundings as one who is asked about packages and looks them up. -/
def answering (s : σ) (name : String) : Bool × σ :=
  (c.isAvailable name).run answer s

variable {α : Type} (x : Inquiry α) (s : σ)

/-- What is done to look packages up are calls with harmless names that were asked about. -/
theorem exists_reply_of_entry {entry : (action : Action) × action.Answer}
    (h : entry ∈ (x.interpret c.isAvailable).transcript answer s) :
  ∃ reply ∈ x.transcript (c.answering answer) s,
    entry.1 = .launch (c.invocation reply.1) ∧ IsHarmless reply.1
  := by
  rw [Dialogue.transcript_interpret] at h
  obtain ⟨⟨name, s'⟩, hmoment, hentry⟩ := List.mem_flatMap.mp h
  rw [transcript_isAvailable] at hentry
  split at hentry
  · next hname =>
    use ⟨name, (c.answering answer s' name).1⟩
    rw [Dialogue.transcript_eq_map_moments, List.mem_singleton.mp hentry]
    exact ⟨List.mem_map.mpr ⟨_, hmoment, rfl⟩, rfl, isPackageName_iff.mp hname⟩
  · cases hentry

/-- A package that is said to be available has a harmless name, and the program has found it. -/
theorem entry_of_granted {name : String}
    (h : (⟨name, true⟩ : (_ : String) × Bool) ∈ x.transcript (c.answering answer) s) :
  IsHarmless name ∧ ⟨.launch (c.invocation name), .ok (.exited 0)⟩
    ∈ (x.interpret c.isAvailable).transcript answer s
  := by
  rw [Dialogue.transcript_eq_map_moments] at h
  obtain ⟨⟨asked, s'⟩, hmoment, heq⟩ := List.mem_map.mp h
  obtain ⟨rfl, hanswer⟩ : asked = name ∧ (c.answering answer s' asked).1 = true := by
    simpa using heq
  obtain ⟨hharmless, hzero⟩ := (c.run_isAvailable_eq_true_iff answer asked s').mp hanswer
  use hharmless
  rw [Dialogue.transcript_interpret]
  apply List.mem_flatMap.mpr
  use (asked, s'), hmoment
  rw [transcript_isAvailable, if_pos (isPackageName_iff.mpr hharmless), hzero]
  exact List.mem_singleton_self _

end LookupConfig

/-! ### Questions and requests -/

/-- What is asked in a proper hearing are packages that its line requests. -/
theorem Hearing.Proper.exists_request {before : List String} {h : Hearing} {reply : Reply}
    (hproper : h.Proper before) (hreply : reply ∈ h.replies) :
  ∃ names, LineClass.of h.line = .request names ∧ reply.1 ∈ packages names
  := by
  have hasked := mt hproper.silent (List.ne_nil_of_mem hreply)
  push Not at hasked
  obtain ⟨⟨names, hclass⟩, hnew, hapart⟩ := hasked
  have hapart : ∀ other ∈ before, overlaps other h.line = false := by simpa using hapart
  exact ⟨names, hclass, (hproper.asked names hclass hnew hapart).mem reply hreply⟩

namespace Merge.Heard

variable {fragments : List Fragment} {replies : List Reply} {d : Document} {hearings : List Hearing}

/-- What is asked are packages that the declaration lines request. -/
theorem exists_request (h : Heard fragments replies d hearings) {reply : Reply}
    (hreply : reply ∈ replies) :
  ∃ f ∈ fragments, ∃ line ∈ f.preamble, ∃ names, LineClass.of line = .request names
    ∧ reply.1 ∈ packages names
  := by
  rw [← h.replies] at hreply
  obtain ⟨first, hfirst, hmem⟩ := List.mem_flatMap.mp hreply
  obtain ⟨earlier, later, hsplit⟩ := List.append_of_mem hfirst
  have hline := List.mem_map_of_mem (f := Hearing.line) hfirst
  rw [h.lines] at hline
  obtain ⟨f, hf, hline⟩ := List.mem_flatMap.mp hline
  exact ⟨f, hf, first.line, hline, (h.proper earlier first later hsplit).exists_request hmem⟩

/-- All packages that a directive requests were asked about and available. -/
theorem granted (h : Heard fragments replies d hearings) (hd : d.WellFormed) {x : Directive}
    (hx : x ∈ d.custom) (hkind : x.kind = .capability) :
  ∃ names, x.capability = some names ∧ LineClass.of x.text = .request names
    ∧ ∀ package ∈ packages names, (⟨package, true⟩ : Reply) ∈ replies
  := by
  obtain ⟨names, hcapability, hname⟩ := (hd.consistent x hx).capability_of_request hkind
  have hclass : LineClass.of x.text = .request names := LineClass.of_eq_request_iff.mpr hname
  obtain ⟨first, hfirst, -, hgranted⟩ :=
    (h.declared_iff x.text names hclass).mp (List.mem_map_of_mem hx)
  use names, hcapability, hclass
  intro package hpackage
  rw [← h.replies]
  apply List.mem_flatMap.mpr
  use first, hfirst
  rw [hgranted]
  exact List.mem_map_of_mem hpackage

end Merge.Heard

/-! ### Merging -/

namespace Merge

section Answers

variable {σ : Type} (answer : σ → String → Bool × σ)

/-- A merge fails without a question, or it ends with a well-formed document whose lines have got
hearings. -/
theorem refused_or_heard (fragments : List Fragment) (s : σ) :
  ((∃ malformed, ((merge fragments).run answer s).1 = .error malformed)
      ∧ (merge fragments).transcript answer s = [])
    ∨ ∃ d hearings, ((merge fragments).run answer s).1 = .ok d ∧ d.WellFormed
      ∧ Heard fragments ((merge fragments).transcript answer s) d hearings
  := by
  rw [merge]
  split
  · exact .inl ⟨⟨_, rfl⟩, rfl⟩
  · obtain ⟨hd, hearings, hminutes⟩ :=
      heardBetween_fragments answer fragments .empty s Document.wellFormed_empty
    rw [← bind_pure_comp, Dialogue.bind_eq, Dialogue.transcript_bind, Dialogue.run_bind]
    refine .inr ⟨_, hearings, rfl, hd, ?_⟩
    simp only [Dialogue.pure_eq, Dialogue.transcript_done, List.append_nil]
    exact heard_of_minutes hminutes

end Answers

/-- What was done while the fragments were merged is harmless, and the document requests only what
was found. -/
structure Guarded (c : LookupConfig) (fragments : List Fragment)
    (entries : List ((action : Action) × action.Answer))
    (result : Except MalformedFragment Document) : Prop where
  /-- Nothing is done but to look up harmless names that declaration lines request. -/
  launched : ∀ entry ∈ entries, ∃ name,
    entry.1 = .launch { program := c.program, arguments := [name ++ c.suffix] } ∧ IsHarmless name
      ∧ ∃ f ∈ fragments, ∃ line ∈ f.preamble, ∃ names, LineClass.of line = .request names
        ∧ name ∈ packages names
  /-- The packages of a directive have harmless names, and the program has found them. -/
  found : ∀ d, result = .ok d → ∀ x ∈ d.custom, x.kind = .capability →
    ∃ names, x.capability = some names ∧ LineClass.of x.text = .request names
      ∧ ∀ name ∈ packages names, IsHarmless name
        ∧ ⟨.launch { program := c.program, arguments := [name ++ c.suffix] }, .ok (.exited 0)⟩
          ∈ entries

/-- Whatever the fragments hold, and whatever becomes of the calls, a merge that looks packages up
starts the program with one harmless name at a time, which is part of a request of some declaration
line, and the document requests only packages that the program has found. -/
theorem guarded_of_merge {σ : Type} (answer : σ → (action : Action) → action.Answer × σ)
    (c : LookupConfig) (fragments : List Fragment) (s : σ) :
  let job := (merge fragments).interpret c.isAvailable
  Guarded c fragments (job.transcript answer s) (job.run answer s).1
  := by
  intro job
  have hrun : job.run answer s = (merge fragments).run (c.answering answer) s :=
    Dialogue.run_interpret answer _ _ s
  rcases refused_or_heard (c.answering answer) fragments s with
    ⟨⟨malformed, hresult⟩, hsilent⟩ | ⟨d, hearings, hresult, hd, hheard⟩
  · -- A merge that fails has asked nothing, and so looked nothing up.
    constructor
    · intro entry hentry
      obtain ⟨reply, hreply, -⟩ := c.exists_reply_of_entry answer _ s hentry
      rw [hsilent] at hreply
      cases hreply
    · intro d hd
      rw [hrun, hresult] at hd
      cases hd
  · constructor
    · intro entry hentry
      obtain ⟨reply, hreply, hlaunch, hharmless⟩ := c.exists_reply_of_entry answer _ s hentry
      exact ⟨reply.1, hlaunch, hharmless, hheard.exists_request hreply⟩
    · rw [hrun, hresult]
      rintro d ⟨⟩ x hx hkind
      obtain ⟨names, hcapability, hclass, hgranted⟩ := hheard.granted hd hx hkind
      use names, hcapability, hclass
      intro name hname
      exact c.entry_of_granted answer _ s (hgranted name hname)

/-- The program that finds everything is asked for two packages and for the harmless one of two
others; a file elsewhere and an option do not reach it, and are not requested. -/
theorem guarded_of_merge_harmful :
  let c : LookupConfig := {}
  let fragments : List Fragment := [{
    origin := "a"
    preamble := ["\\usepackage\x7b../../p\x7d", "\\usepackage[x]\x7bp, q\x7d",
      "\\usepackage\x7b-all\x7d", "\\usepackage\x7br,s;t\x7d"] }]
  let d : Document := {
    fixed := fixedPreamble
    custom := [.request "p, q" "\\usepackage[x]\x7bp, q\x7d"]
    body := [""]
    diagnostics := [.unavailable "a" "../../p" "\\usepackage\x7b../../p\x7d",
      .unavailable "a" "-all" "\\usepackage\x7b-all\x7d",
      .unavailable "a" "r,s;t" "\\usepackage\x7br,s;t\x7d"] }
  let answer := Machine.answer { programs := fun _ _ T => (.ok (.exited 0), T) }
  let m : Machine := { tree := {} }
  let job := (merge fragments).interpret c.isAvailable
  (job.run answer m).1 = .ok d
    ∧ (job.transcript answer m).map Sigma.fst
      = (["p.sty", "q.sty", "r.sty"].map fun file =>
        .launch { program := "kpsewhich", arguments := [file] })
    ∧ Guarded c fragments (job.transcript answer m) (.ok d)
  := by
  intro c fragments d answer m job
  have hresult : (job.run answer m).1 = .ok d := by decide +kernel
  use hresult, by decide +kernel
  rw [← hresult]
  exact guarded_of_merge answer c fragments m

end Merge

end Bindery
