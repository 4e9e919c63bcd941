import Bindery.Proofs.Merge.Content
import Bindery.Proofs.Transcript

/-!
# Refused merges

Fragments are refused for the first of their lines that is `Faulty`: fragments are searched in their
order, and in each of them declarations before content.  `Refused` says which line that is and what
is reported of it.  The search stops at the line (`firstFault?_eq_some_iff`), and it comes before
all questions: a merge fails exactly with what is reported of a refused line, and then nothing was
asked (`error_merge_iff`).
-/

namespace Bindery

open Text (IsSingleLine)

/-! ### Faulty lines -/

/-- A line that holds a line feed, a carriage return or NUL. -/
def Faulty (line : String) : Prop :=
  '\n' ∈ line.toList ∨ '\x0d' ∈ line.toList ∨ '\x00' ∈ line.toList

theorem not_faulty_iff {line : String} :
  ¬ Faulty line ↔ IsSingleLine line.toList
  := by
  constructor
  · intro h c hc
    refine ⟨?_, ?_, ?_⟩
    · rintro rfl
      exact h (Or.inl hc)
    · rintro rfl
      exact h (Or.inr (Or.inl hc))
    · rintro rfl
      exact h (Or.inr (Or.inr hc))
  · rintro h (hfeed | hreturn | hnul)
    · exact h.no_feed hfeed
    · exact h.no_return hreturn
    · exact (h _ hnul).2.2 rfl

/-- A faulty line has the fault of a line break if it holds one, whether or not it also holds NUL,
and that of NUL otherwise. -/
theorem LineFault.of?_eq_some_iff {line : String} {fault : LineFault} :
  LineFault.of? line.toList = some fault ↔ Faulty line
    ∧ fault = if '\n' ∈ line.toList ∨ '\x0d' ∈ line.toList then .lineBreak else .nul
  := by
  simp only [LineFault.of?, Bool.or_eq_true, List.contains_iff_mem]
  by_cases hbreak : '\n' ∈ line.toList ∨ '\x0d' ∈ line.toList
  · have hfaulty : Faulty line := hbreak.imp_right Or.inl
    simp [hbreak, hfaulty, eq_comm]
  · have hfaulty : Faulty line ↔ '\x00' ∈ line.toList := by
      rw [Faulty, ← or_assoc]
      exact or_iff_right hbreak
    simp [hbreak, hfaulty, eq_comm]

/-- The search for a fault stops at the first line that has one. -/
theorem firstFault?_eq_some_iff {first number : Nat} {fault : LineFault} {lines : List String} :
  firstFault? first lines = some (number, fault) ↔ ∃ before line after,
    lines = before ++ line :: after ∧ (∀ l ∈ before, ¬ Faulty l) ∧ number = first + before.length
      ∧ LineFault.of? line.toList = some fault
  := by
  induction lines generalizing first with
  | nil => simp [firstFault?]
  | cons l lines ih =>
    rw [firstFault?]
    cases hl : LineFault.of? l.toList with
    | some found =>
      constructor
      · rintro ⟨⟩
        exact ⟨[], l, lines, rfl, List.forall_mem_nil _, rfl, hl⟩
      · rintro ⟨before, line, after, hlines, hbefore, rfl, hline⟩
        cases before with
        | nil =>
          cases hlines
          rw [Option.some.inj (hl.symm.trans hline)]
          rfl
        | cons b before =>
          cases hlines
          exact absurd (LineFault.of?_eq_some_iff.mp hl).1 (hbefore l List.mem_cons_self)
    | none =>
      have hclean : ¬ Faulty l := not_faulty_iff.mpr (LineFault.of?_eq_none_iff.mp hl)
      rw [ih]
      constructor
      · rintro ⟨before, line, after, rfl, hbefore, rfl, hline⟩
        use l :: before, line, after, rfl, List.forall_mem_cons.mpr ⟨hclean, hbefore⟩
        use by rw [List.length_cons]; omega
      · rintro ⟨before, line, after, hlines, hbefore, rfl, hline⟩
        cases before with
        | nil =>
          cases hlines
          rw [hl] at hline
          cases hline
        | cons b before =>
          cases hlines
          use before, line, after, rfl, (List.forall_mem_cons.mp hbefore).2
          use by rw [List.length_cons]; omega

namespace Merge

/-! ### The line that is refused -/

/-- The report of the first faulty line: neither a line of an earlier fragment nor an earlier line
of its own is faulty.  It is numbered from one over the declarations and then the content. -/
inductive Refused : List Fragment → MalformedFragment → Prop
  | first {earlier later : List Fragment} {f : Fragment} {before after : List String}
      {line : String} (lines : f.preamble ++ f.body = before ++ line :: after)
      (faulty : Faulty line) (before_clean : ∀ l ∈ before, ¬ Faulty l)
      (earlier_clean : ∀ g ∈ earlier, ∀ l ∈ g.preamble ++ g.body, ¬ Faulty l) :
    Refused (earlier ++ f :: later) {
      origin := f.origin
      line := before.length + 1
      fault := if '\n' ∈ line.toList ∨ '\x0d' ∈ line.toList then .lineBreak else .nul }

theorem malformed?_eq_none_iff_clean {f : Fragment} :
  f.malformed? = none ↔ ∀ line ∈ f.preamble ++ f.body, ¬ Faulty line
  := by
  simp only [Fragment.malformed?_eq_none_iff, not_faulty_iff]
  exact Iff.rfl

/-- Going through the fragments one by one finds the refused line. -/
theorem findSome?_malformed?_iff {fragments : List Fragment} {report : MalformedFragment} :
  fragments.findSome? Fragment.malformed? = some report ↔ Refused fragments report
  := by
  rw [List.findSome?_eq_some_iff]
  constructor
  · rintro ⟨earlier, f, later, rfl, hf, hearlier⟩
    obtain ⟨⟨number, fault⟩, hfault, rfl⟩ := Option.map_eq_some_iff.mp hf
    obtain ⟨before, line, after, hlines, hbefore, rfl, hline⟩ := firstFault?_eq_some_iff.mp hfault
    obtain ⟨hfaulty, rfl⟩ := LineFault.of?_eq_some_iff.mp hline
    have hearlier' : ∀ g ∈ earlier, ∀ l ∈ g.preamble ++ g.body, ¬ Faulty l := fun g hg =>
      malformed?_eq_none_iff_clean.mp (hearlier g hg)
    rw [Nat.add_comm 1]
    exact .first hlines hfaulty hbefore hearlier'
  · intro h
    cases h with
    | @first earlier later f before after line hlines hfaulty hbefore hearlier =>
      use earlier, f, later, rfl
      have hfault : firstFault? 1 f.allLines = some (1 + before.length, _) :=
        firstFault?_eq_some_iff.mpr
          ⟨before, line, after, hlines, hbefore, rfl, LineFault.of?_eq_some_iff.mpr ⟨hfaulty, rfl⟩⟩
      use Option.map_eq_some_iff.mpr ⟨_, hfault, by rw [Nat.add_comm 1]⟩
      exact fun g hg => malformed?_eq_none_iff_clean.mpr (hearlier g hg)

/-- Some line is refused exactly if some line is faulty. -/
theorem exists_refused_iff {fragments : List Fragment} :
  (∃ report, Refused fragments report)
    ↔ ∃ f ∈ fragments, ∃ line ∈ f.preamble ++ f.body, Faulty line
  := by
  simp only [← findSome?_malformed?_iff, ← Option.isSome_iff_exists]
  rw [← not_iff_not, Option.not_isSome_iff_eq_none, List.findSome?_eq_none_iff]
  push Not
  exact forall₂_congr fun f _ => malformed?_eq_none_iff_clean

/-! ### Merging -/

/-- Whatever answers the questions, and in whatever state: a merge fails exactly if some line of
some fragment is faulty.  What it reports is the first such line, and then it has asked nothing and
left the state as it was. -/
theorem error_merge_iff (fragments : List Fragment) {σ : Type}
    (answer : σ → String → Bool × σ) (state : σ) :
  ((∃ report, ((merge fragments).run answer state).1 = .error report)
      ↔ ∃ f ∈ fragments, ∃ line ∈ f.preamble ++ f.body, Faulty line)
    ∧ (∀ report, ((merge fragments).run answer state).1 = .error report
      ↔ Refused fragments report)
    ∧ ∀ report, Refused fragments report →
      (merge fragments).transcript answer state = []
        ∧ ((merge fragments).run answer state).2 = state
  := by
  have hmerge : ∀ report, Refused fragments report →
      merge fragments = .done (.error report) := by
    intro report h
    rw [merge, findSome?_malformed?_iff.mpr h]
    rfl
  have herror : ∀ report, ((merge fragments).run answer state).1 = .error report
      ↔ Refused fragments report := by
    intro report
    constructor
    · intro h
      rw [← findSome?_malformed?_iff]
      rw [merge] at h
      cases hfound : fragments.findSome? Fragment.malformed? with
      | some found =>
        rw [hfound] at h
        cases h
        rfl
      | none =>
        rw [hfound, ← bind_pure_comp, Dialogue.bind_eq, Dialogue.run_bind] at h
        cases h
    · intro h
      rw [hmerge report h]
      rfl
  refine ⟨?_, herror, ?_⟩
  · rw [← exists_refused_iff]
    exact exists_congr herror
  · intro report h
    rw [hmerge report h]
    exact ⟨rfl, rfl⟩

/-- A line that holds a carriage return and NUL is refused for the line break. -/
example : LineFault.of? ['a', '\x00', '\x0d'] = some .lineBreak := by decide

end Merge

end Bindery
