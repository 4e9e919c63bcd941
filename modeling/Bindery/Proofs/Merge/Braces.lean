import Bindery.Proofs.Merge.Preamble
import Bindery.Proofs.Typesetting.Reading

/-!
# Declarations over several lines

A declaration, such as that of a macro, may go on over several lines, the last of which closes the
group that the first one opens.  Merging looks at each line by itself: of the lines that declare
something other than packages it takes over the `newLines`, those that are neither fixed nor stand
further up (`merge_always_others`).  What it leaves out are stretches of lines that repeat others
(`repeatedStretches`), and if each stretch is balanced, so is what remains (`balanced_of_merge`).
Where two declarations end with the same line, the second one loses its end
(`closing_line_missing`).
-/

namespace Bindery

open Typesetting (Token braces)

/-! ### Groups over several lines -/

/-- The lines, each read for itself, close the groups that they open, and no others. -/
def Balanced (read : String → List Token) (lines : List String) : Prop :=
  braces 0 (lines.flatMap read) = some 0

instance (read : String → List Token) (lines : List String) : Decidable (Balanced read lines) :=
  inferInstanceAs (Decidable (_ = _))

/-- A line is read character by character. -/
def characters (line : String) : List Token :=
  line.toList.map Token.char

namespace Balanced

variable {read : String → List Token} {lines more : List String}

/-- Inside of other groups, balanced lines leave those open. -/
theorem braces_eq (h : Balanced read lines) (n : Nat) :
  braces n (lines.flatMap read) = some n
  := Typesetting.braces_add h n

theorem append (h : Balanced read lines) (hmore : Balanced read more) :
  Balanced read (lines ++ more)
  := by
  rw [Balanced, List.flatMap_append, Typesetting.braces_append, h]
  exact hmore

theorem flatMap {α : Type} {f : α → List String} {l : List α}
    (h : ∀ a ∈ l, Balanced read (f a)) :
  Balanced read (l.flatMap f)
  := by
  induction l with
  | nil => rfl
  | cons a l ih =>
    rw [List.forall_mem_cons] at h
    exact h.1.append (ih h.2)

end Balanced

/-! ### New lines and repeated ones -/

/-- The lines that do not stand among those before, each where it occurs first. -/
def newLines (before lines : List String) : List String :=
  (lines.filter (· ∉ before)).eraseDups

section

variable {before lines : List String} {line : String}

theorem newLines_cons_of_mem (h : line ∈ before) :
  newLines before (line :: lines) = newLines before lines
  := by
  rw [newLines, List.filter_cons_of_neg (by simpa using h)]
  rfl

theorem newLines_cons_of_not_mem (h : line ∉ before) :
  newLines before (line :: lines) = line :: newLines (before ++ [line]) lines
  := by
  rw [newLines, List.filter_cons_of_pos (by simpa using h), List.eraseDups_cons, List.filter_filter,
    newLines]
  congr 2
  apply List.filter_congr
  intro other _
  simp [beq_eq_decide, Bool.and_comm]

/-- A line at the end is new if it is not among the lines before or the new ones. -/
theorem newLines_concat (before lines : List String) (line : String) :
  newLines before (lines ++ [line])
    = if line ∈ before ++ newLines before lines then newLines before lines
    else newLines before lines ++ [line]
  := by
  induction lines generalizing before with
  | nil =>
    by_cases h : line ∈ before
    · simp [newLines, h]
    · simp [newLines, h, List.eraseDups_cons]
  | cons other lines ih =>
    by_cases h : other ∈ before
    · rw [List.cons_append, newLines_cons_of_mem h, newLines_cons_of_mem h, ih]
    · rw [List.cons_append, newLines_cons_of_not_mem h, newLines_cons_of_not_mem h, ih,
        List.append_assoc, List.singleton_append]
      split <;> rfl

end

/-- The stretches of repeated lines between the new lines, in front of them and behind them. -/
def repeatedStretches (before : List String) : List String → List (List String)
  | [] => [[]]
  | line :: lines =>
    if line ∈ before then (repeatedStretches before lines).modifyHead (line :: ·)
    else [] :: repeatedStretches (before ++ [line]) lines

/-- Without lines in front of them, the stretches are what they are. -/
theorem modifyHead_nil_append (stretches : List (List String)) :
  stretches.modifyHead ([] ++ ·) = stretches
  := congrFun List.modifyHead_id stretches

/-- To leave out stretches of repeated lines does not change how many groups are open, if each
of them, the first one together with the lines in front of it, is balanced. -/
theorem braces_newLines {read : String → List Token} {before front lines : List String}
    (h : ∀ stretch ∈ (repeatedStretches before lines).modifyHead (front ++ ·),
      Balanced read stretch)
    (n : Nat) :
  braces n ((front ++ lines).flatMap read) = braces n ((newLines before lines).flatMap read)
  := by
  induction lines generalizing before front n with
  | nil =>
    have hfront : Balanced read (front ++ []) := h _ List.mem_cons_self
    rw [hfront.braces_eq n]
    rfl
  | cons line lines ih =>
    by_cases hline : line ∈ before
    · rw [newLines_cons_of_mem hline, ← List.singleton_append, ← List.append_assoc]
      apply ih
      rw [repeatedStretches, if_pos hline, List.modifyHead_modifyHead] at h
      simpa [Function.comp_def] using h
    · rw [repeatedStretches, if_neg hline, List.modifyHead_cons, List.append_nil,
        List.forall_mem_cons] at h
      obtain ⟨hfront, hrest⟩ := h
      rw [newLines_cons_of_not_mem hline, List.flatMap_append, Typesetting.braces_append,
        hfront.braces_eq n, List.flatMap_cons, List.flatMap_cons]
      change braces n _ = _
      rw [Typesetting.braces_append, Typesetting.braces_append]
      congr 1
      funext m
      rw [← modifyHead_nil_append (repeatedStretches _ lines)] at hrest
      exact ih hrest m

/-! ### Declarations of a merged document -/

/-- The line declares something other than packages. -/
def IsOther (line : String) : Prop :=
  LineClass.of line = .other

instance (line : String) : Decidable (IsOther line) :=
  inferInstanceAs (Decidable (_ = _))

/-- The lines of a fragment that declare something other than packages. -/
def Fragment.others (f : Fragment) : List String :=
  f.preamble.filter fun line => IsOther line

/-- The texts of the directives that declare something other than packages. -/
def Document.others (d : Document) : List String :=
  (d.custom.filter fun x => x.kind = .other).map Directive.text

namespace Document

@[simp]
theorem others_note (d : Document) (diagnostic : Diagnostic) :
  (d.note diagnostic).others = d.others
  := rfl

@[simp]
theorem others_appendBody (d : Document) (lines : List String) :
  (d.appendBody lines).others = d.others
  := rfl

theorem others_declare_plain (d : Document) (line : String) :
  (d.declare (.plain line)).others = d.others ++ [line]
  := by
  simp [others, declare, List.filter_append, Directive.plain]

theorem others_declare_request (d : Document) (name line : String) :
  (d.declare (.request name line)).others = d.others
  := by
  simp [others, declare, List.filter_append, Directive.request]

/-- A line that declares something other than packages is declared already if it is fixed or was
taken over. -/
theorem WellFormed.declares_iff {d : Document} (hd : d.WellFormed) {line : String}
    (hline : IsOther line) :
  d.declares line ↔ line ∈ fixedPreamble ++ d.others
  := by
  have huse := (LineClass.of_eq_other_iff.mp hline).2
  have hother : ∀ x ∈ d.custom, x.text = line → x.kind = .other := by
    rintro x hx rfl
    cases hkind : x.kind with
    | capability => exact absurd ((hd.consistent x hx).kind_iff.mp hkind) huse
    | other => rfl
  simp only [declares, preamble, hd.fixed, List.contains_iff_mem, others, List.mem_append,
    List.mem_map, List.mem_filter, decide_eq_true_eq]
  apply or_congr_right
  constructor
  · rintro ⟨x, hx, htext⟩
    exact ⟨x, ⟨hx, hother x hx htext⟩, htext⟩
  · rintro ⟨x, ⟨hx, -⟩, htext⟩
    exact ⟨x, hx, htext⟩

end Document

namespace Merge

/-- Of the lines passed, the document has taken over the new ones among those that declare
something other than packages. -/
structure TakesOver (passed : List String) (d : Document) : Prop where
  wellFormed : d.WellFormed
  others : d.others = newLines fixedPreamble (passed.filter (IsOther ·))

/-- A line that is discarded or requests packages adds nothing else. -/
theorem addDeclaration_others (origin : String) (d : Document) {line : String}
    (hline : ¬ IsOther line) :
  (addDeclaration origin d line).Always fun d' => d'.others = d.others
  := by
  unfold addDeclaration
  split
  · rfl
  · next h => exact absurd h hline
  · exact d.others_note _
  · next name _ =>
    split
    · rfl
    · split
      · exact d.others_note _
      · apply Dialogue.always_bind.mpr
        apply Dialogue.always_of_forall
        intro available
        cases available with
        | true => exact d.others_declare_request name line
        | false => exact d.others_note _

/-- However the questions about its packages are answered, a line is taken over if it declares
something other than packages and is new. -/
theorem addDeclaration_takesOver (origin : String) {passed : List String} {d : Document}
    (hd : TakesOver passed d) (line : String) :
  (addDeclaration origin d line).Always (TakesOver (passed ++ [line]))
  := by
  have hwell := addDeclaration_wellFormed origin d line hd.wellFormed
  by_cases hline : IsOther line
  · have hclass : LineClass.of line = .other := hline
    simp only [addDeclaration, hclass] at hwell ⊢
    refine ⟨hwell, ?_⟩
    have hdeclares := hd.wellFormed.declares_iff hline
    rw [List.filter_append, List.filter_cons_of_pos (by simpa using hline), List.filter_nil,
      newLines_concat, ← hd.others]
    split
    · next h => rw [if_pos (hdeclares.mp h)]
    · next h => rw [if_neg (mt hdeclares.mpr h), Document.others_declare_plain]
  · apply (hwell.and (addDeclaration_others origin d hline)).mono
    rintro d' ⟨hwell, hothers⟩
    refine ⟨hwell, ?_⟩
    rw [List.filter_append, List.filter_cons_of_neg (by simpa using hline), List.filter_nil,
      List.append_nil, hothers, hd.others]

theorem addFragment_takesOver {passed : List String} {d : Document} (hd : TakesOver passed d)
    (f : Fragment) :
  (addFragment d f).Always (TakesOver (passed ++ f.preamble))
  := by
  have hstep : ∀ passed d line, TakesOver passed d →
      (addDeclaration f.origin d line).Always (TakesOver (passed ++ [line])) :=
    fun _ _ line hd => addDeclaration_takesOver f.origin hd line
  apply Dialogue.always_bind.mpr
  apply (Dialogue.Always.foldlM_append hstep f.preamble hd).mono
  rintro d' ⟨hwell, hothers⟩
  exact ⟨hwell.appendBody _, (d'.others_appendBody _).trans hothers⟩

/-- Of the lines of the fragments that declare something other than packages, every document that a
merge can end with holds the new ones. -/
theorem merge_always_others (fragments : List Fragment) :
  (merge fragments).Always fun result => ∀ d, result = .ok d →
    d.others = newLines fixedPreamble (fragments.flatMap Fragment.others)
  := by
  have hempty : TakesOver (([] : List Fragment).flatMap Fragment.preamble) .empty :=
    ⟨Document.wellFormed_empty, rfl⟩
  have hstep : ∀ passed d f, TakesOver (passed.flatMap Fragment.preamble) d →
      (addFragment d f).Always (TakesOver ((passed ++ [f]).flatMap Fragment.preamble)) := by
    intro passed d f hd
    rw [List.flatMap_append, List.flatMap_singleton]
    exact addFragment_takesOver hd f
  apply merge_always
  intro _
  apply (Dialogue.Always.foldlM_append hstep fragments hempty).mono
  intro d hd
  rw [hd.others, List.nil_append, List.filter_flatMap]
  rfl

/-- Whatever a merge is told about packages, it keeps declarations over several lines whole: if the
lines of each fragment that declare something other than packages are balanced, and so are the
stretches of lines that repeat fixed ones or ones further up, then the directives are balanced that
declare something other than packages.  Any way to read a line will do. -/
theorem balanced_of_merge {σ : Type} (answer : σ → String → Bool × σ) (s : σ)
    {fragments : List Fragment} {d : Document} (h : ((merge fragments).run answer s).1 = .ok d)
    (read : String → List Token) (hfragments : ∀ f ∈ fragments, Balanced read f.others)
    (hstretches : ∀ stretch ∈ repeatedStretches fixedPreamble (fragments.flatMap Fragment.others),
      Balanced read stretch) :
  Balanced read d.others
  := by
  have hothers := (merge_always_others fragments).run_fst answer s d h
  have hall : Balanced read (fragments.flatMap Fragment.others) := Balanced.flatMap hfragments
  rw [← modifyHead_nil_append (repeatedStretches _ _)] at hstretches
  rw [Balanced, hothers, ← braces_newLines hstretches, List.nil_append]
  exact hall

/-- The first macro is given again as a whole, and of the second one only a line that closes the
group that it opens. -/
theorem balanced_of_merge_macros :
  let fragments : List Fragment := [
    { origin := "a", preamble := ["\\newcommand\x7b\\x\x7d\x7b", " \x7ba\x7d", "\x7d"] },
    { origin := "b",
      preamble := ["\\newcommand\x7b\\x\x7d\x7b", " \x7ba\x7d", "\\usepackage\x7bp\x7d", "\x7d",
        "\\newcommand\x7b\\y\x7d\x7b", " \x7ba\x7d", "b\x7d"] }]
  let d : Document := {
    fixed := fixedPreamble
    custom := [.plain "\\newcommand\x7b\\x\x7d\x7b", .plain " \x7ba\x7d", .plain "\x7d",
      .request "p" "\\usepackage\x7bp\x7d", .plain "\\newcommand\x7b\\y\x7d\x7b", .plain "b\x7d"]
    body := ["", ""]
    diagnostics := [] }
  ((merge fragments).run firstTwo 0).1 = .ok d
    ∧ (∀ f ∈ fragments, Balanced characters f.others)
    ∧ (∀ stretch ∈ repeatedStretches fixedPreamble (fragments.flatMap Fragment.others),
      Balanced characters stretch)
    ∧ Balanced characters d.others
  := by
  intro fragments d
  have h : ((merge fragments).run firstTwo 0).1 = .ok d := by decide +kernel
  have hfragments : ∀ f ∈ fragments, Balanced characters f.others := by decide +kernel
  have hstretches : ∀ stretch ∈ repeatedStretches fixedPreamble (fragments.flatMap Fragment.others),
      Balanced characters stretch := by decide +kernel
  exact ⟨h, hfragments, hstretches, balanced_of_merge firstTwo 0 h characters hfragments hstretches⟩

/-- Two macros end with the same line, so that the second one is left without its end. -/
theorem closing_line_missing :
  let fragments : List Fragment := [
    { origin := "a.tex"
      preamble := ["\\newcommand\x7b\\x\x7d\x7bx", "\x7d", "\\newcommand\x7b\\y\x7d\x7by", "\x7d"]
      body := ["Hello"] }]
  let d : Document := {
    fixed := fixedPreamble
    custom := [.plain "\\newcommand\x7b\\x\x7d\x7bx", .plain "\x7d",
      .plain "\\newcommand\x7b\\y\x7d\x7by"]
    body := ["Hello", ""]
    diagnostics := [] }
  (∀ f ∈ fragments, Balanced characters f.others)
    ∧ ((merge fragments).runPure fun _ => true) = .ok d
    ∧ ¬ Balanced characters d.others
  := by
  intro fragments d
  have hfragments : ∀ f ∈ fragments, Balanced characters f.others := by decide +kernel
  have h : ((merge fragments).runPure fun _ => true) = .ok d := by decide +kernel
  have hlost : ¬ Balanced characters d.others := by decide +kernel
  exact ⟨hfragments, h, hlost⟩

end Merge

end Bindery
