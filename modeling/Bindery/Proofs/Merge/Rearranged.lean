import Mathlib.Data.List.Forall2
import Mathlib.Data.List.Pairwise
import Mathlib.Data.List.Perm.Basic
import Bindery.Proofs.Merge.Reread

/-!
# Merging sources in another order

A declaration line is `Admissible` if nothing but an overlap can keep it from the preamble.  Where
no overlap is reported, the preamble has the admissible lines and no others besides the fixed ones,
so that sources in another order (`Rearranged`) have the same lines to declare.  They are declared
in that order too, since lines of a well-formed preamble do not overlap one another
(`Document.WellFormed.not_overlaps`).
-/

namespace Bindery

/-! ### Sources in another order -/

/-- The same source with its declaration lines in another order. -/
structure Fragment.Reordered (f g : Fragment) : Prop where
  origin : g.origin = f.origin
  preamble : f.preamble.Perm g.preamble
  body : g.body = f.body

/-- The same sources in another order, each with its declaration lines in another order. -/
def Rearranged (fs gs : List Fragment) : Prop :=
  ∃ hs, fs.Perm hs ∧ List.Forall₂ Fragment.Reordered hs gs

variable {fs gs : List Fragment}

theorem Fragment.Reordered.malformed? {f g : Fragment} (h : f.Reordered g)
    (hf : f.malformed? = none) :
  g.malformed? = none
  := by
  rw [Fragment.malformed?_eq_none_iff] at hf ⊢
  have hlines : f.allLines.Perm g.allLines := by
    rw [allLines, allLines, h.body]
    exact h.preamble.append_right _
  intro line hline
  exact hf line (hlines.symm.subset hline)

theorem Rearranged.malformed? (h : Rearranged fs gs) (hfs : ∀ f ∈ fs, f.malformed? = none) :
  ∀ g ∈ gs, g.malformed? = none
  := by
  obtain ⟨hs, hperm, hsame⟩ := h
  have hhs : ∀ f ∈ hs, f.malformed? = none := fun f hf => hfs f (hperm.symm.subset hf)
  clear hfs hperm
  induction hsame with
  | nil => exact List.forall_mem_nil _
  | cons hhead _ ih =>
    obtain ⟨hf, hrest⟩ := List.forall_mem_cons.mp hhs
    exact List.forall_mem_cons.mpr ⟨hhead.malformed? hf, ih hrest⟩

/-- Sources in another order have the same declaration lines, in another order. -/
theorem Rearranged.declarationLines (h : Rearranged fs gs) :
  (declarationLines fs).Perm (declarationLines gs)
  := by
  obtain ⟨hs, hperm, hsame⟩ := h
  apply (hperm.flatMap_right _).trans
  clear hperm
  induction hsame with
  | nil => exact .refl _
  | cons hhead _ ih =>
    rw [List.flatMap_cons]
    apply List.Perm.append _ ih
    dsimp only
    rw [hhead.origin]
    exact hhead.preamble.map _

/-! ### Admissible lines -/

variable {available : String → Bool} {before : List String} {origin line name : String}

/-- The line is a declaration, and if it is a request, all its packages are available. -/
def Admissible (available : String → Bool) (line : String) : Prop :=
  LineClass.of line = .other
    ∨ ∃ name, LineClass.of line = .request name ∧ ∀ package ∈ packages name, available package

namespace Fates

variable {lines : List (String × String)} {fates : List Fate}

theorem mem_declaredTexts {x : Directive} (h : .declared x ∈ fates) :
  x.text ∈ declaredTexts fates
  := List.mem_map_of_mem (Fate.mem_filterMap_directive?.mpr h)

/-- What becomes a directive is an admissible line. -/
theorem of_mem_declaredTexts (h : Fates available before lines fates)
    (hline : line ∈ declaredTexts fates) :
  Admissible available line ∧ ∃ origin, (origin, line) ∈ lines
  := by
  constructor
  · obtain ⟨x, hx, rfl⟩ := List.mem_map.mp hline
    obtain ⟨_, _, _, _, _, hmeets, -, -⟩ := h.exists_meets (Fate.mem_filterMap_directive?.mp hx)
    cases hmeets with
    | plain hclass _ => exact Or.inl hclass
    | request hclass _ _ hall => exact Or.inr ⟨_, hclass, hall⟩
  · obtain ⟨⟨origin, text⟩, hmem, rfl⟩ := List.mem_map.mp (h.declared_sublist.subset hline)
    exact ⟨origin, hmem⟩

/-- A line meets a fate after a part of the final preamble. -/
theorem exists_of_mem (h : Fates available before lines fates) (hline : (origin, line) ∈ lines) :
  ∃ fate ∈ fates, ∃ before', before' ⊆ before ++ declaredTexts fates
    ∧ fate.Meets available before' origin line
  := by
  induction h with
  | nil => cases hline
  | @cons before _ _ fate lines fates head tail ih =>
    rcases List.mem_cons.mp hline with heq | hmem
    · cases heq
      exact ⟨fate, List.mem_cons_self, before, List.subset_append_left _ _, head⟩
    · obtain ⟨other, hother, before', hsub, hmeets⟩ := ih hmem
      rw [append_declaredTexts_cons]
      exact ⟨other, List.mem_cons_of_mem fate hother, before', hsub, hmeets⟩

/-- A declaration that requests nothing is in the preamble at the end. -/
theorem mem_of_other (h : Fates available before lines fates) (hline : (origin, line) ∈ lines)
    (hclass : LineClass.of line = .other) :
  line ∈ before ++ declaredTexts fates
  := by
  obtain ⟨fate, hfate, before', hsub, hmeets⟩ := h.exists_of_mem hline
  cases hmeets with
  | repeatedPlain _ hmem => exact hsub hmem
  | plain _ _ => exact List.mem_append_right before (mem_declaredTexts hfate)
  | discarded h | unparseable h => simp [hclass] at h
  | repeatedRequest h _ | conflict h _ _ | unavailable h _ _ _ | request h _ _ _ =>
    simp [hclass] at h

/-- A request is in the preamble at the end, or it is reported for an overlap or for a package
that is missing. -/
theorem request_cases (h : Fates available before lines fates) (hline : (origin, line) ∈ lines)
    (hclass : LineClass.of line = .request name) :
  line ∈ before ++ declaredTexts fates
    ∨ (∃ kept, .reported (.conflict origin name kept line) ∈ fates)
    ∨ .reported (.unavailable origin name line) ∈ fates
      ∧ ¬ ∀ package ∈ packages name, available package
  := by
  obtain ⟨fate, hfate, before', hsub, hmeets⟩ := h.exists_of_mem hline
  cases hmeets with
  | repeatedRequest _ hmem => exact Or.inl (hsub hmem)
  | request _ _ _ _ => exact Or.inl (List.mem_append_right before (mem_declaredTexts hfate))
  | @conflict name' kept h _ _ =>
    rw [hclass] at h
    cases h
    exact Or.inr (Or.inl ⟨kept, hfate⟩)
  | @unavailable name' h _ _ hmissing =>
    rw [hclass] at h
    cases h
    exact Or.inr (Or.inr ⟨hfate, hmissing⟩)
  | discarded h | unparseable h | repeatedPlain h _ | plain h _ => simp [hclass] at h

/-- Unless it is reported for an overlap, an admissible line is in the preamble at the end. -/
theorem mem_of_admissible (h : Fates available before lines fates)
    (hline : (origin, line) ∈ lines) (hadmissible : Admissible available line)
    (hfree : ∀ name kept, .reported (.conflict origin name kept line) ∉ fates) :
  line ∈ before ++ declaredTexts fates
  := by
  rcases hadmissible with hclass | ⟨name, hclass, hall⟩
  · exact h.mem_of_other hline hclass
  · rcases h.request_cases hline hclass with hmem | ⟨kept, hfate⟩ | ⟨-, hmissing⟩
    · exact hmem
    · exact absurd hfate (hfree name kept)
    · exact absurd hall hmissing

end Fates

/-! ### Documents with the same lines -/

/-- A consistent directive is determined by its text. -/
theorem Directive.Consistent.eq_of_text {x y : Directive} (hx : x.Consistent) (hy : y.Consistent)
    (h : x.text = y.text) :
  x = y
  := by
  rcases hx.eq_request_or_plain with ⟨name, hclass, hx⟩ | ⟨hclass, hx⟩ <;>
    rcases hy.eq_request_or_plain with ⟨name', hclass', hy⟩ | ⟨hclass', hy⟩ <;>
    rw [h, hclass'] at hclass <;> cases hclass
  · rw [hx, hy, h]
  · rw [hx, hy, h]

namespace Document.WellFormed

variable {d d' : Document}

/-- Two different lines of a well-formed preamble do not overlap. -/
theorem not_overlaps (hd : d.WellFormed) {a b : String} (ha : a ∈ d.preamble)
    (hb : b ∈ d.preamble) (hne : a ≠ b) :
  overlaps a b = false
  := by
  apply overlaps_eq_false_iff.mpr
  have : Std.Symm fun a b : String => (requested a).Disjoint (requested b) :=
    ⟨fun _ _ h => List.disjoint_symm h⟩
  exact hd.apart.forall ha hb hne

/-- The directives of a well-formed document are in another one whose preamble has all its
lines. -/
theorem custom_subset (hd : d.WellFormed) (hd' : d'.WellFormed) (h : d.preamble ⊆ d'.preamble) :
  d.custom ⊆ d'.custom
  := by
  intro x hx
  have htext : x.text ∈ d.custom.map Directive.text := List.mem_map_of_mem hx
  have hnew : x.text ∉ d'.fixed := by
    intro hold
    rw [hd'.fixed, ← hd.fixed] at hold
    exact (List.nodup_append.mp hd.distinct).2.2 _ hold _ htext rfl
  rcases List.mem_append.mp (h (List.mem_append_right d.fixed htext)) with hold | hmem
  · exact absurd hold hnew
  · obtain ⟨y, hy, hsame⟩ := List.mem_map.mp hmem
    rwa [(hd.consistent x hx).eq_of_text (hd'.consistent y hy) hsame.symm]

/-- Well-formed documents with the same preamble lines have the same directives, in another
order. -/
theorem custom_perm (hd : d.WellFormed) (hd' : d'.WellFormed) (h : d.preamble ⊆ d'.preamble)
    (h' : d'.preamble ⊆ d.preamble) :
  d.custom.Perm d'.custom
  := by
  have hnodup : d.custom.Nodup := .of_map _ (List.nodup_append.mp hd.distinct).2.1
  have hnodup' : d'.custom.Nodup := .of_map _ (List.nodup_append.mp hd'.distinct).2.1
  apply (List.perm_ext_iff_of_nodup hnodup hnodup').mpr
  intro x
  constructor
  · apply hd.custom_subset hd' h
  · apply hd'.custom_subset hd h'

end Document.WellFormed

/-! ### Merging -/

namespace Account

variable {d d' : Document} {lines lines' : List (String × String)} {fates fates' : List Fate}

theorem preamble_eq (h : Account available .empty lines fates d) :
  d.preamble = fixedPreamble ++ declaredTexts fates
  := by
  have hempty : Document.empty.preamble = fixedPreamble := List.append_nil fixedPreamble
  rw [h.preamble, hempty]

theorem mem_diagnostics_iff (h : Account available .empty lines fates d) {g : Diagnostic} :
  g ∈ d.diagnostics ↔ .reported g ∈ fates
  := by
  rw [← Fate.mem_filterMap_diagnostic?, h.diagnostics]
  rfl

/-- A preamble that has the admissible lines of an account has all lines of its preamble. -/
theorem preamble_subset (h : Account available .empty lines fates d) (hd' : d'.WellFormed)
    (hadmissible : ∀ line ∈ lines, Admissible available line.2 → line.2 ∈ d'.preamble) :
  d.preamble ⊆ d'.preamble
  := by
  intro line hline
  rw [h.preamble_eq] at hline
  rcases List.mem_append.mp hline with hfixed | hdeclared
  · rw [← hd'.fixed] at hfixed
    exact List.mem_append_left _ hfixed
  · obtain ⟨hline, origin, hmem⟩ := h.met.of_mem_declaredTexts hdeclared
    exact hadmissible _ hmem hline

/-- If a well-formed preamble has the admissible lines of an account, none of them is reported for
an overlap. -/
theorem not_conflict_of_admissible (h : Account available .empty lines fates d)
    (hd' : d'.WellFormed)
    (hadmissible : ∀ line ∈ lines, Admissible available line.2 → line.2 ∈ d'.preamble)
    (hline : (origin, line) ∈ lines) (hadm : Admissible available line) (kept : String) :
  .reported (.conflict origin name kept line) ∉ fates
  := by
  intro hfate
  obtain ⟨-, hne, hfirst⟩ := h.met.conflict_stays hfate
  rw [← h.preamble] at hfirst
  have hkept := h.preamble_subset hd' hadmissible (List.mem_of_find?_eq_some hfirst)
  have hoverlaps := List.find?_some hfirst
  rw [hd'.not_overlaps hkept (hadmissible _ hline hadm) hne] at hoverlaps
  cases hoverlaps

/-- Two accounts of the same lines in another order, of which the first reports no overlap, lead to
preambles with the same lines. -/
theorem same_preamble (h : Account available .empty lines fates d)
    (h' : Account available .empty lines' fates' d') (hlines : lines.Perm lines')
    (hd : d.WellFormed) (hd' : d'.WellFormed)
    (hfree : ∀ origin name kept line, .conflict origin name kept line ∉ d.diagnostics) :
  d.preamble ⊆ d'.preamble ∧ d'.preamble ⊆ d.preamble
  := by
  have hadmissible : ∀ line ∈ lines, Admissible available line.2 → line.2 ∈ d.preamble := by
    intro line hline hadm
    rw [h.preamble]
    apply h.met.mem_of_admissible hline hadm
    intro name kept
    exact mt h.mem_diagnostics_iff.mpr (hfree _ name kept _)
  have hmoved : ∀ line ∈ lines', Admissible available line.2 → line.2 ∈ d.preamble :=
    fun line hline => hadmissible line (hlines.symm.subset hline)
  constructor
  · apply h.preamble_subset hd'
    intro line hline hadm
    have hline' := hlines.subset hline
    rw [h'.preamble]
    apply h'.met.mem_of_admissible hline' hadm
    intro name kept
    exact h'.not_conflict_of_admissible hd hmoved hline' hadm kept
  · exact h'.preamble_subset hd hmoved

/-- What is reported for an overlap was reported for a missing package, if nothing was reported for
an overlap when the same lines came in another order. -/
theorem unavailable_of_conflict (h : Account available .empty lines fates d)
    (h' : Account available .empty lines' fates' d') (hlines : lines.Perm lines')
    (hpreamble : d.preamble ⊆ d'.preamble)
    (hfree : ∀ origin name kept line, .conflict origin name kept line ∉ d.diagnostics)
    {kept : String} (hconflict : .conflict origin name kept line ∈ d'.diagnostics) :
  .unavailable origin name line ∈ d.diagnostics
  := by
  have hfate := h'.mem_diagnostics_iff.mp hconflict
  have hnew : line ∉ d.preamble := by
    intro hmem
    have hmem' := hpreamble hmem
    rw [h'.preamble] at hmem'
    exact (h'.met.conflict_stays hfate).1 hmem'
  have hline : (origin, line) ∈ lines := by
    apply hlines.symm.subset
    apply h'.met.reported_sublist.subset
    exact List.mem_map.mpr ⟨_, Fate.mem_filterMap_diagnostic?.mpr hfate, rfl⟩
  have hclass : LineClass.of line = .request name := by
    obtain ⟨_, _, _, _, _, hmeets, -, -⟩ := h'.met.exists_meets hfate
    cases hmeets with
    | conflict hclass _ _ => exact hclass
  rcases h.met.request_cases hline hclass with hmem | ⟨kept', hreported⟩ | ⟨hreported, -⟩
  · rw [← h.preamble] at hmem
    exact absurd hmem hnew
  · exact absurd (h.mem_diagnostics_iff.mpr hreported) (hfree _ _ _ _)
  · exact h.mem_diagnostics_iff.mpr hreported

end Account

namespace Merge

/-- If it depends on the package alone whether it is available, and merging reports no overlap, the
same sources in another order, also of their declaration lines, can be merged, and have the same
directives in another order.  Only what was reported for a missing package may then be reported for
an overlap. -/
theorem custom_perm_of_rearranged {d : Document} (hgs : Rearranged fs gs)
    (h : (merge fs).runPure available = .ok d)
    (hfree : ∀ origin name kept line, .conflict origin name kept line ∉ d.diagnostics) :
  ∃ d', (merge gs).runPure available = .ok d' ∧ d'.custom.Perm d.custom
    ∧ ∀ origin name kept line, .conflict origin name kept line ∈ d'.diagnostics →
      .unavailable origin name line ∈ d.diagnostics
  := by
  have hmalformed := hgs.malformed? (runPure_merge_eq_ok_iff.mp h).1
  obtain ⟨d', h'⟩ : ∃ d', (merge gs).runPure available = .ok d' :=
    ⟨_, runPure_merge_eq_ok_iff.mpr ⟨hmalformed, rfl⟩⟩
  have hd : d.WellFormed := (merge_always_wellFormed fs).runPure available d h
  have hd' : d'.WellFormed := (merge_always_wellFormed gs).runPure available d' h'
  obtain ⟨fates, haccount⟩ := exists_account_of_merge h
  obtain ⟨fates', haccount'⟩ := exists_account_of_merge h'
  have hlines := hgs.declarationLines
  obtain ⟨hsub, hsub'⟩ := haccount.same_preamble haccount' hlines hd hd' hfree
  refine ⟨d', h', hd'.custom_perm hd hsub' hsub, ?_⟩
  intro origin name kept line hconflict
  exact haccount.unavailable_of_conflict haccount' hlines hsub hfree hconflict

/-- With the second source first and its lines in another order, a list of packages of which one is
missing overlaps a request that used to come later, and the directives are the same. -/
theorem custom_perm_of_rearranged_missing :
  let a : Fragment := {
    origin := "a", body := ["x"]
    preamble := ["\\usepackage\x7bp, r\x7d", "\\def\\m\x7b\x7d"] }
  let b : Fragment := {
    origin := "b"
    preamble := ["\\usepackage\x7bq\x7d", "\\usepackage\x7bp\x7d", "\\usepackage\x7bulem\x7d"] }
  let b' : Fragment := {
    origin := "b"
    preamble := ["\\usepackage\x7bp\x7d", "\\usepackage\x7bulem\x7d", "\\usepackage\x7bq\x7d"] }
  let d : Document := {
    fixed := fixedPreamble
    custom := [.plain "\\def\\m\x7b\x7d", .request "q" "\\usepackage\x7bq\x7d",
      .request "p" "\\usepackage\x7bp\x7d"]
    body := ["x", "", ""]
    diagnostics := [.unavailable "a" "p, r" "\\usepackage\x7bp, r\x7d"] }
  let conflict : Diagnostic :=
    .conflict "a" "p, r" "\\usepackage\x7bp\x7d" "\\usepackage\x7bp, r\x7d"
  Rearranged [a, b] [b', a] ∧ (merge [a, b]).runPure (· != "r") = .ok d
    ∧ (∀ origin name kept line, .conflict origin name kept line ∉ d.diagnostics)
    ∧ ∃ d', (merge [b', a]).runPure (· != "r") = .ok d' ∧ d'.custom.Perm d.custom
      ∧ conflict ∈ d'.diagnostics
      ∧ .unavailable "a" "p, r" "\\usepackage\x7bp, r\x7d" ∈ d.diagnostics
  := by
  intro a b b' d conflict
  have hgs : Rearranged [a, b] [b', a] :=
    ⟨[b, a], .swap b a [], .cons ⟨rfl, by decide, rfl⟩ (.cons ⟨rfl, .refl _, rfl⟩ .nil)⟩
  have h : (merge [a, b]).runPure (· != "r") = .ok d := by decide +kernel
  have hfree : ∀ origin name kept line, .conflict origin name kept line ∉ d.diagnostics := by
    simp [d]
  obtain ⟨d', h', hperm, hreported⟩ := custom_perm_of_rearranged hgs h hfree
  have hconflict : conflict ∈ d'.diagnostics := by
    have hrun : ((merge [b', a]).runPure (· != "r")).map Document.diagnostics
        = .ok [conflict] := by decide +kernel
    rw [h'] at hrun
    injection hrun with hrun
    rw [hrun]
    apply List.mem_cons_self
  exact ⟨hgs, h, hfree, d', h', hperm, hconflict, hreported _ _ _ _ hconflict⟩

end Merge

end Bindery
