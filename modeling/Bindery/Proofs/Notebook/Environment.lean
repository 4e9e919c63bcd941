import Bindery.Notebook.Markdown
import Bindery.Outline
import Bindery.Proofs.Escape
import Bindery.Proofs.Text.Occurrences

/-!
# Environments as the typesetter reads them

The typesetter goes through the lines of a document and keeps the environments that are open, the
innermost first (`scan`).  Every `Mark` that stands in a line opens or closes one, but while a
verbatim block is open nothing counts except the mark that ends it (`Mark.Counts`).  Lines are
`WellNested` if they can be read so from beginning to end, with nothing open at either, and if
every mark that counts is a line of its own.  `Reads` builds up such lines from marks and from
lines in which nothing counts (`Reads.wellNested`).
-/

namespace Bindery.Notebook

/-! ### Marks -/

/-- An environment that notebooks are typeset with. -/
inductive Environment where
  | itemize
  | center
  | verbatim
deriving DecidableEq, Repr

/-- What opens or closes an environment. -/
inductive Mark where
  | opens (e : Environment)
  | closes (e : Environment)
deriving DecidableEq, Repr

namespace Mark

/-- The text of a mark. -/
def text : Mark → String
  | opens .itemize => Outline.openMarker
  | closes .itemize => Outline.closeMarker
  | opens .center => "\\begin\x7bcenter\x7d"
  | closes .center => "\\end\x7bcenter\x7d"
  | opens .verbatim => verbatimBegin
  | closes .verbatim => verbatimEnd

/-- Every mark. -/
def all : List Mark :=
  [opens .itemize, closes .itemize, opens .center, closes .center, opens .verbatim,
    closes .verbatim]

theorem mem_all (mark : Mark) :
  mark ∈ all
  := by
  obtain e | e := mark <;> cases e <;> decide

/-- What holds of each mark in turn holds of all. -/
instance {P : Mark → Prop} [DecidablePred P] : Decidable (∀ mark, P mark) :=
  decidable_of_iff (∀ mark ∈ all, P mark)
    ⟨fun h mark => h mark (mem_all mark), fun h mark _ => h mark⟩

theorem head?_text (mark : Mark) :
  mark.text.toList.head? = some '\\'
  := by
  revert mark
  decide

/-- A mark is no tame text. -/
theorem not_isTame (mark : Mark) :
  ¬ Escape.IsTame mark.text.toList
  := by
  revert mark
  decide

/-- The mark counts while the given environments are open: in a verbatim block only its end
does. -/
def Counts (mark : Mark) (opened : List Environment) : Prop :=
  opened.head? = some .verbatim → mark = closes .verbatim

instance (mark : Mark) (opened : List Environment) : Decidable (mark.Counts opened) :=
  inferInstanceAs (Decidable (_ → _))

/-- The environments that are open after a mark, if it may stand where it does: only the innermost
environment can be closed. -/
def apply (opened : List Environment) (mark : Mark) : Option (List Environment) :=
  if mark.Counts opened then
    match mark, opened with
    | opens e, _ => some (e :: opened)
    | closes e, e' :: outer => if e' = e then some outer else none
    | closes _, [] => none
  else some opened

theorem apply_opens {opened : List Environment} (h : opened.head? ≠ some .verbatim)
    (e : Environment) :
  (opens e).apply opened = some (e :: opened)
  := by
  have hcounts : (opens e).Counts opened := fun hhead => absurd hhead h
  rw [apply.eq_def, if_pos hcounts]

theorem apply_closes (e : Environment) (outer : List Environment) :
  (closes e).apply (e :: outer) = some outer
  := by
  have hcounts : (closes e).Counts (e :: outer) := by
    intro hhead
    obtain rfl : e = .verbatim := Option.some.inj hhead
    rfl
  rw [apply.eq_def, if_pos hcounts]
  exact if_pos rfl

end Mark

/-- The marks that stand in a text, in order. -/
def marks (text : List Char) : List Mark :=
  text.tails.flatMap fun rest => Mark.all.filter fun mark => mark.text.toList.isPrefixOf rest

theorem mem_marks {mark : Mark} {text : List Char} :
  mark ∈ marks text ↔ mark.text.toList <:+: text
  := by
  simp only [marks, List.mem_flatMap, List.mem_tails, List.mem_filter, Mark.mem_all, true_and,
    List.isPrefixOf_iff_prefix, List.infix_iff_prefix_suffix, and_comm]

theorem marks_eq_nil_iff {text : List Char} :
  marks text = [] ↔ ∀ mark : Mark, ¬ mark.text.toList <:+: text
  := by
  simp only [List.eq_nil_iff_forall_not_mem, mem_marks]

/-- A mark alone is the only one in its text. -/
theorem marks_text (mark : Mark) :
  marks mark.text.toList = [mark]
  := by
  revert mark
  decide

/-- No mark stands in a tame text. -/
theorem marks_of_isTame {text : List Char} (h : Escape.IsTame text) :
  marks text = []
  := by
  apply marks_eq_nil_iff.mpr
  intro mark hmark
  exact mark.not_isTame (h.of_infix hmark)

/-- No mark stands in a text without backslashes. -/
theorem marks_of_not_mem {text : List Char} (h : '\\' ∉ text) :
  marks text = []
  := by
  apply marks_eq_nil_iff.mpr
  intro mark hmark
  exact h (hmark.subset (List.mem_of_head? mark.head?_text))

/-- Marks do not begin with other characters than a backslash. -/
theorem marks_cons {c : Char} (hc : c ≠ '\\') (text : List Char) :
  marks (c :: text) = marks text
  := by
  have hnone : ∀ mark ∈ Mark.all, ¬ mark.text.toList.isPrefixOf (c :: text) := by
    intro mark _ hstart
    obtain ⟨rest, hrest⟩ := List.isPrefixOf_iff_prefix.mp hstart
    have hhead := mark.head?_text
    cases htext : mark.text.toList with
    | nil =>
      rw [htext] at hhead
      cases hhead
    | cons d ds =>
      rw [htext] at hhead hrest
      injection hrest with hd
      injection hhead with hhead
      exact hc (hd.symm.trans hhead)
  rw [marks, List.tails_cons, List.flatMap_cons, List.filter_eq_nil_iff.mpr hnone]
  rfl

/-- Marks do not reach over a character that is part of none. -/
theorem marks_append_cons {c : Char} (hc : ∀ mark : Mark, c ∉ mark.text.toList)
    (before after : List Char) :
  marks (before ++ c :: after) = [] ↔ marks before = [] ∧ marks after = []
  := by
  simp only [marks_eq_nil_iff, ← Text.occurrences_eq_zero_iff, ← forall_and]
  apply forall_congr'
  intro mark
  have hne : mark.text.toList ≠ [] := by
    intro hnil
    apply mark.not_isTame
    rw [hnil]
    exact List.isChain_nil
  rw [Text.occurrences_append_cons hne (hc mark), Nat.add_eq_zero_iff]

/-- A text without backslashes adds no marks if it begins with a character that is part of none. -/
theorem marks_append {before after : List Char} {c : Char} (hbefore : marks before = [])
    (hhead : after.head? = some c) (hc : ∀ mark : Mark, c ∉ mark.text.toList)
    (hafter : '\\' ∉ after) :
  marks (before ++ after) = []
  := by
  obtain ⟨rest, rfl⟩ := List.head?_eq_some_iff.mp hhead
  apply (marks_append_cons hc before rest).mpr
  refine ⟨hbefore, marks_of_not_mem ?_⟩
  exact fun hmem => hafter (List.mem_cons_of_mem c hmem)

/-! ### Reading lines -/

/-- The environments that are open after a line. -/
def scanLine (opened : List Environment) (line : String) : Option (List Environment) :=
  (marks line.toList).foldlM Mark.apply opened

/-- The environments that are open after lines, if the marks in the lines may stand where they
do. -/
def scan (opened : List Environment) (lines : List String) : Option (List Environment) :=
  lines.foldlM scanLine opened

/-- As many lists, one inside the other. -/
def lists (n : Nat) : List Environment :=
  List.replicate n .itemize

/-- At most eight lists are open, or nothing but one centered or one verbatim block. -/
def IsOrderly (opened : List Environment) : Prop :=
  (∃ n ≤ 8, opened = lists n) ∨ opened = [.center] ∨ opened = [.verbatim]

/-- Lines whose environments are properly nested. -/
structure WellNested (lines : List String) : Prop where
  /-- What the lines open, they close. -/
  closed : scan [] lines = some []
  /-- What is open between two lines is orderly. -/
  orderly : ∀ before, before <+: lines → ∃ opened, scan [] before = some opened ∧ IsOrderly opened
  /-- Every mark that counts is a line of its own. -/
  own : ∀ before line opened, before ++ [line] <+: lines → scan [] before = some opened →
    ∀ mark ∈ marks line.toList, mark.Counts opened → line = mark.text

/-- Lines that lead from some open environments to others, made of marks and of lines in which
nothing counts. -/
inductive Reads : List Environment → List String → List Environment → Prop
  | nil {opened : List Environment} (orderly : IsOrderly opened) : Reads opened [] opened
  | text {opened after : List Environment} {line : String} {lines : List String}
      (orderly : IsOrderly opened) (idle : ∀ mark ∈ marks line.toList, ¬ mark.Counts opened)
      (rest : Reads opened lines after) : Reads opened (line :: lines) after
  | mark {opened next after : List Environment} {mark : Mark} {lines : List String}
      (orderly : IsOrderly opened) (apply : mark.apply opened = some next)
      (rest : Reads next lines after) : Reads opened (mark.text :: lines) after

namespace Reads

variable {opened next after : List Environment} {line : String} {lines lines' : List String}

theorem isOrderly_left (h : Reads opened lines after) :
  IsOrderly opened
  := by
  cases h <;> assumption

theorem isOrderly_right (h : Reads opened lines after) :
  IsOrderly after
  := by
  induction h with
  | nil orderly => exact orderly
  | text _ _ _ ih => exact ih
  | mark _ _ _ ih => exact ih

theorem append (h : Reads opened lines next) (h' : Reads next lines' after) :
  Reads opened (lines ++ lines') after
  := by
  induction h with
  | nil => exact h'
  | text orderly idle _ ih => exact .text orderly idle (ih h')
  | mark orderly apply _ ih => exact .mark orderly apply (ih h')

theorem exists_of_append (h : Reads opened (lines ++ lines') after) :
  ∃ next, Reads opened lines next ∧ Reads next lines' after
  := by
  induction lines generalizing opened with
  | nil => exact ⟨opened, .nil h.isOrderly_left, h⟩
  | cons line lines ih =>
    cases h with
    | text orderly idle rest =>
      obtain ⟨next, hlines, hrest⟩ := ih rest
      exact ⟨next, .text orderly idle hlines, hrest⟩
    | mark orderly apply rest =>
      obtain ⟨next, hlines, hrest⟩ := ih rest
      exact ⟨next, .mark orderly apply hlines, hrest⟩

/-- Lines in which nothing counts. -/
theorem of_idle (orderly : IsOrderly opened)
    (idle : ∀ line ∈ lines, ∀ mark ∈ marks line.toList, ¬ mark.Counts opened) :
  Reads opened lines opened
  := by
  induction lines with
  | nil => exact .nil orderly
  | cons line lines ih =>
    obtain ⟨hline, hlines⟩ := List.forall_mem_cons.mp idle
    exact .text orderly hline (ih hlines)

/-- An environment around lines in which nothing counts. -/
theorem block {e : Environment} (orderly : IsOrderly [e])
    (idle : ∀ line ∈ lines, ∀ mark ∈ marks line.toList, ¬ mark.Counts [e]) :
  Reads [] ((Mark.opens e).text :: (lines ++ [(Mark.closes e).text])) []
  := by
  have houtside : IsOrderly [] := Or.inl ⟨0, Nat.zero_le 8, rfl⟩
  have hopens : (Mark.opens e).apply [] = some [e] := Mark.apply_opens (by decide) e
  have hcloses := Mark.apply_closes e []
  exact .mark houtside hopens ((of_idle orderly idle).append (.mark orderly hcloses (.nil houtside)))

/-- Marks that do not count change nothing. -/
theorem foldlM_apply {found : List Mark} (h : ∀ mark ∈ found, ¬ mark.Counts opened) :
  found.foldlM Mark.apply opened = some opened
  := by
  induction found with
  | nil => rfl
  | cons mark found ih =>
    obtain ⟨hmark, hfound⟩ := List.forall_mem_cons.mp h
    have happly : mark.apply opened = some opened := if_neg hmark
    rw [List.foldlM_cons, happly]
    exact ih hfound

theorem scan_eq (h : Reads opened lines after) :
  scan opened lines = some after
  := by
  induction h with
  | nil => rfl
  | text _ idle _ ih =>
    rw [scan, List.foldlM_cons, scanLine, foldlM_apply idle]
    exact ih
  | mark _ apply _ ih =>
    rw [scan, List.foldlM_cons, scanLine, marks_text, List.foldlM_cons, apply]
    exact ih

/-- Only a line that is a mark itself holds a mark that counts. -/
theorem eq_of_counts (h : Reads opened [line] after) {mark : Mark}
    (hmark : mark ∈ marks line.toList) (hcounts : mark.Counts opened) :
  line = mark.text
  := by
  cases h with
  | text _ idle _ => exact absurd hcounts (idle mark hmark)
  | mark =>
    rw [marks_text, List.mem_singleton] at hmark
    rw [hmark]

theorem wellNested (h : Reads [] lines []) :
  WellNested lines
  := by
  refine ⟨h.scan_eq, ?_, ?_⟩
  · rintro before ⟨after, rfl⟩
    obtain ⟨next, hbefore, -⟩ := h.exists_of_append
    exact ⟨next, hbefore.scan_eq, hbefore.isOrderly_right⟩
  · rintro before line opened ⟨after, rfl⟩ hscan mark hmark hcounts
    obtain ⟨_, hlines, -⟩ := h.exists_of_append
    obtain ⟨next, hbefore, hline⟩ := hlines.exists_of_append
    obtain rfl : next = opened := by
      rw [hbefore.scan_eq] at hscan
      exact Option.some.inj hscan
    exact hline.eq_of_counts hmark hcounts

end Reads

end Bindery.Notebook
