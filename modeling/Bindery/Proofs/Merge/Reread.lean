import Bindery.Proofs.Merge.Account
import Bindery.Proofs.Merge.Content
import Bindery.Proofs.Text.Lines

/-!
# Reading a merged document back

The text of a merged document, taken as a source, is split into the preamble and the body that
the document was written from, since no other line of it is a boundary (`splitLines_eq`).  Each
directive is declared again after the fixed declarations (`Fates.of_declared`), so that merging
this one source gives the same document once more, up to an empty line at its end.
-/

namespace Bindery

/-! ### Boundaries -/

/-- White space at its end does not make a line a boundary. -/
theorem Kept.not_isBoundary {line : List Char} (h : Kept (Text.trim line)) :
  isBoundary line = false
  := by
  have hbegin : ¬ beginDocument.toList <+: Text.trimStart line := by
    rw [← Text.prefix_trimEnd_iff (c := '}') (by decide) (by decide)]
    exact h.not_beginDocument
  have hend : ¬ endDocument.toList <+: Text.trimStart line := by
    rw [← Text.prefix_trimEnd_iff (c := '}') (by decide) (by decide)]
    exact h.not_endDocument
  rw [← List.isPrefixOf_iff_prefix, Bool.not_eq_true] at hbegin hend
  rw [isBoundary, opensDocument, closesDocument, hbegin, hend]
  rfl

theorem not_isBoundary_of_mem_fixedPreamble :
  ∀ line ∈ fixedPreamble, isBoundary line.toList = false
  := by
  decide +kernel

/-- The lines before and between two markers are the preamble and the body. -/
theorem Fragment.splitLines_eq {preamble body : List (List Char)}
    (hpreamble : ∀ line ∈ preamble, isBoundary line = false)
    (hbody : ∀ line ∈ body, isBoundary line = false) :
  splitLines (preamble ++ [beginDocument.toList] ++ body ++ [endDocument.toList])
    = (preamble, body)
  := by
  have hopens : ∀ {lines : List (List Char)}, (∀ line ∈ lines, isBoundary line = false) →
      ∀ line ∈ lines, (!opensDocument line) = true := by
    intro lines h line hline
    rw [(Bool.or_eq_false_iff.mp (h line hline)).1]
    rfl
  have hcloses : ∀ line ∈ preamble ++ [beginDocument.toList] ++ body,
      (!closesDocument line) = true := by
    simp only [List.mem_append, List.mem_singleton]
    rintro line ((hline | rfl) | hline)
    · rw [(Bool.or_eq_false_iff.mp (hpreamble line hline)).2]
      rfl
    · decide
    · rw [(Bool.or_eq_false_iff.mp (hbody line hline)).2]
      rfl
  have hkept : (preamble ++ [beginDocument.toList] ++ body ++ [endDocument.toList]).takeWhile
      (fun line => !closesDocument line) = preamble ++ [beginDocument.toList] ++ body := by
    rw [List.takeWhile_append_of_pos hcloses]
    apply List.append_nil
  have hany : (preamble ++ [beginDocument.toList] ++ body ++ [endDocument.toList]).any
      opensDocument = true := by
    apply List.any_eq_true.mpr
    refine ⟨beginDocument.toList, ?_, by decide⟩
    simp
  have htake : ([beginDocument.toList] ++ body).takeWhile (fun line => !opensDocument line) = [] :=
    List.takeWhile_cons_of_neg (by decide)
  have hdrop : ([beginDocument.toList] ++ body).dropWhile (fun line => !opensDocument line)
      = [beginDocument.toList] ++ body := List.dropWhile_cons_of_neg (by decide)
  have hfilter : [beginDocument.toList].filter (fun line => !opensDocument line) = [] := by decide
  rw [splitLines, if_pos hany, hkept, List.append_assoc,
    List.takeWhile_append_of_pos (hopens hpreamble),
    List.dropWhile_append_of_pos (hopens hpreamble), htake, hdrop, List.filter_append, hfilter,
    List.filter_eq_self.mpr (hopens hbody), List.append_nil, List.nil_append]

/-! ### Declaring a preamble again -/

/-- A directive that is consistent is one of the two kinds that a line becomes. -/
theorem Directive.Consistent.eq_request_or_plain {x : Directive} (h : x.Consistent) :
  (∃ name, LineClass.of x.text = .request name ∧ x = request name x.text)
    ∨ LineClass.of x.text = .other ∧ x = plain x.text
  := by
  obtain ⟨kind, capability, text⟩ := x
  cases kind with
  | capability =>
    left
    obtain ⟨name, rfl, hname⟩ := h.capability_of_request rfl
    exact ⟨name, LineClass.of_eq_request_iff.mpr hname, rfl⟩
  | other =>
    right
    obtain rfl : capability = none := h.capability_of_other rfl
    have huse : ¬ usePackage.toList <+: Text.trim text.toList := by
      intro huse
      cases h.kind_iff.mpr huse
    exact ⟨LineClass.of_eq_other_iff.mpr ⟨h.kept, huse⟩, rfl⟩

/-- The packages that a directive requests are available. -/
def Directive.Granted (available : String → Bool) (x : Directive) : Prop :=
  ∀ name, x.capability = some name → ∀ package ∈ packages name, available package

variable {available : String → Bool} {before : List String}

/-- The text of a consistent directive becomes that directive again if it is new, apart from all
lines before, and what it requests is available. -/
theorem Directive.Consistent.meets_declared {x : Directive} (h : x.Consistent)
    (hgranted : x.Granted available) (hnew : x.text ∉ before)
    (hapart : ∀ line ∈ before, (requested line).Disjoint (requested x.text)) (origin : String) :
  (Fate.declared x).Meets available before origin x.text
  := by
  have hfind : before.find? (overlaps · x.text) = none := by
    apply List.find?_eq_none.mpr
    intro line hline
    rw [overlaps_eq_false_iff.mpr (hapart line hline)]
    exact Bool.false_ne_true
  rcases h.eq_request_or_plain with ⟨name, hclass, hx⟩ | ⟨hclass, hx⟩
  · have hall := hgranted name (by rw [hx]; rfl)
    rw [hx]
    exact .request hclass hnew hfind hall
  · rw [hx]
    exact .plain hclass hnew

/-- A directive that a line has become was granted. -/
theorem Fate.Meets.granted {x : Directive} {origin line : String}
    (h : (Fate.declared x).Meets available before origin line) :
  x.Granted available
  := by
  cases h with
  | plain _ _ =>
    intro name hname
    cases hname
  | request _ _ _ hall =>
    rintro _ ⟨⟩
    exact hall

/-- Lines of the preamble that can be read are no news to it. -/
theorem Fates.of_mem {lines : List (String × String)}
    (h : ∀ line ∈ lines, line.2 ∈ before ∧ LineClass.of line.2 ≠ .unparseable) :
  ∃ fates, Fates available before lines fates ∧ fates.filterMap Fate.directive? = []
    ∧ fates.filterMap Fate.diagnostic? = []
  := by
  induction lines with
  | nil => exact ⟨[], .nil, rfl, rfl⟩
  | cons line lines ih =>
    obtain ⟨origin, line⟩ := line
    obtain ⟨⟨hmem, hclass⟩, hlines⟩ := List.forall_mem_cons.mp h
    obtain ⟨fates, hfates, hdirectives, hdiagnostics⟩ := ih hlines
    have hbefore : before ++ declaredTexts [.repeated] = before := List.append_nil before
    rw [← hbefore] at hfates
    cases hline : LineClass.of line with
    | unparseable => exact absurd hline hclass
    | discarded => exact ⟨_, .cons (.discarded hline) hfates, hdirectives, hdiagnostics⟩
    | request name =>
      exact ⟨_, .cons (.repeatedRequest hline hmem) hfates, hdirectives, hdiagnostics⟩
    | other => exact ⟨_, .cons (.repeatedPlain hline hmem) hfates, hdirectives, hdiagnostics⟩

/-- The texts of directives that may stand after a preamble become these directives. -/
theorem Fates.of_declared (origin : String) {xs : List Directive}
    (hconsistent : ∀ x ∈ xs, x.Consistent) (hgranted : ∀ x ∈ xs, x.Granted available)
    (hdistinct : (before ++ xs.map Directive.text).Nodup)
    (hapart : (before ++ xs.map Directive.text).Pairwise fun a b =>
      (requested a).Disjoint (requested b)) :
  Fates available before (xs.map fun x => (origin, x.text)) (xs.map Fate.declared)
  := by
  induction xs generalizing before with
  | nil => exact .nil
  | cons x xs ih =>
    have hsplit : before ++ (x :: xs).map Directive.text
        = before ++ [x.text] ++ xs.map Directive.text := by
      rw [List.map_cons, List.append_cons]
    have hnew : x.text ∉ before := by
      intro hmem
      exact (List.nodup_append.mp hdistinct).2.2 _ hmem _ List.mem_cons_self rfl
    have hlines : ∀ line ∈ before, (requested line).Disjoint (requested x.text) := by
      intro line hline
      exact (List.pairwise_append.mp hapart).2.2 line hline _ List.mem_cons_self
    obtain ⟨hx, hxs⟩ := List.forall_mem_cons.mp hconsistent
    obtain ⟨hgrantedx, hgrantedxs⟩ := List.forall_mem_cons.mp hgranted
    apply Fates.cons (hx.meets_declared hgrantedx hnew hlines origin)
    rw [hsplit] at hdistinct hapart
    apply ih hxs hgrantedxs hdistinct hapart

theorem class_ne_unparseable_of_mem_fixedPreamble :
  ∀ line ∈ fixedPreamble, LineClass.of line ≠ .unparseable
  := by
  decide +kernel

/-- The preamble of a well-formed document, as lines of one source, makes its directives again
and no diagnostics. -/
theorem Document.WellFormed.exists_fates {d : Document} (hd : d.WellFormed)
    (hgranted : ∀ x ∈ d.custom, x.Granted available) (origin : String) :
  ∃ fates, Fates available fixedPreamble (d.preamble.map fun line => (origin, line)) fates
    ∧ fates.filterMap Fate.directive? = d.custom ∧ fates.filterMap Fate.diagnostic? = []
  := by
  have hpreamble : d.preamble = fixedPreamble ++ d.custom.map Directive.text := by
    rw [preamble, hd.fixed]
  have hdistinct := hd.distinct
  have hapart := hd.apart
  rw [hpreamble] at hdistinct hapart
  -- The fixed lines are there already, and each directive follows them as it did before.
  have hfixed : ∀ line ∈ fixedPreamble.map fun line => (origin, line),
      line.2 ∈ fixedPreamble ∧ LineClass.of line.2 ≠ .unparseable := by
    intro line hline
    obtain ⟨text, htext, rfl⟩ := List.mem_map.mp hline
    exact ⟨htext, class_ne_unparseable_of_mem_fixedPreamble text htext⟩
  obtain ⟨old, hold, holdDirectives, holdDiagnostics⟩ :
      ∃ fates, Fates available fixedPreamble (fixedPreamble.map fun line => (origin, line)) fates
        ∧ fates.filterMap Fate.directive? = [] ∧ fates.filterMap Fate.diagnostic? = [] :=
    Fates.of_mem hfixed
  have hnew := Fates.of_declared origin hd.consistent hgranted hdistinct hapart
  have hnewDirectives : (d.custom.map Fate.declared).filterMap Fate.directive? = d.custom := by
    rw [List.filterMap_map]
    apply List.filterMap_some
  have hnewDiagnostics : (d.custom.map Fate.declared).filterMap Fate.diagnostic? = [] := by
    rw [List.filterMap_map]
    exact List.filterMap_eq_nil_iff.mpr fun _ _ => rfl
  refine ⟨old ++ d.custom.map Fate.declared, ?_, ?_, ?_⟩
  · rw [hpreamble, List.map_append, List.map_map]
    apply hold.append
    rw [declaredTexts, holdDirectives, List.map_nil, List.append_nil]
    exact hnew
  · rw [List.filterMap_append, holdDirectives, hnewDirectives, List.nil_append]
  · rw [List.filterMap_append, holdDiagnostics, hnewDiagnostics, List.nil_append]

namespace Merge

/-- The directives of a merged document were granted. -/
theorem granted_of_merge {fragments : List Fragment} {d : Document}
    (h : (merge fragments).runPure available = .ok d) :
  ∀ x ∈ d.custom, x.Granted available
  := by
  obtain ⟨fates, haccount⟩ := exists_account_of_merge h
  intro x hx
  rw [haccount.custom] at hx
  have hfate : Fate.declared x ∈ fates := Fate.mem_filterMap_directive?.mp hx
  obtain ⟨_, _, _, _, _, hmeets, -, -⟩ := haccount.met.exists_meets hfate
  exact hmeets.granted

/-- What reading the text of a document gives, and what merging that gives once more. -/
structure ReadsBack (available : String → Bool) (origin : String) (d : Document) : Prop where
  fragment : Fragment.ofMarkup origin d.render
    = { origin, preamble := d.fixed ++ d.custom.map Directive.text, body := d.body }
  /-- Nothing is lost and nothing is reported; the body ends with an empty line. -/
  merged : (merge [Fragment.ofMarkup origin d.render]).runPure available
    = .ok { d with body := d.body ++ [""], diagnostics := [] }
  /-- The two markers are the only lines of the text that begin, after white space, with a
  marker. -/
  boundaries : (Text.lines d.render.toList).filter isBoundary
    = [beginDocument.toList, endDocument.toList]

/-- No line of the body that a fragment adds is a boundary. -/
theorem not_isBoundary_of_mem_bodyOf {f : Fragment} {line : String} (h : line ∈ bodyOf f) :
  isBoundary line.toList = false
  := by
  rcases List.mem_append.mp h with h | h
  · simpa using (List.mem_filter.mp h).2
  · rw [List.mem_singleton.mp h]
    rfl

/-- The fragment of a well-formed document merges to the same document, without diagnostics and
with an empty line at its end. -/
theorem merge_reread {d : Document} (hd : d.WellFormed) {origin : String}
    (hgranted : ∀ x ∈ d.custom, x.Granted available)
    (hsingle : ∀ line ∈ d.preamble ++ d.body, Text.IsSingleLine line.toList)
    (hbody : ∀ line ∈ d.body, isBoundary line.toList = false) :
  (merge [{ origin, preamble := d.preamble, body := d.body }]).runPure available
    = .ok { d with body := d.body ++ [""], diagnostics := [] }
  := by
  set f : Fragment := { origin, preamble := d.preamble, body := d.body } with hf
  have hmalformed : f.malformed? = none := Fragment.malformed?_eq_none_iff.mpr hsingle
  obtain ⟨d', hd'⟩ : ∃ d', (merge [f]).runPure available = .ok d' :=
    ⟨_, runPure_merge_eq_ok_iff.mpr ⟨List.forall_mem_singleton.mpr hmalformed, rfl⟩⟩
  obtain ⟨fates, haccount⟩ := exists_account_of_merge hd'
  obtain ⟨again, hagain, hdirectives, hdiagnostics⟩ := hd.exists_fates hgranted origin
  have hempty : Document.empty.preamble = fixedPreamble := List.append_nil fixedPreamble
  have hlines : declarationLines [f] = d.preamble.map fun line => (origin, line) :=
    List.flatMap_singleton _ f
  obtain rfl : fates = again := by
    have hmet := haccount.met
    rw [hempty, hlines] at hmet
    exact hmet.unique hagain
  have hcustom : d'.custom = d.custom := haccount.custom.trans hdirectives
  have hnone : d'.diagnostics = [] := haccount.diagnostics.trans hdiagnostics
  have hfixed : d'.fixed = d.fixed := haccount.fixed.trans hd.fixed.symm
  have hgathered := ((merge_always_gathered [f]).runPure available d' hd').1
  have hbody' : d'.body = d.body ++ [""] := by
    rw [hgathered.body, List.flatMap_singleton, bodyOf, List.filter_eq_self.mpr]
    intro line hline
    rw [hbody line hline]
    rfl
  rw [hd', ← hfixed, ← hcustom, ← hbody', ← hnone]

/-- If it depends on the package alone whether it is available, a merged document is read back
from its own text, and merging it again changes nothing but for an empty line at its end. -/
theorem readsBack_of_merge {fragments : List Fragment} {d : Document}
    (h : (merge fragments).runPure available = .ok d) (origin : String) :
  ReadsBack available origin d
  := by
  have hd := (merge_always_wellFormed fragments).runPure available d h
  obtain ⟨hgathered, hfragments⟩ := (merge_always_gathered fragments).runPure available d h
  have hsingle := hgathered.isSingleLine hd.fixed hfragments
  have hpreamble : ∀ line ∈ d.preamble, isBoundary line.toList = false := by
    intro line hline
    rcases List.mem_append.mp hline with hline | hline
    · rw [hd.fixed] at hline
      exact not_isBoundary_of_mem_fixedPreamble line hline
    · obtain ⟨x, hx, rfl⟩ := List.mem_map.mp hline
      exact (hd.consistent x hx).kept.not_isBoundary
  have hbody : ∀ line ∈ d.body, isBoundary line.toList = false := by
    intro line hline
    rw [hgathered.body] at hline
    obtain ⟨f, -, hline⟩ := List.mem_flatMap.mp hline
    exact not_isBoundary_of_mem_bodyOf hline
  have hlines : Text.lines d.render.toList = d.preamble.map String.toList
      ++ [beginDocument.toList] ++ d.body.map String.toList ++ [endDocument.toList] := by
    rw [Document.toList_render, Text.lines_flatMap]
    · simp [Document.allLines]
    · intro line hline
      obtain ⟨text, htext, rfl⟩ := List.mem_map.mp hline
      exact ⟨(hsingle text htext).no_feed, (hsingle text htext).no_return⟩
  have hfragment : Fragment.ofMarkup origin d.render
      = { origin, preamble := d.preamble, body := d.body } := by
    rw [Fragment.ofMarkup_eq, hlines, Fragment.splitLines_eq (by simpa using hpreamble)
      (by simpa using hbody)]
    simp
  constructor
  · exact hfragment
  · rw [hfragment]
    apply merge_reread hd (granted_of_merge h) _ hbody
    intro line hline
    apply hsingle
    simp only [Document.allLines, List.mem_append] at hline ⊢
    tauto
  · have hnone : ∀ {texts : List String}, (∀ line ∈ texts, isBoundary line.toList = false) →
        (texts.map String.toList).filter isBoundary = [] := by
      intro texts hlines
      simpa [List.filter_eq_nil_iff] using hlines
    rw [hlines, List.filter_append, List.filter_append, List.filter_append, hnone hpreamble,
      hnone hbody]
    decide

/-- A list of packages, a macro behind white space and a line between two stray markers are read
back from the text that they are merged to. -/
theorem readsBack_of_merge_stray :
  let fragments : List Fragment := [
    { origin := "a", preamble := ["\\usepackage[x]\x7bp, q\x7d ", "\\usepackage\x7br\x7d"],
      body := ["  \\begin\x7bdocument\x7d again", "\t%\\end\x7bdocument\x7d",
        "\\end\x7bdocument\x7d"] },
    { origin := "b", preamble := ["  \\def\\m\x7b\x7d", "\\usepackage\x7bulem, r\x7d"] }]
  let d : Document := {
    fixed := fixedPreamble
    custom := [.request "p, q" "\\usepackage[x]\x7bp, q\x7d ", .plain "  \\def\\m\x7b\x7d"]
    body := ["\t%\\end\x7bdocument\x7d", "", ""]
    diagnostics := [.unavailable "a" "r" "\\usepackage\x7br\x7d",
      .conflict "b" "ulem, r" "\\usepackage\x7bulem\x7d" "\\usepackage\x7bulem, r\x7d"] }
  (merge fragments).runPure (· != "r") = .ok d ∧ ReadsBack (· != "r") "c" d
  := by
  intro fragments d
  apply (and_iff_left_of_imp fun h => readsBack_of_merge h "c").mpr
  decide +kernel

end Merge

end Bindery
