import Bindery.Proofs.Merge.Reread

/-!
# Declarations that are settled

Once a declaration line has met its fate, it is barred from the preamble from then on: it is there
already, or it was turned down for a reason that stays, though another reason may come before it
(`Fates.barred`).  So merging more fragments whose declaration lines were all merged before changes
no directive (`Fates.directives_eq_nil`), and what is reported is never a line of the preamble
(`not_mem_preamble_of_reported`).
-/

namespace Bindery

variable {available : String → Bool} {before : List String} {origin line : String}

namespace Fate

/-- A line of the preamble is barred from entering it once more. -/
theorem barred_of_mem (h : line ∈ before) :
  Barred available before line
  := by
  intro more origin x hx
  cases hx with
  | plain _ hline => exact hline (List.mem_append_left more h)
  | request _ hline _ _ => exact hline (List.mem_append_left more h)

/-- A line that is neither a request nor any other declaration is barred. -/
theorem barred_of_class (hrequest : ∀ name, LineClass.of line ≠ .request name)
    (hother : LineClass.of line ≠ .other) :
  Barred available before line
  := by
  intro more origin x hx
  cases hx with
  | plain h _ => exact hother h
  | request h _ _ _ => exact hrequest _ h

/-- Whatever fate a line meets, it is barred afterwards. -/
theorem Meets.barred {fate : Fate} (h : fate.Meets available before origin line) :
  Barred available (before ++ declaredTexts [fate]) line
  := by
  cases h with
  | discarded h => exact barred_of_class (by simp [h]) (by simp [h])
  | unparseable h => exact barred_of_class (by simp [h]) (by simp [h])
  | repeatedPlain _ hline => exact (barred_of_mem hline).append _
  | repeatedRequest _ hline => exact (barred_of_mem hline).append _
  | plain _ _ => exact barred_of_mem (List.mem_append_right before List.mem_cons_self)
  | request _ _ _ _ => exact barred_of_mem (List.mem_append_right before List.mem_cons_self)
  | conflict h _ hkept => exact (barred_of_overlap h hkept).append _
  | unavailable h _ _ hmissing => exact (barred_of_missing h hmissing).append _

end Fate

namespace Fates

variable {lines : List (String × String)} {fates : List Fate}

/-- Lines that have met their fates are barred from then on. -/
theorem barred (h : Fates available before lines fates) :
  ∀ line ∈ lines, Fate.Barred available (before ++ declaredTexts fates) line.2
  := by
  induction h with
  | nil => exact List.forall_mem_nil _
  | @cons before origin line fate lines fates head tail ih =>
    rw [append_declaredTexts_cons, List.forall_mem_cons]
    exact ⟨head.barred.append _, ih⟩

/-- Lines that are barred from the start become no directives. -/
theorem directives_eq_nil (h : Fates available before lines fates)
    (hbarred : ∀ line ∈ lines, Fate.Barred available before line.2) :
  fates.filterMap Fate.directive? = []
  := by
  induction h with
  | nil => rfl
  | @cons before origin line fate lines fates head tail ih =>
    obtain ⟨hline, hlines⟩ := List.forall_mem_cons.mp hbarred
    have hrest := ih fun line hmem => (hlines line hmem).append _
    cases fate with
    | declared x =>
      have hhead : (Fate.declared x).Meets available (before ++ []) origin line := by
        rwa [List.append_nil]
      exact absurd hhead (hline [] origin x)
    | _ => exact hrest

end Fates

/-- The packages of a request in the preamble of a well-formed document can be read. -/
theorem Document.WellFormed.class_ne_unparseable {d : Document} (hd : d.WellFormed) :
  ∀ line ∈ d.preamble, LineClass.of line ≠ .unparseable
  := by
  intro line hline
  rcases List.mem_append.mp hline with hline | hline
  · rw [hd.fixed] at hline
    exact class_ne_unparseable_of_mem_fixedPreamble line hline
  · obtain ⟨x, hx, rfl⟩ := List.mem_map.mp hline
    rcases (hd.consistent x hx).eq_request_or_plain with ⟨name, hclass, -⟩ | ⟨hclass, -⟩
    · simp [hclass]
    · simp [hclass]

/-- A line that an account reports is no line of the preamble at its end. -/
theorem Account.not_mem_preamble_of_reported {d d' : Document} {lines : List (String × String)}
    {fates : List Fate} (h : Account available d lines fates d') (hd' : d'.WellFormed)
    {g : Diagnostic} (hg : .reported g ∈ fates) :
  g.line ∉ d'.preamble
  := by
  cases g with
  | unavailable origin name line =>
    rw [h.preamble]
    exact h.met.not_mem_of_unavailable hg
  | conflict origin name kept line =>
    rw [h.preamble]
    exact (h.met.conflict_stays hg).1
  | unparseable origin line =>
    obtain ⟨_, _, _, _, _, hmeets, -, -⟩ := h.met.exists_meets hg
    intro hline
    cases hmeets with
    | unparseable hclass => exact hd'.class_ne_unparseable line hline hclass

namespace Merge

variable {fs gs : List Fragment} {d d' : Document}

/-- Merging more fragments goes on from the document that merging the first ones gave. -/
theorem exists_account_of_merge_append (h : (merge fs).runPure available = .ok d)
    (h' : (merge (fs ++ gs)).runPure available = .ok d') :
  ∃ fates, Account available d (declarationLines gs) fates d'
  := by
  have hd : d.WellFormed := (merge_always_wellFormed fs).runPure available d h
  obtain ⟨-, rfl⟩ := runPure_merge_eq_ok_iff.mp h
  obtain ⟨-, rfl⟩ := runPure_merge_eq_ok_iff.mp h'
  rw [List.foldl_append]
  exact (exists_account_foldl (exists_account_addFragment available) gs hd).2

/-- The second document has the directives of the first one, and what is reported besides are
lines, in their order, that the preamble does not have. -/
structure AddsNothing (d : Document) (lines : List (String × String)) (d' : Document) : Prop where
  custom : d'.custom = d.custom
  diagnostics : ∃ more, d'.diagnostics = d.diagnostics ++ more
    ∧ (more.map fun g => (g.origin, g.line)).Sublist lines ∧ ∀ g ∈ more, g.line ∉ d'.preamble

/-- If it depends on the package alone whether it is available, merging fragments whose declaration
lines were all merged before adds no directive, and reports none of their lines that the preamble
has. -/
theorem addsNothing_of_merge_append
    (hlines : ∀ g ∈ gs, ∀ line ∈ g.preamble, ∃ f ∈ fs, line ∈ f.preamble)
    (h : (merge fs).runPure available = .ok d)
    (h' : (merge (fs ++ gs)).runPure available = .ok d') :
  AddsNothing d (declarationLines gs) d'
  := by
  have hd' : d'.WellFormed := (merge_always_wellFormed (fs ++ gs)).runPure available d' h'
  obtain ⟨fates, haccount⟩ := exists_account_of_merge h
  obtain ⟨more, hmore⟩ := exists_account_of_merge_append h h'
  -- Every line of the new fragments was barred when its like was merged before.
  have hbarred : ∀ line ∈ declarationLines gs, Fate.Barred available d.preamble line.2 := by
    intro line hline
    obtain ⟨g, hg, hmem⟩ := List.mem_flatMap.mp hline
    obtain ⟨text, htext, rfl⟩ := List.mem_map.mp hmem
    obtain ⟨f, hf, hsame⟩ := hlines g hg text htext
    have hearlier : (f.origin, text) ∈ declarationLines fs :=
      List.mem_flatMap.mpr ⟨f, hf, List.mem_map_of_mem hsame⟩
    rw [haccount.preamble]
    exact haccount.met.barred (f.origin, text) hearlier
  constructor
  · rw [hmore.custom, hmore.met.directives_eq_nil hbarred, List.append_nil]
  · refine ⟨_, hmore.diagnostics, hmore.met.reported_sublist, ?_⟩
    intro g hg
    exact hmore.not_mem_preamble_of_reported hd' (Fate.mem_filterMap_diagnostic?.mp hg)

/-- A list of packages of which one is missing is reported as such; when it is merged again it
overlaps a request that came after it, and the lines of the preamble are not reported. -/
theorem addsNothing_of_merge_append_overlap :
  let fs : List Fragment := [
    { origin := "a", preamble := ["\\usepackage\x7bp, r\x7d", "\\usepackage\x7bp\x7d"] },
    { origin := "b", preamble := ["\\def\\m\x7b\x7d", "\\usepackage\x7b\x7d"] }]
  let gs : List Fragment := [
    { origin := "c", preamble := ["\\usepackage\x7bp\x7d", "\\usepackage\x7bp, r\x7d"] },
    { origin := "d", preamble := ["\\def\\m\x7b\x7d"] }]
  let d : Document := {
    fixed := fixedPreamble
    custom := [.request "p" "\\usepackage\x7bp\x7d", .plain "\\def\\m\x7b\x7d"]
    body := ["", ""]
    diagnostics := [.unavailable "a" "p, r" "\\usepackage\x7bp, r\x7d",
      .unparseable "b" "\\usepackage\x7b\x7d"] }
  let d' : Document := { d with
    body := ["", "", "", ""]
    diagnostics := d.diagnostics ++
      [.conflict "c" "p, r" "\\usepackage\x7bp\x7d" "\\usepackage\x7bp, r\x7d"] }
  (∀ g ∈ gs, ∀ line ∈ g.preamble, ∃ f ∈ fs, line ∈ f.preamble)
    ∧ (merge fs).runPure (· != "r") = .ok d ∧ (merge (fs ++ gs)).runPure (· != "r") = .ok d'
    ∧ AddsNothing d (declarationLines gs) d'
  := by
  intro fs gs d d'
  have hlines : ∀ g ∈ gs, ∀ line ∈ g.preamble, ∃ f ∈ fs, line ∈ f.preamble := by decide
  have h : (merge fs).runPure (· != "r") = .ok d := by decide +kernel
  have h' : (merge (fs ++ gs)).runPure (· != "r") = .ok d' := by decide +kernel
  exact ⟨hlines, h, h', addsNothing_of_merge_append hlines h h'⟩

end Merge

end Bindery
