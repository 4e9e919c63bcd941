import Bindery.Proofs.Merge.Settled
import Bindery.Proofs.Transcript

/-!
# Merging more sources after the first ones

What the first sources contribute to a merged document does not depend on the sources after them:
merging goes on from the document of the first ones (`exists_account_of_merge_append`), and so do
its questions (`trace_merge_append`).  The document that is `Prolonged` has the directives and the
diagnostics of the first document in front of all others, and its body is made of the two bodies.
-/

namespace Bindery.Merge

variable {available : String → Bool} {fs gs : List Fragment} {d d' : Document}

/-- Merging well-formed fragments asks what taking them in asks. -/
theorem trace_merge (h : ∀ f ∈ fs, f.malformed? = none) :
  (merge fs).trace available = (fs.foldlM addFragment .empty).trace available
  := by
  rw [merge, List.findSome?_eq_none_iff.mpr h]
  dsimp only
  rw [← bind_pure_comp, Dialogue.bind_eq, Dialogue.trace_bind]
  apply List.append_nil

/-- Merging more fragments first asks what merging the first ones asks. -/
theorem trace_merge_append (hfs : ∀ f ∈ fs, f.malformed? = none)
    (hgs : ∀ g ∈ gs, g.malformed? = none) :
  (merge fs).trace available <+: (merge (fs ++ gs)).trace available
  := by
  have hall : ∀ f ∈ fs ++ gs, f.malformed? = none := List.forall_mem_append.mpr ⟨hfs, hgs⟩
  rw [trace_merge hfs, trace_merge hall, List.foldlM_append, Dialogue.bind_eq,
    Dialogue.trace_bind]
  apply List.prefix_append

/-- The document `d'` prolongs the document `d` of the fragments `fs` by the fragments `gs`, which
have the document `e` of their own. -/
structure Prolonged (available : String → Bool) (fs gs : List Fragment) (d e d' : Document) :
    Prop where
  /-- The directives of `d` come first, and the others are lines of `gs` in their order. -/
  custom : ∃ more, d'.custom = d.custom ++ more
    ∧ (more.map Directive.text).Sublist (gs.flatMap Fragment.preamble)
  diagnostics : d.diagnostics <+: d'.diagnostics
  asked : (merge fs).trace available <+: (merge (fs ++ gs)).trace available
  body : d'.body = d.body ++ e.body
  /-- A fragment adds its lines but for the boundaries, word for word, and one empty line. -/
  body_eq : d'.body = (fs ++ gs).flatMap fun f =>
    (f.body.filter fun line => !isBoundary line.toList) ++ [""]
  /-- Other declaration lines, and other answers about packages, make the same body. -/
  body_unaffected : ∀ {σ : Type} (answer : σ → String → Bool × σ) (s : σ) (others : List Fragment)
    (c : Document), others.map Fragment.body = (fs ++ gs).map Fragment.body →
      ((merge others).run answer s).1 = .ok c → c.body = d'.body

/-- If it depends on the package alone whether it is available, fragments that can be merged can be
merged without the last ones, and without the first ones, and what the last ones add comes after
what the first ones have contributed. -/
theorem prolonged_of_merge_append (h : (merge (fs ++ gs)).runPure available = .ok d') :
  ∃ d e, (merge fs).runPure available = .ok d ∧ (merge gs).runPure available = .ok e
    ∧ Prolonged available fs gs d e d'
  := by
  obtain ⟨hfs, hgs⟩ := List.forall_mem_append.mp (runPure_merge_eq_ok_iff.mp h).1
  obtain ⟨d, hd⟩ : ∃ d, (merge fs).runPure available = .ok d :=
    ⟨_, runPure_merge_eq_ok_iff.mpr ⟨hfs, rfl⟩⟩
  obtain ⟨e, he⟩ : ∃ e, (merge gs).runPure available = .ok e :=
    ⟨_, runPure_merge_eq_ok_iff.mpr ⟨hgs, rfl⟩⟩
  obtain ⟨fates, haccount⟩ := exists_account_of_merge_append hd h
  have hgathered := ((merge_always_gathered (fs ++ gs)).runPure available d' h).1
  have hdbody := ((merge_always_gathered fs).runPure available d hd).1.body
  have hebody := ((merge_always_gathered gs).runPure available e he).1.body
  refine ⟨d, e, hd, he, ?_⟩
  constructor
  case custom =>
    refine ⟨_, haccount.custom, ?_⟩
    rw [← map_snd_declarationLines]
    exact haccount.met.declared_sublist
  case diagnostics =>
    rw [haccount.diagnostics]
    apply List.prefix_append
  case asked => exact trace_merge_append hfs hgs
  case body => rw [hgathered.body, List.flatMap_append, hdbody, hebody]
  case body_eq => exact hgathered.body
  case body_unaffected =>
    intro σ answer s others c hsame hc
    have hbody := ((merge_always_gathered others).run_fst answer s c hc).1.body
    -- What a fragment adds to the body is a function of its own body.
    have hbodies : ∀ fragments : List Fragment, fragments.flatMap bodyOf
        = (fragments.map Fragment.body).flatMap fun lines =>
          (lines.filter fun line => !isBoundary line.toList) ++ [""] := by
      intro fragments
      rw [List.flatMap_map]
      rfl
    rw [hbody, hgathered.body, hbodies, hbodies, hsame]

/-- The second source asks for a package with options that the first one asked for without, and
which is declared with them where the second source is alone. -/
theorem prolonged_of_merge_append_options :
  let fs : List Fragment := [
    { origin := "a", preamble := ["\\usepackage\x7bp, r\x7d", "\\usepackage\x7bp\x7d"],
      body := ["Hello", " \\end\x7bdocument\x7d"] }]
  let gs : List Fragment := [
    { origin := "b", preamble := ["\\usepackage[x]\x7bp\x7d", "\\def\\m\x7b\x7d"],
      body := ["World", ""] }]
  let d : Document := {
    fixed := fixedPreamble
    custom := [.request "p" "\\usepackage\x7bp\x7d"]
    body := ["Hello", ""]
    diagnostics := [.unavailable "a" "p, r" "\\usepackage\x7bp, r\x7d"] }
  let e : Document := {
    fixed := fixedPreamble
    custom := [.request "p" "\\usepackage[x]\x7bp\x7d", .plain "\\def\\m\x7b\x7d"]
    body := ["World", "", ""]
    diagnostics := [] }
  let d' : Document := {
    fixed := fixedPreamble
    custom := [.request "p" "\\usepackage\x7bp\x7d", .plain "\\def\\m\x7b\x7d"]
    body := ["Hello", "", "World", "", ""]
    diagnostics := [.unavailable "a" "p, r" "\\usepackage\x7bp, r\x7d",
      .conflict "b" "p" "\\usepackage\x7bp\x7d" "\\usepackage[x]\x7bp\x7d"] }
  (merge (fs ++ gs)).runPure (· != "r") = .ok d' ∧ Prolonged (· != "r") fs gs d e d'
  := by
  intro fs gs d e d'
  have h : (merge (fs ++ gs)).runPure (· != "r") = .ok d' := by decide +kernel
  have hd : (merge fs).runPure (· != "r") = .ok d := by decide +kernel
  have he : (merge gs).runPure (· != "r") = .ok e := by decide +kernel
  obtain ⟨d₁, e₁, hd₁, he₁, hprolonged⟩ := prolonged_of_merge_append h
  obtain rfl : d₁ = d := Except.ok.inj (hd₁.symm.trans hd)
  obtain rfl : e₁ = e := Except.ok.inj (he₁.symm.trans he)
  exact ⟨h, hprolonged⟩

end Bindery.Merge
