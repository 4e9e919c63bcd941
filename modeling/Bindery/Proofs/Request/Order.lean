import Bindery.Proofs.Request.Stages

/-!
# The order of sources

The sources are handled in the order of a stable sort by kind, each with the number of sources of
its kind before it (`inOrder_eq`).  Of a source nothing but its kind and its bytes matters, so
that a request is the same job for all lists that hold the same for every kind
(`process_by_kind`).
-/

namespace Bindery.Request

open Machine (run run_bind)

/-! ### Sorting by kind -/

/-- The kind of a source does not come after that of another. -/
def byKind (a b : SourceFile) : Bool :=
  a.kind.rank ≤ b.kind.rank

/-- The sources, each with the number of those of its kind that come before it or were seen. -/
def countEach (seen : List SourceKind) : List SourceFile → List (SourceFile × Nat)
  | [] => []
  | source :: rest => (source, seen.count source.kind) :: countEach (source.kind :: seen) rest

variable {sources : List SourceFile}

theorem countEach_append (seen : List SourceKind) (before after : List SourceFile) :
  countEach seen (before ++ after)
    = countEach seen before ++ countEach ((before.map SourceFile.kind).reverse ++ seen) after
  := by
  induction before generalizing seen with
  | nil => rfl
  | cons source rest ih =>
    rw [List.cons_append, countEach, ih, countEach, List.map_cons, List.reverse_cons,
      List.append_assoc]
    rfl

theorem countEach_of_kind {kind : SourceKind} (h : ∀ source ∈ sources, source.kind = kind)
    (seen : List SourceKind) :
  countEach seen sources = sources.zipIdx (seen.count kind)
  := by
  induction sources generalizing seen with
  | nil => rfl
  | cons source rest ih =>
    obtain ⟨rfl, hrest⟩ := List.forall_mem_cons.mp h
    rw [countEach, ih hrest, List.count_cons_self, List.zipIdx_cons]

/-- Counting through the sources of one kind after another numbers each kind on its own. -/
theorem countEach_flatMap {kinds : List SourceKind} (hkinds : kinds.Nodup)
    {seen : List SourceKind} (hseen : ∀ kind ∈ kinds, seen.count kind = 0) :
  countEach seen (kinds.flatMap fun kind => sources.filter fun s => s.kind = kind)
    = kinds.flatMap (numbered sources)
  := by
  induction kinds generalizing seen with
  | nil => rfl
  | cons kind kinds ih =>
    obtain ⟨hkind, hkinds⟩ := List.nodup_cons.mp hkinds
    obtain ⟨hfirst, hrest⟩ := List.forall_mem_cons.mp hseen
    have hfiltered : ∀ source ∈ sources.filter fun s => s.kind = kind, source.kind = kind := by
      intro source hsource
      simpa using (List.mem_filter.mp hsource).2
    rw [List.flatMap_cons, List.flatMap_cons, countEach_append, countEach_of_kind hfiltered,
      hfirst, ih hkinds]
    · rfl
    · intro other hother
      rw [List.count_append, hrest other hother, Nat.add_zero, List.count_eq_zero,
        List.mem_reverse, List.mem_map]
      rintro ⟨source, hsource, rfl⟩
      rw [hfiltered source hsource] at hother
      exact hkind hother

/-- Sources that are sorted by kind come one kind after another. -/
theorem eq_flatMap_of_sorted (h : sources.Pairwise fun a b => byKind a b) :
  sources = SourceKind.all.flatMap fun kind => sources.filter fun s => s.kind = kind
  := by
  induction sources with
  | nil => rfl
  | cons source rest ih =>
    obtain ⟨hfirst, hrest⟩ := List.pairwise_cons.mp h
    have hnone (kind : SourceKind) (hkind : kind.rank < source.kind.rank) :
        (rest.filter fun s => s.kind = kind) = [] := by
      apply List.filter_eq_nil_iff.mpr
      intro other hother
      have hle : source.kind.rank ≤ other.kind.rank := by simpa [byKind] using hfirst other hother
      simp only [decide_eq_true_eq]
      rintro rfl
      omega
    have hgroups := ih hrest
    simp only [SourceKind.all, List.flatMap_cons, List.flatMap_nil] at hgroups ⊢
    -- The kinds before that of the first source hold nothing, so that it comes first.
    cases hkind : source.kind with
    | latex => simpa [hkind] using hgroups
    | slides =>
      have hlatex := hnone .latex (by rw [hkind]; decide)
      simpa [hkind, hlatex] using hgroups
    | notebook =>
      have hlatex := hnone .latex (by rw [hkind]; decide)
      have hslides := hnone .slides (by rw [hkind]; decide)
      simpa [hkind, hlatex, hslides] using hgroups

theorem byKind_trans (a b c : SourceFile) (hab : byKind a b) (hbc : byKind b c) :
  byKind a c
  := by
  simp only [byKind, decide_eq_true_eq] at hab hbc ⊢
  exact Nat.le_trans hab hbc

theorem byKind_total (a b : SourceFile) :
  byKind a b || byKind b a
  := by
  simp only [byKind, Bool.or_eq_true, decide_eq_true_eq]
  exact Nat.le_total _ _

/-- Sorting by kind leaves the sources of each kind in their order. -/
theorem filter_mergeSort (sources : List SourceFile) (kind : SourceKind) :
  ((sources.mergeSort byKind).filter fun s => s.kind = kind)
    = sources.filter fun s => s.kind = kind
  := by
  have hsorted : (sources.filter fun s => s.kind = kind).Pairwise fun a b => byKind a b := by
    rw [List.pairwise_filter]
    apply List.pairwise_of_forall
    intro a b ha hb
    simp only [decide_eq_true_eq] at ha hb
    simp [byKind, ha, hb]
  have hsublist := (List.sublist_mergeSort byKind_trans byKind_total hsorted
    List.filter_sublist).filter fun s => s.kind = kind
  rw [List.filter_filter] at hsublist
  have hlength := ((List.mergeSort_perm sources byKind).filter fun s => s.kind = kind).length_eq
  symm
  simp only [Bool.and_self] at hsublist
  exact hsublist.eq_of_length hlength.symm

/-- The sources are handled in the order of a stable sort by kind, each with the number of sources
of its kind before it. -/
theorem inOrder_eq (sources : List SourceFile) :
  inOrder sources = countEach [] (sources.mergeSort byKind)
  := by
  have hsorted := List.pairwise_mergeSort byKind_trans byKind_total sources
  rw [eq_flatMap_of_sorted hsorted]
  simp only [filter_mergeSort]
  exact (countEach_flatMap (by decide) (fun _ _ => rfl)).symm

theorem map_fst_countEach (seen : List SourceKind) (sources : List SourceFile) :
  (countEach seen sources).map Prod.fst = sources
  := by
  induction sources generalizing seen with
  | nil => rfl
  | cons source rest ih => rw [countEach, List.map_cons, ih]

/-- Every source is handled once. -/
theorem inOrder_perm (sources : List SourceFile) :
  ((inOrder sources).map Prod.fst).Perm sources
  := by
  rw [inOrder_eq, map_fst_countEach]
  exact List.mergeSort_perm sources byKind

theorem length_inOrder (sources : List SourceFile) :
  (inOrder sources).length = sources.length
  := by
  rw [← (inOrder_perm sources).length_eq, List.length_map]

/-! ### What matters of a source -/

/-- What the sources of a kind hold, in their order. -/
def bytesOf (sources : List SourceFile) (kind : SourceKind) : List Bytes :=
  (sources.filter fun s => s.kind = kind).map SourceFile.bytes

/-- What is used of a source of a number. -/
def content (source : SourceFile × Nat) : SourceKind × Bytes × Nat :=
  (source.1.kind, source.1.bytes, source.2)

theorem map_content_inOrder (sources : List SourceFile) :
  (inOrder sources).map content = SourceKind.all.flatMap fun kind =>
    (bytesOf sources kind).zipIdx.map fun (bytes, index) => (kind, bytes, index)
  := by
  rw [inOrder, List.map_flatMap]
  congr
  funext kind
  rw [bytesOf, List.zipIdx_map, List.map_map]
  apply List.map_congr_left
  intro source hsource
  exact Prod.ext (of_mem_numbered hsource).2 rfl

/-- Keeping sources does not depend on their names. -/
theorem keepAll_congr (w : Workspace) {sources sources' : List (SourceFile × Nat)}
    (h : sources.map content = sources'.map content) :
  keepAll w sources = keepAll w sources'
  := by
  induction sources generalizing sources' with
  | nil =>
    obtain rfl := List.map_eq_nil_iff.mp h.symm
    rfl
  | cons source rest ih =>
    cases sources' with
    | nil => cases h
    | cons source' rest' =>
      obtain ⟨hsource, hrest⟩ := List.cons.inj h
      obtain ⟨⟨kind, name, bytes⟩, index⟩ := source
      obtain ⟨⟨kind', name', bytes'⟩, index'⟩ := source'
      cases hsource
      rw [keepAll, keepAll, ih hrest]

theorem keeping_congr (context : Context) (c : Config) {sources sources' : List SourceFile}
    (h : ∀ kind, bytesOf sources' kind = bytesOf sources kind) :
  keeping context c sources' = keeping context c sources ∧ sources'.length = sources.length
  := by
  have hcontent : (inOrder sources').map content = (inOrder sources).map content := by
    simp only [map_content_inOrder, h]
  have hlength : sources'.length = sources.length := by
    rw [← length_inOrder, ← length_inOrder sources]
    simpa using congrArg List.length hcontent
  have hkeep (w : Workspace) : keepAll w (inOrder sources') = keepAll w (inOrder sources) :=
    keepAll_congr w hcontent
  constructor
  · simp only [keeping, hkeep, hlength]
  · exact hlength

/-! ### Names -/

/-- Every source goes by the name that its kind and its number give it. -/
theorem map_sourceKey_inOrder (sources : List SourceFile) :
  (inOrder sources).map sourceKey = SourceKind.all.flatMap fun kind =>
    (List.range (bytesOf sources kind).length).map fun index => (kind, kind.fileName index)
  := by
  rw [inOrder, List.map_flatMap]
  congr
  funext kind
  rw [bytesOf, List.length_map, List.range_eq_range', ← List.zipIdx_map_snd 0, List.map_map]
  apply List.map_congr_left
  intro source hsource
  have hkind : source.1.kind = kind := (of_mem_numbered hsource).2
  rw [sourceKey, hkind]
  rfl

theorem exists_mem_inOrder {kind : SourceKind} {index : Nat} {bytes : Bytes}
    (h : (bytesOf sources kind)[index]? = some bytes) :
  ∃ source, (source, index) ∈ inOrder sources ∧ source.kind = kind ∧ source.bytes = bytes
  := by
  rw [bytesOf, List.getElem?_map, Option.map_eq_some_iff] at h
  obtain ⟨source, hsource, rfl⟩ := h
  have hmem : (source, index) ∈ numbered sources kind :=
    List.mk_mem_zipIdx_iff_getElem?.mpr hsource
  have hall : kind ∈ SourceKind.all := by cases kind <;> decide
  exact ⟨source, List.mem_flatMap.mpr ⟨kind, hall, hmem⟩, (of_mem_numbered hmem).2, rfl⟩

/-- The outcomes in a report are those of the sources, in order. -/
theorem map_key_report {s : Surroundings} {context : Context} {c : Config} {m : Machine}
    {report : Report} (h : (run s (process context c sources) m).1 = .ok report) :
  report.sources.map (fun o => (o.kind, o.origin)) = (inOrder sources).map sourceKey
  := by
  rw [process_eq, run_bind] at h
  cases hkept : run s (keeping context c sources) m with
  | mk result m' =>
    rw [hkept] at h
    cases result with
    | error e => cases h
    | ok found =>
      obtain ⟨w, kept⟩ := found
      obtain ⟨-, rfl, -⟩ := of_run_keeping hkept
      rw [finishing, Dialogue.bind_eq, run_bind] at h
      have hkeys := (map_key_extractAll c w sources.length 1
        ((inOrder sources).map (keptSource w))).run_fst (Machine.answer s) m'
      have hsources := (sources_of_mergeExtracted context c w _).run_fst (Machine.answer s) _
        report h
      rw [map_key_keptSource] at hkeys
      rw [hsources, List.map_map, ← hkeys]
      apply List.map_congr_left
      intro x _
      exact key_outcome x

/-- A request does the same for all lists of sources that hold the same for every kind, whatever
the order of the kinds and the names.  The outcomes it reports are those of the kinds in turn, and
what is kept under the name of each kind and number is what was handed in. -/
theorem process_by_kind (context : Context) (c : Config) (sources : List SourceFile) :
  (∀ sources', (∀ kind, bytesOf sources' kind = bytesOf sources kind) →
    process context c sources' = process context c sources)
  ∧ ∀ (s : Surroundings) (m : Machine),
    (∀ report, (run s (process context c sources) m).1 = .ok report →
      report.sources.map (fun o => (o.kind, o.origin)) = SourceKind.all.flatMap fun kind =>
        (List.range (bytesOf sources kind).length).map fun index => (kind, kind.fileName index))
    ∧ ∀ w kept m', run s (keeping context c sources) m = (.ok (w, kept), m') →
      ∀ kind index bytes, (bytesOf sources kind)[index]? = some bytes →
        m'.tree.read m'.cwd (context.directory.join (kind.fileName index)) = .ok bytes
  := by
  constructor
  · intro sources' h
    obtain ⟨hkeep, hlength⟩ := keeping_congr context c h
    rw [process_eq, process_eq, hkeep, hlength]
  · intro s m
    constructor
    · intro report h
      rw [map_key_report h, map_sourceKey_inOrder]
    · intro w kept m' h kind index bytes hbytes
      obtain ⟨source, hsource, rfl, rfl⟩ := exists_mem_inOrder hbytes
      obtain ⟨rfl, -, -⟩ := of_run_keeping h
      obtain ⟨-, hread⟩ := read_of_run_keeping h
      exact hread (source, index) hsource

/-- Markup is handled before a notebook that was handed in first. -/
theorem process_by_kind_swapped :
  let s : Surroundings := { programs := fun _ _ tree => (.error .notFound, tree) }
  let context := Context.consulting "1" ⟨"/w"⟩
  let sources (first second : String) : List SourceFile := [
    { kind := .notebook, name := first, bytes := Text.utf8 "\x7b\"cells\":[]\x7d".toList },
    { kind := .latex, name := second, bytes := Text.utf8 "b".toList }]
  process context {} (sources "x" "y").reverse = process context {} (sources "a" "b")
    ∧ (∃ report, (run s (process context {} (sources "a" "b")) { tree := {} }).1 = .ok report
      ∧ report.sources.map (fun o => (o.kind, o.origin))
        = [(.latex, "latex_0.tex"), (.notebook, "notebook_0.ipynb")])
    ∧ ∃ found m', run s (keeping context {} (sources "a" "b")) { tree := {} } = (.ok found, m')
      ∧ m'.tree.read m'.cwd ⟨"/w/latex_0.tex"⟩ = .ok (Text.utf8 "b".toList)
  := by
  intro s context sources
  obtain ⟨hsame, hrun⟩ := process_by_kind context {} (sources "a" "b")
  obtain ⟨hreport, hkept⟩ := hrun s { tree := {} }
  refine ⟨hsame _ ?_, ?_, ?_⟩
  · rintro (_ | _ | _) <;> rfl
  · have hok : (run s (process context {} (sources "a" "b")) { tree := {} }).1.isOk := by
      decide +kernel
    cases h : (run s (process context {} (sources "a" "b")) { tree := {} }).1 with
    | error e =>
      rw [h] at hok
      cases hok
    | ok report => exact ⟨report, rfl, hreport report h⟩
  · have hok : (run s (keeping context {} (sources "a" "b")) { tree := {} }).1.isOk := by
      decide +kernel
    cases h : run s (keeping context {} (sources "a" "b")) { tree := {} } with
    | mk result m' =>
      rw [h] at hok
      cases result with
      | error e => cases hok
      | ok found =>
        have hname : (⟨"/w"⟩ : Path).join (SourceKind.latex.fileName 0) = ⟨"/w/latex_0.tex"⟩ := by
          decide +kernel
        rw [← hname]
        exact ⟨found, m', rfl, hkept _ _ _ h .latex 0 _ rfl⟩

end Bindery.Request
