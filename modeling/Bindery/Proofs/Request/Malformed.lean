import Bindery.Machine
import Bindery.Request
import Bindery.Proofs.Extraction
import Bindery.Proofs.Request.Errors
import Bindery.Proofs.Tree.Written

/-!
# Requests that fail as malformed

A request fails as malformed only if some fragment is malformed (`mergeExtracted_always`).  The
fragments of slide decks and notebooks never are, and markup is extracted before anything else is
written, from the bytes that were handed in (`run_keepAll`, `result_of_extractAll`).  So markup that
holds a carriage return or NUL in a line that is kept is the only cause
(`malformed_only_by_markup`).
-/

namespace Bindery

/-! ### Jobs on a machine -/

namespace Machine

variable {α β : Type} {s : Surroundings}

theorem run_bind (x : Job α) (f : α → Job β) (m : Machine) :
  run s (x.bind f) m = run s (f (run s x m).1) (run s x m).2
  := Dialogue.run_bind (answer s) x f m

theorem run_read (path : Path) (m : Machine) :
  run s (act (.read path)) m = (m.tree.read m.cwd path, m)
  := rfl

theorem run_stat (path : Path) (m : Machine) :
  run s (act (.stat path)) m = ((m.tree.node m.cwd path).map (statOf ·.2), m)
  := rfl

theorem run_write (path : Path) (bytes : Bytes) (m : Machine) :
  run s (act (.write path bytes)) m = m.changed (m.tree.write m.cwd path bytes)
  := rfl

end Machine

namespace Request

open Machine (run run_bind)

variable {s : Surroundings} {m : Machine}

/-! ### Keeping sources -/

/-- The path at which a source of a number is kept, and what it holds. -/
def keptFile (w : Workspace) (source : SourceFile × Nat) : Path × Bytes :=
  (w.root.join (source.1.kind.fileName source.2), source.1.bytes)

/-- A source of a number as it is extracted. -/
def keptSource (w : Workspace) (source : SourceFile × Nat) : Kept :=
  { kind := source.1.kind, path := w.root.join (source.1.kind.fileName source.2) }

theorem run_workspace_write (w : Workspace) (name : String) (bytes : Bytes) (m : Machine) :
  run s (w.write name bytes) m = match m.tree.write m.cwd (w.root.join name) bytes with
    | .error cause => (.error (.writeFailed (w.root.join name) cause), m)
    | .ok tree => (.ok (w.root.join name), { m with tree })
  := by
  rw [Workspace.write, Dialogue.bind_eq, run_bind, Machine.run_write]
  cases m.tree.write m.cwd (w.root.join name) bytes with
  | error cause => rfl
  | ok tree => rfl

/-- Keeping sources writes them one after another. -/
theorem run_keepAll {w : Workspace} {sources : List (SourceFile × Nat)} {kept : List Kept}
    {m' : Machine} (h : run s (keepAll w sources) m = (.ok kept, m')) :
  kept = sources.map (keptSource w) ∧ m'.cwd = m.cwd
    ∧ m.tree.Writes m.cwd (sources.map (keptFile w)) m'.tree
  := by
  induction sources generalizing m kept with
  | nil =>
    cases h
    exact ⟨rfl, rfl, .nil⟩
  | cons source rest ih =>
    obtain ⟨source, index⟩ := source
    rw [keepAll, Dialogue.bind_eq, run_bind, Workspace.persist, run_workspace_write] at h
    cases hwrite : m.tree.write m.cwd (w.root.join (source.kind.fileName index)) source.bytes with
    | error cause =>
      rw [hwrite] at h
      cases h
    | ok tree =>
      rw [hwrite] at h
      dsimp only at h
      rw [Dialogue.bind_eq, run_bind] at h
      cases hrest : run s (keepAll w rest) { m with tree } with
      | mk result m'' =>
        rw [hrest] at h
        cases result with
        | error e => cases h
        | ok others =>
          cases h
          obtain ⟨rfl, hcwd, hwrites⟩ := ih hrest
          exact ⟨rfl, hcwd, .cons hwrite hwrites⟩

/-- The sources of a kind with their numbers. -/
def numbered (sources : List SourceFile) (kind : SourceKind) : List (SourceFile × Nat) :=
  (sources.filter fun s => s.kind = kind).zipIdx

theorem of_mem_numbered {sources : List SourceFile} {kind : SourceKind}
    {source : SourceFile × Nat} (h : source ∈ numbered sources kind) :
  source.1 ∈ sources ∧ source.1.kind = kind
  := by
  have hmem := List.fst_mem_of_mem_zipIdx h
  simpa using List.mem_filter.mp hmem

/-- The sources in order are pairwise different in kind or number. -/
theorem inOrder_pairwise (sources : List SourceFile) :
  (inOrder sources).Pairwise fun a b => ¬ (a.1.kind = b.1.kind ∧ a.2 = b.2)
  := by
  rw [inOrder, List.pairwise_flatMap]
  constructor
  · intro kind _
    have hnumbers : ((sources.filter fun s => s.kind = kind).zipIdx.map Prod.snd).Nodup := by
      rw [List.zipIdx_map_snd]
      exact List.nodup_range'
    rw [List.Nodup, List.pairwise_map] at hnumbers
    apply hnumbers.imp
    intro a b hne h
    exact hne h.2
  · have hkinds : SourceKind.all.Nodup := by decide
    apply hkinds.imp
    intro kind kind' hne a ha b hb h
    apply hne
    rw [← (of_mem_numbered ha).2, h.1, (of_mem_numbered hb).2]

/-- Sources that were kept can be read back. -/
theorem read_keepAll {w : Workspace} {sources : List SourceFile} {kept : List Kept}
    {m' : Machine}
    (h : run s (keepAll w (inOrder sources)) m = (.ok kept, m')) :
  ∀ source ∈ inOrder sources,
    m'.tree.read m'.cwd (keptSource w source).path = .ok source.1.bytes
  := by
  obtain ⟨-, hcwd, hwrites⟩ := run_keepAll h
  have hapart : ((inOrder sources).map (keptFile w)).Pairwise fun a b =>
      (a.1.place m.cwd).location ≠ (b.1.place m.cwd).location := by
    rw [List.pairwise_map]
    apply (inOrder_pairwise sources).imp
    intro a b hne hlocation
    apply hne
    simp only [keptFile] at hlocation
    rw [Path.location_join _ _ (SourceKind.isName_fileName _ _),
      Path.location_join _ _ (SourceKind.isName_fileName _ _)] at hlocation
    have hname := List.append_cancel_left hlocation
    injection hname with hname
    exact SourceKind.fileName_inj hname
  have hread := hwrites.read_of_mem hapart
  intro source hsource
  rw [hcwd]
  exact hread (keptFile w source) (List.mem_map_of_mem hsource)

/-! ### Extracting them -/

/-- Announcing something changes no file. -/
theorem run_announce (c : Config) (event : Event) (m : Machine) :
  (run s (announce c event) m).2.tree = m.tree ∧ (run s (announce c event) m).2.cwd = m.cwd
  := by
  unfold announce
  split
  · exact ⟨rfl, rfl⟩
  · exact ⟨rfl, rfl⟩

/-- What is extracted from markup depends on its bytes and the name of its file, and extracting it
changes nothing. -/
theorem run_markup (path : Path) (m : Machine) :
  run s (Markup.extract path) m = match m.tree.read m.cwd path with
    | .error e => (.error (.unreadable path.nameForReports e.message), m)
    | .ok bytes =>
      ((Markup.fragment? path.nameForReports bytes).map fun fragment => { fragment }, m)
  := by
  rw [Markup.extract, readSource, Dialogue.bind_eq, run_bind, Dialogue.bind_eq, run_bind,
    Machine.run_read]
  cases m.tree.read m.cwd path with
  | error e => rfl
  | ok bytes => rfl

theorem run_markup_snd (path : Path) (m : Machine) :
  (run s (Markup.extract path) m).2 = m
  := by
  rw [run_markup]
  cases m.tree.read m.cwd path <;> rfl

/-- Two states of the surroundings with the same files, as seen from the same directory. -/
def SameFiles (m m' : Machine) : Prop :=
  m'.tree = m.tree ∧ m'.cwd = m.cwd

/-- Extracting sources gives nothing but what is extracted from each of them. -/
theorem extractAll_always {c : Config} {w : Workspace} {kept : List Kept}
    (h : ∀ k ∈ kept, (k.kind.extract k.path w.root).Always Split) (total position : Nat) :
  (extractAll c w total position kept).Always fun xs => ∀ x ∈ xs, Split x.result
  := by
  induction kept generalizing position with
  | nil => exact List.forall_mem_nil _
  | cons k rest ih =>
    obtain ⟨hk, hrest⟩ := List.forall_mem_cons.mp h
    apply Dialogue.always_bind.mpr
    apply Dialogue.always_of_forall
    intro _
    apply Dialogue.always_bind.mpr
    apply hk.mono
    intro result hresult
    apply Dialogue.always_bind.mpr
    apply Dialogue.always_of_forall
    intro _
    apply Dialogue.always_bind.mpr
    apply (ih hrest (position + 1)).mono
    intro others hothers
    exact List.forall_mem_cons.mpr ⟨hresult, hothers⟩

/-- Extracting markup first leaves the files as they are for the rest. -/
theorem run_extractAll_cons {c : Config} {w : Workspace} {k : Kept} (hk : k.kind = .latex)
    (rest : List Kept) (total position : Nat) (m : Machine) :
  ∃ m₁ m₂, SameFiles m m₁ ∧ SameFiles m m₂
    ∧ (run s (extractAll c w total position (k :: rest)) m).1
      = { kind := k.kind, origin := k.path.nameForReports,
          result := (run s (Markup.extract k.path) m₁).1 }
        :: (run s (extractAll c w total (position + 1) rest) m₂).1
  := by
  set begun := announce c (.sourceBegun position total k.path.nameForReports)
  set m₁ := (run s begun m).2 with hm₁
  set result := (run s (Markup.extract k.path) m₁).1 with hresult
  set m₂ := (run s (announce c (extractedEvent position total result)) m₁).2 with hm₂
  have hextract : k.kind.extract k.path w.root = Markup.extract k.path := by rw [hk]; rfl
  have hfirst : SameFiles m m₁ := run_announce c _ m
  have hsecond : SameFiles m₁ m₂ := run_announce c _ m₁
  refine ⟨m₁, m₂, hfirst, ⟨hsecond.1.trans hfirst.1, hsecond.2.trans hfirst.2⟩, ?_⟩
  rw [extractAll]
  simp only [Dialogue.bind_eq, run_bind, hextract]
  rw [← hm₁, run_markup_snd, ← hresult, ← hm₂]
  rfl

/-- If markup comes before all sources that are always extracted to single lines, each result is
such, or what is extracted from the bytes of the markup. -/
theorem result_of_extractAll {c : Config} {w : Workspace} {marked others : List Kept}
    (hmarked : ∀ k ∈ marked, k.kind = .latex)
    (hothers : ∀ k ∈ others, (k.kind.extract k.path w.root).Always Split)
    (total position : Nat) (m : Machine) :
  ∀ x ∈ (run s (extractAll c w total position (marked ++ others)) m).1,
    Split x.result ∨ ∃ k ∈ marked, ∀ bytes, m.tree.read m.cwd k.path = .ok bytes →
      x.result = (Markup.fragment? k.path.nameForReports bytes).map fun fragment => { fragment }
  := by
  induction marked generalizing position m with
  | nil =>
    intro x hx
    left
    exact (extractAll_always hothers total position).run_fst _ m x hx
  | cons k rest ih =>
    obtain ⟨hk, hrest⟩ := List.forall_mem_cons.mp hmarked
    obtain ⟨m₁, m₂, hfirst, hsecond, hrun⟩ :=
      run_extractAll_cons (s := s) (c := c) (w := w) hk (rest ++ others) total position m
    rw [List.cons_append, hrun, List.forall_mem_cons]
    constructor
    · right
      use k, List.mem_cons_self
      intro bytes hread
      rw [← hfirst.1, ← hfirst.2] at hread
      rw [run_markup, hread]
    · intro x hx
      apply (ih hrest (position + 1) m₂ x hx).imp_right
      rintro ⟨k', hk', hresult⟩
      use k', List.mem_cons_of_mem k hk'
      intro bytes hread
      apply hresult bytes
      rw [hsecond.1, hsecond.2, hread]

/-! ### Merging what was extracted -/

/-- The result is not the refusal of a malformed fragment. -/
def IsBlameless {α : Type} (result : Except RequestError α) : Prop :=
  ∀ f, result ≠ .error (.malformedFragment f)

theorem IsUnrefused.isBlameless {α : Type} {result : Except RequestError α}
    (h : IsUnrefused result) :
  IsBlameless result
  := fun _ hresult => h _ hresult trivial

theorem refusal?_ne_malformed {c : Config} {outcomes : List Outcome} {e : RequestError}
    (h : refusal? c outcomes = some e) (f : MalformedFragment) :
  e ≠ .malformedFragment f
  := by
  rintro rfl
  unfold refusal? at h
  dsimp only at h
  split at h
  · cases h
  · split at h
    · cases h
    · split at h <;> cases h

/-- Merging fails on a fragment that is malformed, and on nothing else. -/
theorem merge_always_error (fragments : List Fragment) :
  (merge fragments).Always fun result => ∀ f, result = .error f →
    ∃ fragment ∈ fragments, fragment.malformed? = some f
  := by
  rw [merge]
  split
  · next malformed hfind =>
    rintro _ ⟨⟩
    exact List.exists_of_findSome?_eq_some hfind
  · rw [← bind_pure_comp]
    apply Dialogue.always_bind.mpr
    apply Dialogue.always_of_forall
    rintro d f ⟨⟩

/-- The refusal of a malformed fragment is about one of the fragments that were extracted. -/
theorem mergeExtracted_always (context : Context) (c : Config) (w : Workspace)
    (extractions : List Extraction) :
  (mergeExtracted context c w extractions).Always fun result =>
    ∀ f, result = .error (.malformedFragment f) → ∃ x ∈ extractions, ∃ extracted,
      x.result = .ok extracted ∧ extracted.fragment.malformed? = some f
  := by
  unfold mergeExtracted
  dsimp only
  split
  · next refusal hrefusal =>
    rintro f ⟨⟩
    exact absurd rfl (refusal?_ne_malformed hrefusal f)
  · apply Dialogue.always_bind.mpr
    apply ((merge_always_error _).interpret _).mono
    rintro (malformed | document) herror
    · rintro f ⟨⟩
      obtain ⟨fragment, hfragment, hmalformed⟩ := herror malformed rfl
      obtain ⟨x, hx, hresult⟩ := List.mem_filterMap.mp hfragment
      use x, hx
      unfold Extraction.fragment? at hresult
      split at hresult
      · next extracted hextracted =>
        cases hresult
        exact ⟨extracted, hextracted, hmalformed⟩
      · cases hresult
    · apply (isUnrefused_compileMerged c w _ document).mono
      intro result hresult f h
      exact absurd h (hresult.isBlameless f)

/-! ### Malformed markup -/

theorem mem_splitLines {lines : List (List Char)} {line : List Char}
    (h : line ∈ (Fragment.splitLines lines).1 ++ (Fragment.splitLines lines).2) :
  line ∈ lines
  := by
  have hkept : ∀ l ∈ lines.takeWhile fun l => !closesDocument l, l ∈ lines := fun l hl =>
    (List.takeWhile_sublist _).subset hl
  unfold Fragment.splitLines at h
  dsimp only at h
  split at h
  · rcases List.mem_append.mp h with h | h
    · exact hkept line ((List.takeWhile_sublist _).subset h)
    · exact hkept line ((List.dropWhile_sublist _).subset (List.mem_filter.mp h).1)
  · exact hkept line h

/-- The lines of markup hold no line feed, so that a malformed one holds another fault. -/
theorem exists_fault {origin : String} {bytes : Bytes} {fragment : Fragment}
    (h : Markup.fragment? origin bytes = .ok fragment) {f : MalformedFragment}
    (hmalformed : fragment.malformed? = some f) :
  f.origin = origin ∧ ∃ line ∈ fragment.allLines, '\x0d' ∈ line.toList ∨ '\x00' ∈ line.toList
  := by
  unfold Markup.fragment? at h
  split at h
  · cases h
  · next text _ =>
    injection h with h
    subst h
    constructor
    · obtain ⟨found, -, rfl⟩ := Option.map_eq_some_iff.mp hmalformed
      exact congrArg Fragment.origin (Fragment.ofMarkup_eq origin _)
    · by_contra hnone
      push Not at hnone
      have hsplit : ∀ line ∈ (Fragment.ofMarkup origin
          (String.ofList (Markup.dropMark text))).allLines, Text.IsSingleLine line.toList := by
        intro line hline c hc
        refine ⟨?_, ?_, ?_⟩
        · rintro rfl
          simp only [Fragment.allLines, Fragment.ofMarkup_eq, ← List.map_append] at hline
          obtain ⟨raw, hraw, rfl⟩ := List.mem_map.mp hline
          rw [String.toList_ofList] at hc
          exact Text.not_mem_of_mem_lines (mem_splitLines hraw) hc
        · rintro rfl
          exact (hnone line hline).1 hc
        · rintro rfl
          exact (hnone line hline).2 hc
      rw [Fragment.malformed?_eq_none_iff.mpr hsplit] at hmalformed
      cases hmalformed

/-- Slide decks and notebooks that were kept are extracted as single lines. -/
theorem split_keptOthers (w : Workspace) (sources : List SourceFile) :
  ∀ k ∈ ([SourceKind.slides, .notebook].flatMap (numbered sources)).map (keptSource w),
    (k.kind.extract k.path w.root).Always Split
  := by
  rw [List.forall_mem_map]
  intro source hsource
  obtain ⟨kind, hkind, hsource⟩ := List.mem_flatMap.mp hsource
  apply SourceKind.split_extract
  change source.1.kind ≠ .latex
  rw [(of_mem_numbered hsource).2]
  rintro rfl
  exact absurd hkind (by decide)

/-- If merging sources that were kept fails as malformed, some of them is markup that is. -/
theorem exists_markup_of_mergeExtracted {context : Context} {c : Config} {w : Workspace}
    {sources : List SourceFile} {kept : List Kept} {m m' : Machine} {total position : Nat}
    (hkept : run s (keepAll w (inOrder sources)) m = (.ok kept, m'))
    {f : MalformedFragment}
    (h : (run s (mergeExtracted context c w (run s (extractAll c w total position kept) m').1)
      (run s (extractAll c w total position kept) m').2).1 = .error (.malformedFragment f)) :
  ∃ source ∈ sources, source.kind = .latex ∧ ∃ fragment,
    Markup.fragment? f.origin source.bytes = .ok fragment ∧ fragment.malformed? = some f
      ∧ ∃ line ∈ fragment.allLines, '\x0d' ∈ line.toList ∨ '\x00' ∈ line.toList
  := by
  obtain ⟨x, hx, extracted, hresult, hmalformed⟩ :=
    (mergeExtracted_always context c w _).run_fst (Machine.answer s) _ f h
  have hread := read_keepAll hkept
  obtain ⟨rfl, -, -⟩ := run_keepAll hkept
  -- Markup is handled before the other kinds, so that nothing else has been written by then.
  have horder : (inOrder sources).map (keptSource w)
      = (numbered sources .latex).map (keptSource w)
        ++ ([SourceKind.slides, .notebook].flatMap (numbered sources)).map (keptSource w) := by
    rw [← List.map_append]
    rfl
  rw [horder] at hx
  have hmarked : ∀ k ∈ (numbered sources .latex).map (keptSource w), k.kind = .latex := by
    rw [List.forall_mem_map]
    intro source hsource
    exact (of_mem_numbered hsource).2
  have hothers := split_keptOthers w sources
  rcases result_of_extractAll hmarked hothers total position m' x hx with
    hsplit | ⟨k, hk, hmarkup⟩
  · have hnone := Fragment.malformed?_eq_none_iff.mpr (hsplit extracted hresult)
    rw [hnone] at hmalformed
    cases hmalformed
  · obtain ⟨source, hsource, rfl⟩ := List.mem_map.mp hk
    have hmem : source ∈ inOrder sources := List.mem_append_left _ hsource
    obtain ⟨hgiven, hkind⟩ := of_mem_numbered hsource
    rw [hmarkup source.1.bytes (hread source hmem)] at hresult
    cases hfragment : Markup.fragment? (keptSource w source).path.nameForReports
        source.1.bytes with
    | error e =>
      rw [hfragment] at hresult
      cases hresult
    | ok fragment =>
      rw [hfragment] at hresult
      cases hresult
      obtain ⟨horigin, hfault⟩ := exists_fault hfragment hmalformed
      rw [← horigin] at hfragment
      exact ⟨source.1, hgiven, hkind, fragment, hfragment, hmalformed, hfault⟩

/-- A request that fails as malformed was handed in markup that is. -/
theorem exists_markup_of_malformed {context : Context} {c : Config} {sources : List SourceFile}
    {f : MalformedFragment}
    (h : (run s (process context c sources) m).1 = .error (.malformedFragment f)) :
  ∃ source ∈ sources, source.kind = .latex ∧ ∃ fragment,
    Markup.fragment? f.origin source.bytes = .ok fragment ∧ fragment.malformed? = some f
      ∧ ∃ line ∈ fragment.allLines, '\x0d' ∈ line.toList ∨ '\x00' ∈ line.toList
  := by
  rw [process, Dialogue.bind_eq, run_bind] at h
  have hprepare : IsBlameless (run s (Workspace.prepare context.directory) m).1 :=
    ((isUnrefused_prepare context.directory).run_fst (Machine.answer s) m).isBlameless
  cases hprepared : run s (Workspace.prepare context.directory) m with
  | mk result m₁ =>
    rw [hprepared] at h hprepare
    cases result with
    | error e =>
      cases h
      exact absurd rfl (hprepare f)
    | ok w =>
      dsimp only at h
      rw [Dialogue.bind_eq, run_bind, Dialogue.bind_eq, run_bind] at h
      generalize (run s (announce c (.begun sources.length)) m₁).2 = m₂ at h
      have hkeep : IsBlameless (run s (keepAll w (inOrder sources)) m₂).1 :=
        ((isUnrefused_keepAll w (inOrder sources)).run_fst (Machine.answer s) m₂).isBlameless
      cases hkept : run s (keepAll w (inOrder sources)) m₂ with
      | mk result m₃ =>
        rw [hkept] at h hkeep
        cases result with
        | error e =>
          cases h
          exact absurd rfl (hkeep f)
        | ok kept =>
          dsimp only at h
          rw [Dialogue.bind_eq, run_bind] at h
          exact exists_markup_of_mergeExtracted hkept h

/-- No slide deck and no notebook makes a request fail as malformed: whatever is extracted from
one that is kept in a directory consists of single lines, so that only markup with a carriage
return or NUL in a line that is taken over is refused. -/
theorem malformed_only_by_markup (s : Surroundings) (context : Context) (c : Config)
    (sources : List SourceFile) (m : Machine) :
  (∀ kind ≠ SourceKind.latex, ∀ (root assets : Path) (index : Nat),
    (kind.extract (root.join (kind.fileName index)) assets).Always fun result =>
      ∀ x, result = .ok x →
        (∀ line ∈ x.fragment.allLines, Text.IsSingleLine line.toList)
          ∧ x.fragment.malformed? = none)
  ∧ ∀ f, (run s (process context c sources) m).1 = .error (.malformedFragment f) →
    ∃ source ∈ sources, source.kind = .latex ∧ ∃ fragment,
      Markup.fragment? f.origin source.bytes = .ok fragment ∧ fragment.malformed? = some f
        ∧ ∃ line ∈ fragment.allLines, '\x0d' ∈ line.toList ∨ '\x00' ∈ line.toList
  := by
  constructor
  · intro kind hkind root assets index
    apply (SourceKind.split_extract hkind root assets index).mono
    intro result hresult x hx
    exact ⟨hresult x hx, Fragment.malformed?_eq_none_iff.mpr (hresult x hx)⟩
  · intro f h
    exact exists_markup_of_malformed h

/-- Of a notebook and markup that both hold a NUL, the markup is refused. -/
theorem malformed_only_by_markup_nul :
  let s : Surroundings := { programs := fun _ _ tree => (.error .notFound, tree) }
  let context := Context.consulting "1" ⟨"/w"⟩
  let cells := "\x7b\"cells\":[\x7b\"cell_type\":\"markdown\",\"source\":\"\\u0000\"\x7d]\x7d"
  let sources : List SourceFile := [
    { kind := .notebook, name := "a", bytes := Text.utf8 cells.toList },
    { kind := .latex, name := "b", bytes := Text.utf8 "b\n\x00".toList }]
  let f : MalformedFragment := { origin := "latex_0.tex", line := 2, fault := .nul }
  (run s (process context {} sources) { tree := {} }).1 = .error (.malformedFragment f)
    ∧ ∃ source ∈ sources, source.kind = .latex ∧ ∃ fragment,
      Markup.fragment? f.origin source.bytes = .ok fragment ∧ fragment.malformed? = some f
        ∧ ∃ line ∈ fragment.allLines, '\x0d' ∈ line.toList ∨ '\x00' ∈ line.toList
  := by
  intro s context cells sources f
  have hmalformed : (run s (process context {} sources) { tree := {} }).1
      = .error (.malformedFragment f) := by decide +kernel
  use hmalformed
  exact (malformed_only_by_markup s context {} sources { tree := {} }).2 f hmalformed

end Request

end Bindery
