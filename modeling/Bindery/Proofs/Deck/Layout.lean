import Mathlib.Data.List.Nodup
import Bindery.Deck.Extract
import Bindery.Machine
import Bindery.Proofs.Dialogue
import Bindery.Proofs.Text.Numeral

/-!
# The layout of a deck's archive

What is extracted from a deck depends on its slide parts alone: neither the order of the entries
nor what else the archive holds matters (`run_extract_of_sameSlideParts`).  The slide parts are
read in the order of their numbers (`Precedes`), each once, and the first of them that is no slide
is the one that is reported (`Reading`).
-/

namespace Bindery

/-! ### Decimal numbers -/

theorem Text.asciiDigit?_eq (c : Char) :
  asciiDigit? c = if c.isDigit then some (c.toNat - '0'.toNat) else none
  := rfl

/-- Digits are read from left to right. -/
theorem Text.foldlM_asciiDigit? (cs : List Char) (n : Nat) :
  cs.foldlM (fun n c => (asciiDigit? c).map (10 * n + ·)) n
    = if cs.all Char.isDigit then some (Nat.ofDigitChars 10 cs n) else none
  := by
  induction cs generalizing n with
  | nil => rfl
  | cons c cs ih =>
    rw [List.foldlM_cons, asciiDigit?_eq, List.all_cons]
    cases c.isDigit with
    | true => exact ih _
    | false => rfl

theorem Text.natOf?_eq_some_iff {cs : List Char} {n : Nat} :
  natOf? cs = some n
    ↔ cs ≠ [] ∧ (∀ c ∈ cs, c.isDigit) ∧ Nat.ofDigitChars 10 cs 0 = n
  := by
  rw [natOf?, foldlM_asciiDigit?, ← List.all_eq_true]
  cases cs with
  | nil => simp
  | cons c cs => cases (c :: cs).all Char.isDigit <;> simp

/-! ### The names in an archive -/

theorem nodup_eraseDups : (names : List String) → names.eraseDups.Nodup
  | [] => List.nodup_nil
  | name :: names => by
    rw [List.eraseDups_cons, List.nodup_cons, List.mem_eraseDups]
    exact ⟨by simp, nodup_eraseDups _⟩
termination_by names => names.length
decreasing_by exact Nat.lt_succ_of_le (List.length_filter_le _ _)

theorem Archive.isSome_find?_iff {a : Archive} {name : String} :
  (a.find? name).isSome ↔ name ∈ a.names
  := by
  rw [find?, names, List.mem_eraseDups, List.find?_isSome]
  simp

theorem Archive.read?_of_not_mem {a : Archive} {name : String} (h : name ∉ a.names) :
  a.read? name = none
  := by
  have hfind : a.find? name = none := by
    rw [← Option.not_isSome_iff_eq_none, isSome_find?_iff]
    exact h
  rw [read?, hfind]
  rfl

namespace Deck

/-! ### The order of slide parts -/

/-- A slide part with its number: the name is spelled with decimal digits, and the number that
they stand for fits 32 bits. -/
inductive IsSlidePart : String → Nat → Prop where
  | digits {ds : List Char} (hnonempty : ds ≠ []) (hdigits : ∀ c ∈ ds, c.isDigit)
      (hfits : Nat.ofDigitChars 10 ds 0 < UInt32.size) :
      IsSlidePart (slideStart ++ String.ofList ds ++ slideEnd) (Nat.ofDigitChars 10 ds 0)

theorem slideNumber?_spelled (ds : List Char) :
  slideNumber? (slideStart ++ String.ofList ds ++ slideEnd)
    = (Text.natOf? ds).filter (· < UInt32.size)
  := by
  have htext : (slideStart ++ String.ofList ds ++ slideEnd).toList
      = slideStart.toList ++ (ds ++ slideEnd.toList) := by
    rw [String.toList_append, String.toList_append, String.toList_ofList, List.append_assoc]
  have hstart : slideStart.toList.isPrefixOf (slideStart.toList ++ (ds ++ slideEnd.toList)) :=
    List.isPrefixOf_iff_prefix.mpr (List.prefix_append _ _)
  have hend : slideEnd.toList.isSuffixOf (ds ++ slideEnd.toList) :=
    List.isSuffixOf_iff_suffix.mpr (List.suffix_append _ _)
  rw [slideNumber?, htext, List.drop_left, List.length_append, Nat.add_sub_cancel,
    List.take_left, hstart, hend]
  rfl

theorem exists_spelled_of_slideNumber? {name : String} {number : Nat}
    (h : slideNumber? name = some number) :
  ∃ ds : List Char, name = slideStart ++ String.ofList ds ++ slideEnd
  := by
  rw [slideNumber?] at h
  split at h
  · next hshape =>
    rw [Bool.and_eq_true, List.isPrefixOf_iff_prefix, List.isSuffixOf_iff_suffix] at hshape
    obtain ⟨⟨rest, hname⟩, hend⟩ := hshape
    rw [← hname, List.drop_left] at hend
    obtain ⟨ds, rfl⟩ := hend
    exact ⟨ds, String.toList_inj.mp (by simp [← hname])⟩
  · cases h

theorem slideNumber?_eq_some_iff {name : String} {number : Nat} :
  slideNumber? name = some number ↔ IsSlidePart name number
  := by
  constructor
  · intro h
    obtain ⟨ds, rfl⟩ := exists_spelled_of_slideNumber? h
    rw [slideNumber?_spelled, Option.filter_eq_some_iff, Text.natOf?_eq_some_iff,
      decide_eq_true_eq] at h
    obtain ⟨⟨hnonempty, hdigits, rfl⟩, hfits⟩ := h
    exact .digits hnonempty hdigits hfits
  · rintro ⟨hnonempty, hdigits, hfits⟩
    rw [slideNumber?_spelled, Option.filter_eq_some_iff, Text.natOf?_eq_some_iff,
      decide_eq_true_eq]
    exact ⟨⟨hnonempty, hdigits, rfl⟩, hfits⟩

/-- One slide part comes before another: its number is less, or its name if the numbers are
equal. -/
def Precedes (first second : String) : Prop :=
  ∃ i j, IsSlidePart first i ∧ IsSlidePart second j ∧ (i < j ∨ i = j ∧ first < second)

/-- The order in which numbered slide parts are sorted. -/
def byNumber (p q : Nat × String) : Bool :=
  p.1 < q.1 || (p.1 = q.1 && p.2 ≤ q.2)

theorem byNumber_trans (p q r : Nat × String) (hpq : byNumber p q) (hqr : byNumber q r) :
  byNumber p r
  := by
  simp only [byNumber, Bool.or_eq_true, Bool.and_eq_true, decide_eq_true_eq] at hpq hqr ⊢
  rcases hpq with hpq | ⟨hpq, hnames⟩
  · left
    omega
  · rcases hqr with hqr | ⟨hqr, hnames'⟩
    · left
      omega
    · exact Or.inr ⟨hpq.trans hqr, String.le_trans hnames hnames'⟩

theorem byNumber_total (p q : Nat × String) :
  byNumber p q || byNumber q p
  := by
  simp only [byNumber, Bool.or_eq_true, Bool.and_eq_true, decide_eq_true_eq]
  rcases Nat.lt_trichotomy p.1 q.1 with hlt | heq | hgt
  · exact Or.inl (Or.inl hlt)
  · rcases String.le_total p.2 q.2 with hle | hle
    · exact Or.inl (Or.inr ⟨heq, hle⟩)
    · exact Or.inr (Or.inr ⟨heq.symm, hle⟩)
  · exact Or.inr (Or.inl hgt)

theorem byNumber_antisymm (p q : Nat × String) (hpq : byNumber p q) (hqp : byNumber q p) :
  p = q
  := by
  simp only [byNumber, Bool.or_eq_true, Bool.and_eq_true, decide_eq_true_eq] at hpq hqp
  rcases hpq with hpq | ⟨heq, hle⟩
  · omega
  · rcases hqp with hqp | ⟨_, hle'⟩
    · omega
    · exact Prod.ext heq (String.le_antisymm hle hle')

/-- The slide parts among names, each with its number. -/
def numbered (names : List String) : List (Nat × String) :=
  names.filterMap fun name => (slideNumber? name).map fun n => (n, name)

theorem slideParts_eq (names : List String) :
  slideParts names = ((numbered names).mergeSort byNumber).map Prod.snd
  := rfl

theorem mem_numbered {names : List String} {p : Nat × String} :
  p ∈ numbered names ↔ p.2 ∈ names ∧ IsSlidePart p.2 p.1
  := by
  obtain ⟨number, name⟩ := p
  simp only [numbered, List.mem_filterMap, Option.map_eq_some_iff, Prod.mk.injEq,
    ← slideNumber?_eq_some_iff]
  constructor
  · rintro ⟨_, hmem, _, hnumber, rfl, rfl⟩
    exact ⟨hmem, hnumber⟩
  · rintro ⟨hmem, hnumber⟩
    exact ⟨name, hmem, number, hnumber, rfl, rfl⟩

theorem mem_slideParts {names : List String} {name : String} :
  name ∈ slideParts names ↔ name ∈ names ∧ ∃ number, IsSlidePart name number
  := by
  simp only [slideParts_eq, List.mem_map, List.mem_mergeSort, mem_numbered]
  constructor
  · rintro ⟨p, ⟨hmem, hpart⟩, rfl⟩
    exact ⟨hmem, p.1, hpart⟩
  · rintro ⟨hmem, number, hpart⟩
    exact ⟨(number, name), ⟨hmem, hpart⟩, rfl⟩

theorem nodup_numbered {names : List String} (h : names.Nodup) :
  (numbered names).Nodup
  := by
  refine h.filterMap ?_
  intro name name' p hp hp'
  rw [Option.mem_def, Option.map_eq_some_iff] at hp hp'
  obtain ⟨_, _, rfl⟩ := hp
  obtain ⟨_, _, hp⟩ := hp'
  exact (congrArg Prod.snd hp).symm

theorem pairwise_slideParts {names : List String} (h : names.Nodup) :
  (slideParts names).Pairwise Precedes
  := by
  have hsorted := List.pairwise_mergeSort byNumber_trans byNumber_total (numbered names)
  have hnodup := (List.mergeSort_perm (numbered names) byNumber).nodup_iff.mpr (nodup_numbered h)
  rw [slideParts_eq, List.pairwise_map]
  refine (hsorted.and hnodup).imp_of_mem ?_
  rintro ⟨i, name⟩ ⟨j, name'⟩ hp hq ⟨hle, hne⟩
  simp only [List.mem_mergeSort, mem_numbered] at hp hq
  simp only [byNumber, Bool.or_eq_true, Bool.and_eq_true, decide_eq_true_eq] at hle
  refine ⟨i, j, hp.2, hq.2, hle.imp_right ?_⟩
  rintro ⟨rfl, hnames⟩
  exact ⟨rfl, Std.lt_of_le_of_ne hnames fun heq => hne (congrArg (Prod.mk i) heq)⟩

/-- The slide parts are the same list whenever they are the same parts. -/
theorem slideParts_congr {names names' : List String} (h : names.Nodup) (h' : names'.Nodup)
    (hsame : ∀ name number, IsSlidePart name number → (name ∈ names ↔ name ∈ names')) :
  slideParts names = slideParts names'
  := by
  have hperm : (numbered names).Perm (numbered names') := by
    refine (List.perm_ext_iff_of_nodup (nodup_numbered h) (nodup_numbered h')).mpr fun p => ?_
    rw [mem_numbered, mem_numbered]
    exact and_congr_left fun hpart => hsame p.2 p.1 hpart
  have hsorted := ((List.mergeSort_perm _ byNumber).trans hperm).trans
    (List.mergeSort_perm _ byNumber).symm
  rw [slideParts_eq, slideParts_eq, hsorted.eq_of_pairwise (fun p q _ _ => byNumber_antisymm p q)
    (List.pairwise_mergeSort byNumber_trans byNumber_total _)
    (List.pairwise_mergeSort byNumber_trans byNumber_total _)]

/-! ### Reading the parts one after another -/

/-- What comes of reading parts of an archive in the given order. -/
inductive Reading (a : Archive) (order : List String) : Except String (List Slide) → Prop where
  /-- Every part holds a slide. -/
  | complete {slides : List Slide}
      (hslides : List.Forall₂ (fun name slide => slide? a name = some slide) order slides) :
      Reading a order (.ok slides)
  /-- The first part that holds no slide is reported. -/
  | stopped {before after : List String} {name : String}
      (horder : order = before ++ name :: after)
      (hbefore : ∀ earlier ∈ before, (slide? a earlier).isSome)
      (hname : slide? a name = none) :
      Reading a order (.error (name ++ ": no slide"))

/-- The slide in a part, or the report that there is none. -/
def readPart (a : Archive) (name : String) : Except String Slide :=
  match slide? a name with
  | some slide => .ok slide
  | none => .error (name ++ ": no slide")

theorem reading_mapM (a : Archive) (order : List String) :
  Reading a order (order.mapM (readPart a))
  := by
  induction order with
  | nil => exact .complete .nil
  | cons name order ih =>
    rw [List.mapM_cons, readPart]
    cases hname : slide? a name with
    | none =>
      have hfirst : name :: order = [] ++ name :: order := rfl
      exact .stopped hfirst (List.forall_mem_nil _) hname
    | some slide =>
      rcases hrest : order.mapM (readPart a) with detail | slides
      · rw [hrest] at ih
        cases ih with
        | @stopped before after bad horder hbefore hbad =>
          have hlater : name :: order = (name :: before) ++ bad :: after := by
            rw [horder, List.cons_append]
          have hread : (slide? a name).isSome := by rw [hname, Option.isSome_some]
          exact .stopped hlater (List.forall_mem_cons.mpr ⟨hread, hbefore⟩) hbad
      · rw [hrest] at ih
        cases ih with
        | complete hslides => exact .complete (.cons hname hslides)

theorem mapM_readPart_congr {a a' : Archive} {order : List String}
    (h : ∀ name ∈ order, a.read? name = a'.read? name) :
  order.mapM (readPart a) = order.mapM (readPart a')
  := by
  induction order with
  | nil => rfl
  | cons name order ih =>
    obtain ⟨hname, hrest⟩ := List.forall_mem_cons.mp h
    have hpart : readPart a name = readPart a' name := by
      rw [readPart, readPart, slide?, slide?, hname]
    rw [List.mapM_cons, List.mapM_cons, hpart, ih hrest]

theorem slides_of_archive {bytes : Bytes} {a : Archive} (ha : Archive.ofBytes? bytes = some a)
    (hpresentation : presentationPart ∈ a.names) :
  slides bytes = (slideParts a.names).mapM (readPart a)
  := by
  have hfind := Archive.isSome_find?_iff.mpr hpresentation
  rw [slides, ha]
  dsimp only
  rw [if_neg (by rw [Option.isNone_eq_false_iff.mpr hfind]; exact Bool.false_ne_true)]
  rfl

/-! ### Decks with the same slide parts -/

/-- Two archives hold the same slide parts: under the same names, with the same contents. -/
def SameSlideParts (a a' : Archive) : Prop :=
  ∀ name number, IsSlidePart name number →
    (name ∈ a.names ↔ name ∈ a'.names) ∧ a.read? name = a'.read? name

instance (a a' : Archive) : Decidable (SameSlideParts a a') :=
  decidable_of_iff (∀ name ∈ a.names ++ a'.names, (slideNumber? name).isSome →
      (name ∈ a.names ∧ name ∈ a'.names) ∧ a.read? name = a'.read? name) <| by
    constructor
    · intro h name number hpart
      have hnumber : (slideNumber? name).isSome := by
        rw [slideNumber?_eq_some_iff.mpr hpart, Option.isSome_some]
      by_cases hmem : name ∈ a.names ++ a'.names
      · obtain ⟨⟨hname, hname'⟩, hcontent⟩ := h name hmem hnumber
        exact ⟨iff_of_true hname hname', hcontent⟩
      · obtain ⟨hname, hname'⟩ := not_or.mp (mt List.mem_append.mpr hmem)
        rw [Archive.read?_of_not_mem hname, Archive.read?_of_not_mem hname']
        exact ⟨iff_of_false hname hname', rfl⟩
    · intro h name hmem hnumber
      obtain ⟨number, hnumber⟩ := Option.isSome_iff_exists.mp hnumber
      obtain ⟨hiff, hcontent⟩ := h name number (slideNumber?_eq_some_iff.mp hnumber)
      rcases List.mem_append.mp hmem with hname | hname'
      · exact ⟨⟨hname, hiff.mp hname⟩, hcontent⟩
      · exact ⟨⟨hiff.mpr hname', hname'⟩, hcontent⟩

theorem slideParts_of_same {a a' : Archive} (h : SameSlideParts a a') :
  slideParts a.names = slideParts a'.names
  := slideParts_congr (nodup_eraseDups _) (nodup_eraseDups _)
    fun name number hpart => (h name number hpart).1

theorem slides_of_same {bytes bytes' : Bytes} {a a' : Archive}
    (ha : Archive.ofBytes? bytes = some a) (ha' : Archive.ofBytes? bytes' = some a')
    (hpresentation : presentationPart ∈ a.names) (hpresentation' : presentationPart ∈ a'.names)
    (hsame : SameSlideParts a a') :
  slides bytes = slides bytes'
  := by
  rw [slides_of_archive ha hpresentation, slides_of_archive ha' hpresentation',
    ← slideParts_of_same hsame]
  apply mapM_readPart_congr
  intro name hname
  obtain ⟨-, number, hpart⟩ := mem_slideParts.mp hname
  exact (hsame name number hpart).2

/-- The result of an extraction, according to what came of reading the slides. -/
def extracted (origin : String) : Except String (List Slide) → Except SourceError Extracted
  | .error detail => .error (.malformedSlides origin detail)
  | .ok slides => .ok { fragment := { origin, body := render slides } }

section Extract

variable {σ σ' : Type} {answer : σ → (action : Action) → action.Answer × σ}
  {answer' : σ' → (action : Action) → action.Answer × σ'} {s : σ} {s' : σ'}
  {path : Path} {bytes bytes' : Bytes}

theorem run_extract_of_read (hread : (answer s (.read path)).1 = .ok bytes) :
  ((extract path).run answer s).1 = extracted path.nameForReports (slides bytes)
  := by
  have hact : (act (.read path)).run answer s = answer s (.read path) := rfl
  rw [extract, Dialogue.bind_eq, Dialogue.run_bind, hact, hread]
  change (fragment? path.nameForReports bytes).map _ = _
  rw [fragment?]
  cases slides bytes <;> rfl

/-- Two archives with the same slide parts give the same fragment or the same error, however they
are laid out: the slides of the parts in their order, each part read once, or the first part in
that order that holds no slide. -/
theorem run_extract_of_sameSlideParts {a a' : Archive}
    (hread : (answer s (.read path)).1 = .ok bytes)
    (hread' : (answer' s' (.read path)).1 = .ok bytes')
    (ha : Archive.ofBytes? bytes = some a) (ha' : Archive.ofBytes? bytes' = some a')
    (hpresentation : presentationPart ∈ a.names) (hpresentation' : presentationPart ∈ a'.names)
    (hsame : SameSlideParts a a') :
  ∃ order outcome,
    ((extract path).run answer s).1 = extracted path.nameForReports outcome
      ∧ ((extract path).run answer' s').1 = extracted path.nameForReports outcome
      ∧ order.Pairwise Precedes
      ∧ (∀ name, name ∈ order ↔ name ∈ a.names ∧ ∃ number, IsSlidePart name number)
      ∧ Reading a order outcome
  := by
  refine ⟨slideParts a.names, slides bytes, run_extract_of_read hread, ?_,
    pairwise_slideParts (nodup_eraseDups _), fun name => mem_slideParts, ?_⟩
  · rw [run_extract_of_read hread', slides_of_same ha ha' hpresentation hpresentation' hsame]
  · rw [slides_of_archive ha hpresentation]
    exact reading_mapM a _

end Extract

set_option maxRecDepth 2000 in
/-- The second archive holds the slides in another order and another part, whose number does not
fit. -/
theorem run_extract_of_sameSlideParts_shuffled :
  let surroundings : Surroundings := { programs := fun _ _ tree => (.error .notFound, tree) }
  let path : Path := ⟨"/talk.pptx"⟩
  let ten := ("ppt/slides/slide10.xml", Text.utf8 "<".toList)
  let two := ("ppt/slides/slide2.xml", Text.utf8 "<a/>".toList)
  let bytes := Archive.ofEntries [ten, (presentationPart, []), two]
  let bytes' := Archive.ofEntries
    [two, ("ppt/slides/slide4294967296.xml", []), (presentationPart, []), ten]
  let a := (Archive.ofBytes? bytes).getD { bytes, entries := [] }
  let a' := (Archive.ofBytes? bytes').getD { bytes, entries := [] }
  let m := (Machine.run surroundings (act (.write path bytes)) { tree := {} }).2
  let m' := (Machine.run surroundings (act (.write path bytes')) { tree := {} }).2
  (Machine.answer surroundings m (.read path)).1 = .ok bytes
    ∧ (Machine.answer surroundings m' (.read path)).1 = .ok bytes'
    ∧ Archive.ofBytes? bytes = some a ∧ Archive.ofBytes? bytes' = some a'
    ∧ presentationPart ∈ a.names ∧ presentationPart ∈ a'.names ∧ SameSlideParts a a'
    ∧ (Machine.run surroundings (extract path) m).1
      = (Machine.run surroundings (extract path) m').1
  := by
  intro surroundings path ten two bytes bytes' a a' m m'
  have hread : (Machine.answer surroundings m (.read path)).1 = .ok bytes := by decide +kernel
  have hread' : (Machine.answer surroundings m' (.read path)).1 = .ok bytes' := by decide +kernel
  have ha : Archive.ofBytes? bytes = some a := by decide +kernel
  have ha' : Archive.ofBytes? bytes' = some a' := by decide +kernel
  have hpresentation : presentationPart ∈ a.names := by decide +kernel
  have hpresentation' : presentationPart ∈ a'.names := by decide +kernel
  have hsame : SameSlideParts a a' := by decide +kernel
  obtain ⟨order, outcome, hrun, hrun', -⟩ := run_extract_of_sameSlideParts hread hread' ha ha'
    hpresentation hpresentation' hsame
  exact ⟨hread, hread', ha, ha', hpresentation, hpresentation', hsame, hrun.trans hrun'.symm⟩

end Deck

end Bindery
