import Bindery.Proofs.Outline

/-!
# Markers of an outline

Every step of an outline writes only opening or only closing markers, as many as its depth changes
by, and then the line with its text (`perform_eq`).  The `trail` of some steps is what they write,
with the lines that hold a text told apart from the markers, which they may look like.  So the
markers of a trail are balanced, they tell the depth, and the levels of all texts can be read off
them (`isExact_ofMaxDepth`).
-/

namespace Bindery.Outline

/-! ### Steps -/

/-- What can be asked of an outline. -/
inductive Step where
  | emit (level? : Option Nat) (text : String)
  | item (level : Nat) (text : String)
  | plain (text : String)
  | finish
deriving DecidableEq, Repr

namespace Step

/-- The text that a step writes, if it has one. -/
def text? : Step → Option String
  | emit _ text | item _ text | plain text => some text
  | finish => none

/-- The level of the item that a step writes, if it writes one. -/
def level? : Step → Option Nat
  | emit level? _ => level?
  | item level _ => some level
  | plain _ | finish => none

/-- The line that holds the text of a step. -/
def line? (s : Step) : Option String :=
  s.text?.map fun text => if s.level?.isSome then itemLine text else text

/-- The level of the item that a step writes if no more than a number of lists may be open. -/
def clamped? (maxDepth : Nat) (s : Step) : Option Nat :=
  s.level?.map fun level => min level (maxDepth - 1)

/-- The number of lists that are open after a step if no more than a number of them may be. -/
def opened (maxDepth : Nat) (s : Step) : Nat :=
  match s.level? with
  | some level => min level (maxDepth - 1) + 1
  | none => 0

end Step

/-- What an outline writes in a step, and the outline after it. -/
def perform (o : Outline) : Step → List String × Outline
  | .emit level? text => o.emit level? text
  | .item level text => o.item level text
  | .plain text => o.plain text
  | .finish => o.finish

/-- The outline after some steps. -/
def after (o : Outline) (steps : List Step) : Outline :=
  steps.foldl (fun o s => (o.perform s).2) o

/-- The lines that are written in each of some steps. -/
def outputs (o : Outline) : List Step → List (List String)
  | [] => []
  | s :: steps => (o.perform s).1 :: (o.perform s).2.outputs steps

/-- The levels of the texts of some steps, if no more than a number of lists may be open. -/
def levels (maxDepth : Nat) (steps : List Step) : List (Option Nat) :=
  (steps.filter fun s => s.text?.isSome).map (Step.clamped? maxDepth)

/-! ### Trails -/

/-- A line that is written: a marker, or a line that holds a text. -/
inductive Line where
  | opening
  | closing
  | content (line : String)
deriving DecidableEq, Repr

/-- What a line says. -/
def Line.text : Line → String
  | opening => openMarker
  | closing => closeMarker
  | content line => line

/-- What a line looks like. -/
def Line.of (line : String) : Line :=
  if line = openMarker then opening else if line = closeMarker then closing else content line

/-- The lines of a step.  If it has a text, the last line holds that, whatever it looks like. -/
def trailOf (text? : Option String) (lines : List String) : List Line :=
  match text? with
  | some _ => lines.dropLast.map .of ++ lines.getLast?.toList.map .content
  | none => lines.map .of

/-- The lines of steps with the given texts. -/
def trailOfAll (texts : List (Option String)) (outputs : List (List String)) : List Line :=
  (List.zipWith trailOf texts outputs).flatten

/-- The lines that an outline writes in some steps. -/
def trail (o : Outline) (steps : List Step) : List Line :=
  trailOfAll (steps.map Step.text?) (o.outputs steps)

/-- The number of opening markers. -/
def openings (ls : List Line) : Nat :=
  ls.count .opening

/-- The number of closing markers. -/
def closings (ls : List Line) : Nat :=
  ls.count .closing

/-- The lines that hold a text, each with the number of lists in which it stands, if so many are
open at first. -/
def placed (opened : Nat) : List Line → List (Nat × String)
  | [] => []
  | .opening :: ls => placed (opened + 1) ls
  | .closing :: ls => placed (opened - 1) ls
  | .content line :: ls => (opened, line) :: placed opened ls

/-- The level of what stands in a number of lists. -/
def levelIn? : Nat → Option Nat
  | 0 => none
  | level + 1 => some level

/-- The levels of the lines that hold a text. -/
def levelsIn (ls : List Line) : List (Option Nat) :=
  (placed 0 ls).map fun line => levelIn? line.1

/-! ### What one step writes -/

variable {o : Outline}

/-- A step closes the lists that are open and not wanted, or opens those that are missing. -/
theorem perform_eq (h : o.maxDepth ≤ 2 ^ 63) (s : Step) :
  o.perform s
    = (List.replicate (s.opened o.maxDepth - o.opened) openMarker
        ++ List.replicate (o.opened - s.opened o.maxDepth) closeMarker ++ s.line?.toList,
      { o with opened := s.opened o.maxDepth })
  := by
  have hfinish : o.finish = (List.replicate (0 - o.opened) openMarker
      ++ List.replicate (o.opened - 0) closeMarker, { o with opened := 0 }) := by
    rw [Nat.zero_sub, Nat.sub_zero]
    rfl
  have hplain (text : String) : o.plain text = (List.replicate (0 - o.opened) openMarker
      ++ List.replicate (o.opened - 0) closeMarker ++ [text], { o with opened := 0 }) := by
    rw [plain, hfinish]
  cases s with
  | emit level? text =>
    cases level? with
    | none => exact hplain text
    | some level => exact item_eq h level text
  | item level text => exact item_eq h level text
  | plain text => exact hplain text
  | finish => exact hfinish.trans (congrArg (·, _) (List.append_nil _).symm)

/-- After a step no more lists are open than may be. -/
theorem Step.opened_le (s : Step) {maxDepth : Nat} (h : 1 ≤ maxDepth) :
  s.opened maxDepth ≤ maxDepth
  := by
  rw [Step.opened]
  split <;> omega

theorem maxDepth_perform (o : Outline) (s : Step) :
  (o.perform s).2.maxDepth = o.maxDepth
  := by
  cases s with
  | emit level? text => cases level? <;> rfl
  | _ => rfl

/-- What a step of an outline writes, and how its depth changes, if no more than a number of lists
may be open. -/
structure Moves (maxDepth : Nat) (o : Outline) (s : Step) : Prop where
  /-- The step writes only opening or only closing markers, as many as its depth changes by, and
  then its line. -/
  markers : ∃ n : Nat,
    (o.perform s).1 = List.replicate n openMarker ++ s.line?.toList
        ∧ (o.perform s).2.depth = o.depth + n
      ∨ (o.perform s).1 = List.replicate n closeMarker ++ s.line?.toList
        ∧ (o.perform s).2.depth = o.depth - n
  /-- An item is written in as many lists as its level asks for, anything else in none. -/
  opened : (o.perform s).2.opened = s.opened maxDepth

theorem moves (h : o.maxDepth ≤ 2 ^ 63) (s : Step) :
  Moves o.maxDepth o s
  := by
  have hperform := perform_eq h s
  constructor
  · rw [hperform, depth, depth]
    rcases Nat.le_total o.opened (s.opened o.maxDepth) with hle | hle
    · use s.opened o.maxDepth - o.opened
      rw [Nat.sub_eq_zero_of_le hle, List.replicate_zero, List.append_nil]
      refine Or.inl ⟨rfl, ?_⟩
      dsimp only
      omega
    · use o.opened - s.opened o.maxDepth
      rw [Nat.sub_eq_zero_of_le hle, List.replicate_zero, List.nil_append]
      refine Or.inr ⟨rfl, ?_⟩
      dsimp only
      omega
  · rw [hperform]

/-! ### Trails of steps -/

/-- A step leaves a trail of markers, and then of its line. -/
theorem trailOf_perform (h : o.maxDepth ≤ 2 ^ 63) (s : Step) :
  trailOf s.text? (o.perform s).1
    = List.replicate (s.opened o.maxDepth - o.opened) .opening
      ++ (List.replicate (o.opened - s.opened o.maxDepth) .closing ++ s.line?.toList.map .content)
  := by
  have hmarkers (n k : Nat) :
      (List.replicate n openMarker ++ List.replicate k closeMarker).map Line.of
        = List.replicate n .opening ++ List.replicate k .closing := by
    rw [List.map_append, List.map_replicate, List.map_replicate]
    rfl
  rw [perform_eq h, Step.line?, ← List.append_assoc]
  cases s.text? with
  | some text =>
    dsimp only [trailOf, Option.map_some, Option.toList_some]
    rw [List.dropLast_concat, List.getLast?_concat, hmarkers]
    rfl
  | none =>
    dsimp only [trailOf, Option.map_none, Option.toList_none]
    rw [List.append_nil, hmarkers]
    exact (List.append_nil _).symm

theorem openings_perform (h : o.maxDepth ≤ 2 ^ 63) (s : Step) :
  openings (trailOf s.text? (o.perform s).1) = s.opened o.maxDepth - o.opened
  := by
  rw [trailOf_perform h]
  cases s.line? <;> simp [openings, List.count_append, List.count_replicate]

theorem closings_perform (h : o.maxDepth ≤ 2 ^ 63) (s : Step) :
  closings (trailOf s.text? (o.perform s).1) = o.opened - s.opened o.maxDepth
  := by
  rw [trailOf_perform h]
  cases s.line? <;> simp [closings, List.count_append, List.count_replicate]

theorem openings_append (ls ls' : List Line) :
  openings (ls ++ ls') = openings ls + openings ls'
  := List.count_append ..

theorem closings_append (ls ls' : List Line) :
  closings (ls ++ ls') = closings ls + closings ls'
  := List.count_append ..

theorem map_text_of (lines : List String) :
  (lines.map Line.of).map Line.text = lines
  := by
  rw [List.map_map]
  refine (List.map_congr_left fun line _ => ?_).trans (List.map_id lines)
  rw [Function.comp_apply, Line.of]
  split
  · next h => exact h.symm
  · split
    · next h => exact h.symm
    · rfl

/-- The lines of a step say what it writes. -/
theorem map_text_trailOf (text? : Option String) (lines : List String) :
  (trailOf text? lines).map Line.text = lines
  := by
  cases text? with
  | some text =>
    rw [trailOf, List.map_append, map_text_of, List.map_map]
    cases hlast : lines.getLast? with
    | none =>
      rw [List.getLast?_eq_none_iff.mp hlast]
      rfl
    | some line => exact List.dropLast_append_getLast? line hlast
  | none => exact map_text_of lines

theorem outputs_append (o : Outline) (steps steps' : List Step) :
  o.outputs (steps ++ steps') = o.outputs steps ++ (o.after steps).outputs steps'
  := by
  induction steps generalizing o with
  | nil => rfl
  | cons s steps ih => exact congrArg (_ :: ·) (ih _)

theorem trail_cons (o : Outline) (s : Step) (steps : List Step) :
  o.trail (s :: steps) = trailOf s.text? (o.perform s).1 ++ (o.perform s).2.trail steps
  := rfl

/-- A trail says what is written. -/
theorem map_text_trail (o : Outline) (steps : List Step) :
  (o.trail steps).map Line.text = (o.outputs steps).flatten
  := by
  induction steps generalizing o with
  | nil => rfl
  | cons s steps ih =>
    rw [trail_cons, List.map_append, map_text_trailOf, ih]
    rfl

theorem of_eq_content {line : String} (hopen : line ≠ openMarker) (hclose : line ≠ closeMarker) :
  Line.of line = .content line
  := by rw [Line.of, if_neg hopen, if_neg hclose]

/-- The line of an item does not look like a marker, whatever its text says. -/
theorem of_itemLine (text : String) :
  Line.of (itemLine text) = .content (itemLine text)
  := by
  apply of_eq_content
  all_goals
    intro h
    have hchars := congrArg String.toList h
    rw [itemLine, String.toList_append] at hchars
    cases hchars

/-- The line with a text does not look like a marker if the text is none. -/
theorem of_line {s : Step} {line : String} (h : s.line? = some line)
    (hopen : s.text? ≠ some openMarker) (hclose : s.text? ≠ some closeMarker) :
  Line.of line = .content line
  := by
  rw [Step.line?] at h
  obtain ⟨text, htext, rfl⟩ := Option.map_eq_some_iff.mp h
  rw [htext] at hopen hclose
  split
  · exact of_itemLine text
  · exact of_eq_content (fun h => hopen (congrArg some h)) fun h => hclose (congrArg some h)

/-- A step whose line does not look like a marker leaves a trail of what its lines look like. -/
theorem trailOf_eq_map_of (h : o.maxDepth ≤ 2 ^ 63) {s : Step}
    (hline : ∀ line, s.line? = some line → Line.of line = .content line) :
  trailOf s.text? (o.perform s).1 = (o.perform s).1.map Line.of
  := by
  rw [trailOf_perform h, perform_eq h, List.map_append, List.map_append, List.map_replicate,
    List.map_replicate, List.append_assoc]
  cases hs : s.line? with
  | some line =>
    dsimp only [Option.toList_some]
    rw [List.map_singleton, List.map_singleton, hline line hs]
    rfl
  | none => rfl

/-- If no text is a marker, a trail can be told from the lines alone. -/
theorem trail_eq_map_of (h : o.maxDepth ≤ 2 ^ 63) {steps : List Step}
    (htexts : ∀ s ∈ steps, s.text? ≠ some openMarker ∧ s.text? ≠ some closeMarker) :
  o.trail steps = (o.outputs steps).flatten.map Line.of
  := by
  induction steps generalizing o with
  | nil => rfl
  | cons s steps ih =>
    obtain ⟨⟨hopen, hclose⟩, hsteps⟩ := List.forall_mem_cons.mp htexts
    have hstep := trailOf_eq_map_of h fun line hline => of_line hline hopen hclose
    rw [trail_cons, hstep, ih ((maxDepth_perform o s).trans_le h) hsteps, outputs,
      List.flatten_cons, List.map_append]

/-! ### Trails of many steps -/

theorem maxDepth_after (o : Outline) (steps : List Step) :
  (o.after steps).maxDepth = o.maxDepth
  := by
  induction steps generalizing o with
  | nil => rfl
  | cons s steps ih => exact (ih _).trans (maxDepth_perform o s)

/-- The markers of a trail tell how many lists are open after it. -/
theorem opened_after (h : o.maxDepth ≤ 2 ^ 63) (steps : List Step) :
  (o.after steps).opened + closings (o.trail steps) = o.opened + openings (o.trail steps)
  := by
  induction steps generalizing o with
  | nil => rfl
  | cons s steps ih =>
    have hopened : (o.perform s).2.opened = s.opened o.maxDepth := (moves h s).opened
    have hih := ih ((maxDepth_perform o s).trans_le h)
    rw [hopened] at hih
    rw [trail_cons, openings_append, closings_append, openings_perform h,
      closings_perform h]
    change ((o.perform s).2.after steps).opened + _ = _
    omega

/-- An outline of which no more lists are open than may be, as far as machine words tell. -/
structure IsSound (o : Outline) : Prop where
  max_le : o.maxDepth ≤ 2 ^ 63
  one_le_max : 1 ≤ o.maxDepth
  opened_le : o.opened ≤ o.maxDepth

theorem isSound_ofMaxDepth {maxDepth : Nat} (h : maxDepth < 2 ^ 63) :
  (ofMaxDepth maxDepth).IsSound
  where
  max_le := by
    change max maxDepth 1 ≤ 2 ^ 63
    omega
  one_le_max := Nat.le_max_right maxDepth 1
  opened_le := Nat.zero_le _

theorem IsSound.perform (ho : o.IsSound) (s : Step) :
  (o.perform s).2.IsSound
  := by
  have hmax := maxDepth_perform o s
  constructor
  · rw [hmax]
    exact ho.max_le
  · rw [hmax]
    exact ho.one_le_max
  · rw [hmax, (moves ho.max_le s).opened]
    exact s.opened_le ho.one_le_max

theorem IsSound.after (ho : o.IsSound) (steps : List Step) :
  (o.after steps).IsSound
  := by
  induction steps generalizing o with
  | nil => exact ho
  | cons s steps ih => exact ih (ho.perform s)

/-- Between any two lines no more lists were closed than opened, and no more are open than may
be. -/
theorem IsSound.bounds (ho : o.IsSound) {steps : List Step} {before : List Line}
    (hbefore : before <+: o.trail steps) :
  closings before ≤ o.opened + openings before
    ∧ o.opened + openings before ≤ closings before + o.maxDepth
  := by
  induction steps generalizing o before with
  | nil =>
    rw [List.prefix_nil.mp hbefore]
    exact ⟨Nat.zero_le _, ho.opened_le.trans (Nat.le_add_left _ _)⟩
  | cons s steps ih =>
    have hopenings := openings_perform ho.max_le s
    have hclosings := closings_perform ho.max_le s
    rcases List.prefix_or_prefix_of_prefix hbefore (List.prefix_append _ _) with hstep | hstep
    · -- The markers of a step lead from the lists that are open to those that are wanted.
      have hsub : closings before ≤ _ ∧ openings before ≤ _ :=
        ⟨hstep.sublist.count_le _, hstep.sublist.count_le _⟩
      have hopened := ho.opened_le
      have hwanted := s.opened_le ho.one_le_max
      change _ ≤ closings _ ∧ _ ≤ openings _ at hsub
      omega
    · obtain ⟨later, rfl⟩ := hstep
      have hlater := ih (ho.perform s) ((List.prefix_append_right_inj _).mp hbefore)
      rw [(moves ho.max_le s).opened, maxDepth_perform o s] at hlater
      rw [openings_append, closings_append]
      omega

/-! ### Reading levels -/

theorem placed_opening (n k : Nat) (ls : List Line) :
  placed n (List.replicate k .opening ++ ls) = placed (n + k) ls
  := by
  induction k generalizing n with
  | zero => rfl
  | succ k ih =>
    rw [List.replicate_succ, List.cons_append, placed, ih, Nat.add_right_comm, Nat.add_assoc]

theorem placed_closing (n k : Nat) (ls : List Line) :
  placed n (List.replicate k .closing ++ ls) = placed (n - k) ls
  := by
  induction k generalizing n with
  | zero => rfl
  | succ k ih =>
    rw [List.replicate_succ, List.cons_append, placed, ih, Nat.sub_sub, Nat.add_comm 1]

theorem placed_content (n : Nat) (line? : Option String) (ls : List Line) :
  placed n (line?.toList.map .content ++ ls) = line?.toList.map (n, ·) ++ placed n ls
  := by cases line? <;> rfl

/-- Markers at the end hold no text. -/
theorem placed_append_markers {ms : List Line} (h : ∀ m ∈ ms, ∀ line, m ≠ .content line)
    (n : Nat) (ls : List Line) :
  placed n (ls ++ ms) = placed n ls
  := by
  fun_induction placed n ls with
  | case1 n =>
    induction ms generalizing n with
    | nil => rfl
    | cons m ms ih =>
      obtain ⟨hm, hms⟩ := List.forall_mem_cons.mp h
      cases m with
      | content line => exact absurd rfl (hm line)
      | _ => exact ih hms _
  | case2 n ls ih => exact ih
  | case3 n ls ih => exact ih
  | case4 n line ls ih => exact congrArg (_ :: ·) ih

/-- The lines of steps stand in as many lists as the steps leave open. -/
theorem placed_trail (h : o.maxDepth ≤ 2 ^ 63) (steps : List Step) :
  placed o.opened (o.trail steps)
    = steps.flatMap fun s => s.line?.toList.map (s.opened o.maxDepth, ·)
  := by
  induction steps generalizing o with
  | nil => rfl
  | cons s steps ih =>
    have hopened : o.opened + (s.opened o.maxDepth - o.opened)
        - (o.opened - s.opened o.maxDepth) = s.opened o.maxDepth := by omega
    have hih := ih ((maxDepth_perform o s).trans_le h)
    rw [maxDepth_perform o, (moves h s).opened] at hih
    rw [trail_cons, trailOf_perform h, List.append_assoc, List.append_assoc, placed_opening,
      placed_closing, placed_content, hopened, hih, List.flatMap_cons]

theorem levelIn?_opened (maxDepth : Nat) (s : Step) :
  levelIn? (s.opened maxDepth) = s.clamped? maxDepth
  := by
  rw [Step.opened, Step.clamped?]
  cases s.level? <;> rfl

/-- The levels of the texts can be read off a trail. -/
theorem levels_eq (h : o.maxDepth ≤ 2 ^ 63) (hopened : o.opened = 0) (steps : List Step) :
  levels o.maxDepth steps = levelsIn (o.trail steps)
  := by
  rw [levelsIn, ← hopened, placed_trail h, levels]
  clear hopened
  induction steps with
  | nil => rfl
  | cons s steps ih =>
    rw [List.flatMap_cons, List.map_append, ← ih, List.filter_cons, Step.line?]
    cases s.text? with
    | none => rfl
    | some text => exact congrArg (· :: _) (levelIn?_opened o.maxDepth s).symm

/-! ### New outlines -/

/-- Whatever a new outline is asked for, its markers are exact: of its lists at most a number are
open, and at least one may be. -/
structure IsExact (maxDepth : Nat) (steps : List Step) : Prop where
  /-- The depth is told by the markers that are written so far. -/
  depth_eq : ((ofMaxDepth maxDepth).after steps).depth
    = openings ((ofMaxDepth maxDepth).trail steps) - closings ((ofMaxDepth maxDepth).trail steps)
      - 1
  bounds : -1 ≤ ((ofMaxDepth maxDepth).after steps).depth
    ∧ ((ofMaxDepth maxDepth).after steps).depth ≤ (max maxDepth 1 : Nat) - 1
  /-- No list is closed that was not opened before. -/
  balanced : ∀ before, before <+: (ofMaxDepth maxDepth).trail steps →
    closings before ≤ openings before
  /-- What the next step writes. -/
  moves : ∀ s, Moves (max maxDepth 1) ((ofMaxDepth maxDepth).after steps) s
  /-- The trail is what is written. -/
  text : ((ofMaxDepth maxDepth).trail steps).map Line.text
    = ((ofMaxDepth maxDepth).outputs steps).flatten
  /-- What is written tells the levels, together with the texts. -/
  levels_eq : levels (max maxDepth 1) steps
    = levelsIn (trailOfAll (steps.map Step.text?) ((ofMaxDepth maxDepth).outputs steps))
  /-- The lines alone tell the levels, if no text is a marker. -/
  levels_of_lines : (∀ s ∈ steps, s.text? ≠ some openMarker ∧ s.text? ≠ some closeMarker) →
    levels (max maxDepth 1) steps
      = levelsIn (((ofMaxDepth maxDepth).outputs steps).flatten.map Line.of)
  /-- An outline that has closed all lists is a new one. -/
  renewed : (ofMaxDepth maxDepth).after (steps ++ [.finish]) = ofMaxDepth maxDepth

/-- A new outline that opens fewer than `2 ^ 63` lists writes exact markers, whatever steps it is
asked for. -/
theorem isExact_ofMaxDepth {maxDepth : Nat} (h : maxDepth < 2 ^ 63) (steps : List Step) :
  IsExact maxDepth steps
  := by
  have ho := isSound_ofMaxDepth h
  have hnew : (ofMaxDepth maxDepth).opened = 0 := rfl
  have hmax : (ofMaxDepth maxDepth).maxDepth = max maxDepth 1 := rfl
  have hafter := maxDepth_after (ofMaxDepth maxDepth) steps
  have hopened := opened_after ho.max_le steps
  have hlevels := levels_eq ho.max_le hnew steps
  constructor
  · rw [depth]
    omega
  · have hle := (ho.after steps).opened_le
    rw [depth]
    omega
  · intro before hbefore
    have hbounds := ho.bounds hbefore
    omega
  · intro s
    have hmoves := moves (ho.after steps).max_le s
    rw [hafter] at hmoves
    exact hmoves
  · exact map_text_trail _ steps
  · exact hlevels
  · intro htexts
    rw [← trail_eq_map_of ho.max_le htexts]
    exact hlevels
  · have hfinish : (ofMaxDepth maxDepth).after (steps ++ [.finish])
        = { maxDepth := ((ofMaxDepth maxDepth).after steps).maxDepth } := List.foldl_concat ..
    rw [hfinish, hafter]
    rfl

/-- An item that is deeper than allowed stands in as many lists as are allowed, and the content
after it in none. -/
theorem isExact_ofMaxDepth_deep :
  let steps : List Step := [.item 5 "a", .emit none "b", .item 0 "c"]
  2 < 2 ^ 63 ∧ IsExact 2 steps
    ∧ ((ofMaxDepth 2).outputs steps).flatten = [openMarker, openMarker, "\\item a", closeMarker,
        closeMarker, "b", openMarker, "\\item c"]
    ∧ levels 2 steps = [some 1, none, some 0]
  := by
  intro steps
  have hdepth : 2 < 2 ^ 63 := by decide
  exact ⟨hdepth, isExact_ofMaxDepth hdepth steps, by decide, by decide⟩

end Bindery.Outline
