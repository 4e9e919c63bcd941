import Mathlib.Data.List.DropRight
import Bindery.Text.Blank
import Bindery.Text.Lines

/-!
# Writing lines and reading them back

Splitting a text is `List.splitOnP` (`splitWhere_eq_splitOnP`).  Lines that hold no line feed and
no carriage return, each followed by a line feed, are the lines of the text that they make
(`lines_flatMap`).  A text that begins with whole lines has these lines first (`lines_append`), and
the first lines of a text are those of a text of whole lines (`exists_of_lines_append`).  No line of
any text holds a line feed (`not_mem_of_mem_lines`).  A word that ends with a visible character
stands at the start of a text exactly if it stands at the start of the text without the white space
at its end (`prefix_trimEnd_iff`).
-/

namespace Bindery.Text

/-! ### Splitting -/

/-- Splitting a text is splitting the list of its characters. -/
theorem splitWhere_eq_splitOnP (p : Char → Bool) (cs : List Char) :
  splitWhere p cs = cs.splitOnP p
  := by
  induction cs with
  | nil => rfl
  | cons c cs ih =>
    rw [splitWhere, List.splitOnP_cons_eq_if_modifyHead, ih]
    cases h : cs.splitOnP p with
    | nil => exact absurd h (List.splitOnP_ne_nil p cs)
    | cons s ss => rfl

/-! ### Lines -/

theorem closeLines_cons {s : List Char} {ss : List (List Char)} (h : ss ≠ []) :
  closeLines (s :: ss) = dropReturn s :: closeLines ss
  := by
  cases ss with
  | nil => exact absurd rfl h
  | cons s' ss => rfl

theorem dropReturn_eq_self {line : List Char} (h : '\x0d' ∉ line) :
  dropReturn line = line
  := by
  have hlast : line.getLast? ≠ some '\x0d' := fun hlast => h (List.mem_of_getLast? hlast)
  rw [dropReturn, if_neg hlast]

/-- The first line of a text ends at the first line feed. -/
theorem lines_append_cons {line : List Char} (hfeed : '\n' ∉ line) (hreturn : '\x0d' ∉ line)
    (rest : List Char) :
  lines (line ++ '\n' :: rest) = line :: lines rest
  := by
  have hline : ∀ c ∈ line, (c == '\n') = false := by
    intro c hc
    apply beq_eq_false_iff_ne.mpr
    rintro rfl
    apply hfeed hc
  rw [lines, splitWhere_eq_splitOnP, List.splitOnP_append_cons_of_forall_mem hline '\n' rfl,
    closeLines_cons (List.splitOnP_ne_nil _ rest), dropReturn_eq_self hreturn, lines,
    splitWhere_eq_splitOnP]

/-- Lines that are written with a line feed after each are read back as they are. -/
theorem lines_flatMap {ls : List (List Char)} (h : ∀ line ∈ ls, '\n' ∉ line ∧ '\x0d' ∉ line) :
  lines (ls.flatMap (· ++ ['\n'])) = ls
  := by
  induction ls with
  | nil => rfl
  | cons line ls ih =>
    obtain ⟨hfeed, hreturn⟩ := h line List.mem_cons_self
    have ih := ih fun l hl => h l (List.mem_cons_of_mem line hl)
    rw [List.flatMap_cons, List.append_assoc, List.singleton_append,
      lines_append_cons hfeed hreturn, ih]

theorem prefix_dropReturn (line : List Char) :
  dropReturn line <+: line
  := by
  rw [dropReturn]
  split
  · apply List.dropLast_prefix
  · apply List.prefix_refl

/-- Every line comes from a stretch between line feeds, perhaps without a carriage return. -/
theorem exists_of_mem_closeLines {line : List Char} {ss : List (List Char)}
    (h : line ∈ closeLines ss) :
  ∃ s ∈ ss, line <+: s
  := by
  fun_induction closeLines ss with
  | case1 => cases h
  | case2 => cases h
  | case3 => exact ⟨line, h, List.prefix_refl line⟩
  | case4 s ss _ ih =>
    rcases List.mem_cons.mp h with rfl | h
    · exact ⟨s, List.mem_cons_self, prefix_dropReturn s⟩
    · obtain ⟨s', hs', hstart⟩ := ih h
      exact ⟨s', List.mem_cons_of_mem s hs', hstart⟩

theorem not_mem_of_mem_lines {line cs : List Char} (h : line ∈ lines cs) :
  '\n' ∉ line
  := by
  obtain ⟨s, hs, hstart⟩ := exists_of_mem_closeLines h
  intro hmem
  have hfeed := not_of_mem_splitWhere hs '\n' (hstart.subset hmem)
  cases hfeed

/-! ### Texts of whole lines -/

/-- A new line begins behind the text: it is empty, or ends with a line feed. -/
def EndsLine (cs : List Char) : Prop :=
  cs = [] ∨ ∃ before, cs = before ++ ['\n']

theorem closeLines_append (ss : List (List Char)) {ts : List (List Char)} (h : ts ≠ []) :
  closeLines (ss ++ ts) = ss.map dropReturn ++ closeLines ts
  := by
  induction ss with
  | nil => rfl
  | cons s ss ih =>
    rw [List.cons_append, closeLines_cons (List.append_ne_nil_of_right_ne_nil ss h), ih]
    rfl

/-- A line feed ends a line, whatever follows it. -/
theorem lines_append_feed (before after : List Char) :
  lines (before ++ '\n' :: after) = (splitWhere (· == '\n') before).map dropReturn ++ lines after
  := by
  rw [lines, splitWhere_eq_splitOnP, List.splitOnP_append_cons before after rfl,
    closeLines_append _ (List.splitOnP_ne_nil _ after), ← splitWhere_eq_splitOnP,
    ← splitWhere_eq_splitOnP]
  rfl

/-- The lines of a text that begins with whole lines are these and the lines of the rest. -/
theorem lines_append {before : List Char} (h : EndsLine before) (after : List Char) :
  lines (before ++ after) = lines before ++ lines after
  := by
  rcases h with rfl | ⟨before, rfl⟩
  · rfl
  · rw [List.append_assoc, List.singleton_append, lines_append_feed, lines_append_feed]
    exact congrArg (· ++ _) (List.append_nil _).symm

/-- A stretch without line feeds in front of a line feed is one line. -/
theorem lines_singleton {line : List Char} (h : '\n' ∉ line) :
  lines (line ++ ['\n']) = [dropReturn line]
  := by
  have hline : ∀ c ∈ line, (c == '\n') = false := by
    intro c hc
    rw [beq_eq_false_iff_ne]
    exact ne_of_mem_of_not_mem hc h
  rw [lines_append_feed, splitWhere_eq_splitOnP, List.splitOnP_eq_singleton hline]
  rfl

theorem dropReturn_append (before : List Char) {after : List Char} (h : after ≠ []) :
  dropReturn (before ++ after) = before ++ dropReturn after
  := by
  rw [dropReturn, dropReturn, List.getLast?_append_of_ne_nil before h]
  split
  · exact List.dropLast_append_of_ne_nil h
  · rfl

/-- A text without line feeds is one line, unless it is empty. -/
theorem lines_of_not_mem {cs : List Char} (h : '\n' ∉ cs) :
  lines cs = if cs.isEmpty then [] else [cs]
  := by
  have hline : ∀ c ∈ cs, (c == '\n') = false := by
    intro c hc
    rw [beq_eq_false_iff_ne]
    exact ne_of_mem_of_not_mem hc h
  rw [lines, splitWhere_eq_splitOnP, List.splitOnP_eq_singleton hline, closeLines]

/-- A stretch without line feeds that ends with a visible character begins the first line of a
text that begins with it. -/
theorem exists_lines_append {start : List Char} (hfeed : '\n' ∉ start) {c : Char}
    (hlast : start.getLast? = some c) (hc : isBlank c = false) (rest : List Char) :
  ∃ behind later, lines (start ++ rest) = (start ++ behind) :: later
  := by
  have hne : start ≠ [] := by
    rintro rfl
    cases hlast
  have hreturn : dropReturn start = start := by
    rw [dropReturn, if_neg]
    rw [hlast]
    rintro ⟨⟩
    cases hc
  by_cases hmem : '\n' ∈ rest
  · obtain ⟨before, after, rfl, hbefore⟩ := List.eq_append_cons_of_mem hmem
    have hline : '\n' ∉ start ++ before := by
      rw [List.mem_append, not_or]
      exact ⟨hfeed, hbefore⟩
    have hends : EndsLine (start ++ before ++ ['\n']) := Or.inr ⟨_, rfl⟩
    have htext : start ++ (before ++ '\n' :: after) = start ++ before ++ ['\n'] ++ after := by simp
    rw [htext, lines_append hends, lines_singleton hline]
    by_cases hnil : before = []
    · subst hnil
      refine ⟨[], lines after, ?_⟩
      rw [List.append_nil, hreturn]
      rfl
    · refine ⟨dropReturn before, lines after, ?_⟩
      rw [dropReturn_append start hnil]
      rfl
  · refine ⟨rest, [], ?_⟩
    rw [lines_of_not_mem (by simp [hfeed, hmem]), if_neg]
    simp [hne]

/-- A line with another one behind it ends with a line feed. -/
theorem exists_of_lines_cons {cs line : List Char} {after : List (List Char)}
    (h : lines cs = line :: after) (hne : after ≠ []) :
  ∃ raw rest, cs = raw ++ ['\n'] ++ rest ∧ '\n' ∉ raw ∧ dropReturn raw = line ∧ lines rest = after
  := by
  by_cases hmem : '\n' ∈ cs
  · obtain ⟨raw, rest, rfl, hraw⟩ := List.eq_append_cons_of_mem hmem
    have hcs : raw ++ '\n' :: rest = raw ++ ['\n'] ++ rest := by simp
    rw [hcs, lines_append (Or.inr ⟨raw, rfl⟩), lines_singleton hraw] at h
    obtain ⟨hline, hafter⟩ := List.cons.inj h
    exact ⟨raw, rest, hcs, hraw, hline, hafter⟩
  · rw [lines_of_not_mem hmem] at h
    split at h
    · cases h
    · exact absurd (List.cons.inj h).2.symm hne

/-- Lines with another one behind them are the lines of a text of whole lines. -/
theorem exists_of_lines_append {cs : List Char} {before after : List (List Char)}
    (h : lines cs = before ++ after) (hne : after ≠ []) :
  ∃ lead rest, cs = lead ++ rest ∧ EndsLine lead ∧ lines lead = before ∧ lines rest = after
  := by
  induction before generalizing cs with
  | nil => exact ⟨[], cs, rfl, Or.inl rfl, rfl, h⟩
  | cons line before ih =>
    obtain ⟨raw, rest, rfl, hraw, hline, hrest⟩ :=
      exists_of_lines_cons h (List.append_ne_nil_of_right_ne_nil before hne)
    obtain ⟨lead, rest, rfl, hends, hlead, hafter⟩ := ih hrest
    refine ⟨raw ++ ['\n'] ++ lead, rest, by simp, Or.inr ?_, ?_, hafter⟩
    · rcases hends with rfl | ⟨before, rfl⟩
      · exact ⟨raw, List.append_nil _⟩
      · exact ⟨raw ++ ['\n'] ++ before, by simp⟩
    · rw [lines_append (Or.inr ⟨raw, rfl⟩), lines_singleton hraw, hline, hlead]
      rfl

/-- A text consists of whole lines and a stretch without line feeds. -/
theorem exists_endsLine (cs : List Char) :
  ∃ whole start, cs = whole ++ start ∧ EndsLine whole ∧ '\n' ∉ start
  := by
  induction cs using List.reverseRecOn with
  | nil => exact ⟨[], [], rfl, Or.inl rfl, List.not_mem_nil⟩
  | append_singleton cs c ih =>
    by_cases hc : c = '\n'
    · subst hc
      exact ⟨cs ++ ['\n'], [], (List.append_nil _).symm, Or.inr ⟨cs, rfl⟩, List.not_mem_nil⟩
    · obtain ⟨whole, start, rfl, hends, hstart⟩ := ih
      refine ⟨whole, start ++ [c], by simp, hends, ?_⟩
      simp [hstart, Ne.symm hc]

theorem prefix_of_splitWhere {p : Char → Bool} {cs s : List Char} {ss : List (List Char)}
    (h : splitWhere p cs = s :: ss) :
  s <+: cs
  := by
  fun_induction splitWhere p cs generalizing s ss with
  | case1 =>
    cases h
    exact List.prefix_refl []
  | case2 =>
    cases h
    exact List.nil_prefix
  | case3 c cs _ hs => exact absurd hs (splitWhere_ne_nil p cs)
  | case4 c cs _ s' ss' hs' ih =>
    cases h
    exact List.cons_prefix_cons.mpr ⟨rfl, ih hs'⟩

/-- Every stretch between two places to cut at is part of the text. -/
theorem infix_of_mem_splitWhere {p : Char → Bool} {cs s : List Char} (h : s ∈ splitWhere p cs) :
  s <:+: cs
  := by
  fun_induction splitWhere p cs with
  | case1 =>
    obtain rfl := List.mem_singleton.mp h
    exact List.infix_refl []
  | case2 c cs _ ih =>
    rcases List.mem_cons.mp h with rfl | h
    · exact List.nil_infix
    · exact (ih h).trans (List.suffix_cons c cs).isInfix
  | case3 c cs _ hs => exact absurd hs (splitWhere_ne_nil p cs)
  | case4 c cs _ s' ss hs ih =>
    rcases List.mem_cons.mp h with rfl | h
    · exact (List.cons_prefix_cons.mpr ⟨rfl, prefix_of_splitWhere hs⟩).isInfix
    · rw [hs] at ih
      exact (ih (List.mem_cons_of_mem s' h)).trans (List.suffix_cons c cs).isInfix

/-- Every line is part of the text. -/
theorem infix_of_mem_lines {line cs : List Char} (h : line ∈ lines cs) :
  line <:+: cs
  := by
  obtain ⟨s, hs, hstart⟩ := exists_of_mem_closeLines h
  exact hstart.isInfix.trans (infix_of_mem_splitWhere hs)

/-! ### White space at the ends -/

theorem trimStart_append_of_blank {cs ds : List Char} (h : isBlankText cs) :
  trimStart (cs ++ ds) = trimStart ds
  := List.dropWhile_append_of_pos (List.all_eq_true.mp h)

theorem trimStart_cons {c : Char} {cs : List Char} (hc : isBlank c = false) :
  trimStart (c :: cs) = c :: cs
  := List.dropWhile_cons_of_neg (by simp [hc])

/-- A text that is not blank is white space and then a text that begins with a visible character,
which is what trimming leaves. -/
theorem exists_trimStart_eq {cs : List Char} (h : isBlankText cs = false) :
  ∃ before c after, cs = before ++ c :: after ∧ isBlank c = false
    ∧ ∀ more, trimStart (cs ++ more) = c :: after ++ more
  := by
  induction cs with
  | nil => cases h
  | cons c cs ih =>
    cases hc : isBlank c with
    | false => exact ⟨[], c, cs, rfl, hc, fun more => trimStart_cons hc⟩
    | true =>
      rw [isBlankText, List.all_cons, hc, Bool.true_and] at h
      obtain ⟨before, d, after, rfl, hd, htrim⟩ := ih h
      refine ⟨c :: before, d, after, rfl, hd, fun more => ?_⟩
      rw [List.cons_append, trimStart, List.dropWhile_cons_of_pos hc]
      exact htrim more

/-- White space at the end of a text does not matter for what the text starts with, if that ends
with a visible character. -/
theorem prefix_trimEnd_iff {word cs : List Char} {c : Char} (hlast : word.getLast? = some c)
    (hc : isBlank c = false) :
  word <+: trimEnd cs ↔ word <+: cs
  := by
  constructor
  · intro h
    have hstart : trimEnd cs <+: cs := List.rdropWhile_prefix isBlank cs
    exact h.trans hstart
  · rintro ⟨rest, rfl⟩
    change word <+: (word ++ rest).rdropWhile isBlank
    induction rest using List.reverseRecOn with
    | nil =>
      have hword : word.rdropWhile isBlank = word := by
        apply List.rdropWhile_eq_self_iff.mpr
        intro hne
        rw [List.getLast?_eq_some_getLast hne] at hlast
        injection hlast with hlast
        rw [hlast, hc]
        exact Bool.false_ne_true
      simpa only [List.append_nil, hword] using List.prefix_refl word
    | append_singleton rest x ih =>
      rw [← List.append_assoc, List.rdropWhile_concat]
      split
      · exact ih
      · rw [List.append_assoc]
        apply List.prefix_append

end Bindery.Text
