import Bindery.Notebook.Inline
import Bindery.Proofs.Escape
import Bindery.Proofs.Text.Replace

/-!
# What typeset lines of markdown are like

A span takes its content from the text that follows its delimiter (`Span.IsLocal`), so that
turning spans into commands adds nothing to a text but the commands.  Hence a typeset line is on
a single line if the line is (`isSingleLine_inline`), and it is tame whatever it was made from
(`isTame_inline`).
-/

namespace Bindery.Notebook

open Escape (IsTame MayFollow)
open Text (IsSingleLine)

namespace Span

/-- The content of a span is the start of the text after its delimiter. -/
def IsLocal (s : Span) : Prop :=
  ∀ text content, s.content? text = some content → content <+: text

/-- The text before a character is followed by it. -/
theorem prefix_of_before? {c : Char} {text content : List Char}
    (h : before? c text = some content) :
  content ++ [c] <+: text
  := by
  unfold before? at h
  split at h
  · next hc =>
    injection h with h
    rw [← h]
    clear h
    induction text with
    | nil => simp at hc
    | cons d text ih =>
      by_cases hd : d = c
      · subst hd
        simp
      · rw [List.takeWhile_cons_of_pos (by simpa using hd), List.cons_append,
          List.cons_prefix_cons]
        refine ⟨rfl, ih ?_⟩
        rw [List.contains_cons] at hc
        simpa [Ne.symm hd] using hc
  · cases h

/-- The text before a character does not hold it. -/
theorem not_mem_of_before? {c : Char} {text content : List Char}
    (h : before? c text = some content) :
  c ∉ content
  := by
  unfold before? at h
  split at h
  · injection h with h
    rw [← h]
    intro hmem
    have hc := List.mem_takeWhile_imp hmem
    simp at hc
  · cases h

/-- The text before two asterisks is followed by them. -/
theorem prefix_of_beforeStars? {text content : List Char} (h : beforeStars? text = some content) :
  content ++ ['*', '*'] <+: text
  := by
  fun_induction beforeStars? text generalizing content with
  | case1 =>
    injection h with h
    rw [← h]
    simp
  | case2 => cases h
  | case3 c cs _ _ ih =>
    obtain ⟨rest, hrest, rfl⟩ := Option.map_eq_some_iff.mp h
    exact List.cons_prefix_cons.mpr ⟨rfl, ih hrest⟩
  | case4 => cases h

theorem prefix_of_code {text content : List Char} (h : code.content? text = some content) :
  content ++ code.delimiter <+: text
  := prefix_of_before? (Option.filter_eq_some_iff.mp h).1

theorem not_mem_of_code {text content : List Char} (h : code.content? text = some content) :
  '\x60' ∉ content
  := not_mem_of_before? (Option.filter_eq_some_iff.mp h).1

theorem prefix_of_italic {text content : List Char} (h : italic.content? text = some content) :
  content ++ italic.delimiter <+: text
  := prefix_of_before? (Option.filter_eq_some_iff.mp h).1

theorem prefix_of_bold {text content : List Char} (h : bold.content? text = some content) :
  content ++ bold.delimiter <+: text
  := by
  cases text with
  | nil => cases h
  | cons c cs =>
    change (if c = '\n' then none else (beforeStars? cs).map (c :: ·)) = some content at h
    split at h
    · cases h
    · obtain ⟨rest, hrest, rfl⟩ := Option.map_eq_some_iff.mp h
      exact List.cons_prefix_cons.mpr ⟨rfl, prefix_of_beforeStars? hrest⟩

theorem isLocal_code :
  code.IsLocal
  := fun _ _ h => (List.prefix_append _ _).trans (prefix_of_code h)

theorem isLocal_italic :
  italic.IsLocal
  := fun _ _ h => (List.prefix_append _ _).trans (prefix_of_italic h)

theorem isLocal_bold :
  bold.IsLocal
  := fun _ _ h => (List.prefix_append _ _).trans (prefix_of_bold h)

variable {s : Span} {text new : List Char} {length : Nat}

/-- A span that is found is replaced by its command, with a stretch of the text as argument. -/
theorem IsLocal.of_find (hs : s.IsLocal) (h : s.find text = some (length, new)) :
  ∃ content, content <:+: text ∧ new = '\\' :: s.command ++ '{' :: content ++ ['}']
  := by
  unfold find at h
  split at h
  · obtain ⟨content, hcontent, heq⟩ := Option.map_eq_some_iff.mp h
    injection heq with _ hnew
    use content
    refine ⟨?_, hnew.symm⟩
    have hdrop := List.drop_suffix s.delimiter.length text
    have hstart := (hs _ _ hcontent).isInfix
    exact hstart.trans hdrop.isInfix
  · cases h

theorem IsLocal.isSingleLine_convert (hs : s.IsLocal) (hcommand : IsSingleLine s.command)
    (h : IsSingleLine text) :
  IsSingleLine (s.convert text)
  := by
  apply Text.forall_mem_replaceWhere _ 0 h
  intro text length new htext hfind
  obtain ⟨content, hcontent, rfl⟩ := hs.of_find hfind
  have hcontent : IsSingleLine content := fun c hc => htext c (hcontent.subset hc)
  change IsSingleLine _
  simp only [List.cons_append, Text.isSingleLine_cons, Text.isSingleLine_append]
  exact ⟨by decide, ⟨hcommand, by decide, hcontent⟩, by decide, Text.isSingleLine_nil⟩

theorem IsLocal.isTame_convert (hs : s.IsLocal) (hcommand : IsTame ('\\' :: s.command ++ ['{']))
    (h : IsTame text) :
  IsTame (s.convert text)
  := by
  apply (Text.isChain_replaceWhere _ 0 h).1
  intro text length new htext hfind
  obtain ⟨content, hcontent, rfl⟩ := hs.of_find hfind
  have hcontent : IsTame (content ++ ['}']) := (IsTame.of_infix htext hcontent).concat (by decide)
  have hnew : '\\' :: s.command ++ '{' :: content ++ ['}']
      = ('\\' :: s.command ++ ['{']) ++ (content ++ ['}']) := by simp
  refine ⟨by simp, ?_, ?_, ?_⟩
  · rw [hnew]
    apply hcommand.append hcontent
    rw [List.getLast?_concat]
    decide
  · rintro c hc d -
    obtain rfl : _ = c := Option.some.inj hc
    decide
  · intro c hc d
    rw [List.getLast?_concat] at hc
    obtain rfl : _ = c := Option.some.inj hc
    exact fun h => absurd h (by decide)

end Span

/-- A typeset line without line feeds is on a single line. -/
theorem isSingleLine_inline {text : List Char} (h : '\n' ∉ text) :
  IsSingleLine (inline text)
  := by
  apply Escape.isSingleLine_smartQuotes
  apply Span.isLocal_italic.isSingleLine_convert (by decide)
  apply Span.isLocal_bold.isSingleLine_convert (by decide)
  apply Span.isLocal_code.isSingleLine_convert (by decide)
  exact Escape.isSingleLine_escape h

/-- Whatever a line of markdown says, its typeset form is tame. -/
theorem isTame_inline (text : List Char) :
  IsTame (inline text)
  := by
  apply Escape.isTame_smartQuotes
  apply Span.isLocal_italic.isTame_convert (by decide)
  apply Span.isLocal_bold.isTame_convert (by decide)
  apply Span.isLocal_code.isTame_convert (by decide)
  exact Escape.isTame_escape text

end Bindery.Notebook
