import Mathlib.Data.List.Chain
import Mathlib.Data.List.Infix
import Bindery.Text.Replace

/-!
# What replacing keeps

What `replaceWhere` puts in may satisfy the same condition as the text: one on each character
(`forall_mem_replaceWhere`), or one on each two neighbours (`isChain_replaceWhere`).  `replace`
leaves no occurrence of the old text if the new one is not a way to spell it
(`not_infix_replace`).
-/

namespace Bindery.Text

variable {find : List Char → Option (Nat × List Char)}

/-- The characters that belong to the last stretch are left out. -/
theorem replaceWhere_drop (find : List Char → Option (Nat × List Char)) (skip : Nat)
    (cs : List Char) :
  replaceWhere find skip cs = replaceWhere find 0 (cs.drop skip)
  := by
  induction skip generalizing cs with
  | zero => rfl
  | succ skip ih =>
    cases cs with
    | nil => rfl
    | cons c cs => exact ih cs

/-- A condition on characters holds after replacing if it holds of what stands for a stretch. -/
theorem forall_mem_replaceWhere {P : Char → Prop}
    (hfind : ∀ {text length new}, (∀ c ∈ text, P c) → find text = some (length, new) →
      ∀ c ∈ new, P c)
    (skip : Nat) {cs : List Char} (hcs : ∀ c ∈ cs, P c) :
  ∀ c ∈ replaceWhere find skip cs, P c
  := by
  fun_induction replaceWhere find skip cs with
  | case1 => exact hcs
  | case2 skip c cs ih => exact ih (List.forall_mem_cons.mp hcs).2
  | case3 c cs length new hfound ih =>
    rw [List.forall_mem_append]
    exact ⟨hfind hcs hfound, ih (List.forall_mem_cons.mp hcs).2⟩
  | case4 c cs _ ih =>
    obtain ⟨hc, hcs⟩ := List.forall_mem_cons.mp hcs
    rw [List.forall_mem_cons]
    exact ⟨hc, ih hcs⟩

/-- A condition on neighbours holds after replacing if it holds within what stands for a stretch,
and between the ends of that and any character. -/
theorem isChain_replaceWhere {R : Char → Char → Prop}
    (hfind : ∀ {text length new}, text.IsChain R → find text = some (length, new) →
      new ≠ [] ∧ new.IsChain R ∧ (∀ y ∈ new.head?, ∀ x, R x y) ∧ ∀ x ∈ new.getLast?, ∀ y, R x y)
    (skip : Nat) {cs : List Char} (hcs : cs.IsChain R) :
  (replaceWhere find skip cs).IsChain R
    ∧ (skip = 0 → ∀ x, (∀ y ∈ cs.head?, R x y) → ∀ y ∈ (replaceWhere find skip cs).head?, R x y)
  := by
  fun_induction replaceWhere find skip cs with
  | case1 => exact ⟨hcs, fun _ _ h => h⟩
  | case2 skip c cs ih => exact ⟨(ih hcs.tail).1, fun h => by cases h⟩
  | case3 c cs length new hfound ih =>
    obtain ⟨hne, hnew, hhead, hlast⟩ := hfind hcs hfound
    constructor
    · apply List.isChain_append.mpr
      exact ⟨hnew, (ih hcs.tail).1, fun x hx y _ => hlast x hx y⟩
    · intro _ x _ y hy
      rw [List.head?_append_of_ne_nil _ hne] at hy
      exact hhead y hy x
  | case4 c cs _ ih =>
    obtain ⟨hchain, hhead⟩ := ih hcs.tail
    constructor
    · apply List.isChain_cons.mpr
      exact ⟨hhead rfl c (List.isChain_cons.mp hcs).1, hchain⟩
    · intro _ x hx
      exact hx

/-! ### Occurrences of what was replaced -/

variable {c : Char} {old new : List Char}

/-- Up to the first character that occurrences begin with, nothing is replaced. -/
theorem takeWhile_replace (c : Char) (old new cs : List Char) :
  (replace (c :: old) (c :: new) cs).takeWhile (· != c) = cs.takeWhile (· != c)
  := by
  induction cs with
  | nil => rfl
  | cons d cs ih =>
    rw [replace, replaceWhere]
    split
    · next length spelled hfound =>
      split at hfound
      · next hmatch =>
        injection hfound with hfound
        injection hfound with _ hnew
        rw [List.isPrefixOf_iff_prefix, List.cons_prefix_cons] at hmatch
        rw [← hnew, ← hmatch.1, List.cons_append, List.takeWhile_cons_of_neg (by simp),
          List.takeWhile_cons_of_neg (by simp)]
      · cases hfound
    · rw [List.takeWhile_cons, List.takeWhile_cons]
      change (if _ then d :: (replace (c :: old) (c :: new) cs).takeWhile _ else _) = _
      rw [ih]

/-- A word that does not hold the first character of the occurrences begins the text after
replacing only if it does so before. -/
theorem prefix_of_prefix_replace {word cs : List Char} (hword : c ∉ word)
    (h : word <+: replace (c :: old) (c :: new) cs) :
  word <+: cs
  := by
  have hall : ∀ d ∈ word, (d != c) = true := by
    intro d hd
    rw [bne_iff_ne]
    rintro rfl
    exact hword hd
  have hstart : word <+: (replace (c :: old) (c :: new) cs).takeWhile (· != c) := by
    obtain ⟨rest, hrest⟩ := h
    rw [← hrest, List.takeWhile_append_of_pos hall]
    apply List.prefix_append
  have htake : cs.takeWhile (· != c) <+: cs := List.takeWhile_prefix _
  rw [takeWhile_replace] at hstart
  exact hstart.trans htake

/-- A word does not begin inside of a text that does not hold its first character. -/
theorem infix_of_infix_append {before after : List Char} (hc : c ∉ before)
    (h : c :: old <:+: before ++ after) :
  c :: old <:+: after
  := by
  induction before with
  | nil => exact h
  | cons d before ih =>
    rw [List.mem_cons, not_or] at hc
    rw [List.cons_append, List.infix_cons_iff] at h
    rcases h with h | h
    · exact absurd (List.cons_prefix_cons.mp h).1 hc.1
    · exact ih hc.2 h

/-- Replacing leaves no occurrence of the old text, if it and the new text hold the character
that they begin with nowhere else, and the new text is as long and does not begin with the
old one. -/
theorem not_infix_replace (hold : c ∉ old) (hnew : c ∉ new) (hlength : old.length ≤ new.length)
    (hstart : ¬ old <+: new) (cs : List Char) :
  ¬ c :: old <:+: replace (c :: old) (c :: new) cs
  := by
  suffices h : ∀ skip, ¬ c :: old <:+: replaceWhere (fun rest =>
      if (c :: old).isPrefixOf rest then some ((c :: old).length, c :: new) else none) skip cs from
    h 0
  induction cs with
  | nil =>
    intro skip
    simp [replaceWhere]
  | cons d cs ih =>
    intro skip
    cases skip with
    | succ skip => exact ih skip
    | zero =>
      rw [replaceWhere]
      split
      · next length spelled hfound =>
        split at hfound
        · injection hfound with hfound
          injection hfound with _ hspelled
          rw [← hspelled, List.cons_append, List.infix_cons_iff, not_or, List.cons_prefix_cons]
          constructor
          · rintro ⟨-, h⟩
            exact hstart (List.prefix_of_prefix_length_le h (List.prefix_append new _) hlength)
          · intro h
            exact ih _ (infix_of_infix_append hnew h)
        · cases hfound
      · next hnone =>
        rw [List.infix_cons_iff, not_or, List.cons_prefix_cons]
        constructor
        · rintro ⟨rfl, h⟩
          have hmatch := prefix_of_prefix_replace hold h
          rw [if_pos (by simpa using hmatch)] at hnone
          cases hnone
        · exact ih 0

end Bindery.Text
