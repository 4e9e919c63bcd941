import Mathlib.Algebra.Group.Nat.Defs
import Mathlib.Data.List.Infix
import Bindery.Compile

/-!
# Searching bytes and searching their text

A word of ASCII characters other than NUL occurs in the text that `Text.decodeLossy` reads from
bytes exactly if its own bytes occur among them (`infix_decodeLossy_iff`), whether or not the
bytes are UTF-8 and wherever they begin.  For a byte below `0x80` always stands for a character
of its own, and no other byte has a part in one (`Pending.IsLong`).
-/

namespace Bindery.Text

/-- An ASCII character other than NUL. -/
def IsPlain (c : Char) : Prop :=
  0 < c.toNat ∧ c.toNat < 0x80

instance (c : Char) : Decidable (IsPlain c) :=
  inferInstanceAs (Decidable (_ ∧ _))

theorem utf8_cons_of_isPlain {c : Char} (h : IsPlain c) (cs : List Char) :
  utf8 (c :: cs) = UInt8.ofNat c.toNat :: utf8 cs
  := by
  have hc : c.toNat ≤ 0x7f := Nat.le_of_lt_succ h.2
  simp [utf8, String.utf8EncodeChar, hc]

theorem toNat_ofNat_of_isPlain {c : Char} (h : IsPlain c) :
  (UInt8.ofNat c.toNat).toNat = c.toNat
  := UInt8.toNat_ofNat_of_lt' (Nat.lt_trans h.2 (by decide))

theorem Char.toNat_ofNat_of_lt {n : Nat} (h : n < 0x80) :
  (Char.ofNat n).toNat = n
  := by
  have hvalid : n.isValidChar := Or.inl (Nat.lt_trans h (by decide))
  rw [Char.ofNat, dif_pos hvalid]
  rfl

/-- A byte from `0x80` on is not the byte of a plain character. -/
theorem ofNat_toNat_ne {c : Char} (h : IsPlain c) {b : UInt8} (hb : 0x80 ≤ b.toNat) :
  UInt8.ofNat c.toNat ≠ b
  := by
  rintro rfl
  rw [toNat_ofNat_of_isPlain h] at hb
  exact absurd h.2 (Nat.not_lt_of_le hb)

/-- A byte below `0x80` stands for a plain character exactly if it is the byte of that
character. -/
theorem eq_ofNat_iff {c : Char} (h : IsPlain c) {b : UInt8} (hb : b.toNat < 0x80) :
  c = Char.ofNat b.toNat ↔ UInt8.ofNat c.toNat = b
  := by
  constructor
  · rintro rfl
    rw [Char.toNat_ofNat_of_lt hb, UInt8.ofNat_toNat]
  · rintro rfl
    rw [toNat_ofNat_of_isPlain h, Char.ofNat_toNat]

/-- The sequence stands for no ASCII character, whatever bytes complete it. -/
structure Pending.IsLong (p : Pending) : Prop where
  low : 0x80 ≤ p.low.toNat
  value : 0x80 ≤ (64 * p.value + (p.low.toNat - 0x80)) * 64 ^ (p.missing - 1)

theorem lead_of_lt {b : UInt8} (h : b.toNat < 0x80) :
  lead b = .complete (Char.ofNat b.toNat)
  := by
  rw [lead, if_pos (UInt8.lt_iff_toNat_lt.mpr h)]

/-- A byte from `0x80` on begins a long sequence, if it begins anything. -/
theorem lead_of_le {b : UInt8} (h : 0x80 ≤ b.toNat) :
  lead b = .stray ∨ ∃ p, lead b = .begun p ∧ p.IsLong
  := by
  have hlt : ¬ b < 0x80 := by simpa [UInt8.lt_iff_toNat_lt] using h
  have hne : ∀ k : UInt8, b ≠ k → b.toNat ≠ k.toNat := fun k hk => mt UInt8.toNat_inj.mp hk
  simp only [lead, hlt, if_false, UInt8.lt_iff_toNat_lt, UInt8.reduceToNat]
  split_ifs with hc2 he0 heqe0 heqed hf0 heqf0 hf4 heqf4
  · left
    rfl
  · right
    refine ⟨_, rfl, Nat.le_refl _, ?_⟩
    simp only [Nat.sub_self, Nat.pow_zero, UInt8.reduceToNat]
    omega
  · right
    exact ⟨_, rfl, by decide, by decide⟩
  · right
    exact ⟨_, rfl, by decide, by decide⟩
  · right
    have hb : b.toNat ≠ 0xe0 := hne 0xe0 heqe0
    refine ⟨_, rfl, Nat.le_refl _, ?_⟩
    simp only [Nat.sub_self, UInt8.reduceToNat]
    omega
  · right
    exact ⟨_, rfl, by decide, by decide⟩
  · right
    have hb : b.toNat ≠ 0xf0 := hne 0xf0 heqf0
    refine ⟨_, rfl, Nat.le_refl _, ?_⟩
    simp only [Nat.sub_self, UInt8.reduceToNat]
    omega
  · right
    exact ⟨_, rfl, by decide, by decide⟩
  · left
    rfl

/-- One more byte leaves a long sequence long. -/
theorem Pending.IsLong.next {p : Pending} (h : p.IsLong) {b : UInt8} (hb : p.low ≤ b)
    (hmissing : ¬ p.missing ≤ 1) :
  Pending.IsLong { missing := p.missing - 1, value := 64 * p.value + (b.toNat - 0x80) }
  := by
  have hb : p.low.toNat ≤ b.toNat := UInt8.le_iff_toNat_le.mp hb
  obtain ⟨k, hk⟩ : ∃ k, p.missing - 1 = k + 1 := ⟨p.missing - 2, by omega⟩
  have hvalue := h.value
  rw [hk, Nat.pow_succ', ← Nat.mul_assoc] at hvalue
  constructor
  · change 0x80 ≤ (0x80 : UInt8).toNat
    decide
  · simp only [UInt8.reduceToNat, Nat.sub_self, Nat.add_zero, hk, Nat.add_sub_cancel]
    apply Nat.le_trans hvalue
    apply Nat.mul_le_mul_right
    omega

theorem not_isPlain_ofNat {n : Nat} (h : 0x80 ≤ n) :
  ¬ IsPlain (Char.ofNat n)
  := by
  by_cases hvalid : n.isValidChar
  · have hn : (Char.ofNat n).toNat = n := by
      rw [Char.ofNat, dif_pos hvalid]
      rfl
    intro hplain
    have hlt := hplain.2
    omega
  · rw [Char.ofNat, dif_neg hvalid]
    decide

/-- The last byte of a long sequence completes a character that is not plain. -/
theorem Pending.IsLong.not_isPlain {p : Pending} (h : p.IsLong) {b : UInt8} (hb : p.low ≤ b)
    (hmissing : p.missing ≤ 1) :
  ¬ IsPlain (Char.ofNat (64 * p.value + (b.toNat - 0x80)))
  := by
  have hb : p.low.toNat ≤ b.toNat := UInt8.le_iff_toNat_le.mp hb
  have hvalue := h.value
  rw [Nat.sub_eq_zero_of_le hmissing, Nat.pow_zero, Nat.mul_one] at hvalue
  apply not_isPlain_ofNat
  omega

/-! ### Texts with replacement characters -/

/-- The text of the bytes that follow a sequence which may have begun, with a replacement
character for each mark. -/
def lossyFrom (pending : Option Pending) (bs : Bytes) : List Char :=
  (decodeFrom pending bs).map fun mark => mark.getD '\ufffd'

theorem lossyFrom_of_lt {b : UInt8} (h : b.toNat < 0x80) (bs : Bytes) :
  lossyFrom none (b :: bs) = Char.ofNat b.toNat :: lossyFrom none bs
  := by
  simp [lossyFrom, decodeFrom, lead_of_lt h]

/-- A byte from `0x80` on is read as a replacement character, or begins a long sequence. -/
theorem lossyFrom_of_lead {b : UInt8} (h : 0x80 ≤ b.toNat) (bs : Bytes) :
  lossyFrom none (b :: bs) = '\ufffd' :: lossyFrom none bs
    ∨ ∃ p, p.IsLong ∧ lossyFrom none (b :: bs) = lossyFrom (some p) bs
  := by
  rcases lead_of_le h with hlead | ⟨p, hlead, hp⟩
  · left
    simp [lossyFrom, decodeFrom, hlead]
  · right
    use p, hp
    simp [lossyFrom, decodeFrom, hlead]

/-- A sequence is broken off by a byte that is read afresh, or completed as a character that is
not plain, or it goes on. -/
theorem lossyFrom_pending {p : Pending} (h : p.IsLong) (b : UInt8) (bs : Bytes) :
  lossyFrom (some p) (b :: bs) = '\ufffd' :: lossyFrom none (b :: bs)
    ∨ 0x80 ≤ b.toNat ∧
      ((∃ c, ¬ IsPlain c ∧ lossyFrom (some p) (b :: bs) = c :: lossyFrom none bs)
        ∨ ∃ q : Pending, q.IsLong ∧ lossyFrom (some p) (b :: bs) = lossyFrom (some q) bs)
  := by
  by_cases hb : p.low ≤ b ∧ b ≤ p.high
  · right
    use Nat.le_trans h.low (UInt8.le_iff_toNat_le.mp hb.1)
    by_cases hmissing : p.missing ≤ 1
    · left
      refine ⟨_, h.not_isPlain hb.1 hmissing, ?_⟩
      simp [lossyFrom, decodeFrom, hb, hmissing]
    · right
      refine ⟨_, h.next hb.1 hmissing, ?_⟩
      simp [lossyFrom, decodeFrom, hb, hmissing]
  · left
    simp only [lossyFrom, decodeFrom, hb, if_false]
    cases lead b <;> rfl

/-- A long sequence is not read as a plain character. -/
theorem lossyFrom_of_isLong {p : Pending} (h : p.IsLong) (bs : Bytes) :
  ∃ c rest, lossyFrom (some p) bs = c :: rest ∧ ¬ IsPlain c
  := by
  induction bs generalizing p with
  | nil => exact ⟨'\ufffd', [], rfl, by decide⟩
  | cons b bs ih =>
    rcases lossyFrom_pending h b bs with heq | ⟨-, ⟨c, hc, heq⟩ | ⟨q, hq, heq⟩⟩
    · exact ⟨_, _, heq, by decide⟩
    · exact ⟨_, _, heq, hc⟩
    · rw [heq]
      apply ih hq

/-- Bytes from `0x80` on are not read as a plain character. -/
theorem lossyFrom_of_le {b : UInt8} (h : 0x80 ≤ b.toNat) (bs : Bytes) :
  ∃ c rest, lossyFrom none (b :: bs) = c :: rest ∧ ¬ IsPlain c
  := by
  rcases lossyFrom_of_lead h bs with heq | ⟨p, hp, heq⟩
  · exact ⟨_, _, heq, by decide⟩
  · rw [heq]
    apply lossyFrom_of_isLong hp

/-! ### Words -/

theorem not_prefix_of_not_isPlain {word : List Char} (hword : ∀ c ∈ word, IsPlain c)
    (hne : word ≠ []) {c : Char} (hc : ¬ IsPlain c) (rest : List Char) :
  ¬ word <+: c :: rest
  := by
  intro h
  rcases List.prefix_cons_iff.mp h with rfl | ⟨t, rfl, -⟩
  · apply hne rfl
  · apply hc (hword c List.mem_cons_self)

theorem not_prefix_of_le {word : List Char} (hword : ∀ c ∈ word, IsPlain c) (hne : word ≠ [])
    {b : UInt8} (hb : 0x80 ≤ b.toNat) (bs : Bytes) :
  ¬ utf8 word <+: b :: bs
  := by
  cases word with
  | nil => exact absurd rfl hne
  | cons c word =>
    have hc := hword c List.mem_cons_self
    rw [utf8_cons_of_isPlain hc, List.cons_prefix_cons]
    rintro ⟨heq, -⟩
    apply ofNat_toNat_ne hc hb heq

/-- A plain word stands at the start of a text exactly if its bytes stand at the start of the
bytes. -/
theorem prefix_lossyFrom_iff {word : List Char} (hword : ∀ c ∈ word, IsPlain c) (bs : Bytes) :
  word <+: lossyFrom none bs ↔ utf8 word <+: bs
  := by
  induction word generalizing bs with
  | nil => simp [utf8]
  | cons c word ih =>
    have hc := hword c List.mem_cons_self
    cases bs with
    | nil => simp [lossyFrom, decodeFrom, utf8_cons_of_isPlain hc]
    | cons b bs =>
      by_cases hb : b.toNat < 0x80
      · rw [lossyFrom_of_lt hb, utf8_cons_of_isPlain hc, List.cons_prefix_cons,
          List.cons_prefix_cons, eq_ofNat_iff hc hb,
          ih (fun d hd => hword d (List.mem_cons_of_mem c hd))]
      · have hb : 0x80 ≤ b.toNat := Nat.le_of_not_lt hb
        obtain ⟨d, rest, heq, hd⟩ := lossyFrom_of_le hb bs
        rw [heq]
        apply iff_of_false
        · apply not_prefix_of_not_isPlain hword (List.cons_ne_nil c word) hd
        · apply not_prefix_of_le hword (List.cons_ne_nil c word) hb

/-- A plain word occurs in the text of bytes that may go on with a long sequence exactly if its
own bytes occur among them. -/
theorem infix_lossyFrom_iff {word : List Char} (hword : ∀ c ∈ word, IsPlain c)
    (hne : word ≠ []) (bs : Bytes) :
  (word <:+: lossyFrom none bs ↔ utf8 word <:+: bs)
    ∧ ∀ p : Pending, p.IsLong → (word <:+: lossyFrom (some p) bs ↔ utf8 word <:+: bs)
  := by
  have hbytes : utf8 word ≠ [] := by
    cases word with
    | nil => exact absurd rfl hne
    | cons c word => simp [utf8_cons_of_isPlain (hword c List.mem_cons_self)]
  have hskip : ∀ c rest, ¬ IsPlain c → (word <:+: c :: rest ↔ word <:+: rest) := by
    intro c rest hc
    rw [List.infix_cons_iff]
    apply or_iff_right (not_prefix_of_not_isPlain hword hne hc rest)
  have hskip_byte : ∀ (b : UInt8) rest, 0x80 ≤ b.toNat →
      (utf8 word <:+: b :: rest ↔ utf8 word <:+: rest) := by
    intro b rest hb
    rw [List.infix_cons_iff]
    apply or_iff_right (not_prefix_of_le hword hne hb rest)
  induction bs with
  | nil =>
    constructor
    · simp [lossyFrom, decodeFrom, hne, hbytes]
    · intro p _
      change word <:+: ['\ufffd'] ↔ _
      rw [hskip _ _ (by decide)]
      simp [hne, hbytes]
  | cons b bs ih =>
    obtain ⟨ih, ih_pending⟩ := ih
    have hnone : word <:+: lossyFrom none (b :: bs) ↔ utf8 word <:+: b :: bs := by
      by_cases hb : b.toNat < 0x80
      · have hprefix := prefix_lossyFrom_iff hword (b :: bs)
        rw [lossyFrom_of_lt hb] at hprefix ⊢
        rw [List.infix_cons_iff, List.infix_cons_iff, hprefix, ih]
      · have hb : 0x80 ≤ b.toNat := Nat.le_of_not_lt hb
        rw [hskip_byte b bs hb]
        rcases lossyFrom_of_lead hb bs with heq | ⟨p, hp, heq⟩
        · rw [heq, hskip _ _ (by decide), ih]
        · rw [heq, ih_pending p hp]
    use hnone
    intro p hp
    rcases lossyFrom_pending hp b bs with heq | ⟨hb, ⟨c, hc, heq⟩ | ⟨q, hq, heq⟩⟩
    · rw [heq, hskip _ _ (by decide), hnone]
    · rw [heq, hskip c _ hc, hskip_byte b bs hb, ih]
    · rw [heq, hskip_byte b bs hb, ih_pending q hq]

/-- A plain word occurs in the text of bytes exactly if its bytes occur among them. -/
theorem infix_decodeLossy_iff {word : List Char} (hword : ∀ c ∈ word, IsPlain c)
    (hne : word ≠ []) (bs : Bytes) :
  word <:+: decodeLossy bs ↔ utf8 word <:+: bs
  := (infix_lossyFrom_iff hword hne bs).1

end Bindery.Text

/-- The search for a word in a text finds it exactly if it is there. -/
theorem Bindery.Compile.occurs_iff {word text : List Char} :
  Bindery.Compile.occurs word text = true ↔ word <:+: text
  := by
  induction text with
  | nil => simp [occurs]
  | cons c text ih => simp [occurs, List.infix_cons_iff, ih]
