import Bindery.Text.Digit
import Bindery.Xml.Event

/-!
# Reading numerals

A number that is written with digits is read back, digit by digit, by every reader that knows the
value of each digit (`foldlM_toDigits`): as a decimal number (`Text.natOf?_toDigits`), and as the
number of a character reference (`Xml.numeral?_toDigits`).
-/

namespace Bindery

/-- Reading the digits of a number from left to right gives the number. -/
theorem foldlM_toDigits {base : Nat} (hbase : 1 < base) {digit? : Char → Option Nat}
    (hdigit : ∀ d < base, digit? d.digitChar = some d) (n : Nat) :
  (Nat.toDigits base n).foldlM (fun n c => (digit? c).map (base * n + ·)) 0 = some n
  := by
  induction n using Nat.strongRecOn with
  | ind n ih =>
    by_cases hn : n < base
    · simp [Nat.toDigits_of_lt_base hn, hdigit n hn]
    · have hpos : 0 < n := by omega
      have hmod := Nat.mod_lt n (Nat.lt_of_succ_lt hbase)
      rw [Nat.toDigits_of_base_le hbase (Nat.le_of_not_lt hn), List.foldlM_append,
        ih (n / base) (Nat.div_lt_self hpos hbase)]
      simp [hdigit _ hmod, Nat.div_add_mod]

theorem isEmpty_toDigits {base : Nat} (hbase : 1 < base) (n : Nat) :
  (Nat.toDigits base n).isEmpty = false
  := by
  by_cases hn : n < base
  · rw [Nat.toDigits_of_lt_base hn]
    rfl
  · rw [Nat.toDigits_of_base_le hbase (Nat.le_of_not_lt hn)]
    cases Nat.toDigits base (n / base) <;> rfl

theorem exists_digitChar {base : Nat} (hbase : 1 < base) {n : Nat} {c : Char}
    (h : c ∈ Nat.toDigits base n) :
  ∃ d < base, c = d.digitChar
  := by
  induction n using Nat.strongRecOn with
  | ind n ih =>
    by_cases hn : n < base
    · rw [Nat.toDigits_of_lt_base hn] at h
      exact ⟨n, hn, List.mem_singleton.mp h⟩
    · have hpos : 0 < n := by omega
      rw [Nat.toDigits_of_base_le hbase (Nat.le_of_not_lt hn), List.mem_append,
        List.mem_singleton] at h
      rcases h with h | rfl
      · exact ih (n / base) (Nat.div_lt_self hpos hbase) h
      · exact ⟨n % base, Nat.mod_lt n (Nat.lt_of_succ_lt hbase), rfl⟩

/-- A decimal numeral is read back. -/
theorem Text.natOf?_toDigits (n : Nat) :
  natOf? (Nat.toDigits 10 n) = some n
  := by
  rw [natOf?, isEmpty_toDigits (by decide)]
  exact foldlM_toDigits (by decide) (by decide) n

/-- The number of a character reference is read back. -/
theorem Xml.numeral?_toDigits {base : Nat} (hbase : 1 < base) (hlow : base ≤ 16) (n : Nat) :
  numeral? base (Nat.toDigits base n) = some n
  := by
  have hdigits : ∀ d < 16, ∀ base ≤ 16, d < base → digitBelow? base d.digitChar = some d := by
    decide
  rw [numeral?, isEmpty_toDigits hbase]
  exact foldlM_toDigits hbase
    (fun d hd => hdigits d (Nat.lt_of_lt_of_le hd hlow) base hlow hd) n

end Bindery
