import Mathlib
import Delegations.Text.Decimal

/-!
Decimal numbers written and read. Main statement: the digits of a number below the limit are read
back as that number (`read_toDigits`).
-/
namespace Delegations.Text.Decimal

variable {limit n : Nat} {digits : List Char}

theorem le_ofDigitChars (digits : List Char) (n : Nat) : n ≤ Nat.ofDigitChars 10 digits n := by
  induction digits generalizing n with
  | nil => simp
  | cons c rest ih =>
    rw [Nat.ofDigitChars_cons]
    exact Nat.le_trans (by omega) (ih _)

/-- The number never shrinks on the way, so that it stays below the limit if it ends there. -/
theorem readDigits_eq_ok (decimal : ∀ c ∈ digits, c.isDigit)
    (below : Nat.ofDigitChars 10 digits n < limit) :
    readDigits limit n digits = .ok (Nat.ofDigitChars 10 digits n) := by
  induction digits generalizing n with
  | nil => simp [readDigits]
  | cons c rest ih =>
    obtain ⟨digit, decimal⟩ := List.forall_mem_cons.mp decimal
    rw [Nat.ofDigitChars_cons] at below ⊢
    have := le_ofDigitChars rest (10 * n + (c.toNat - '0'.toNat))
    simp only [readDigits, digit, if_true]
    rw [if_pos (by omega), ih decimal below]

theorem read_of_isDigit (nonempty : digits ≠ []) (decimal : ∀ c ∈ digits, c.isDigit) :
    read limit digits = readDigits limit 0 digits := by
  unfold read
  split
  · exact absurd rfl nonempty
  · exact absurd (decimal '+' (by simp)) (by decide)
  · exact absurd (decimal '+' (by simp)) (by decide)
  · rfl

theorem isDigit_of_mem_toDigits {c : Char} (mem : c ∈ Nat.toDigits 10 n) : c.isDigit :=
  Nat.isDigit_of_mem_toDigits (by decide) (by decide) mem

theorem toDigits_injective : Function.Injective (Nat.toDigits 10) :=
  Function.LeftInverse.injective (g := (Nat.ofDigitChars 10 · 0))
    fun _ => Nat.ofDigitChars_ten_toDigits

theorem read_toDigits (below : n < limit) : read limit (Nat.toDigits 10 n) = .ok n := by
  have value : Nat.ofDigitChars 10 (Nat.toDigits 10 n) 0 = n := Nat.ofDigitChars_ten_toDigits
  have decimal : ∀ c ∈ Nat.toDigits 10 n, c.isDigit := fun _ => isDigit_of_mem_toDigits
  rw [read_of_isDigit Nat.toDigits_ne_nil decimal, readDigits_eq_ok decimal (by rwa [value]), value]

end Delegations.Text.Decimal
