import Mathlib.Data.List.Basic

namespace Decimal

theorem isDigit_of_mem_repr {n : Nat} {c : Char} (hc : c ∈ n.repr.toList) : c.isDigit = true := by
  rw [Nat.toList_repr] at hc
  exact Nat.isDigit_of_mem_toDigits (by omega) (by omega) hc

/-- A character that is not a digit occurs in no decimal number. -/
theorem notMem_repr {c : Char} (hc : c.isDigit = false) (n : Nat) : c ∉ n.repr.toList := by
  intro hmem
  rw [isDigit_of_mem_repr hmem] at hc
  cases hc

theorem repr_ne_nil (n : Nat) : n.repr.toList ≠ [] := by
  rw [Nat.toList_repr]
  exact Nat.toDigits_ne_nil

/-- The digits of a decimal number read back. -/
theorem ofDigitChars_repr (n : Nat) : Nat.ofDigitChars 10 n.repr.toList 0 = n := by
  rw [Nat.toList_repr]
  exact Nat.ofDigitChars_ten_toDigits

/-- A decimal numeral, possibly with leading zeros, and its value. -/
structure Numeral (digits : List Char) (value : Nat) : Prop where
  ne_nil : digits ≠ []
  isDigit : ∀ c ∈ digits, c.isDigit = true
  value_eq : Nat.ofDigitChars 10 digits 0 = value

theorem numeral_repr (n : Nat) : Numeral n.repr.toList n :=
  ⟨repr_ne_nil n, fun _ hc => isDigit_of_mem_repr hc, ofDigitChars_repr n⟩

end Decimal
