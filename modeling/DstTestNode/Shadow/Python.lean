import DstTestNode.Library.Binary64

namespace python

/-- The exceptions that the generator can raise. -/
inductive PyError where
  | zero_division
  | overflow
  | key_error
  deriving DecidableEq, Repr

/-- `int(dividend / divisor)`: the quotient is a binary64 number. -/
def int_truediv (dividend divisor : Int) : Except PyError Int :=
  if divisor = 0 then .error .zero_division
  else match Binary64.truncated_quotient dividend.natAbs divisor.natAbs with
    | none => .error .overflow
    | some quotient => .ok (dividend.sign * divisor.sign * quotient)

/-- `dividend % divisor` for numbers that are not negative. -/
def int_mod (dividend divisor : Nat) : Except PyError Nat :=
  if divisor = 0 then .error .zero_division else .ok (dividend % divisor)

/-- `range(start, stop)`. -/
def range (start stop : Nat) : List Nat := List.range' start (stop - start)

@[simp] theorem mem_range {start stop n : Nat} : n ∈ range start stop ↔ start ≤ n ∧ n < stop := by
  simp only [range, List.mem_range'_1]
  omega

@[simp] theorem int_mod_of_pos {divisor : Nat} (hpos : 0 < divisor) (dividend : Nat) :
    int_mod dividend divisor = .ok (dividend % divisor) := if_neg (by omega)

theorem int_truediv_nonneg {dividend divisor quotient : Int} (hdividend : 0 ≤ dividend)
    (hdivisor : 0 ≤ divisor) (hquotient : int_truediv dividend divisor = .ok quotient) :
    0 ≤ quotient := by
  simp only [int_truediv] at hquotient
  split at hquotient
  · cases hquotient
  · split at hquotient
    · cases hquotient
    · cases hquotient
      have hsign := Int.mul_nonneg (Int.sign_nonneg_iff.mpr hdividend)
        (Int.sign_nonneg_iff.mpr hdivisor)
      exact Int.mul_nonneg hsign (Int.natCast_nonneg _)

/-- `int(dividend / divisor)` is the floor division while the dividend has at
most 53 bits. -/
theorem int_truediv_exact {dividend : Int} {divisor : Nat} (hdividend : 0 ≤ dividend)
    (hbits : dividend < 2 ^ 53) (hdivisor : 0 < divisor) :
    int_truediv dividend divisor = .ok (dividend / divisor) := by
  obtain ⟨n, rfl⟩ := Int.eq_ofNat_of_zero_le hdividend
  have hquotient := Binary64.truncated_quotient_exact (show n < 2 ^ 53 by omega) hdivisor
  have hnonzero : (divisor : Int) ≠ 0 := by omega
  simp only [int_truediv, if_neg hnonzero, Int.natAbs_natCast, hquotient]
  by_cases hzero : n = 0
  · simp [hzero]
  · have hsign : (n : Int).sign = 1 := Int.sign_eq_one_of_pos (by omega)
    have hsign' : (divisor : Int).sign = 1 := Int.sign_eq_one_of_pos (by omega)
    rw [hsign, hsign', one_mul, one_mul, Int.natCast_div]

end python
