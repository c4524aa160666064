import Mathlib.Algebra.Order.Ring.Int
import Mathlib.Data.Nat.Log

namespace Binary64

/-- The integer nearest to a quotient, ties to even. -/
def nearest (dividend divisor : Nat) : Nat :=
  let quotient := dividend / divisor
  let remainder := dividend % divisor
  if 2 * remainder < divisor then quotient
  else if divisor < 2 * remainder then quotient + 1
  else quotient + quotient % 2

/-- The exponent at which the quotient of two positive integers has a
significand of 53 bits. -/
def exponent (dividend divisor : Nat) : Int :=
  let magnitude : Int := (Nat.log 2 dividend : Int) - Nat.log 2 divisor
  if divisor * 2 ^ magnitude.toNat ≤ dividend * 2 ^ (-magnitude).toNat then magnitude - 52
  else magnitude - 53

/-- The quotient of two integers in binary64, truncated to an integer. A
quotient that rounds past the largest finite number has none; quotients in the
subnormal range are truncated to zero whatever their rounding. -/
def truncated_quotient (dividend divisor : Nat) : Option Nat :=
  let rounded := match exponent dividend divisor with
    | .ofNat power => nearest dividend (divisor * 2 ^ power) * 2 ^ power
    | .negSucc power => nearest (dividend * 2 ^ (power + 1)) divisor / 2 ^ (power + 1)
  if Nat.log 2 rounded < 1024 then some rounded else none

theorem nearest_bounds (dividend divisor : Nat) :
    nearest dividend divisor = dividend / divisor ∨
      nearest dividend divisor = dividend / divisor + 1 ∧
        divisor ≤ 2 * (dividend % divisor) := by
  simp only [nearest]
  split_ifs with hbelow habove
  · exact .inl rfl
  · exact .inr ⟨rfl, by omega⟩
  · rcases Nat.mod_two_eq_zero_or_one (dividend / divisor) with heven | hodd
    · exact .inl (by omega)
    · exact .inr ⟨by omega, by omega⟩

@[simp] theorem nearest_zero (divisor : Nat) : nearest 0 divisor = 0 := by
  simp [nearest]

/-- A quotient below one has a significand of 53 bits after scaling. -/
theorem scaled_of_exponent {dividend divisor power : Nat} (hdividend : dividend ≠ 0)
    (hexponent : exponent dividend divisor = .negSucc power) :
    divisor * 2 ^ 52 ≤ dividend * 2 ^ (power + 1) := by
  simp only [exponent] at hexponent
  split_ifs at hexponent with hmagnitude
  · rcases Nat.le_total (Nat.log 2 divisor) (Nat.log 2 dividend) with hle | hle
    · obtain ⟨gap, hgap⟩ := Nat.exists_eq_add_of_le hle
      have hup : ((Nat.log 2 dividend : Int) - Nat.log 2 divisor).toNat = gap := by omega
      have hdown : (-((Nat.log 2 dividend : Int) - Nat.log 2 divisor)).toNat = 0 := by omega
      have hpower : gap + (power + 1) = 52 := by omega
      rw [hup, hdown, pow_zero, mul_one] at hmagnitude
      calc divisor * 2 ^ 52 = divisor * 2 ^ gap * 2 ^ (power + 1) := by
            rw [mul_assoc, ← pow_add, hpower]
        _ ≤ dividend * 2 ^ (power + 1) := Nat.mul_le_mul_right _ hmagnitude
    · obtain ⟨gap, hgap⟩ := Nat.exists_eq_add_of_le hle
      have hup : ((Nat.log 2 dividend : Int) - Nat.log 2 divisor).toNat = 0 := by omega
      have hdown : (-((Nat.log 2 dividend : Int) - Nat.log 2 divisor)).toNat = gap := by omega
      have hpower : power + 1 = gap + 52 := by omega
      rw [hup, hdown, pow_zero, mul_one] at hmagnitude
      calc divisor * 2 ^ 52 ≤ dividend * 2 ^ gap * 2 ^ 52 := Nat.mul_le_mul_right _ hmagnitude
        _ = dividend * 2 ^ (power + 1) := by rw [mul_assoc, ← pow_add, hpower]
  · have hpower : Nat.log 2 divisor + 1 + 52 = Nat.log 2 dividend + (power + 1) := by omega
    calc divisor * 2 ^ 52 ≤ 2 ^ (Nat.log 2 divisor + 1) * 2 ^ 52 :=
          Nat.mul_le_mul_right _ (Nat.lt_pow_succ_log_self (by omega) divisor).le
      _ = 2 ^ Nat.log 2 dividend * 2 ^ (power + 1) := by rw [← pow_add, hpower, pow_add]
      _ ≤ dividend * 2 ^ (power + 1) :=
          Nat.mul_le_mul_right _ (Nat.pow_log_le_self 2 hdividend)

/-- Only a quotient by one needs no scaling while the dividend has at most 53 bits. -/
theorem divisor_of_exponent {dividend divisor power : Nat} (hdividend : dividend < 2 ^ 53)
    (hnonzero : dividend ≠ 0) (hexponent : exponent dividend divisor = .ofNat power) :
    power = 0 ∧ divisor ≤ 1 := by
  have hlog := Nat.log_lt_of_lt_pow hnonzero hdividend
  simp only [exponent] at hexponent
  split_ifs at hexponent
  · simp only [Int.ofNat_eq_natCast] at hexponent
    have hdivisor : Nat.log 2 divisor = 0 := by omega
    have hbound := Nat.lt_pow_succ_log_self (b := 2) (by omega) divisor
    rw [hdivisor] at hbound
    exact ⟨by omega, by omega⟩
  · simp only [Int.ofNat_eq_natCast] at hexponent
    omega

/-- Rounding a scaled quotient up does not reach the next integer while the
divisor is below twice the scale. -/
theorem nearest_div_scale {dividend divisor scale : Nat} (hdivisor : 0 < divisor)
    (hscale : divisor < 2 * scale) :
    nearest (dividend * scale) divisor / scale = dividend / divisor := by
  obtain ⟨quotient, remainder, hdividend, hremainder⟩ :
      ∃ quotient remainder, dividend = divisor * quotient + remainder ∧ remainder < divisor :=
    ⟨_, _, (Nat.div_add_mod dividend divisor).symm, Nat.mod_lt _ hdivisor⟩
  have hquotient : dividend / divisor = quotient := by
    rw [hdividend, Nat.mul_add_div hdivisor, Nat.div_eq_of_lt hremainder, Nat.add_zero]
  have hscaled : dividend * scale = divisor * (quotient * scale) + remainder * scale := by
    rw [hdividend, Nat.add_mul, Nat.mul_assoc]
  have hdiv : dividend * scale / divisor = quotient * scale + remainder * scale / divisor := by
    rw [hscaled, Nat.mul_add_div hdivisor]
  have hmod : dividend * scale % divisor = remainder * scale % divisor := by
    rw [hscaled, Nat.mul_add_mod]
  have hfraction : remainder * scale / divisor < scale :=
    (Nat.div_lt_iff_lt_mul hdivisor).mpr
      (by rw [Nat.mul_comm scale]; exact Nat.mul_lt_mul_of_pos_right hremainder (by omega))
  have hup : divisor ≤ 2 * (remainder * scale % divisor) →
      remainder * scale / divisor + 1 < scale := by
    intro hhalf
    by_contra hnot
    have hlast : remainder * scale / divisor + 1 = scale := by omega
    have hparts := Nat.div_add_mod (remainder * scale) divisor
    have hnext : (remainder + 1) * scale ≤ divisor * scale := Nat.mul_le_mul_right _ hremainder
    have hfull : divisor * (remainder * scale / divisor) + divisor = divisor * scale := by
      rw [← Nat.mul_succ, Nat.succ_eq_add_one, hlast]
    rw [Nat.add_mul] at hnext
    omega
  rw [hquotient]
  rcases nearest_bounds (dividend * scale) divisor with hdown | ⟨hrounded, hhalf⟩
  · rw [hdown, hdiv, Nat.mul_comm quotient, Nat.mul_add_div (by omega),
      Nat.div_eq_of_lt hfraction, Nat.add_zero]
  · rw [hmod] at hhalf
    rw [hrounded, hdiv, Nat.mul_comm quotient, Nat.add_assoc, Nat.mul_add_div (by omega),
      Nat.div_eq_of_lt (hup hhalf), Nat.add_zero]

/-- The truncated quotient is the exact one while the dividend has at most 53
bits: a quotient that is not an integer is not rounded up to one. -/
theorem truncated_quotient_exact {dividend divisor : Nat} (hdividend : dividend < 2 ^ 53)
    (hdivisor : 0 < divisor) :
    truncated_quotient dividend divisor = some (dividend / divisor) := by
  have hsmall : Nat.log 2 (dividend / divisor) < 1024 := by
    have hle := Nat.log_mono_right (b := 2) (Nat.div_le_self dividend divisor)
    by_cases hzero : dividend = 0
    · simp [hzero]
    · have hlog := Nat.log_lt_of_lt_pow hzero hdividend
      omega
  by_cases hzero : dividend = 0
  · subst hzero
    simp only [truncated_quotient]
    split <;> simp
  · simp only [truncated_quotient]
    split
    · next power hexponent =>
      obtain ⟨rfl, hone⟩ := divisor_of_exponent hdividend hzero hexponent
      have hdivisor_one : divisor = 1 := by omega
      subst hdivisor_one
      simpa [nearest, Nat.mod_one] using hsmall
    · next power hexponent =>
      have hscaled := scaled_of_exponent hzero hexponent
      have hscale : divisor < 2 * 2 ^ (power + 1) := by
        have hlt : divisor * 2 ^ 52 < 2 ^ 53 * 2 ^ (power + 1) :=
          hscaled.trans_lt (Nat.mul_lt_mul_of_pos_right hdividend (Nat.two_pow_pos _))
        omega
      rw [nearest_div_scale hdivisor hscale, if_pos hsmall]

example : truncated_quotient 90 5 = some 18 := by decide

example : truncated_quotient (2 ^ 60 - 1) (2 ^ 59) = some 2 := by decide

end Binary64
