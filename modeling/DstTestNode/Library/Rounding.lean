import Mathlib.Data.Int.Log
import Mathlib.Data.Rat.Floor
import Mathlib.Tactic.Linarith
import Mathlib.Tactic.Positivity

namespace Rounding

/-- The integer nearest to a number, the even one of two. -/
def nearest_even (x : ℚ) : Int :=
  if 2 * (x - ⌊x⌋) < 1 then ⌊x⌋
  else if 1 < 2 * (x - ⌊x⌋) then ⌊x⌋ + 1
  else ⌊x⌋ + ⌊x⌋ % 2

/-- The exponent of the last binary digit that binary64 keeps of a number. -/
def exponent (x : ℚ) : Int := max (Int.log 2 |x| - 52) (-1074)

/-- The binary64 number nearest to a number, below the overflow. -/
def rounded (x : ℚ) : ℚ := nearest_even (x / 2 ^ exponent x) * 2 ^ exponent x

variable {x y : ℚ}

theorem nearest_even_bounds (x : ℚ) : ⌊x⌋ ≤ nearest_even x ∧ nearest_even x ≤ ⌊x⌋ + 1 := by
  rw [nearest_even]
  split_ifs <;> omega

theorem abs_nearest_even_sub_le (x : ℚ) : |nearest_even x - x| ≤ 1 / 2 := by
  have hfloor := Int.floor_le x
  have hnext := Int.lt_floor_add_one x
  rw [nearest_even, abs_le]
  split_ifs with hdown hup
  · constructor <;> linarith
  · push_cast
    constructor <;> linarith
  · rcases Int.emod_two_eq_zero_or_one ⌊x⌋ with heven | hodd
    · rw [heven]
      push_cast
      constructor <;> linarith
    · rw [hodd]
      push_cast
      constructor <;> linarith

@[simp] theorem nearest_even_intCast (n : Int) : nearest_even n = n := by
  simp [nearest_even]

theorem nearest_even_mono (hle : x ≤ y) : nearest_even x ≤ nearest_even y := by
  rcases (Int.floor_mono hle).eq_or_lt with hsame | hless
  · simp only [nearest_even, ← hsame]
    split_ifs <;> first | omega | linarith
  · have hx := nearest_even_bounds x
    have hy := nearest_even_bounds y
    omega

theorem two_zpow_pos (n : Int) : (0 : ℚ) < 2 ^ n := zpow_pos (by norm_num) n

theorem two_zpow_mono {m n : Int} (hle : m ≤ n) : (2 : ℚ) ^ m ≤ 2 ^ n :=
  zpow_le_zpow_right₀ (by norm_num) hle

/-- Rounding moves a number by at most half of its last digit. -/
theorem abs_rounded_sub_le (x : ℚ) : |rounded x - x| ≤ 2 ^ exponent x / 2 := by
  have hpos := two_zpow_pos (exponent x)
  have hscaled : rounded x - x =
      (nearest_even (x / 2 ^ exponent x) - x / 2 ^ exponent x) * 2 ^ exponent x := by
    rw [rounded, sub_mul, div_mul_cancel₀ _ hpos.ne']
  rw [hscaled, abs_mul, abs_of_pos hpos]
  have hnear := abs_nearest_even_sub_le (x / 2 ^ exponent x)
  calc |(nearest_even (x / 2 ^ exponent x) : ℚ) - x / 2 ^ exponent x| * 2 ^ exponent x
      ≤ 1 / 2 * 2 ^ exponent x := mul_le_mul_of_nonneg_right hnear hpos.le
    _ = 2 ^ exponent x / 2 := by ring

/-- Multiples of the last digit are kept. -/
theorem rounded_eq_self {n : Int} (hx : x = n * 2 ^ exponent x) : rounded x = x := by
  have hpos := two_zpow_pos (exponent x)
  have hquotient : x / 2 ^ exponent x = n := by
    rw [div_eq_iff hpos.ne']
    exact hx
  rw [rounded, hquotient, nearest_even_intCast, ← hx]

theorem log_lt_of_lt (hx : 0 < x) {k : Int} (hlt : x < 2 ^ k) : Int.log 2 x < k :=
  (Int.lt_zpow_iff_log_lt Nat.one_lt_two hx).mp (by exact_mod_cast hlt)

theorem exponent_eq (hx : 0 ≤ x) : exponent x = max (Int.log 2 x - 52) (-1074) := by
  rw [exponent, abs_of_nonneg hx]

@[simp] theorem rounded_zero : rounded 0 = 0 := rounded_eq_self (n := 0) (by simp)

/-- Integers of 53 bits are kept. -/
theorem rounded_natCast {n : Nat} (hn : n < 2 ^ 53) : rounded n = n := by
  rcases Nat.eq_zero_or_pos n with rfl | hpos
  · exact_mod_cast rounded_zero
  have hcast : (0 : ℚ) < n := by exact_mod_cast hpos
  have hlog : Int.log 2 (n : ℚ) < 53 := log_lt_of_lt hcast (by exact_mod_cast hn)
  have hexponent : exponent (n : ℚ) ≤ 0 := by
    rw [exponent_eq hcast.le]
    omega
  obtain ⟨k, hk⟩ := Int.eq_ofNat_of_zero_le (Int.neg_nonneg_of_nonpos hexponent)
  refine rounded_eq_self (n := n * 2 ^ k) ?_
  have hsum : exponent (n : ℚ) = -(k : Int) := by omega
  rw [hsum]
  push_cast
  rw [mul_assoc, ← zpow_natCast, ← zpow_add₀ (by norm_num)]
  simp

/-- The error of a number below a power of two. -/
theorem abs_rounded_sub_le_of_lt (hx : 0 ≤ x) {k : Int} (hk : -1021 ≤ k) (hlt : x < 2 ^ k) :
    |rounded x - x| ≤ 2 ^ (k - 54) := by
  rcases hx.eq_or_lt with rfl | hpos
  · rw [rounded_zero, sub_zero, abs_zero]
    exact (two_zpow_pos _).le
  have hlog := log_lt_of_lt hpos hlt
  have hexponent : exponent x ≤ k - 53 := by
    rw [exponent_eq hx]
    omega
  have hhalf : (2 : ℚ) ^ (k - 53) / 2 = 2 ^ (k - 54) := by
    rw [show k - 54 = k - 53 - 1 by omega, zpow_sub_one₀ (by norm_num), div_eq_mul_inv]
  calc |rounded x - x| ≤ 2 ^ exponent x / 2 := abs_rounded_sub_le x
    _ ≤ 2 ^ (k - 53) / 2 := by linarith [two_zpow_mono hexponent]
    _ = 2 ^ (k - 54) := hhalf

theorem exists_multiple {k : Int} (hk : exponent x ≤ k) :
    ∃ n : Int, (2 : ℚ) ^ k = n * 2 ^ exponent x := by
  obtain ⟨gap, hgap⟩ := Int.eq_ofNat_of_zero_le (Int.sub_nonneg_of_le hk)
  refine ⟨2 ^ gap, ?_⟩
  push_cast
  rw [← zpow_natCast, ← zpow_add₀ (by norm_num)]
  congr 1
  omega

/-- No number is rounded past a power of two that is a multiple of its last digit. -/
theorem rounded_le_two_zpow {k : Int} (hk : exponent x ≤ k) (hle : x ≤ 2 ^ k) :
    rounded x ≤ 2 ^ k := by
  have hpos := two_zpow_pos (exponent x)
  obtain ⟨n, hn⟩ := exists_multiple hk
  have hmono : nearest_even (x / 2 ^ exponent x) ≤ nearest_even n :=
    nearest_even_mono ((div_le_iff₀ hpos).mpr (by rwa [← hn]))
  rw [nearest_even_intCast] at hmono
  rw [rounded, hn]
  exact mul_le_mul_of_nonneg_right (by exact_mod_cast hmono) hpos.le

theorem two_zpow_le_rounded {k : Int} (hk : exponent x ≤ k) (hle : 2 ^ k ≤ x) :
    2 ^ k ≤ rounded x := by
  have hpos := two_zpow_pos (exponent x)
  obtain ⟨n, hn⟩ := exists_multiple hk
  have hmono : nearest_even n ≤ nearest_even (x / 2 ^ exponent x) :=
    nearest_even_mono ((le_div_iff₀ hpos).mpr (by rwa [← hn]))
  rw [nearest_even_intCast] at hmono
  rw [rounded, hn]
  exact mul_le_mul_of_nonneg_right (by exact_mod_cast hmono) hpos.le

theorem rounded_nonneg (hx : 0 ≤ x) : 0 ≤ rounded x := by
  have hpos := two_zpow_pos (exponent x)
  apply mul_nonneg _ hpos.le
  have hmono : nearest_even ((0 : Int) : ℚ) ≤ nearest_even (x / 2 ^ exponent x) :=
    nearest_even_mono (by rw [Int.cast_zero]; exact div_nonneg hx hpos.le)
  rw [nearest_even_intCast] at hmono
  exact_mod_cast hmono

/-- Rounding keeps the order. Where the larger number has the coarser digits, the
power of two below it stands between the two. -/
theorem rounded_mono (hx : 0 ≤ x) (hle : x ≤ y) : rounded x ≤ rounded y := by
  rcases hx.eq_or_lt with rfl | hpos
  · rw [rounded_zero]
    exact rounded_nonneg hle
  have hy : 0 < y := hpos.trans_le hle
  have hlog : Int.log 2 x ≤ Int.log 2 y := Int.log_mono_right hpos hle
  have hexponents : exponent x ≤ exponent y := by
    rw [exponent_eq hx, exponent_eq hy.le]
    omega
  rcases hexponents.eq_or_lt with hsame | hless
  · rw [rounded, rounded, hsame]
    have hdigit := two_zpow_pos (exponent y)
    apply mul_le_mul_of_nonneg_right _ hdigit.le
    exact_mod_cast nearest_even_mono (div_le_div_of_nonneg_right hle hdigit.le)
  · rw [exponent_eq hx, exponent_eq hy.le] at hless
    have hpower : (2 : ℚ) ^ Int.log 2 y ≤ y := by
      exact_mod_cast Int.zpow_log_le_self Nat.one_lt_two hy
    have hbelow : x < 2 ^ Int.log 2 y := by
      have hlt : x < (2 : ℚ) ^ (Int.log 2 x + 1) := by
        exact_mod_cast Int.lt_zpow_succ_log_self Nat.one_lt_two x
      exact hlt.trans_le (two_zpow_mono (by omega))
    calc rounded x ≤ 2 ^ Int.log 2 y :=
          rounded_le_two_zpow (by rw [exponent_eq hx]; omega) hbelow.le
      _ ≤ rounded y := two_zpow_le_rounded (by rw [exponent_eq hy.le]; omega) hpower

end Rounding
