import Mathlib.Algebra.Order.Field.Basic
import Mathlib.Algebra.Order.Field.Rat
import Mathlib.Algebra.BigOperators.Group.List.Basic
import Mathlib.Algebra.Order.BigOperators.Group.List
import Mathlib.Tactic.Linarith
import Mathlib.Tactic.Ring

namespace List

variable {ι : Type*} {f g : ι → ℚ} {items others : List ι}

/-- The arithmetic mean of a quantity over a list of items. -/
def mean (f : ι → ℚ) (items : List ι) : ℚ := (items.map f).sum / items.length

theorem Perm.mean_eq (hperm : items.Perm others) : items.mean f = others.mean f := by
  rw [mean, mean, (hperm.map f).sum_eq, hperm.length_eq]

theorem abs_sum_sub_le {bound : ℚ} (hclose : ∀ item ∈ items, |f item - g item| ≤ bound) :
    |(items.map f).sum - (items.map g).sum| ≤ bound * items.length := by
  induction items with
  | nil => simp
  | cons item items ih =>
    have hone := hclose item mem_cons_self
    have hrest := ih fun other hother => hclose other (mem_cons_of_mem item hother)
    have hsplit : ((item :: items).map f).sum - ((item :: items).map g).sum =
        (f item - g item) + ((items.map f).sum - (items.map g).sum) := by
      simp only [map_cons, sum_cons]
      ring
    have htriangle := abs_add_le (f item - g item) ((items.map f).sum - (items.map g).sum)
    rw [hsplit, length_cons, Nat.cast_succ]
    linarith

theorem le_mean {bound : ℚ} (hnonempty : items ≠ []) (hle : ∀ item ∈ items, bound ≤ f item) :
    bound ≤ items.mean f := by
  have hlength : (0 : ℚ) < items.length := Nat.cast_pos.mpr (length_pos_iff.mpr hnonempty)
  have hsum := card_nsmul_le_sum (items.map f) bound (forall_mem_map.mpr hle)
  rw [length_map, nsmul_eq_mul, mul_comm] at hsum
  exact (le_div_iff₀ hlength).mpr hsum

theorem mean_le {bound : ℚ} (hnonempty : items ≠ []) (hle : ∀ item ∈ items, f item ≤ bound) :
    items.mean f ≤ bound := by
  have hlength : (0 : ℚ) < items.length := Nat.cast_pos.mpr (length_pos_iff.mpr hnonempty)
  have hsum := sum_le_card_nsmul (items.map f) bound (forall_mem_map.mpr hle)
  rw [length_map, nsmul_eq_mul, mul_comm] at hsum
  exact (div_le_iff₀ hlength).mpr hsum

/-- Means of quantities that are close are close. -/
theorem abs_mean_sub_le {bound : ℚ} (hnonempty : items ≠ [])
    (hclose : ∀ item ∈ items, |f item - g item| ≤ bound) :
    |items.mean f - items.mean g| ≤ bound := by
  have hlength : (0 : ℚ) < items.length :=
    Nat.cast_pos.mpr (length_pos_iff.mpr hnonempty)
  rw [mean, mean, ← sub_div, abs_div, abs_of_pos hlength, div_le_iff₀ hlength]
  exact abs_sum_sub_le hclose

end List
