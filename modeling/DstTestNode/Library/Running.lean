import Mathlib.Data.List.Induction
import Mathlib.Order.Bounds.Basic
import Mathlib.Order.MinMax

namespace Running

variable {α : Type*} [LinearOrder α] [Zero α]

/-- The running greatest value, from zero. -/
def greatest (values : List α) : α := values.foldl max 0

/-- One step of the running least value, where zero stands for no value. -/
def lower (least value : α) : α := if value < least ∨ least = 0 then value else least

/-- The running least value, from no value. -/
def least (values : List α) : α := values.foldl lower 0

theorem greatest_append (values : List α) (value : α) :
    greatest (values ++ [value]) = max (greatest values) value := by
  rw [greatest, List.foldl_append]
  rfl

theorem least_append (values : List α) (value : α) :
    least (values ++ [value]) = lower (least values) value := by
  rw [least, List.foldl_append]
  rfl

omit [LinearOrder α] [Zero α] in
theorem mem_append_singleton (values : List α) (value : α) :
    {x | x ∈ values ++ [value]} = insert value {x | x ∈ values} := by
  ext x
  simp [or_comm]

/-- A greatest value among zero and values that are not negative. -/
theorem isGreatest_of_insert_zero {s : Set α} (hsome : s.Nonempty) (hnonneg : ∀ x ∈ s, 0 ≤ x)
    {value : α} (hgreatest : IsGreatest (insert 0 s) value) : IsGreatest s value := by
  refine ⟨?_, fun x hx => hgreatest.2 (Set.mem_insert_of_mem 0 hx)⟩
  rcases hgreatest.1 with hzero | hmem
  · obtain ⟨x, hx⟩ := hsome
    have hle := hgreatest.2 (Set.mem_insert_of_mem 0 hx)
    have heq : x = value := le_antisymm hle (hzero ▸ hnonneg x hx)
    exact heq ▸ hx
  · exact hmem

/-- The running greatest value is the greatest one when no value is negative. -/
theorem isGreatest_greatest {values : List α} (hsome : values ≠ [])
    (hnonneg : ∀ value ∈ values, 0 ≤ value) : IsGreatest {x | x ∈ values} (greatest values) := by
  have hinsert (values : List α) : IsGreatest (insert 0 {x | x ∈ values}) (greatest values) := by
    induction values using List.reverseRecOn with
    | nil => simp [greatest]
    | append_singleton values value ih =>
      rw [greatest_append, mem_append_singleton, Set.insert_comm, max_comm]
      exact ih.insert value
  exact isGreatest_of_insert_zero (List.exists_mem_of_ne_nil values hsome) hnonneg (hinsert values)

/-- The running least value is the least one when all values are positive. -/
theorem isLeast_least {values : List α} (hsome : values ≠ [])
    (hpos : ∀ value ∈ values, 0 < value) : IsLeast {x | x ∈ values} (least values) := by
  induction values using List.reverseRecOn with
  | nil => exact absurd rfl hsome
  | append_singleton values value ih =>
    have hrest : ∀ other ∈ values, 0 < other :=
      fun other hother => hpos other (List.mem_append_left _ hother)
    rw [least_append, mem_append_singleton]
    by_cases hempty : values = []
    · subst hempty
      simp [least, lower]
    · have hleast := ih hempty hrest
      have hne : least values ≠ 0 := (hrest _ hleast.1).ne'
      have hlower : lower (least values) value = min value (least values) := by
        rw [lower, min_def]
        split_ifs <;> grind
      rw [hlower]
      exact hleast.insert value

theorem least_zero {values : List α} (hzero : ∀ value ∈ values, value = 0) : least values = 0 := by
  induction values using List.reverseRecOn with
  | nil => rfl
  | append_singleton values value ih =>
    have hrest := ih fun other hother => hzero other (List.mem_append_left _ hother)
    rw [least_append, hrest, hzero value (by simp)]
    simp [lower]

theorem least_nonneg {values : List α} (hnonneg : ∀ value ∈ values, 0 ≤ value) :
    0 ≤ least values := by
  induction values using List.reverseRecOn with
  | nil => exact le_refl _
  | append_singleton values value ih =>
    have hrest := ih fun other hother => hnonneg other (List.mem_append_left _ hother)
    rw [least_append, lower]
    split_ifs
    · exact hnonneg value (by simp)
    · exact hrest

/-- After a positive value, the running least value is positive. -/
theorem least_append_pos {values : List α} (hnonneg : ∀ value ∈ values, 0 ≤ value) {value : α}
    (hpos : 0 < value) : 0 < least (values ++ [value]) := by
  have hrest := least_nonneg hnonneg
  rw [least_append, lower]
  split_ifs with hlower
  · exact hpos
  · exact lt_of_le_of_ne hrest fun hzero => hlower (.inr hzero.symm)

end Running
