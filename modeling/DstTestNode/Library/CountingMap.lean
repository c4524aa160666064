import Mathlib.Data.List.AList

/-- A map from keys to the number of occurrences counted since the key was
last completed. A key leaves the map when its count reaches the threshold. -/
abbrev CountingMap (K : Type*) : Type _ := AList fun _ : K => Nat

namespace CountingMap

variable {K : Type*} [DecidableEq K]

/-- Count one occurrence of a key. The threshold-th occurrence completes the
key: its entry is removed and the key is reported. -/
def count (threshold : Nat) (seen : CountingMap K) (key : K) : CountingMap K × Option K :=
  let n := (seen.lookup key).getD 0 + 1
  if n < threshold then (seen.insert key n, none) else (seen.erase key, some key)

/-- The entry a key has after `n` occurrences: the occurrences since its last
completion, and no entry when there are none. -/
def pending (threshold n : Nat) : Option Nat :=
  if n % threshold = 0 then none else some (n % threshold)

/-- The map holds what a sequence of counted keys leaves pending. -/
def Accounts (threshold : Nat) (seen : CountingMap K) (keys : List K) : Prop :=
  ∀ key, seen.lookup key = pending threshold (keys.count key)

theorem pending_getD (threshold n : Nat) : (pending threshold n).getD 0 = n % threshold := by
  unfold pending
  split <;> simp_all

/-- The entry is the remainder, when there is one. -/
theorem pending_eq_some {threshold n stored : Nat} :
    pending threshold n = some stored ↔ stored ≠ 0 ∧ n % threshold = stored := by
  unfold pending
  split
  · simp only [reduceCtorEq, false_iff]
    omega
  · simp only [Option.some.injEq]
    omega

/-- Up to the threshold, the entry is the number of occurrences itself. -/
theorem pending_eq_some_iff {threshold n stored : Nat} (hle : n ≤ threshold) :
    pending threshold n = some stored ↔ n = stored ∧ 0 < stored ∧ stored < threshold := by
  rcases Nat.lt_or_eq_of_le hle with hlt | heq
  · simp only [pending, Nat.mod_eq_of_lt hlt]
    split <;> simp only [reduceCtorEq, Option.some.injEq, false_iff] <;> omega
  · subst heq
    simp only [pending, Nat.mod_self, if_true, reduceCtorEq, false_iff]
    omega

@[simp] theorem pending_zero (threshold : Nat) : pending threshold 0 = none := by
  simp [pending]

theorem accounts_empty (threshold : Nat) : Accounts threshold (∅ : CountingMap K) [] := by
  intro key
  simp

/-- An occurrence below the threshold is stored, one at the threshold removed. -/
theorem pending_succ {threshold : Nat} (hpos : 0 < threshold) (n : Nat) :
    pending threshold (n + 1) =
      if n % threshold + 1 < threshold then some (n % threshold + 1) else none := by
  have hlt := Nat.mod_lt n hpos
  by_cases hroom : n % threshold + 1 < threshold
  · have hmod : (n + 1) % threshold = n % threshold + 1 := by
      rw [Nat.add_mod, Nat.mod_eq_of_lt (show 1 < threshold by omega), Nat.mod_eq_of_lt hroom]
    simp [pending, hroom, hmod]
  · have hmod : (n + 1) % threshold = 0 := by
      have hlast : n % threshold + 1 = threshold := by omega
      rw [← Nat.mod_add_mod, hlast, Nat.mod_self]
    simp [pending, hroom, hmod]

/-- One occurrence completes its key exactly when the threshold divides the
number of occurrences so far. -/
theorem mod_succ_lt_iff {threshold : Nat} (hpos : 0 < threshold) (n : Nat) :
    n % threshold + 1 < threshold ↔ ¬ threshold ∣ n + 1 := by
  have hpending := pending_succ hpos n
  rw [Nat.dvd_iff_mod_eq_zero]
  by_cases hroom : n % threshold + 1 < threshold
  · simp only [hroom, if_true, pending] at hpending ⊢
    split at hpending <;> simp_all
  · simp only [hroom, if_false, pending] at hpending ⊢
    split at hpending <;> simp_all

/-- Counting one key keeps the account of the whole sequence, and reports the
key exactly when its number of occurrences reaches a multiple of the
threshold. -/
theorem Accounts.count {threshold : Nat} (hpos : 0 < threshold) {seen : CountingMap K}
    {keys : List K} (haccounts : Accounts threshold seen keys) (key : K) :
    Accounts threshold (CountingMap.count threshold seen key).1 (keys ++ [key]) ∧
      (CountingMap.count threshold seen key).2 =
        if threshold ∣ (keys ++ [key]).count key then some key else none := by
  have hstored : (seen.lookup key).getD 0 = keys.count key % threshold := by
    rw [haccounts key, pending_getD]
  have hcount : (keys ++ [key]).count key = keys.count key + 1 := by simp
  have hdone := mod_succ_lt_iff hpos (keys.count key)
  simp only [CountingMap.count, hstored, hcount]
  by_cases hroom : keys.count key % threshold + 1 < threshold
  · refine ⟨?_, by simp [hroom, hdone.mp hroom]⟩
    intro other
    by_cases hother : other = key
    · subst hother
      simp [hroom, hcount, pending_succ hpos]
    · simp [hroom, AList.lookup_insert_ne hother, haccounts other, List.count_append,
        Ne.symm hother]
  · have hmultiple : threshold ∣ keys.count key + 1 := by
      by_contra hnot
      exact hroom (hdone.mpr hnot)
    refine ⟨?_, by simp [hroom, hmultiple]⟩
    intro other
    by_cases hother : other = key
    · subst hother
      simp [hroom, hcount, pending_succ hpos]
    · simp [hroom, AList.lookup_erase_ne hother, haccounts other, List.count_append,
        Ne.symm hother]

end CountingMap
