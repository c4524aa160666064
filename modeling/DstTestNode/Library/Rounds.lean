import Mathlib.Algebra.BigOperators.Group.Finset.Basic
import Mathlib.Algebra.BigOperators.Intervals
import Mathlib.Algebra.Order.BigOperators.Group.Finset

/-- In a log of groups and times, an item that is found again is found within
a limit of the last time. -/
def Spaced {α : Type*} (limit : Nat) (log : List (Nat × List α)) : Prop :=
  ∀ (item : α) (a b : Nat) (first second : Nat × List α), a < b →
    log[a]? = some first → log[b]? = some second → item ∈ first.2 → item ∈ second.2 →
    (∀ c, a < c → c < b → ∀ entry : Nat × List α, log[c]? = some entry → item ∉ entry.2) →
    second.1 < first.1 + limit

/-- Disjoint groups that come back in the same order, with what passes between
the start of one and the start of the next. -/
structure Rounds (α : Type*) where
  count : Nat
  group : Nat → List α
  cost : Nat → Nat
  comes_back : ∀ k, group (k + count) = group k
  apart : ∀ a b item, item ∈ group a → item ∈ group b → a % count = b % count

namespace Rounds

variable {α : Type*} (rounds : Rounds α)

/-- When a group starts, after the first one. -/
def offset (k : Nat) : Nat := ∑ j ∈ Finset.range k, rounds.cost j

/-- What passes from the start of a group until it comes back. -/
def window (k : Nat) : Nat := ∑ j ∈ Finset.range rounds.count, rounds.cost (k + j)

/-- The first groups, in order, the first of them at a given time. -/
def log (origin made : Nat) : List (Nat × List α) :=
  (List.range made).map fun k => (origin + rounds.offset k, rounds.group k)

@[simp] theorem offset_zero : rounds.offset 0 = 0 := rfl

theorem offset_succ (k : Nat) : rounds.offset (k + 1) = rounds.offset k + rounds.cost k :=
  Finset.sum_range_succ _ _

theorem offset_window (k : Nat) :
    rounds.offset (k + rounds.count) = rounds.offset k + rounds.window k :=
  Finset.sum_range_add _ _ _

@[simp] theorem log_zero (origin : Nat) : rounds.log origin 0 = [] := rfl

theorem log_succ (origin made : Nat) : rounds.log origin (made + 1) =
    rounds.log origin made ++ [(origin + rounds.offset made, rounds.group made)] := by
  simp [log, List.range_succ]

@[simp] theorem length_log (origin made : Nat) : (rounds.log origin made).length = made := by
  simp [log]

theorem getElem?_log {origin made k : Nat} {entry : Nat × List α} :
    (rounds.log origin made)[k]? = some entry ↔
      k < made ∧ entry = (origin + rounds.offset k, rounds.group k) := by
  rw [log, List.getElem?_map]
  by_cases hk : k < made
  · simp [hk, eq_comm]
  · simp [hk]

/-- An item is in no group between two that come back for each other. -/
theorem add_count_le {a b : Nat} {item : α} (hlt : a < b) (hfirst : item ∈ rounds.group a)
    (hsecond : item ∈ rounds.group b) : a + rounds.count ≤ b := by
  have hmod := rounds.apart b a item hsecond hfirst
  have hdvd := Nat.dvd_of_mod_eq_zero (Nat.sub_mod_eq_zero_of_mod_eq hmod)
  have hsmall := Nat.le_of_dvd (by omega) hdvd
  omega

/-- The items of a log are spaced when every group that has come back is. -/
theorem spaced_log (hcount : 0 < rounds.count) (limit origin made : Nat) :
    Spaced limit (rounds.log origin made) ↔
      ∀ k, k + rounds.count < made → rounds.group k ≠ [] → rounds.window k < limit := by
  constructor
  · intro hspaced k hmade hsome
    obtain ⟨item, hitem⟩ := List.exists_mem_of_ne_nil _ hsome
    have hagain : item ∈ rounds.group (k + rounds.count) := by rwa [rounds.comes_back]
    have hbound := hspaced item k (k + rounds.count) _ _ (by omega)
      (rounds.getElem?_log.mpr ⟨by omega, rfl⟩) (rounds.getElem?_log.mpr ⟨hmade, rfl⟩)
      hitem hagain
    simp only [offset_window] at hbound
    have hlt := hbound fun c hafter hbefore entry hentry hmem => by
      obtain ⟨_, rfl⟩ := rounds.getElem?_log.mp hentry
      have hle := rounds.add_count_le hafter hitem hmem
      omega
    omega
  · intro hwindow item a b first second hlt ha hb hfirst hsecond hbetween
    obtain ⟨hamade, rfl⟩ := rounds.getElem?_log.mp ha
    obtain ⟨hbmade, rfl⟩ := rounds.getElem?_log.mp hb
    have hle := rounds.add_count_le hlt hfirst hsecond
    have hlast : b = a + rounds.count := by
      by_contra hnot
      refine hbetween (a + rounds.count) (by omega) (by omega) _
        (rounds.getElem?_log.mpr ⟨by omega, rfl⟩) ?_
      rwa [rounds.comes_back]
    subst hlast
    have hbound := hwindow a hbmade (List.ne_nil_of_mem hfirst)
    simp only [offset_window]
    omega

end Rounds
