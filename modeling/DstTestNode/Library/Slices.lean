import Mathlib.Algebra.Order.Floor.Div
import Mathlib.Data.List.Basic

/-- The first pieces of a list that is cut in consecutive pieces of one size. -/
def slices {α : Type*} (size count : Nat) (items : List α) : List (List α) :=
  (List.range count).map fun k => (items.drop (size * k)).take size

namespace Slices

variable {α : Type*} (size : Nat)

@[simp] theorem slices_zero (items : List α) : slices size 0 items = [] := rfl

theorem slices_succ (count : Nat) (items : List α) :
    slices size (count + 1) items =
      slices size count items ++ [(items.drop (size * count)).take size] := by
  simp [slices, List.range_succ]

/-- Pieces put together again are a beginning of the list. -/
theorem flatten_slices (count : Nat) (items : List α) :
    (slices size count items).flatten = items.take (size * count) := by
  induction count with
  | zero => simp
  | succ count ih =>
    rw [slices_succ, List.flatten_append, List.flatten_singleton, ih, Nat.mul_succ, List.take_add]

theorem length_le_of_mem {count : Nat} {items : List α} {piece : List α}
    (hpiece : piece ∈ slices size count items) : piece.length ≤ size := by
  obtain ⟨k, _, rfl⟩ := List.mem_map.mp hpiece
  exact List.length_take_le _ _

/-- Fewer pieces are the first of more pieces. -/
theorem slices_begins {few many : Nat} (hle : few ≤ many) (items : List α) :
    slices size few items <+: slices size many items := by
  induction hle with
  | refl => exact List.prefix_refl _
  | step _ ih =>
    rw [slices_succ]
    exact ih.trans (List.prefix_append _ _)

/-- As many pieces as the length asks for, rounded up, are the whole list. -/
theorem flatten_slices_ceil (hsize : 0 < size) (items : List α) :
    (slices size (items.length ⌈/⌉ size) items).flatten = items := by
  rw [flatten_slices]
  exact List.take_of_length_le ((ceilDiv_le_iff_le_mul hsize).mp (le_refl _))

theorem length_piece (items : List α) (k : Nat) :
    ((items.drop (size * k)).take size).length = min size (items.length - size * k) := by
  rw [List.length_take, List.length_drop]

/-- A list without repetition has an item in one piece only. -/
theorem piece_unique {items : List α} (hdistinct : items.Nodup) {j k : Nat} {item : α}
    (hj : item ∈ (items.drop (size * j)).take size)
    (hk : item ∈ (items.drop (size * k)).take size) : j = k := by
  obtain ⟨a, ha, haj⟩ := List.mem_take_iff_getElem.mp hj
  obtain ⟨b, hb, hbk⟩ := List.mem_take_iff_getElem.mp hk
  rw [List.getElem_drop] at haj hbk
  have hsame : size * j + a = size * k + b := hdistinct.getElem_inj_iff.mp (haj.trans hbk.symm)
  have hja : (size * j + a) / size = j := by
    rw [Nat.mul_add_div (by omega), Nat.div_eq_of_lt (by omega), Nat.add_zero]
  have hkb : (size * k + b) / size = k := by
    rw [Nat.mul_add_div (by omega), Nat.div_eq_of_lt (by omega), Nat.add_zero]
  rw [← hja, hsame, hkb]

end Slices
