import Mathlib.Data.List.Basic
import Mathlib.Order.Basic

/-- The items that are tried in turn until a number of successes is reached,
when some have been reached before. -/
def attempts {α : Type*} (limit : Nat) (succeeds : α → Bool) : Nat → List α → List α
  | _, [] => []
  | reached, item :: items =>
    if limit ≤ reached then []
    else item :: attempts limit succeeds (if succeeds item then reached + 1 else reached) items

/-- No item is tried once a number of successes is reached. -/
def NoneAfter {α : Type*} (limit : Nat) (succeeds : α → Bool) (tried : List α) : Prop :=
  ∀ k, k < tried.length → (tried.take k).countP succeeds < limit

namespace Attempts

variable {α : Type*} {succeeds : α → Bool} {limit : Nat}

theorem attempts_begins (reached : Nat) (items : List α) :
    attempts limit succeeds reached items <+: items := by
  induction items generalizing reached with
  | nil => exact List.nil_prefix
  | cons item items ih =>
    rw [attempts]
    by_cases hreached : limit ≤ reached
    · rw [if_pos hreached]
      exact List.nil_prefix
    · rw [if_neg hreached]
      exact (List.prefix_cons_inj item).mpr (ih _)

/-- As many attempts succeed as there are successes, up to the limit. -/
theorem countP_attempts (reached : Nat) (items : List α) :
    (attempts limit succeeds reached items).countP succeeds =
      min (limit - reached) (items.countP succeeds) := by
  induction items generalizing reached with
  | nil => simp [attempts]
  | cons item items ih =>
    rw [attempts]
    by_cases hreached : limit ≤ reached
    · simp [hreached, Nat.sub_eq_zero_of_le hreached]
    · rw [if_neg hreached, List.countP_cons, List.countP_cons, ih]
      split_ifs <;> omega

/-- The attempts stop as soon as the limit is reached. -/
theorem noneAfter_attempts (reached : Nat) (items : List α) (k : Nat)
    (hk : k < (attempts limit succeeds reached items).length) :
    reached + ((attempts limit succeeds reached items).take k).countP succeeds < limit := by
  induction items generalizing reached k with
  | nil => simp [attempts] at hk
  | cons item items ih =>
    by_cases hreached : limit ≤ reached
    · simp [attempts, hreached] at hk
    · rw [attempts, if_neg hreached] at hk ⊢
      cases k with
      | zero => simpa using hreached
      | succ k =>
        have hrest := ih _ k (Nat.lt_of_succ_lt_succ hk)
        rw [List.take_succ_cons, List.countP_cons]
        split_ifs at hrest ⊢ <;> omega

/-- Without successes to spare before the last item, all items are tried. -/
theorem attempts_eq_self (reached : Nat) {items : List α}
    (hfew : ∀ k, k < items.length → reached + (items.take k).countP succeeds < limit) :
    attempts limit succeeds reached items = items := by
  induction items generalizing reached with
  | nil => rfl
  | cons item items ih =>
    have hreached := hfew 0 (Nat.zero_lt_succ _)
    rw [attempts, if_neg (by simpa using hreached)]
    congr 1
    apply ih
    intro k hk
    have hnext := hfew (k + 1) (Nat.succ_lt_succ hk)
    rw [List.take_succ_cons, List.countP_cons] at hnext
    split_ifs at hnext ⊢ <;> omega

theorem attempts_eq_of_noneAfter {target : Nat} (hle : target ≤ limit) {items : List α}
    (hnone : NoneAfter target succeeds items) : attempts limit succeeds 0 items = items := by
  apply attempts_eq_self
  intro k hk
  have hfew := hnone k hk
  omega

/-- With as many successes allowed as there are items, all items are tried. -/
theorem attempts_eq_of_length_le {items : List α} (hle : items.length ≤ limit) :
    attempts limit succeeds 0 items = items := by
  apply attempts_eq_self
  intro k hk
  have hcount := List.countP_le_length (p := succeeds) (l := items.take k)
  rw [List.length_take] at hcount
  omega

/-- What the attempts find is what there is to find, up to the limit. -/
theorem filterMap_attempts {β : Type*} (find : α → Option β)
    (hsucceeds : ∀ item, succeeds item = (find item).isSome) (reached : Nat) (items : List α) :
    (attempts limit succeeds reached items).filterMap find =
      (items.filterMap find).take (limit - reached) := by
  induction items generalizing reached with
  | nil => simp [attempts]
  | cons item items ih =>
    rw [attempts]
    by_cases hreached : limit ≤ reached
    · rw [if_pos hreached, Nat.sub_eq_zero_of_le hreached, List.take_zero, List.filterMap_nil]
    · rw [if_neg hreached, List.filterMap_cons, List.filterMap_cons, ih, hsucceeds]
      cases find item with
      | none => simp
      | some found =>
        have hroom : limit - reached = limit - (reached + 1) + 1 := by omega
        simp only [Option.isSome_some, if_true]
        rw [hroom, List.take_succ_cons]

/-- Where one success is enough, only the last item that is tried succeeds. -/
theorem pairwise_attempts (items : List α) :
    (attempts 1 succeeds 0 items).Pairwise fun item _ => succeeds item = false := by
  induction items with
  | nil => simp [attempts]
  | cons item items ih =>
    rw [attempts, if_neg (Nat.not_succ_le_zero 0)]
    cases hitem : succeeds item with
    | true =>
      cases items with
      | nil => simp [attempts]
      | cons _ _ => simp [attempts]
    | false =>
      simp only [Bool.false_eq_true, if_false]
      exact List.pairwise_cons.mpr ⟨fun _ _ => hitem, ih⟩

/-- Tries that end with their first win have no win before the last one. -/
theorem countP_take_of_pairwise {tries : List α}
    (hlast : tries.Pairwise fun attempt _ => succeeds attempt = false) {k : Nat}
    (hk : k < tries.length) : (tries.take k).countP succeeds = 0 := by
  induction tries generalizing k with
  | nil => cases hk
  | cons first tries ih =>
    cases k with
    | zero => rfl
    | succ k =>
      obtain ⟨hfirst, hrest⟩ := List.pairwise_cons.mp hlast
      have hk := Nat.lt_of_succ_lt_succ hk
      have hlose := hfirst tries[0] (List.getElem_mem (Nat.zero_lt_of_lt hk))
      rw [List.take_succ_cons, List.countP_cons, ih hrest hk, hlose]
      rfl

theorem countP_of_pairwise {tries : List α}
    (hlast : tries.Pairwise fun attempt _ => succeeds attempt = false) :
    tries.countP succeeds = if tries.any succeeds then 1 else 0 := by
  rcases List.eq_nil_or_concat tries with rfl | ⟨before, last, rfl⟩
  · rfl
  · rw [List.concat_eq_append] at hlast ⊢
    have hbefore := countP_take_of_pairwise hlast (k := before.length) (by simp)
    rw [List.take_left] at hbefore
    have hnone : before.any succeeds = false := by
      rw [List.any_eq_false]
      exact List.countP_eq_zero.mp hbefore
    rw [List.countP_append, hbefore, List.any_append, hnone, List.countP_singleton,
      Nat.zero_add]
    simp

/-- Where every item is tried until it succeeds, no try is made once enough
items have succeeded. -/
theorem noneAfter_flatMap {β : Type*} {tries : α → List β} {wins : β → Bool}
    (hlast : ∀ item, (tries item).Pairwise fun attempt _ => wins attempt = false)
    (hsucceeds : ∀ item, succeeds item = (tries item).any wins) (reached : Nat) (items : List α)
    (k : Nat) (hk : k < ((attempts limit succeeds reached items).flatMap tries).length) :
    reached + (((attempts limit succeeds reached items).flatMap tries).take k).countP wins <
      limit := by
  induction items generalizing reached k with
  | nil => simp [attempts] at hk
  | cons item items ih =>
    by_cases hreached : limit ≤ reached
    · simp [attempts, hreached] at hk
    · rw [attempts, if_neg hreached, List.flatMap_cons] at hk ⊢
      by_cases hinside : k < (tries item).length
      · rw [List.take_append_of_le_length (Nat.le_of_lt hinside), countP_take_of_pairwise (hlast item) hinside]
        omega
      · have hwins := countP_of_pairwise (hlast item)
        rw [← hsucceeds] at hwins
        rw [List.length_append] at hk
        have hrest := ih (if succeeds item then reached + 1 else reached) (k - (tries item).length)
          (by omega)
        rw [List.take_append, List.take_of_length_le (by omega), List.countP_append, hwins]
        split_ifs at hrest ⊢ <;> omega

/-- It is enough to look at the successes before the last item. -/
theorem noneAfter_iff {tried : List α} :
    NoneAfter limit succeeds tried ↔ tried = [] ∨ tried.dropLast.countP succeeds < limit := by
  rw [List.dropLast_eq_take]
  constructor
  · intro hnone
    refine or_iff_not_imp_left.mpr fun hsome => hnone _ ?_
    have hpos := List.length_pos_iff.mpr hsome
    omega
  · rintro (rfl | hfew) k hk
    · cases hk
    · have hle : (tried.take k).Sublist (tried.take (tried.length - 1)) :=
        (List.take_prefix_take_left (by omega)).sublist
      exact Nat.lt_of_le_of_lt hle.countP_le hfew

/-- No more items succeed than were asked for. -/
theorem countP_le_of_noneAfter {tried : List α} (hnone : NoneAfter limit succeeds tried) :
    tried.countP succeeds ≤ limit := by
  rcases noneAfter_iff.mp hnone with rfl | hfew
  · simp
  · by_cases hsome : tried = []
    · simp [hsome]
    · rw [← List.dropLast_append_getLast hsome, List.countP_append]
      have hone := List.countP_le_length (p := succeeds) (l := [tried.getLast hsome])
      simp only [List.length_singleton] at hone
      omega

end Attempts
