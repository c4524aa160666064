import Mathlib.Data.List.Basic

/-- A question that is asked again until it is answered or given up. With its
attempts used up the answer is still waited for. -/
def retry {α : Type*} (ask : Nat → Option α) (gives_up : Nat → Bool) :
    (fuel attempt : Nat) → Option (Option α)
  | 0, _ => none
  | fuel + 1, attempt =>
    match ask attempt with
    | some answer => some (some answer)
    | none => if gives_up attempt then some none else retry ask gives_up fuel (attempt + 1)

namespace Retries

variable {α : Type*} {ask : Nat → Option α} {gives_up : Nat → Bool}

/-- Without answers the question is asked until it is given up. -/
theorem retry_of_gives_up {attempt last : Nat} (hnone : ∀ k, ask k = none)
    (hlast : gives_up last = true) (hle : attempt ≤ last) {fuel : Nat}
    (hfuel : last - attempt < fuel) : retry ask gives_up fuel attempt = some none := by
  induction fuel generalizing attempt with
  | zero => cases hfuel
  | succ fuel ih =>
    simp only [retry, hnone]
    split_ifs with hgives
    · rfl
    · have hne : attempt ≠ last := fun heq => hgives (heq ▸ hlast)
      exact ih (by omega) (by omega)

/-- A question that is never given up and never answered is asked for ever. -/
theorem retry_eq_none (hnone : ∀ k, ask k = none) (hnever : ∀ k, gives_up k = false)
    (fuel attempt : Nat) : retry ask gives_up fuel attempt = none := by
  induction fuel generalizing attempt with
  | zero => rfl
  | succ fuel ih =>
    simp only [retry, hnone, hnever, Bool.false_eq_true, if_false]
    exact ih _

/-- The answers to several questions, one after the other, where some are given up. -/
def gather {Question Answer : Type*} (resolve : Question → Option (Option (List Answer))) :
    List Question → Option (List Answer)
  | [] => some []
  | question :: questions =>
    match resolve question with
    | none => none
    | some found =>
      match gather resolve questions with
      | none => none
      | some rest => some (found.getD [] ++ rest)

variable {Question Answer : Type*} {resolve : Question → Option (Option (List Answer))}

end Retries
