import Mathlib.Algebra.Ring.Nat
import Mathlib.Data.List.Basic

/-- What a call comes to: how long it takes, and what it gives. -/
structure Call (ε α : Type*) where
  time : Nat
  result : Except ε α

/-- A call that is given up after some time. Giving up is assumed to take effect at
once: what is given up ends at its timeout. -/
def Call.wait {ε α : Type*} (timeout : Nat) (error : ε) (call : Call ε α) : Call ε α :=
  if call.time ≤ timeout then call else ⟨timeout, .error error⟩

theorem Call.wait_time_le {ε α : Type*} (timeout : Nat) (error : ε) (call : Call ε α) :
    (call.wait timeout error).time ≤ timeout := by
  rw [Call.wait]
  split_ifs with hle
  · exact hle
  · exact Nat.le_refl timeout

def Call.map {ε α β : Type*} (f : α → β) (call : Call ε α) : Call ε β :=
  ⟨call.time, call.result.map f⟩

/-- A call that is made until it succeeds, with a pause after each failure: when it is
over, and what it gave. -/
def backoff {ε α : Type*} (call : Nat → Call ε α) (now : Nat) : List Nat → Nat × Option α
  | [] => (now, none)
  | pause :: pauses =>
    match (call now).result with
    | .ok answer => (now + (call now).time, some answer)
    | .error _ => backoff call (now + (call now).time + pause) pauses

namespace Backoff

variable {ε α : Type*} {call : Nat → Call ε α} {limit : Nat}

theorem le_backoff (now : Nat) (pauses : List Nat) : now ≤ (backoff call now pauses).1 := by
  induction pauses generalizing now with
  | nil => exact Nat.le_refl now
  | cons pause pauses ih =>
    rw [backoff]
    split
    · exact Nat.le_add_right _ _
    · exact Nat.le_trans (by omega) (ih _)

/-- All calls and all pauses together. -/
theorem backoff_le (hlimit : ∀ t, (call t).time ≤ limit) (now : Nat) (pauses : List Nat) :
    (backoff call now pauses).1 ≤ now + pauses.length * limit + pauses.sum := by
  induction pauses generalizing now with
  | nil => simp [backoff]
  | cons pause pauses ih =>
    have htime := hlimit now
    rw [backoff, List.length_cons, List.sum_cons, Nat.succ_mul]
    split
    · dsimp only
      omega
    · have hrest := ih (now + (call now).time + pause)
      omega

/-- An answer is the one of a call, which is the last. -/
theorem backoff_eq_some {now : Nat} {pauses : List Nat} {answer : α}
    (hanswer : (backoff call now pauses).2 = some answer) :
    ∃ begun, now ≤ begun ∧ (call begun).result = .ok answer ∧
      (backoff call now pauses).1 = begun + (call begun).time := by
  induction pauses generalizing now with
  | nil => cases hanswer
  | cons pause pauses ih =>
    rw [backoff] at hanswer ⊢
    cases hresult : (call now).result with
    | ok first =>
      simp only [hresult, Option.some.injEq] at hanswer
      exact ⟨now, Nat.le_refl now, hanswer ▸ hresult, rfl⟩
    | error error =>
      simp only [hresult] at hanswer
      obtain ⟨begun, hbegun, hcall, hend⟩ := ih hanswer
      exact ⟨begun, by omega, hcall, hend⟩

/-- A call that succeeds from some time on is made at that time or later, if the pauses
between the calls reach that far. -/
theorem exists_answer {up : Nat} (hup : ∀ t, up ≤ t → ∃ answer, (call t).result = .ok answer)
    {now : Nat} {pauses : List Nat} (hpauses : pauses ≠ [])
    (hreach : up ≤ now + pauses.dropLast.sum) :
    ∃ answer, (backoff call now pauses).2 = some answer := by
  induction pauses generalizing now with
  | nil => exact absurd rfl hpauses
  | cons pause pauses ih =>
    rw [backoff]
    cases hresult : (call now).result with
    | ok answer => exact ⟨answer, rfl⟩
    | error error =>
      have hlater : now < up := by
        by_contra hnot
        obtain ⟨answer, hanswer⟩ := hup now (by omega)
        rw [hresult] at hanswer
        cases hanswer
      cases pauses with
      | nil =>
        rw [List.dropLast_singleton, List.sum_nil] at hreach
        omega
      | cons next pauses =>
        apply ih (List.cons_ne_nil _ _)
        rw [List.dropLast_cons_cons, List.sum_cons] at hreach
        omega

/-- Without an answer every pause has been made. -/
theorem le_of_no_answer {now : Nat} {pauses : List Nat}
    (hnone : (backoff call now pauses).2 = none) :
    now + pauses.sum ≤ (backoff call now pauses).1 := by
  induction pauses generalizing now with
  | nil => simp [backoff]
  | cons pause pauses ih =>
    rw [backoff] at hnone ⊢
    cases hresult : (call now).result with
    | ok answer => simp [hresult] at hnone
    | error error =>
      simp only [hresult] at hnone
      have hrest := ih hnone
      rw [List.sum_cons]
      dsimp only
      omega

/-- Some time after it can succeed, the call has. -/
theorem backoff_le_of_up {up longest : Nat}
    (hup : ∀ t, up ≤ t → ∃ answer, (call t).result = .ok answer)
    (hlimit : ∀ t, (call t).time ≤ limit) (now : Nat) {pauses : List Nat}
    (hlongest : ∀ pause ∈ pauses, pause ≤ longest) :
    (backoff call now pauses).1 ≤ max now (up + limit + longest) + limit := by
  induction pauses generalizing now with
  | nil =>
    rw [backoff]
    omega
  | cons pause pauses ih =>
    have htime := hlimit now
    obtain ⟨hpause, hpauses⟩ := List.forall_mem_cons.mp hlongest
    rw [backoff]
    cases hresult : (call now).result with
    | ok answer =>
      dsimp only
      omega
    | error error =>
      have hlater : now < up := by
        by_contra hnot
        obtain ⟨answer, hanswer⟩ := hup now (by omega)
        rw [hresult] at hanswer
        cases hanswer
      have hrest := ih (now + (call now).time + pause) hpauses
      dsimp only
      omega

/-- A call that fails up to some time, and always gives the same answer from then on,
gives it soon. -/
theorem backoff_of_up {up longest : Nat} {answer : α} (hlimit : ∀ t, (call t).time ≤ limit)
    (hbefore : ∀ t, t < up → ∃ error, (call t).result = .error error)
    (hup : ∀ t, up ≤ t → (call t).result = .ok answer) {now : Nat} {pauses : List Nat}
    (hpauses : pauses ≠ []) (hreach : up ≤ now + pauses.dropLast.sum)
    (hlongest : ∀ pause ∈ pauses, pause ≤ longest) :
    ∃ ended, backoff call now pauses = (ended, some answer) ∧ max now up ≤ ended ∧
      ended ≤ max now (up + limit + longest) + limit := by
  have hanswers : ∀ t, up ≤ t → ∃ answer, (call t).result = .ok answer :=
    fun t ht => ⟨answer, hup t ht⟩
  obtain ⟨found, hfound⟩ := exists_answer hanswers hpauses hreach
  obtain ⟨begun, hbegun, hresult, hend⟩ := backoff_eq_some hfound
  have hlater : up ≤ begun := by
    by_contra hnot
    obtain ⟨error, herror⟩ := hbefore begun (by omega)
    rw [hresult] at herror
    cases herror
  rw [hup begun hlater, Except.ok.injEq] at hresult
  refine ⟨(backoff call now pauses).1, Prod.ext rfl (hresult ▸ hfound), by omega, ?_⟩
  exact backoff_le_of_up hanswers hlimit now hlongest

/-- Items that are called one after the other, each until it succeeds, and until enough
of them have. -/
def each {Item : Type*} (call : Item → Nat → Call ε α) (pauses : List Nat) (enough now : Nat) :
    List Item → Nat × List (Item × α)
  | [] => (now, [])
  | item :: items =>
    if enough = 0 then (now, [])
    else
      match backoff (call item) now pauses with
      | (ended, none) => each call pauses enough ended items
      | (ended, some answer) =>
        let rest := each call pauses (enough - 1) ended items
        (rest.1, (item, answer) :: rest.2)

variable {Item : Type*} {calls : Item → Nat → Call ε α} {pauses : List Nat}

theorem le_each (enough now : Nat) (items : List Item) :
    now ≤ (each calls pauses enough now items).1 := by
  induction items generalizing enough now with
  | nil => exact Nat.le_refl now
  | cons item items ih =>
    have hle : now ≤ (backoff (calls item) now pauses).1 := le_backoff now pauses
    rw [each]
    split_ifs
    · exact Nat.le_refl now
    · split
      · next hended =>
        rw [hended] at hle
        exact Nat.le_trans hle (ih _ _)
      · next hended =>
        rw [hended] at hle
        exact Nat.le_trans hle (ih _ _)

/-- All calls and all pauses of all items together. -/
theorem each_le (hlimit : ∀ item t, (calls item t).time ≤ limit) (enough now : Nat)
    (items : List Item) : (each calls pauses enough now items).1 ≤
      now + items.length * (pauses.length * limit + pauses.sum) := by
  induction items generalizing enough now with
  | nil => simp [each]
  | cons item items ih =>
    have hle := backoff_le (hlimit item) now pauses
    rw [each, List.length_cons, Nat.succ_mul]
    split_ifs
    · dsimp only
      omega
    · split
      · next ended hended =>
        have hrest := ih enough ended
        rw [hended] at hle
        dsimp only at hle
        omega
      · next ended answer hended =>
        have hrest := ih (enough - 1) ended
        rw [hended] at hle
        dsimp only at hle ⊢
        omega

/-- Items that can be called from some time on are found in their order, and not long
after that time. -/
theorem each_of_up {up longest : Nat} {items : List Item}
    (hup : ∀ item ∈ items, ∀ t, up ≤ t → ∃ answer, (calls item t).result = .ok answer)
    (hlimit : ∀ item t, (calls item t).time ≤ limit) (hpauses : pauses ≠ [])
    (hlongest : ∀ pause ∈ pauses, pause ≤ longest) {now : Nat}
    (hreach : up ≤ now + pauses.dropLast.sum) (enough : Nat) :
    (each calls pauses enough now items).2.map Prod.fst = items.take enough ∧
      (each calls pauses enough now items).1 ≤
        max now (up + limit + longest) + (items.take enough).length * limit := by
  induction items generalizing enough now with
  | nil =>
    exact ⟨by simp [each], Nat.le_trans (Nat.le_max_left _ _) (Nat.le_add_right _ _)⟩
  | cons item items ih =>
    obtain ⟨hitem, hitems⟩ := List.forall_mem_cons.mp hup
    rw [each]
    cases enough with
    | zero =>
      rw [if_pos rfl]
      exact ⟨by simp, Nat.le_trans (Nat.le_max_left _ _) (Nat.le_add_right _ _)⟩
    | succ enough =>
      obtain ⟨answer, hanswer⟩ := exists_answer hitem hpauses hreach
      have hle := backoff_le_of_up hitem (hlimit item) now hlongest
      have hafter : now ≤ (backoff (calls item) now pauses).1 := le_backoff now pauses
      rw [if_neg (Nat.succ_ne_zero enough)]
      split
      · next hended =>
        rw [hended] at hanswer
        cases hanswer
      · next ended found hended =>
        rw [hended] at hle hafter
        dsimp only at hle hafter
        have hreached : up ≤ ended + pauses.dropLast.sum := by omega
        obtain ⟨hfound, hend⟩ := ih hitems hreached enough
        rw [Nat.add_sub_cancel, List.map_cons, hfound, List.take_succ_cons, List.length_cons,
          Nat.succ_mul]
        exact ⟨rfl, by dsimp only; omega⟩

/-- What is found is found for the items, in their order. -/
theorem each_sublist (enough now : Nat) (items : List Item) :
    ((each calls pauses enough now items).2.map Prod.fst).Sublist items := by
  induction items generalizing enough now with
  | nil => exact List.Sublist.refl []
  | cons item items ih =>
    rw [each]
    split_ifs
    · exact List.nil_sublist _
    · split
      · exact (ih _ _).cons _
      · exact (ih _ _).cons_cons _

theorem length_each_le (enough now : Nat) (items : List Item) :
    (each calls pauses enough now items).2.length ≤ enough := by
  induction items generalizing enough now with
  | nil => exact Nat.zero_le enough
  | cons item items ih =>
    rw [each]
    split_ifs with henough
    · exact Nat.zero_le enough
    · split
      · exact ih _ _
      · next ended answer _ =>
        have hrest := ih (enough - 1) ended
        rw [List.length_cons]
        omega

/-- If nothing is found, every pause has been made for every item. -/
theorem le_of_each_eq_nil {enough now : Nat} {items : List Item}
    (henough : items ≠ [] → enough ≠ 0)
    (hnone : (each calls pauses enough now items).2 = []) :
    now + items.length * pauses.sum ≤ (each calls pauses enough now items).1 := by
  induction items generalizing now with
  | nil => simp [each]
  | cons item items ih =>
    have hmore := henough (List.cons_ne_nil item items)
    rw [each, if_neg hmore] at hnone ⊢
    cases hended : backoff (calls item) now pauses with
    | mk ended found =>
      cases found with
      | some answer => simp [hended] at hnone
      | none =>
        simp only [hended] at hnone ⊢
        have hall := le_of_no_answer (congrArg Prod.snd hended)
        have hrest := ih (fun _ => hmore) hnone
        rw [hended] at hall
        rw [List.length_cons, Nat.succ_mul]
        omega

/-- What is found is the answer of a call to an item. -/
theorem mem_each {item : Item} {answer : α} {enough now : Nat} {items : List Item}
    (hmem : (item, answer) ∈ (each calls pauses enough now items).2) : item ∈ items ∧
      ∃ begun, now ≤ begun ∧ begun ≤ (each calls pauses enough now items).1 ∧
        (calls item begun).result = .ok answer := by
  induction items generalizing enough now with
  | nil => cases hmem
  | cons first items ih =>
    have hle : now ≤ (backoff (calls first) now pauses).1 := le_backoff now pauses
    rw [each] at hmem ⊢
    split_ifs at hmem ⊢ with henough
    · cases hmem
    · cases hended : backoff (calls first) now pauses with
      | mk ended found =>
        rw [hended] at hle
        cases found with
        | none =>
          simp only [hended] at hmem ⊢
          obtain ⟨hitem, begun, hfrom, hto, hresult⟩ := ih hmem
          exact ⟨List.mem_cons_of_mem _ hitem, begun, Nat.le_trans hle hfrom, hto, hresult⟩
        | some found =>
          simp only [hended, List.mem_cons, Prod.mk.injEq] at hmem ⊢
          rcases hmem with ⟨rfl, rfl⟩ | hmem
          · obtain ⟨begun, hfrom, hresult, hend⟩ := backoff_eq_some (congrArg Prod.snd hended)
            rw [hended] at hend
            have hrest : ended ≤ (each calls pauses (enough - 1) ended items).1 :=
              le_each (enough - 1) ended items
            exact ⟨.inl rfl, begun, hfrom, by dsimp only at hend; omega, hresult⟩
          · obtain ⟨hitem, begun, hfrom, hto, hresult⟩ := ih hmem
            exact ⟨.inr hitem, begun, Nat.le_trans hle hfrom, hto, hresult⟩

end Backoff
