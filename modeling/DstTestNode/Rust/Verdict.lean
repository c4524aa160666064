import DstTestNode.Rust.Fragments

open rust

namespace rust_test_node.main

/-- The loop reports no error exactly when every fragment was accepted. -/
theorem publish_fragments_error_iff {profile : Profile} {outcome : Outcomes} {buffer : Payload}
    {res value : Int} {remaining chunk : Nat} {publish_error : Option String}
    (hresult : (publish_fragments profile outcome buffer res remaining chunk).2 =
      .ok (value, publish_error)) :
    publish_error = none ↔ outcome.Accepts chunk remaining := by
  induction remaining generalizing buffer res chunk with
  | zero =>
    cases hresult
    simp only [true_iff]
    intro k hlow hhigh
    omega
  | succ remaining ih =>
    simp only [publish_fragments] at hresult
    cases houtcome : outcome chunk with
    | error e =>
      simp only [houtcome] at hresult
      cases hresult
      simp only [reduceCtorEq, false_iff]
      intro haccepts
      obtain ⟨id, hid⟩ := haccepts chunk le_rfl (by omega)
      rw [hid] at houtcome
      cases houtcome
    | ok id =>
      simp only [houtcome] at hresult
      cases hsum : i32_add profile res 1 with
      | error panic =>
        simp only [hsum, reduceCtorEq] at hresult
      | ok sum =>
        simp only [hsum] at hresult
        rw [ih hresult]
        refine ⟨fun haccepts k hlow hhigh => ?_, fun haccepts => haccepts.tail⟩
        by_cases hfirst : k = chunk
        · exact ⟨id, hfirst ▸ houtcome⟩
        · exact haccepts k (by omega) (by omega)

/-- The counter of accepted fragments wraps around like an `i32`. -/
theorem publish_fragments_value {profile : Profile} {outcome : Outcomes} {buffer : Payload}
    {res value : Int} {remaining chunk : Nat}
    (hresult : (publish_fragments profile outcome buffer res remaining chunk).2 =
      .ok (value, none)) (hres : res.bmod (2 ^ 32) = res) :
    value = (res + remaining).bmod (2 ^ 32) := by
  induction remaining generalizing buffer res chunk with
  | zero =>
    cases hresult
    rw [Int.natCast_zero, Int.add_zero, hres]
  | succ remaining ih =>
    simp only [publish_fragments] at hresult
    cases houtcome : outcome chunk with
    | error e =>
      simp only [houtcome] at hresult
      cases hresult
    | ok id =>
      simp only [houtcome] at hresult
      cases hsum : i32_add profile res 1 with
      | error panic =>
        simp only [hsum, reduceCtorEq] at hresult
      | ok sum =>
        simp only [hsum] at hresult
        have hwrap := i32_add_ok hsum
        rw [ih hresult (by rw [hwrap, Int.bmod_bmod]), hwrap, Int.bmod_add_bmod]
        congr 1
        push_cast
        ring

/-- The `i32` counter of a whole message is positive up to its maximum. -/
theorem wrapped_chunks_pos_iff {chunks : UInt32} (hpos : 0 < chunks.toNat) :
    0 < (chunks.toNat : Int).bmod (2 ^ 32) ↔ chunks.toNat ≤ i32_max := by
  have hlt := chunks.toNat_lt
  simp only [Int.bmod, i32_max]
  split <;> omega

/-- A command succeeds exactly when every fragment was accepted and the counter
of accepted fragments stayed positive. -/
theorem publish_new_message_success_iff (self : PublishRun)
    (hpublishable : self.cmd.Publishable self.profile self.outcome) :
    (∃ msg, (publish_new_message self.profile self.cmd self.now self.outcome).response =
      .ok (.ok msg)) ↔ self.Accepted ∧ self.cmd.chunks.toNat ≤ i32_max := by
  obtain ⟨answer, hanswer⟩ := (publish_new_message_answers_iff self.profile self.cmd self.now
    self.outcome).mpr hpublishable
  have hheader := hpublishable.1
  simp only [publish_new_message, new_buffer_eq, if_pos hheader] at hanswer ⊢
  cases hloop : (publish_fragments self.profile self.outcome (header_buffer self.cmd self.now)
    0 self.cmd.chunks.toNat 0).2 with
  | error panic =>
    simp only [hloop, Except.map, reduceCtorEq] at hanswer
  | ok result =>
    obtain ⟨value, publish_error⟩ := result
    have haccepted : publish_error = none ↔ self.Accepted := publish_fragments_error_iff hloop
    simp only [Except.map, Except.ok.injEq, publish_response]
    cases publish_error with
    | some error =>
      simp only [reduceCtorEq, exists_false, false_iff, not_and]
      intro hall
      cases haccepted.mpr hall
    | none =>
      have hvalue := publish_fragments_value hloop (by decide)
      rw [Int.zero_add] at hvalue
      have hpositive := wrapped_chunks_pos_iff hheader.1
      rw [← hvalue] at hpositive
      rw [← hpositive]
      simp only [haccepted.mp rfl, true_and]
      split
      · next hres => simpa using hres
      · next hres => simpa using hres

end rust_test_node.main
