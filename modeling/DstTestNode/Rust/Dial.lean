import DstTestNode.Nodes.Dialing
import DstTestNode.Rust.Checked

open rust
open nodes (Dialing)

namespace rust_test_node.main

/-- The dial loop of `connect_gossipsub_peers`. -/
def dial_addrs {Addr : Type} (profile : Profile) (connect_to : Nat) (dial : Addr → Bool)
    (self : Dialing Addr) : List Addr → Except Panic (Dialing Addr)
  | [] => .ok self
  | addr :: resolved_addrs =>
    if self.connected > connect_to % 2 ^ 32 then .ok self
    else if dial addr then do
      let connected ← u32_add profile self.connected 1
      dial_addrs profile connect_to dial ⟨connected, self.dialed ++ [addr]⟩ resolved_addrs
    else
      dial_addrs profile connect_to dial ⟨self.connected, self.dialed ++ [addr]⟩ resolved_addrs

/-- What `connect_gossipsub_peers` returns after its loops. -/
def connect_result {Addr : Type} (dialing : Dialing Addr) : Except String Nat :=
  if dialing.connected = 0 then .error "Failed to connect any peers" else .ok dialing.connected

section

variable {Addr : Type} {profile : Profile} {connect_to : Nat} {dial : Addr → Bool}

/-- As long as the counter does not overflow, the loop makes one attempt more
than its target. -/
theorem dial_addrs_eq (hconnect : connect_to < 2 ^ 32) (self : Dialing Addr)
    (resolved_addrs : List Addr) (hfits : self.connected + resolved_addrs.countP dial < 2 ^ 32) :
    dial_addrs profile connect_to dial self resolved_addrs =
      .ok
        { connected := self.connected +
            (attempts (connect_to + 1) dial self.connected resolved_addrs).countP dial
          dialed := self.dialed ++ attempts (connect_to + 1) dial self.connected resolved_addrs } := by
  have htarget : connect_to % 2 ^ 32 = connect_to := Nat.mod_eq_of_lt hconnect
  induction resolved_addrs generalizing self with
  | nil => simp [dial_addrs, attempts]
  | cons addr resolved_addrs ih =>
    rw [List.countP_cons] at hfits
    rw [dial_addrs, htarget, attempts]
    by_cases hreached : connect_to + 1 ≤ self.connected
    · simp [hreached, Nat.lt_of_succ_le hreached]
    · rw [if_neg (by omega), if_neg hreached]
      by_cases hdial : dial addr = true
      · rw [if_pos hdial] at hfits
        have hrest := ih ⟨self.connected + 1, self.dialed ++ [addr]⟩ (by simp only; omega)
        simp only [if_pos hdial, u32_add_of_lt profile (show self.connected + 1 < 2 ^ 32 by omega),
          bind, Except.bind, hrest, List.countP_cons, List.append_assoc, List.singleton_append,
          Nat.add_assoc, Nat.add_comm 1]
      · rw [if_neg hdial] at hfits
        have hrest := ih ⟨self.connected, self.dialed ++ [addr]⟩ hfits
        simp only [hdial, Bool.false_eq_true, if_false, hrest, List.countP_cons, List.append_assoc,
          List.singleton_append, Nat.add_zero]

/-- The node gives up only when no candidate can be reached. -/
theorem connect_result_dial_addrs (profile : Profile) (hconnect : connect_to < 2 ^ 32)
    {resolved_addrs : List Addr} (hfits : resolved_addrs.countP dial < 2 ^ 32) :
    (dial_addrs profile connect_to dial ⟨0, []⟩ resolved_addrs).map connect_result =
      .ok (if resolved_addrs.countP dial = 0 then .error "Failed to connect any peers"
        else .ok (min (connect_to + 1) (resolved_addrs.countP dial))) := by
  rw [dial_addrs_eq hconnect _ _ (by simpa using hfits), Except.map, connect_result,
    Attempts.countP_attempts]
  simp only [Nat.zero_add, Nat.sub_zero]
  by_cases hnone : resolved_addrs.countP dial = 0
  · rw [if_pos hnone, if_pos (by omega)]
  · rw [if_neg hnone, if_neg (by omega)]

/-- However the counter overflows, the loop dials all candidates unless more of
them have succeeded than were asked for. -/
theorem dial_addrs_dialed {resolved_addrs : List Addr} {self dialing : Dialing Addr}
    (hrun : dial_addrs profile connect_to dial self resolved_addrs = .ok dialing) :
    ∃ tried, tried <+: resolved_addrs ∧ dialing.dialed = self.dialed ++ tried ∧
      dialing.connected ≤ self.connected + tried.countP dial ∧
      (tried = resolved_addrs ∨ connect_to % 2 ^ 32 < dialing.connected) := by
  induction resolved_addrs generalizing self with
  | nil =>
    cases hrun
    exact ⟨[], List.prefix_refl _, by simp⟩
  | cons addr resolved_addrs ih =>
    rw [dial_addrs] at hrun
    split_ifs at hrun with hreached hdial
    · cases hrun
      exact ⟨[], List.nil_prefix, by simp, by simp, .inr hreached⟩
    · cases hadd : u32_add profile self.connected 1 with
      | error panic =>
        rw [hadd] at hrun
        cases hrun
      | ok connected =>
        rw [hadd] at hrun
        have hle := u32_add_le hadd
        obtain ⟨tried, hbegins, hdialed, hconnected, hends⟩ := ih hrun
        refine ⟨addr :: tried, (List.prefix_cons_inj addr).mpr hbegins, by simp [hdialed], ?_, ?_⟩
        · rw [List.countP_cons_of_pos hdial]
          simp only at hconnected
          omega
        · exact hends.imp_left (congrArg (addr :: ·))
    · obtain ⟨tried, hbegins, hdialed, hconnected, hends⟩ := ih hrun
      refine ⟨addr :: tried, (List.prefix_cons_inj addr).mpr hbegins, by simp [hdialed], ?_, ?_⟩
      · rw [List.countP_cons_of_neg hdial]
        exact hconnected
      · exact hends.imp_left (congrArg (addr :: ·))

/-- Every candidate is dialed when the target is not reached before the last. -/
theorem dial_addrs_all (profile : Profile) (hconnect : connect_to < 2 ^ 32) {candidates : List Addr}
    (hnone : NoneAfter connect_to dial candidates) :
    dial_addrs profile connect_to dial ⟨0, []⟩ candidates =
      .ok ⟨candidates.countP dial, candidates⟩ := by
  have hle := Attempts.countP_le_of_noneAfter hnone
  rw [dial_addrs_eq hconnect ⟨0, []⟩ candidates (by simp only; omega),
    Attempts.attempts_eq_of_noneAfter (Nat.le_succ connect_to) hnone]
  simp

/-- The loop stops at its target only when that is not reached before the last
candidate. -/
theorem noneAfter_of_dial_addrs (hconnect : connect_to < 2 ^ 32) {candidates : List Addr}
    {dialing : Dialing Addr}
    (hrun : dial_addrs profile connect_to dial ⟨0, []⟩ candidates = .ok dialing)
    (hstops : NoneAfter connect_to dial dialing.dialed) : NoneAfter connect_to dial candidates := by
  obtain ⟨tried, -, hdialed, hconnected, hends⟩ := dial_addrs_dialed hrun
  rw [List.nil_append] at hdialed
  rw [hdialed] at hstops
  rcases hends with rfl | hmore
  · exact hstops
  · have hle := Attempts.countP_le_of_noneAfter hstops
    rw [Nat.mod_eq_of_lt hconnect] at hmore
    simp only at hconnected
    omega

end

end rust_test_node.main
