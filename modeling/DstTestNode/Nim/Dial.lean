import DstTestNode.Nodes.Dialing

open nodes (Dialing)

namespace nim_test_node.gossipsub_queues.main

/-- The dial loop of `connectGossipsubPeers`. -/
def dial_addrs {Addr : Type} (connect_to : Nat) (connect : Addr → Bool) (self : Dialing Addr) :
    List Addr → Dialing Addr
  | [] => self
  | peer :: addrs =>
    if self.connected ≥ connect_to then self
    else if connect peer then
      dial_addrs connect_to connect ⟨self.connected + 1, self.dialed ++ [peer]⟩ addrs
    else dial_addrs connect_to connect ⟨self.connected, self.dialed ++ [peer]⟩ addrs

/-- What `connectGossipsubPeers` returns after its loops. -/
def connect_result {Addr : Type} (dialing : Dialing Addr) : Except String Nat :=
  if dialing.connected = 0 then .error "Failed to connect any peer" else .ok dialing.connected

theorem dial_addrs_eq {Addr : Type} (connect_to : Nat) (connect : Addr → Bool)
    (self : Dialing Addr) (addrs : List Addr) :
    dial_addrs connect_to connect self addrs =
      { connected := self.connected +
          (attempts connect_to connect self.connected addrs).countP connect
        dialed := self.dialed ++ attempts connect_to connect self.connected addrs } := by
  induction addrs generalizing self with
  | nil => simp [dial_addrs, attempts]
  | cons peer addrs ih =>
    rw [dial_addrs, attempts]
    by_cases hreached : connect_to ≤ self.connected
    · simp [hreached]
    · rw [if_neg hreached, if_neg hreached]
      by_cases hconnect : connect peer = true
      · simp only [hconnect, if_true, ih, List.countP_cons, List.append_assoc,
          List.singleton_append, Nat.add_assoc, Nat.add_comm 1]
      · simp only [hconnect, Bool.false_eq_true, if_false, ih, List.countP_cons, List.append_assoc,
          List.singleton_append, Nat.add_zero]

/-- The node gives up when no candidate can be reached, and always when its
target is zero. -/
theorem connect_result_dial_addrs {Addr : Type} (connect_to : Nat) (connect : Addr → Bool)
    (addrs : List Addr) :
    connect_result (dial_addrs connect_to connect ⟨0, []⟩ addrs) =
      if connect_to = 0 ∨ addrs.countP connect = 0 then .error "Failed to connect any peer"
      else .ok (min connect_to (addrs.countP connect)) := by
  rw [dial_addrs_eq, connect_result, Attempts.countP_attempts]
  simp only [Nat.zero_add, Nat.sub_zero]
  by_cases hnone : connect_to = 0 ∨ addrs.countP connect = 0
  · rw [if_pos hnone, if_pos (by omega)]
  · rw [if_neg hnone, if_neg (by omega)]

end nim_test_node.gossipsub_queues.main
