import DstTestNode.Nodes.Dialing

open nodes (Dialing)

namespace go_test_node.main

/-- The dial loop of `connectToPeers`. `id_from_private_key` is the peer ID of
the key that is generated from the peer's name, if there is one. -/
def dial_peers {PeerInfo ID : Type} (connect_to : Nat) (id_from_private_key : PeerInfo → Option ID)
    (connect : ID → PeerInfo → Bool) (self : Dialing PeerInfo) : List PeerInfo → Dialing PeerInfo
  | [] => self
  | peer_info :: peer_infos =>
    if self.connected > connect_to then self
    else match id_from_private_key peer_info with
      | none => dial_peers connect_to id_from_private_key connect self peer_infos
      | some node_id =>
        if connect node_id peer_info then
          dial_peers connect_to id_from_private_key connect
            ⟨self.connected + 1, self.dialed ++ [peer_info]⟩ peer_infos
        else
          dial_peers connect_to id_from_private_key connect
            ⟨self.connected, self.dialed ++ [peer_info]⟩ peer_infos

/-- Once every peer has an ID, the loop makes one attempt more than its target. -/
theorem dial_peers_eq {PeerInfo ID : Type} {id_from_private_key : PeerInfo → Option ID}
    (hid : ∀ peer_info, (id_from_private_key peer_info).isSome = true) (connect_to : Nat)
    (succeeds : PeerInfo → Bool) (self : Dialing PeerInfo) (peer_infos : List PeerInfo) :
    dial_peers connect_to id_from_private_key (fun _ => succeeds) self peer_infos =
      { connected := self.connected +
          (attempts (connect_to + 1) succeeds self.connected peer_infos).countP succeeds
        dialed := self.dialed ++
          attempts (connect_to + 1) succeeds self.connected peer_infos } := by
  induction peer_infos generalizing self with
  | nil => simp [dial_peers, attempts]
  | cons peer_info peer_infos ih =>
    obtain ⟨node_id, hnode_id⟩ := Option.isSome_iff_exists.mp (hid peer_info)
    rw [dial_peers, attempts]
    by_cases hreached : connect_to + 1 ≤ self.connected
    · simp [hreached, Nat.lt_of_succ_le hreached]
    · rw [if_neg (by omega), if_neg hreached]
      by_cases hsucceeds : succeeds peer_info = true
      · simp only [hnode_id, hsucceeds, if_true, ih, List.countP_cons, List.append_assoc,
          List.singleton_append, Nat.add_assoc, Nat.add_comm 1]
      · simp only [hnode_id, hsucceeds, Bool.false_eq_true, if_false, ih, List.countP_cons,
          List.append_assoc, List.singleton_append, Nat.add_zero]

end go_test_node.main
