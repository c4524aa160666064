import DstTestNode.Library.Retries
import DstTestNode.Nim.Dial
import DstTestNode.Nim.GossipsubEnv
import DstTestNode.Nim.GossipsubPublish

open nim nim_test_node.gossipsub_queues.env
open nodes (Dialing IpAddr)

namespace nim_test_node.gossipsub_queues.main

/-- The multiaddress of an IP address with the port of its name. -/
def multi_address (muxer port : String) (ip : IpAddr) : String :=
  let host := (if ip.is_ipv4 then "/ip4/" else "/ip6/") ++ ip.text
  if to_lower_ascii muxer = "quic" then host ++ "/udp/" ++ port ++ "/quic-v1"
  else host ++ "/tcp/" ++ port

/-- `resolveAddress` for at most `fuel` lookups. -/
def resolve_address (resolve_t_address : String → Nat → Option (List IpAddr)) (in_shadow : Bool)
    (muxer : String) (fuel : Nat) (t_address : String) : Option (Option (List String)) :=
  (retry (resolve_t_address t_address) (fun _ => in_shadow) fuel 0).map fun found =>
    found.map fun ips => ips.map (multi_address muxer (last_part t_address ':'))

def int_double (n : Int) : Except Defect Int :=
  if n * 2 < int_low ∨ int_high < n * 2 then .error .overflow else .ok (n * 2)

/-- `items[0 ..< length]`. -/
def slice_to {α : Type} (items : List α) (length : Int) : Except Defect (List α) := do
  let last ← int_sub length 1
  if last + 1 < 0 then .error .range
  else if items.length < last + 1 then .error .index
  else .ok (items.take (last + 1).toNat)

/-- The names that `connectGossipsubPeers` resolves. -/
def t_addresses (environment : Environment) (details : PeerDetails)
    (shuffle : List Nat → List Nat) : Except Defect (List String) :=
  if in_shadow environment then do
    let peers := shuffle ((List.range details.network_size.toNat).filter fun it =>
      (it : Int) ≠ details.my_id)
    let doubled ← int_double details.connect_to
    let chosen ← slice_to peers (min doubled peers.length)
    .ok (chosen.map fun it => "pod-" ++ it.repr ++ ":" ++ my_port.repr)
  else .ok [get_env environment "SERVICE" "nimp2p-service" ++ ":" ++ my_port.repr]

/-- `connectGossipsubPeers` up to the last dial. Nothing is returned while a name is
waited for. The target is compared as it is, also when it is negative. -/
def connect_gossipsub_peers (environment : Environment) (details : PeerDetails)
    (resolve_t_address : String → Nat → Option (List IpAddr)) (connect : String → Bool)
    (shuffle : List Nat → List Nat) (shuffle_addrs : List String → List String) (fuel : Nat) :
    Except Defect (Option (Dialing String)) := do
  let t_addresses ← t_addresses environment details shuffle
  match Retries.gather
      (resolve_address resolve_t_address (in_shadow environment) details.muxer fuel)
      t_addresses with
  | none => .ok none
  | some addrs =>
    .ok (some (dial_addrs details.connect_to.toNat connect ⟨0, []⟩ (shuffle_addrs addrs)))

/-- In the simulator a node resolves the names of the first shuffled peers. -/
theorem t_addresses_shadow {environment : Environment} (hshadow : in_shadow environment = true)
    {details : PeerDetails} {my_id network_size connect_to : Nat} (hid : details.my_id = my_id)
    (hsize : details.network_size = network_size) (htarget : details.connect_to = connect_to)
    (hconnect : connect_to < 2 ^ 62) (shuffle : List Nat → List Nat) :
    t_addresses environment details shuffle =
      .ok (((shuffle ((List.range network_size).filter fun it => it ≠ my_id)).take
        (connect_to * 2)).map fun it => "pod-" ++ it.repr ++ ":" ++ my_port.repr) := by
  have hothers : ((List.range (network_size : Int).toNat).filter fun it : Nat =>
      (it : Int) ≠ my_id) =
      (List.range network_size).filter fun it => it ≠ my_id := by
    simp [Int.toNat_natCast]
  have hdouble : int_double connect_to = .ok ((connect_to * 2 : Nat) : Int) := by
    rw [int_double, if_neg (by simp only [int_low, int_high]; omega)]
    push_cast
    rfl
  have hslice (peers : List Nat) : slice_to peers (min (connect_to * 2) peers.length : Nat) =
      .ok (peers.take (connect_to * 2)) := by
    have hsub : int_sub (min (connect_to * 2) peers.length : Nat) 1 =
        .ok ((min (connect_to * 2) peers.length : Nat) - 1) := by
      rw [int_sub, if_neg (by simp only [int_low, int_high]; omega)]
    simp only [slice_to, hsub, bind, Except.bind, Int.sub_add_cancel, Int.toNat_natCast]
    rw [if_neg (by omega), if_neg (by omega)]
    congr 1
    rw [List.take_eq_take_iff]
    omega
  simp only [t_addresses, hshadow, if_true, hid, hsize, htarget, hothers, hdouble, bind, Except.bind,
    ← Nat.cast_min, hslice]

end nim_test_node.gossipsub_queues.main
