import DstTestNode.Library.Retries
import DstTestNode.Rust.Candidates
import DstTestNode.Rust.Dial

open rust rust_test_node.env
open nodes (Dialing IpAddr)

namespace rust_test_node.main

def formatted_addr (muxer : String) (addr : IpAddr) : String :=
  if muxer = "quic" then "/ip4/" ++ addr.text ++ "/udp/" ++ MY_PORT.repr ++ "/quic-v1"
  else "/ip4/" ++ addr.text ++ "/tcp/" ++ MY_PORT.repr

/-- `resolve_address` for at most `fuel` lookups. -/
def resolve_address (lookup_host : String → Nat → Option (List IpAddr)) (in_shadow : Bool)
    (muxer : String) (fuel : Nat) (t_address : String) : Option (Option (List String)) :=
  (retry (lookup_host t_address) (fun _ => in_shadow) fuel 0).map fun found =>
    found.map fun addrs => (addrs.filter IpAddr.is_ipv4).map (formatted_addr muxer)

/-- `connect_gossipsub_peers` up to the last dial. The two permutations are those
of the random number generator. Nothing is returned while a name is waited for. -/
def connect_gossipsub_peers (profile : Profile) (config : PeerConfig)
    (lookup_host : String → Nat → Option (List IpAddr)) (dial : String → Bool)
    (shuffle : List Nat → List Nat) (shuffle_addrs : List String → List String) (fuel : Nat) :
    Except Panic (Option (Dialing String)) := do
  let t_addresses ← t_addresses profile config shuffle
  match Retries.gather (resolve_address lookup_host config.in_shadow config.muxer fuel)
      t_addresses with
  | none => .ok none
  | some resolved_addrs => do
    let dialing ← dial_addrs profile config.connect_to dial ⟨0, []⟩ (shuffle_addrs resolved_addrs)
    .ok (some dialing)

end rust_test_node.main
