import DstTestNode.Go.Connect
import DstTestNode.Nim.Connect
import DstTestNode.Rust.Connect
import DstTestNode.Shadow.Readback
import DstTestNode.Shadow.RequestedNetwork

open shadow.topogen (peer_environment connections shadow_env dict)

namespace nodes

/-- What the generator tells a peer, with the text of the simulator flag. -/
structure PeerVariables (environment : nim.Environment) (flag : String) (network_size : Nat)
    (num_frags : Int) (muxer : String) : Prop where
  shadowenv : environment.lookup "SHADOWENV" = some flag
  peers : environment.lookup "PEERS" = some network_size.repr
  connectto : environment.lookup "CONNECTTO" = some connections.repr
  fragments : environment.lookup "FRAGMENTS" = some num_frags.repr
  muxer : environment.lookup "MUXER" = some muxer
  peer_id_offset : environment.lookup "PEER_ID_OFFSET" = none
  filepath : environment.lookup "FILEPATH" = none
  service : environment.lookup "SERVICE" = none
  dannounce : environment.lookup "DANNOUNCE" = none

theorem peerVariables_peer_environment (network_size : Nat) (num_publishers num_frags : Int)
    (muxer : String) :
    PeerVariables (peer_environment network_size num_publishers num_frags muxer) "1" network_size
      num_frags muxer := by
  have hshadow : shadow_env.repr = "1" := by decide
  constructor <;>
    simp [peer_environment, dict, hshadow, AList.lookup_insert_ne, -AList.insert_empty]

theorem splitOn_pod_name (i : Nat) :
    (shadow.topogen.pod_name i).toList.splitOn '-' = ["pod".toList, i.repr.toList] := by
  have hchars : (shadow.topogen.pod_name i).toList = "pod".toList ++ '-' :: i.repr.toList := by
    simp [shadow.topogen.pod_name]
  rw [hchars, Segments.splitOn_append_last _ (Decimal.notMem_repr rfl i)]
  rfl

theorem parse_unsigned_repr {bits n : Nat} (hn : n < 2 ^ bits) :
    rust_test_node.env.parse_unsigned bits n.repr = some n := by
  have hparsed := (rust_test_node.env.parse_unsigned_eq_some bits
    (Decimal.notMem_repr (c := '+') rfl n) n).mpr ⟨Decimal.numeral_repr n, hn⟩
  rwa [String.ofList_toList] at hparsed

theorem rust_hostname_id {i : Nat} (hi : i < 2 ^ 64) :
    rust_test_node.env.hostname_id (shadow.topogen.pod_name i) = some i := by
  rw [rust_test_node.env.hostname_id, splitOn_pod_name, List.getElem?_cons_succ,
    List.getElem?_cons_zero, Option.bind_some, String.ofList_toList, parse_unsigned_repr hi]

theorem rust_refuses {environment : nim.Environment} {flag : String} {network_size i : Nat}
    {num_frags : Int} (hvariables : PeerVariables environment flag network_size num_frags "mplex")
    (hi : i < 2 ^ 64) : ∃ message, rust_test_node.env.get_peer_details environment
      (shadow.topogen.pod_name i) = some (.error message) := by
  have hunknown : rust_test_node.env.to_lowercase "mplex" ∉ ["quic", "yamux"] := by decide
  simp only [rust_test_node.env.get_peer_details, rust_hostname_id hi, hvariables.muxer,
    Option.getD_some, hunknown, not_false_eq_true, if_true, Option.bind_eq_bind, Option.bind_some]
  exact ⟨_, rfl⟩

theorem atoi_repr {n : Nat} (hn : n < 2 ^ 63) : go_test_node.main.atoi n.repr = some (n : Int) := by
  have hparsed := (go_test_node.main.atoi_eq_some (Decimal.notMem_repr (c := '+') rfl n)
    (Decimal.notMem_repr (c := '-') rfl n)).mpr ⟨Decimal.numeral_repr n, hn⟩
  rwa [String.ofList_toList] at hparsed

section

variable {environment : nim.Environment} {flag muxer : String} {network_size i num_frags : Nat}

/-- The configuration that the Rust node reads. It has no use for `mplex`. -/
def rust_config (flag muxer : String) (network_size num_frags i : Nat) :
    rust_test_node.env.PeerConfig where
  hostname := shadow.topogen.pod_name i
  my_id := i
  network_size := network_size
  connect_to := connections
  chunks := num_frags
  muxer := muxer
  address := rust_test_node.env.listen_address muxer
  service := "nimp2p-service"
  in_shadow := rust_test_node.env.eq_ignore_ascii_case flag "true"

def go_details (muxer : String) (network_size i : Nat) : go_test_node.main.EnvVariables where
  hostname := shadow.topogen.pod_name i
  my_id := i
  network_size := network_size
  connect_to := connections
  d_announce := 0
  muxer := if muxer = "mplex" then "yamux" else muxer
  service_name := "nimp2p-service"
  addr :=
    if muxer = "quic" then "/ip4/0.0.0.0/udp/5000/quic-v1" else "/ip4/0.0.0.0/tcp/5000"

def nim_details (flag muxer : String) (network_size i : Nat) :
    nim_test_node.gossipsub_queues.env.PeerDetails where
  my_id := i
  network_size := network_size
  connect_to := connections
  muxer := muxer
  file_path := if nim.cmp_ignore_case flag "true" = 0 then "../" else "./"
  address := nim_test_node.gossipsub_queues.env.listen_address muxer

variable (hvariables : PeerVariables environment flag network_size num_frags muxer)
  (hi : i < network_size) (hsize : network_size < 2 ^ 63)

include hvariables hi hsize

theorem rust_reads (hlarge : connections < network_size) (hmuxer : muxer ∈ ["yamux", "quic"])
    (hfrags : num_frags < 2 ^ 32) :
    rust_test_node.env.get_peer_details environment (shadow.topogen.pod_name i) =
      some (.ok (rust_config flag muxer network_size num_frags i)) := by
  have hid := rust_hostname_id (show i < 2 ^ 64 by omega)
  have hlower : rust_test_node.env.to_lowercase muxer = muxer := by
    rcases List.mem_pair.mp hmuxer with rfl | rfl <;> rfl
  have hpeers : rust_test_node.env.parse_unsigned 64 network_size.repr = some network_size :=
    parse_unsigned_repr (by omega)
  have hconnections : rust_test_node.env.parse_unsigned 64 connections.repr = some connections :=
    parse_unsigned_repr (by simp only [connections]; omega)
  have hchunks : rust_test_node.env.parse_unsigned 32 (num_frags : Int).repr = some num_frags :=
    parse_unsigned_repr hfrags
  have hknown : muxer ∈ ["quic", "yamux"] := List.mem_pair.mpr (List.mem_pair.mp hmuxer).symm
  simp only [rust_test_node.env.get_peer_details, hid, hvariables.peers, hvariables.connectto,
    hvariables.fragments, hvariables.muxer, hvariables.service, hvariables.shadowenv,
    Option.getD_some, Option.getD_none, hlower, hconnections, hchunks,
    hpeers, hknown, not_true, if_false,
    ge_iff_le, Nat.not_le_of_lt hlarge, Option.bind_eq_bind, Option.bind_some, rust_config]

theorem go_reads (hmuxer : muxer ∈ ["mplex", "yamux", "quic"]) :
    go_test_node.main.get_env_variables environment (.ok (shadow.topogen.pod_name i)) =
      .ok (go_details muxer network_size i) := by
  have hid : go_test_node.main.get_hostname (.ok (shadow.topogen.pod_name i)) =
      .ok (shadow.topogen.pod_name i, (i : Int)) := by
    have hpart : ((shadow.topogen.pod_name i).toList.splitOn '-')[1]? = some i.repr.toList := by
      rw [splitOn_pod_name]
      rfl
    rw [go_test_node.main.get_hostname_eq_ok hpart, String.ofList_toList, atoi_repr (by omega)]
  have hint {key : String} {n : Nat} (default : Int) (hn : n < 2 ^ 63)
      (hkey : environment.lookup key = some n.repr) :
      go_test_node.main.get_env_int environment key default = n := by
    have hne : n.repr ≠ "" := fun hempty => Decimal.repr_ne_nil n (by rw [hempty]; rfl)
    rw [go_test_node.main.get_env_int, go_test_node.main.getenv, hkey, Option.getD_some, if_neg hne,
      atoi_repr hn, Option.getD_some]
  have hconnections := hint 10 (by simp only [connections]; omega) hvariables.connectto
  have hannounce : go_test_node.main.get_env_int environment "DANNOUNCE" 0 = 0 := by
    rw [go_test_node.main.get_env_int, go_test_node.main.getenv, hvariables.dannounce]
    rfl
  simp only [go_test_node.main.get_env_variables, hid, hint 100 hsize hvariables.peers,
    hconnections, hannounce, go_test_node.main.getenv, hvariables.muxer, hvariables.service,
    Option.getD_some, Option.getD_none, bind, Except.bind]
  simp only [List.mem_cons, List.not_mem_nil, or_false] at hmuxer
  rcases hmuxer with rfl | rfl | rfl <;> rfl

theorem nim_reads (hlarge : connections < network_size)
    (hmuxer : muxer ∈ ["mplex", "yamux", "quic"]) :
    nim_test_node.gossipsub_queues.env.get_peer_details environment (shadow.topogen.pod_name i) =
      .ok (.ok (nim_details flag muxer network_size i)) := by
  have hordinal : nim.parse_int (nim.last_part (shadow.topogen.pod_name i) '-') =
      .ok (i : Int) := by
    rw [shadow.topogen.pod_name, nim.last_part_number, nim.parse_int_repr (by omega)]
  have hzero : nim.parse_int "0" = .ok 0 := nim.parse_int_repr (n := 0) (by omega)
  have hconnections : nim.parse_int connections.repr = .ok (connections : Int) :=
    nim.parse_int_repr (by simp only [connections]; omega)
  have hadd : nim.int_add 0 i = .ok (i : Int) := by
    rw [nim.int_add, if_pos (by simp only [nim.int_low, nim.int_high]; omega), zero_add]
  have hconnect : ¬ (network_size : Int) ≤ connections := by omega
  have hlower := shadow.topogen.lower_muxer hmuxer
  simp only [nim_test_node.gossipsub_queues.env.get_peer_details, nim.get_env,
    nim_test_node.gossipsub_queues.env.in_shadow, hvariables.shadowenv, hvariables.peers,
    hvariables.connectto, hvariables.muxer, hvariables.peer_id_offset, hvariables.filepath,
    Option.getD_some, Option.getD_none, hordinal, hzero, hadd, nim.parse_int_repr hsize,
    hconnections, bind, Except.bind, hlower, not_true, if_false, hconnect, decide_eq_true_eq,
    nim_details]

end

end nodes
