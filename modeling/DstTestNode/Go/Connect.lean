import DstTestNode.Library.Retries
import DstTestNode.Go.Dial
import DstTestNode.Go.Env
import Mathlib.Data.List.AList

open nodes (Dialing IpAddr)

namespace go_test_node.main

def my_port : Nat := 5000

/-- The environment of a process. -/
abbrev Environment : Type := AList fun _ : String => String

/-- `os.Getenv`, which reads nothing from a variable that is not set. -/
def getenv (environment : Environment) (key : String) : String :=
  (environment.lookup key).getD ""

/-- `strings.ToLower`, on the letters that the values compared with it can have. -/
def to_lower (s : String) : String := String.ofList (s.toList.map Char.toLower)

def in_shadow (environment : Environment) : Bool :=
  to_lower (getenv environment "SHADOWENV") == "true"

def get_env_int (environment : Environment) (key : String) (default_value : Int) : Int :=
  if getenv environment key = "" then default_value
  else (atoi (getenv environment key)).getD default_value

def chunks (environment : Environment) : Int := get_env_int environment "FRAGMENTS" 1

/-- What `getEnvVariables` returns, with the listen address as a text. -/
structure EnvVariables where
  hostname : String
  my_id : Int
  network_size : Int
  connect_to : Int
  d_announce : Int
  muxer : String
  service_name : String
  addr : String
  deriving DecidableEq, Repr

def get_env_variables (environment : Environment) (os_hostname : Except String String) :
    Except HostnamePanic EnvVariables := do
  let (hostname, my_id) ← get_hostname os_hostname
  let service_name := getenv environment "SERVICE"
  let muxer := to_lower (getenv environment "MUXER")
  let tcp := "/ip4/0.0.0.0/tcp/" ++ my_port.repr
  let (muxer, addr) :=
    if to_lower muxer = "yamux" then (muxer, tcp)
    else if to_lower muxer = "quic" then (muxer, "/ip4/0.0.0.0/udp/" ++ my_port.repr ++ "/quic-v1")
    else ("yamux", tcp)
  .ok
    { hostname := hostname
      my_id := my_id
      network_size := get_env_int environment "PEERS" 100
      connect_to := get_env_int environment "CONNECTTO" 10
      d_announce := get_env_int environment "DANNOUNCE" 0
      muxer := muxer
      service_name := if service_name = "" then "nimp2p-service" else service_name
      addr := addr }

structure PeerInfo where
  peer_name : String
  addrs : List String
  deriving DecidableEq, Repr

/-- The multiaddress of an IP address; one that is not of version 4 is malformed. -/
def new_multiaddr (muxer : String) (ip : IpAddr) : Option String :=
  if ip.is_ipv4 then
    if muxer = "quic" then some ("/ip4/" ++ ip.text ++ "/udp/" ++ my_port.repr ++ "/quic-v1")
    else some ("/ip4/" ++ ip.text ++ "/tcp/" ++ my_port.repr)
  else none

/-- The part of a name before its first dot. -/
def first_label (hostname : String) : String :=
  String.ofList (hostname.toList.takeWhile fun c => c ≠ '.')

/-- One iteration of the loop over the addresses of a name. -/
def peer_info (lookup_addr : IpAddr → Option (List String)) (in_shadow : Bool)
    (muxer t_address : String) (ip : IpAddr) : Option PeerInfo := do
  let maddr ← new_multiaddr muxer ip
  if in_shadow then some { peer_name := t_address, addrs := [maddr] }
  else
    let hostnames ← lookup_addr ip
    let hostname ← hostnames.head?
    some { peer_name := first_label hostname, addrs := [maddr] }

def max_retries : Nat := 5

/-- `resolveAddress` for at most `fuel` lookups. In the simulator the first
address is enough. -/
def resolve_address (lookup_ip : String → Nat → Option (List IpAddr))
    (lookup_addr : IpAddr → Option (List String)) (in_shadow : Bool) (muxer : String) (fuel : Nat)
    (t_address : String) : Option (Option (List PeerInfo)) :=
  (retry (lookup_ip t_address) (fun attempt => in_shadow || attempt == max_retries) fuel 1).map
    fun found => found.bind fun ips =>
      let peer_infos := ips.filterMap (peer_info lookup_addr in_shadow muxer t_address)
      let peer_infos := if in_shadow then peer_infos.take 1 else peer_infos
      if peer_infos = [] then none else some peer_infos

/-- The capacity of a slice is checked when it is made. -/
inductive SlicePanic where
  | cap_out_of_range
  deriving DecidableEq, Repr

/-- The names that `connectToPeers` resolves. -/
def t_addresses (in_shadow : Bool) (my_id network_size connect_to : Int) (service : String)
    (shuffle : List Nat → List Nat) : Except SlicePanic (List String) :=
  if in_shadow then
    if network_size - 1 < 0 then .error .cap_out_of_range
    else
      let numbers := shuffle ((List.range network_size.toNat).filter fun i => (i : Int) ≠ my_id)
      let limit := min (Int.bmod (connect_to * 2) (2 ^ 64)) numbers.length
      .ok ((numbers.take limit.toNat).map fun i => "pod-" ++ i.repr)
  else .ok [service]

/-- `connectToPeers`. `id_from_private_key` is the peer ID of the key that is
generated from a name. The target is compared as it is, also when it is negative. -/
def connect_to_peers {ID : Type} (in_shadow : Bool) (details : EnvVariables)
    (lookup_ip : String → Nat → Option (List IpAddr))
    (lookup_addr : IpAddr → Option (List String)) (id_from_private_key : String → Option ID)
    (connect : ID → PeerInfo → Bool) (shuffle : List Nat → List Nat)
    (shuffle_infos : List PeerInfo → List PeerInfo) (fuel : Nat) :
    Except SlicePanic (Option (Dialing PeerInfo)) := do
  let t_addresses ← t_addresses in_shadow details.my_id details.network_size
    details.connect_to details.service_name shuffle
  match Retries.gather (resolve_address lookup_ip lookup_addr in_shadow details.muxer fuel)
      t_addresses with
  | none => .ok none
  | some peer_infos =>
    if details.connect_to < 0 then .ok (some ⟨0, []⟩)
    else .ok (some (dial_peers details.connect_to.toNat
      (fun info => id_from_private_key info.peer_name) connect ⟨0, []⟩
      (shuffle_infos peer_infos)))

/-- In the simulator a node resolves the names of the first shuffled peers. -/
theorem t_addresses_shadow {my_id network_size connect_to : Nat} (hsize : 0 < network_size)
    (hconnect : connect_to < 2 ^ 62) (service : String) (shuffle : List Nat → List Nat) :
    t_addresses true my_id network_size connect_to service shuffle =
      .ok (((shuffle ((List.range network_size).filter fun i => i ≠ my_id)).take
        (connect_to * 2)).map fun i => "pod-" ++ i.repr) := by
  have hdoubled : Int.bmod ((connect_to : Int) * 2) (2 ^ 64) = (connect_to * 2 : Nat) := by
    rw [Int.bmod_eq_of_le_mul_two (by omega) (by omega)]
    push_cast
    rfl
  have hothers : ((List.range (network_size : Int).toNat).filter fun i : Nat => (i : Int) ≠ my_id) =
      (List.range network_size).filter fun i => i ≠ my_id := by
    simp [Int.toNat_natCast]
  have hlimit (numbers : List Nat) :
      numbers.take (min ((connect_to * 2 : Nat) : Int) numbers.length).toNat =
        numbers.take (connect_to * 2) := by
    rw [List.take_eq_take_iff]
    omega
  rw [t_addresses, if_pos rfl, if_neg (by omega), hothers]
  simp only [hdoubled, hlimit]

end go_test_node.main
