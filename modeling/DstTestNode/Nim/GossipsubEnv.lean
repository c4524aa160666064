import DstTestNode.Nim.Strutils

open nim

namespace nim_test_node.gossipsub_queues.env

def my_port : Nat := 5000

/-- Whether the node runs in the Shadow simulator. -/
def in_shadow (environment : Environment) : Bool :=
  cmp_ignore_case (get_env environment "SHADOWENV" "") "true" = 0

/-- The number of fragments of each message. -/
def chunks (environment : Environment) : Except NimError Int :=
  parse_int (get_env environment "FRAGMENTS" "1")

/-- The tuple that `getPeerDetails` returns. -/
structure PeerDetails where
  my_id : Int
  network_size : Int
  connect_to : Int
  muxer : String
  file_path : String
  address : String
  deriving DecidableEq, Repr

def listen_address (muxer : String) : String :=
  if to_lower_ascii muxer = "quic" then "/ip4/0.0.0.0/udp/" ++ my_port.repr ++ "/quic-v1"
  else "/ip4/0.0.0.0/tcp/" ++ my_port.repr

def get_peer_details (environment : Environment) (hostname : String) :
    Except NimError (Except String PeerDetails) := do
  let ordinal ← parse_int (last_part hostname '-')
  let peer_id_offset ← parse_int (get_env environment "PEER_ID_OFFSET" "0")
  let my_id ← int_add peer_id_offset ordinal
  let network_size ← parse_int (get_env environment "PEERS" "100")
  let connect_to ← parse_int (get_env environment "CONNECTTO" "10")
  let muxer := get_env environment "MUXER" "yamux"
  let file_path := if in_shadow environment then "../" else get_env environment "FILEPATH" "./"
  let address := listen_address muxer
  if to_lower_ascii muxer ∉ ["quic", "yamux", "mplex"] then
    .ok (.error ("Unknown muxer type : " ++ muxer))
  else if network_size ≤ connect_to then
    .ok (.error ("Not enough peers to make target connections. Network size : " ++
      toString network_size))
  else
    .ok (.ok
      { my_id := my_id
        network_size := network_size
        connect_to := connect_to
        muxer := muxer
        file_path := file_path
        address := address })

end nim_test_node.gossipsub_queues.env
