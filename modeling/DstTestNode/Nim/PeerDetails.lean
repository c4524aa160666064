import DstTestNode.Nim.Strutils

open nim

namespace nim_test_node

/-- The number at the end of a hostname, or zero: `parseInt` raises nothing but
`ValueError`. -/
def hostname_id (hostname : String) : Int :=
  match parse_int (last_part hostname '-') with
  | .ok my_id => my_id
  | .error _ => 0

end nim_test_node

namespace nim_test_node.kad_dht.env

inductive NodeType where
  | role_bootstrap
  | role_normal
  | role_probe
  deriving DecidableEq, Repr

def NodeType.names : List (String × NodeType) :=
  [("RoleBootstrap", .role_bootstrap), ("RoleNormal", .role_normal), ("RoleProbe", .role_probe)]

/-- The tuple that `getPeerDetails` returns. -/
structure PeerDetails where
  my_id : Int
  muxer : String
  address : String
  node_role : NodeType
  discovery : String
  deriving DecidableEq, Repr

/-- `getPeerDetails` of a node that listens on `my_port`. -/
def get_peer_details (my_port : UInt16) (environment : Environment) (hostname : String) :
    Except NimError (Except String PeerDetails) := do
  let my_id := hostname_id hostname
  let muxer := get_env environment "MUXER" "yamux"
  let address :=
    if to_lower_ascii muxer = "quic" then "/ip4/0.0.0.0/udp/" ++ toString my_port ++ "/quic-v1"
    else "/ip4/0.0.0.0/tcp/" ++ toString my_port
  let node_role ← parse_enum NodeType.names (get_env environment "NODE_ROLE" "RoleBootstrap")
  let discovery := get_env environment "DISCOVERY" "kad-dht"
  if to_lower_ascii muxer ∉ ["quic", "yamux", "mplex"] then
    return .error ("Unknown muxer type : " ++ muxer)
  else
    return .ok
      { my_id := my_id
        muxer := muxer
        address := address
        node_role := node_role
        discovery := discovery }

/-- The number of the hostname is the id, and only the role can be refused by
an exception. -/
theorem get_peer_details_yields (my_port : UInt16) {environment : Environment} {role : NodeType}
    (hrole : parse_enum NodeType.names (get_env environment "NODE_ROLE" "RoleBootstrap") = .ok role)
    (hostname : String) : ∃ result, get_peer_details my_port environment hostname = .ok result ∧
      ∀ details, result = .ok details → details.my_id = hostname_id hostname := by
  simp only [get_peer_details, hrole, bind, Except.bind, pure, Except.pure]
  split
  · exact ⟨_, rfl, by simp⟩
  · refine ⟨_, rfl, fun details hdetails => ?_⟩
    cases hdetails
    rfl

end nim_test_node.kad_dht.env

namespace nim_test_node.regression.env

def my_port : Nat := 5000

def in_shadow (environment : Environment) : Bool :=
  cmp_ignore_case (get_env environment "SHADOWENV" "") "true" = 0

/-- The tuple that `getPeerDetails` returns. -/
structure PeerDetails where
  my_id : Int
  muxer : String
  file_path : String
  address : String
  deriving DecidableEq, Repr

/-- `getPeerDetails` with what `listenHost` gives. -/
def get_peer_details (listen_ip : String) (environment : Environment) (hostname : String) :
    Except String PeerDetails :=
  let my_id := hostname_id hostname
  let muxer := get_env environment "MUXER" "yamux"
  let file_path := if in_shadow environment then "../" else get_env environment "FILEPATH" "./"
  let address :=
    if to_lower_ascii muxer = "quic" then
      "/ip4/" ++ listen_ip ++ "/udp/" ++ my_port.repr ++ "/quic-v1"
    else "/ip4/" ++ listen_ip ++ "/tcp/" ++ my_port.repr
  if to_lower_ascii muxer ∉ ["quic", "yamux", "mplex"] then
    .error ("Unknown muxer type : " ++ muxer)
  else
    .ok
      { my_id := my_id
        muxer := muxer
        file_path := file_path
        address := address }

theorem get_peer_details_yields {listen_ip : String} {environment : Environment}
    {hostname : String} {details : PeerDetails}
    (hdetails : get_peer_details listen_ip environment hostname = .ok details) :
    details.my_id = hostname_id hostname := by
  rw [get_peer_details] at hdetails
  split at hdetails
  · cases hdetails
  · cases hdetails
    rfl

end nim_test_node.regression.env
