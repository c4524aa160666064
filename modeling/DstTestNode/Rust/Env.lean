import DstTestNode.Library.Decimal
import Mathlib.Data.List.AList
import Mathlib.Algebra.Ring.Nat

namespace rust_test_node.env

def MY_PORT : Nat := 5000

/-- The environment of a process, of valid Unicode. -/
abbrev Environment : Type := AList fun _ : String => String

structure PeerConfig where
  hostname : String
  my_id : Nat
  network_size : Nat
  connect_to : Nat
  chunks : Nat
  muxer : String
  address : String
  service : String
  in_shadow : Bool
  deriving DecidableEq, Repr

/-- `s.parse` for an unsigned integer type. -/
def parse_unsigned (bits : Nat) (s : String) : Option Nat :=
  let digits := match s.toList with
    | '+' :: digits => digits
    | digits => digits
  if digits = [] ∨ ¬ digits.all Char.isDigit then none
  else
    let value := Nat.ofDigitChars 10 digits 0
    if value < 2 ^ bits then some value else none

/-- `to_lowercase`, on the letters that a muxer name can have. -/
def to_lowercase (s : String) : String := String.ofList (s.toList.map Char.toLower)

def eq_ignore_ascii_case (a b : String) : Bool :=
  a.toList.map Char.toLower == b.toList.map Char.toLower

/-- The listen address of a muxer. -/
def listen_address (muxer : String) : String :=
  if muxer = "quic" then "/ip4/0.0.0.0/udp/" ++ MY_PORT.repr ++ "/quic-v1"
  else "/ip4/0.0.0.0/tcp/" ++ MY_PORT.repr

/-- The number in a hostname: `hostname.split('-').nth(1)`, parsed. -/
def hostname_id (hostname : String) : Option Nat :=
  (hostname.toList.splitOn '-')[1]?.bind fun part => parse_unsigned 64 (String.ofList part)

/-- The configuration of a node, or why it is refused. It is `none` when the
hostname has no number, and unwrapping it panics. -/
def get_peer_details (environment : Environment) (hostname : Option String) :
    Option (Except String PeerConfig) :=
  match hostname with
  | none => some (.error "Failed to get hostname")
  | some hostname => do
    let my_id ← hostname_id hostname
    let network_size :=
      (parse_unsigned 64 ((environment.lookup "PEERS").getD "100")).getD 100
    let connect_to :=
      (parse_unsigned 64 ((environment.lookup "CONNECTTO").getD "10")).getD 10
    let muxer := to_lowercase ((environment.lookup "MUXER").getD "yamux")
    let service := (environment.lookup "SERVICE").getD "nimp2p-service"
    let in_shadow := eq_ignore_ascii_case ((environment.lookup "SHADOWENV").getD "") "true"
    let chunks := (parse_unsigned 32 ((environment.lookup "FRAGMENTS").getD "1")).getD 1
    if muxer ∉ ["quic", "yamux"] then
      some (.error ("Unknown muxer type: " ++ muxer))
    else if connect_to ≥ network_size then
      some (.error ("Not enough peers to make target connections. Network size: " ++
        network_size.repr))
    else
      some (.ok
        { hostname := hostname
          my_id := my_id
          network_size := network_size
          connect_to := connect_to
          chunks := chunks
          muxer := muxer
          address := listen_address muxer
          service := service
          in_shadow := in_shadow })

/-- A text without a sign is read when it is a numeral of the type. -/
theorem parse_unsigned_eq_some (bits : Nat) {digits : List Char} (hsign : '+' ∉ digits)
    (value : Nat) : parse_unsigned bits (String.ofList digits) = some value ↔
      Decimal.Numeral digits value ∧ value < 2 ^ bits := by
  have hdigits : (match (String.ofList digits).toList with
      | '+' :: digits => digits
      | digits => digits) = digits := by
    rw [String.toList_ofList]
    split
    · simp at hsign
    · rfl
  rw [parse_unsigned]
  simp only [hdigits]
  constructor
  · intro hparsed
    split_ifs at hparsed with hbad hfits
    obtain ⟨hsome, hall⟩ := not_or.mp hbad
    obtain rfl := Option.some.inj hparsed
    exact ⟨⟨hsome, List.all_eq_true.mp (not_not.mp hall), rfl⟩, hfits⟩
  · rintro ⟨⟨hsome, hall, rfl⟩, hfits⟩
    rw [if_neg (not_or.mpr ⟨hsome, not_not.mpr (List.all_eq_true.mpr hall)⟩), if_pos hfits]

/-- In an empty environment a node with a number in its hostname is accepted. -/
theorem get_peer_details_empty {hostname : String} {my_id : Nat}
    (hid : hostname_id hostname = some my_id) :
    ∃ config, get_peer_details ∅ (some hostname) = some (.ok config) ∧ config.my_id = my_id := by
  refine ⟨⟨hostname, my_id, 100, 10, 1, "yamux", listen_address "yamux", "nimp2p-service", false⟩,
    ?_, rfl⟩
  rw [get_peer_details, hid]
  rfl

/-- A node panics when its hostname has no number, and takes its id from there. -/
theorem get_peer_details_yields_iff {hostname : String} {my_id : Nat} :
    (∀ environment, ∃ result, get_peer_details environment (some hostname) = some result ∧
      ∀ config, result = .ok config → config.my_id = my_id) ↔
        hostname_id hostname = some my_id := by
  constructor
  · intro hyields
    obtain ⟨result, hresult, hconfig⟩ := hyields ∅
    cases hid : hostname_id hostname with
    | none =>
      rw [get_peer_details, hid] at hresult
      cases hresult
    | some other =>
      obtain ⟨config, haccepted, rfl⟩ := get_peer_details_empty hid
      exact congrArg some (hconfig config (Option.some.inj (hresult.symm.trans haccepted)))
  · intro hid environment
    simp only [get_peer_details, hid, Option.bind_eq_bind, Option.bind_some]
    split
    · exact ⟨_, rfl, nofun⟩
    · split
      · exact ⟨_, rfl, nofun⟩
      · refine ⟨_, rfl, fun config hconfig => ?_⟩
        cases hconfig
        rfl

/-- An accepted configuration has a known muxer, and more peers than it is to
connect to. -/
theorem get_peer_details_accepts {environment : Environment} {hostname : Option String}
    {config : PeerConfig} (haccepted : get_peer_details environment hostname = some (.ok config)) :
    config.muxer ∈ ["quic", "yamux"] ∧ config.connect_to < config.network_size ∧
      config.address = listen_address config.muxer := by
  cases hostname with
  | none => cases haccepted
  | some hostname =>
    cases hid : hostname_id hostname with
    | none => simp [get_peer_details, hid] at haccepted
    | some my_id =>
      simp only [get_peer_details, hid, Option.bind_eq_bind, Option.bind_some] at haccepted
      split_ifs at haccepted with hmuxer hconnect
      · cases haccepted
      · cases haccepted
        exact ⟨hmuxer, Nat.lt_of_not_le hconnect, rfl⟩
      · cases haccepted

end rust_test_node.env
