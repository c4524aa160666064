import DstTestNode.Nodes.PodIndex

open nim

namespace nim_test_node.connmanager.env

inductive ReconnectMode where
  | reconnect_none
  | reconnect_aggressive
  | reconnect_before_grace
  deriving DecidableEq, Repr

structure HubConfig (PeerId : Type) where
  low_water : Int
  high_water : Int
  grace_period_s : Int
  silence_period_s : Int
  max_connections : Int
  protected_peers : List PeerId
  outbound_peers : List String
  num_hubs : Int
  hub_namespace : String
  deriving DecidableEq, Repr

structure PeerConfig (PrivateKey : Type) where
  hub_addrs : List String
  dial_out : Bool
  reconnect : ReconnectMode
  reconnect_interval_s : Int
  private_key : Option PrivateKey
  deriving DecidableEq, Repr

/-- What ends the configuration of a peer: an exception, or an index out of range. -/
inductive PeerConfigError where
  | raised (error : NimError)
  | index_defect
  deriving DecidableEq, Repr

variable {PeerId PrivateKey : Type}

/-- The loops over the entries between commas, which skip blank ones. -/
def list_entries (raw : String) : List String :=
  ((split raw ',').map strip).filter fun s => 0 < s.length

/-- `parseHubConfig`, where `peer_id_init` reads a peer id. -/
def parse_hub_config (peer_id_init : String → Option PeerId) (environment : Environment) :
    Except NimError (HubConfig PeerId) := do
  let low_water ← parse_int (get_env environment "WATERMARK_LOW" "10")
  let high_water ← parse_int (get_env environment "WATERMARK_HIGH" "20")
  let grace_period_s ← parse_int (get_env environment "WATERMARK_GRACE_PERIOD_S" "0")
  let silence_period_s ← parse_int (get_env environment "WATERMARK_SILENCE_PERIOD_S" "2")
  let max_connections ← parse_int (get_env environment "MAX_CONNECTIONS" "0")
  let num_hubs ← parse_int (get_env environment "NUM_HUBS" "1")
  .ok
    { low_water := low_water
      high_water := high_water
      grace_period_s := grace_period_s
      silence_period_s := silence_period_s
      max_connections := max_connections
      protected_peers := (list_entries (get_env environment "PROTECTED_PEERS" "")).filterMap
        peer_id_init
      outbound_peers := list_entries (get_env environment "OUTBOUND_PEERS" "")
      num_hubs := num_hubs
      hub_namespace := get_env environment "HUB_NAMESPACE" "nimlibp2p" }

/-- The addresses of the hubs. -/
def parse_hub_addrs (environment : Environment) : List String :=
  let hub_addrs_str := get_env environment "HUB_ADDRS" ""
  if 0 < hub_addrs_str.length then list_entries hub_addrs_str
  else [get_env environment "HUB_ADDR" "hub:5000"]

def parse_reconnect (environment : Environment) : ReconnectMode :=
  let mode := to_lower_ascii (get_env environment "RECONNECT" "none")
  if mode = "aggressive" then .reconnect_aggressive
  else if mode = "before_grace" then .reconnect_before_grace
  else .reconnect_none

/-- The key of a pod, by the number at the end of its hostname. -/
def priv_key_hex (environment : Environment) (hostname : String) :
    Except PeerConfigError String :=
  let priv_keys_str := get_env environment "PRIVATE_KEYS" ""
  if 0 < priv_keys_str.length then
    let keys := split priv_keys_str ','
    let idx := hostname_id hostname
    if idx < keys.length then
      if idx < 0 then .error .index_defect else .ok (strip (keys.getD idx.toNat ""))
    else .ok ""
  else .ok (get_env environment "PRIVATE_KEY" "")

/-- `parsePeerConfig`, where `private_key_init` decodes a key. -/
def parse_peer_config (private_key_init : String → Except String PrivateKey)
    (environment : Environment) (hostname : String) :
    Except PeerConfigError (PeerConfig PrivateKey) := do
  let reconnect_interval_s ← (parse_int (get_env environment "RECONNECT_INTERVAL_S" "55")).mapError
    PeerConfigError.raised
  let priv_key_hex ← priv_key_hex environment hostname
  .ok
    { hub_addrs := parse_hub_addrs environment
      dial_out := to_lower_ascii (get_env environment "DIAL_OUT" "true") = "true"
      reconnect := parse_reconnect environment
      reconnect_interval_s := reconnect_interval_s
      private_key :=
        if 0 < priv_key_hex.length then (private_key_init priv_key_hex).toOption else none }

theorem parse_sign_of_notMem {cs : List Char} (hdash : '-' ∉ cs) : (parse_sign cs).1 = 1 := by
  unfold parse_sign
  split
  · exact absurd List.mem_cons_self hdash
  · rfl
  · rfl

theorem parse_int_nonneg {s : String} {value : Int} (hdash : '-' ∉ s.toList)
    (hvalue : parse_int s = .ok value) : 0 ≤ value := by
  have hsign := parse_sign_of_notMem hdash
  simp only [parse_int, hsign, one_mul] at hvalue
  cases hmagnitude : parse_magnitude (parse_sign s.toList).2 with
  | none => simp [hmagnitude] at hvalue
  | some magnitude =>
    simp only [hmagnitude] at hvalue
    split_ifs at hvalue
    cases hvalue
    exact Int.natCast_nonneg magnitude

/-- The last part of a hostname has no dash, and so no minus sign. -/
theorem hostname_id_nonneg (hostname : String) : 0 ≤ hostname_id hostname := by
  rw [hostname_id]
  cases hparsed : parse_int (last_part hostname '-') with
  | error error => exact le_refl 0
  | ok my_id =>
    refine parse_int_nonneg (fun hdash => ?_) hparsed
    rw [last_part, split, List.getLastD_eq_getLast?, List.getLast?_map] at hdash
    cases hlast : (hostname.toList.splitOn '-').getLast? with
    | none => simp [hlast] at hdash
    | some segment =>
      rw [hlast, Option.map_some, Option.getD_some, String.toList_ofList] at hdash
      exact (Segments.mem_of_mem_segment (List.mem_of_getLast? hlast) hdash).2 rfl

/-- A text lists some items: its parts are between commas and not blank, and each
reads as its item without the blanks around it. -/
def Lists {Item : Type} (reads : String → Item → Prop) (raw : String) (items : List Item) : Prop :=
  ∃ parts : List (String × Item), raw = ",".intercalate (parts.map Prod.fst) ∧
    parts.map Prod.snd = items ∧
    ∀ part ∈ parts, ',' ∉ part.1.toList ∧ strip part.1 ≠ "" ∧ reads (strip part.1) part.2

theorem split_parts {Item : Type} {parts : List (String × Item)} (hparts : parts ≠ [])
    (hcommas : ∀ part ∈ parts, ',' ∉ part.1.toList) :
    split (",".intercalate (parts.map Prod.fst)) ',' = parts.map Prod.fst := by
  refine split_intercalate (by simpa using hparts) fun text htext => ?_
  obtain ⟨part, hpart, rfl⟩ := List.mem_map.mp htext
  exact hcommas part hpart

/-- Items that are listed are all read, in their order. -/
theorem Lists.filterMap_entries {Item : Type} {read : String → Option Item} {raw : String}
    {items : List Item} (hlists : Lists (fun text item => read text = some item) raw items)
    (hitems : items ≠ []) : (list_entries raw).filterMap read = items := by
  obtain ⟨parts, rfl, rfl, hparts⟩ := hlists
  have hne : parts ≠ [] := by
    rintro rfl
    exact hitems rfl
  rw [list_entries, split_parts hne fun part hpart => (hparts part hpart).1, List.map_map,
    List.filter_eq_self.mpr, List.filterMap_map, ← List.filterMap_eq_map, List.filterMap_congr]
  · intro part hpart
    simpa using (hparts part hpart).2.2
  · intro text htext
    obtain ⟨part, hpart, rfl⟩ := List.mem_map.mp htext
    have hblank := (hparts part hpart).2.1
    simpa [Nat.pos_iff_ne_zero] using hblank

/-- The manifests of a cluster give the peers their keys, in order, and the hubs the
ids that belong to these keys. -/
structure Manifests (private_key_init : String → Except String PrivateKey)
    (peer_id_init : String → Option PeerId) (peer_id_of : PrivateKey → PeerId)
    (keys : List PrivateKey) (hub peer : Environment) : Prop where
  keys_ne : keys ≠ []
  private_keys : Lists (fun hex key => private_key_init hex = .ok key)
    (get_env peer "PRIVATE_KEYS" "") keys
  protected_peers : Lists (fun text id => peer_id_init text = some id)
    (get_env hub "PROTECTED_PEERS" "") (keys.map peer_id_of)

variable {private_key_init : String → Except String PrivateKey}
  {peer_id_init : String → Option PeerId} {peer_id_of : PrivateKey → PeerId}
  {keys : List PrivateKey} {hub peer : Environment}

theorem Manifests.priv_key_hex (manifests : Manifests private_key_init peer_id_init peer_id_of
    keys hub peer) (hostname : String) :
    ∃ hex, env.priv_key_hex peer hostname = .ok hex ∧
      (if 0 < hex.length then (private_key_init hex).toOption else none) =
        keys[(hostname_id hostname).toNat]? := by
  obtain ⟨parts, hraw, hkeys, hparts⟩ := manifests.private_keys
  have hne : parts ≠ [] := by
    rintro rfl
    exact manifests.keys_ne hkeys.symm
  have hsplit := split_parts hne fun part hpart => (hparts part hpart).1
  have hid := hostname_id_nonneg hostname
  have hlong : 0 < (",".intercalate (parts.map Prod.fst)).length := by
    by_contra hshort
    rw [Nat.not_lt, Nat.le_zero, String.length_eq_zero_iff] at hshort
    rw [hshort] at hsplit
    obtain ⟨part, rest, rfl⟩ := List.exists_cons_of_ne_nil hne
    have hempty := (List.cons.inj hsplit).1
    exact (hparts part List.mem_cons_self).2.1 (by rw [← hempty]; decide)
  obtain ⟨idx, hidx⟩ := Int.eq_ofNat_of_zero_le hid
  simp only [env.priv_key_hex, hraw, hsplit, if_pos hlong, if_neg (Int.not_lt.mpr hid)]
  simp only [hidx, Int.toNat_natCast, List.length_map, Nat.cast_lt, ← hkeys, List.getElem?_map]
  by_cases hin : idx < parts.length
  · obtain ⟨_, hblank, hread⟩ := hparts parts[idx] (List.getElem_mem hin)
    refine ⟨_, if_pos hin, ?_⟩
    rw [List.getD_eq_getElem _ _ (by simpa using hin), List.getElem_map, hread,
      List.getElem?_eq_getElem hin, if_pos (by simpa [Nat.pos_iff_ne_zero] using hblank)]
    rfl
  · refine ⟨_, if_neg hin, ?_⟩
    rw [List.getElem?_eq_none (Nat.not_lt.mp hin)]
    rfl

/-- A peer of the cluster is configured as soon as its interval is a number. -/
theorem Manifests.returns (manifests : Manifests private_key_init peer_id_init peer_id_of keys hub peer)
    (hinterval : ∃ interval, parse_int (get_env peer "RECONNECT_INTERVAL_S" "55") = .ok interval)
    (hostname : String) : ∃ config, parse_peer_config private_key_init peer hostname = .ok config := by
  obtain ⟨hex, hhex, -⟩ := manifests.priv_key_hex hostname
  obtain ⟨interval, hinterval⟩ := hinterval
  rw [parse_peer_config, hhex, hinterval]
  exact ⟨_, rfl⟩

theorem parse_hub_config_eq_ok {environment : Environment} {config : HubConfig PeerId}
    (hconfig : parse_hub_config peer_id_init environment = .ok config) :
    config.protected_peers =
        (list_entries (get_env environment "PROTECTED_PEERS" "")).filterMap peer_id_init ∧
      config.outbound_peers = list_entries (get_env environment "OUTBOUND_PEERS" "") ∧
      parse_int (get_env environment "NUM_HUBS" "1") = .ok config.num_hubs ∧
      config.hub_namespace = get_env environment "HUB_NAMESPACE" "nimlibp2p" := by
  simp only [parse_hub_config, bind_eq_ok, Except.ok.injEq] at hconfig
  obtain ⟨_, _, _, _, _, _, _, _, _, _, num_hubs, hnum_hubs, rfl⟩ := hconfig
  exact ⟨rfl, rfl, hnum_hubs, rfl⟩

/-- The identities of a cluster. A peer is only stopped by an interval that is no
number, never by its index; a pod takes the key at the number of its hostname, which
for a replica of a StatefulSet is its own, and none if the list is too short; and the
hubs protect exactly the peers whose keys are listed. -/
theorem protected_peers (manifests : Manifests private_key_init peer_id_init peer_id_of keys hub peer)
    {hub_config : HubConfig PeerId} (hhub : parse_hub_config peer_id_init hub = .ok hub_config) :
    (∀ hostname, (∃ config, parse_peer_config private_key_init peer hostname = .ok config) ↔
      ∃ interval, parse_int (get_env peer "RECONNECT_INTERVAL_S" "55") = .ok interval) ∧
    (∀ hostname config, parse_peer_config private_key_init peer hostname = .ok config →
      config.private_key = keys[(hostname_id hostname).toNat]?) ∧
    (∀ name : nodes.StatefulSetName, ∀ k < 2 ^ 31, ∀ config,
      parse_peer_config private_key_init peer (name.hostname k) = .ok config → ∀ random,
        (peer_id_of (config.private_key.getD random) ∈ hub_config.protected_peers ↔
          k < keys.length ∨ peer_id_of random ∈ keys.map peer_id_of)) ∧
    hub_config.protected_peers = keys.map peer_id_of := by
  have hkey {hostname : String} {config : PeerConfig PrivateKey}
      (hconfig : parse_peer_config private_key_init peer hostname = .ok config) :
      config.private_key = keys[(hostname_id hostname).toNat]? := by
    obtain ⟨hex, hhex, hread⟩ := manifests.priv_key_hex hostname
    rw [parse_peer_config, hhex] at hconfig
    cases hinterval : parse_int (get_env peer "RECONNECT_INTERVAL_S" "55") with
    | error error =>
      rw [hinterval] at hconfig
      cases hconfig
    | ok interval =>
      rw [hinterval] at hconfig
      cases hconfig
      exact hread
  have hprotected : hub_config.protected_peers = keys.map peer_id_of := by
    rw [(parse_hub_config_eq_ok hhub).1]
    exact manifests.protected_peers.filterMap_entries (by simpa using manifests.keys_ne)
  refine ⟨fun hostname => ⟨?_, fun hinterval => manifests.returns hinterval hostname⟩,
    fun hostname config hconfig => hkey hconfig, fun name k hk config hconfig random => ?_, hprotected⟩
  · rintro ⟨config, hconfig⟩
    simp only [parse_peer_config, bind_eq_ok] at hconfig
    obtain ⟨interval, hinterval, -⟩ := hconfig
    cases hparsed : parse_int (get_env peer "RECONNECT_INTERVAL_S" "55") with
    | error error =>
      rw [hparsed] at hinterval
      cases hinterval
    | ok interval => exact ⟨interval, rfl⟩
  · rw [hprotected, hkey hconfig, nodes.hostname_id_eq name k hk, Int.toNat_natCast]
    by_cases hin : k < keys.length
    · rw [List.getElem?_eq_getElem hin, Option.getD_some]
      exact iff_of_true (List.mem_map_of_mem (List.getElem_mem hin)) (.inl hin)
    · rw [List.getElem?_eq_none (Nat.not_lt.mp hin), Option.getD_none, or_iff_right hin]

/-- The secp256k1 keys of the scalars one and two, with their peer ids. -/
def two_keys : List (String × String) :=
  [("080212200000000000000000000000000000000000000000000000000000000000000001",
      "16Uiu2HAm3cuhhRL2msUuLF62KRSfneFDx94RsuouyW25Ho42cFMq"),
    ("080212200000000000000000000000000000000000000000000000000000000000000002",
      "16Uiu2HAm8kegYGp6XeybmZAuNcnLosyjsRwZ44yLgfEuqLqYL9zt")]

/-- Keys and peer ids by their texts. -/
def two_keys_init (hex : String) : Except String String :=
  if hex ∈ two_keys.map Prod.fst then .ok hex else .error "unknown key"

def two_ids_init (text : String) : Option String :=
  if text ∈ two_keys.map Prod.snd then some text else none

def two_ids (key : String) : String := (two_keys.lookup key).getD ""

def two_hubs : Environment :=
  (∅ : Environment).insert "PROTECTED_PEERS" (", ".intercalate (two_keys.map Prod.snd))

def two_hubs_config : HubConfig String where
  low_water := 10
  high_water := 20
  grace_period_s := 0
  silence_period_s := 2
  max_connections := 0
  protected_peers := two_keys.map Prod.snd
  outbound_peers := []
  num_hubs := 1
  hub_namespace := "nimlibp2p"

def two_peers : Environment :=
  (∅ : Environment).insert "PRIVATE_KEYS" (",".intercalate (two_keys.map Prod.fst))

theorem two_manifests :
    Manifests two_keys_init two_ids_init two_ids (two_keys.map Prod.fst) two_hubs two_peers where
  keys_ne := by decide
  private_keys := ⟨two_keys.map fun key => (key.1, key.1), by
    rw [two_peers, get_env_insert, List.map_map]
    rfl, by rw [List.map_map]; rfl, by decide +kernel⟩
  protected_peers := ⟨[((two_keys.map Prod.snd)[0], (two_keys.map Prod.snd)[0]),
    (" " ++ (two_keys.map Prod.snd)[1], (two_keys.map Prod.snd)[1])], by decide +kernel,
    by decide +kernel, by decide +kernel⟩

theorem protected_peers_two : ∃ config,
    parse_peer_config two_keys_init two_peers (nodes.pod_name.hostname 1) = .ok config ∧
      two_ids (config.private_key.getD "") ∈ two_hubs_config.protected_peers := by
  obtain ⟨-, -, hprotected, -⟩ := protected_peers two_manifests
    (show parse_hub_config two_ids_init two_hubs = .ok two_hubs_config by decide +kernel)
  obtain ⟨config, hconfig⟩ := two_manifests.returns ⟨55, by decide +kernel⟩
    (nodes.pod_name.hostname 1)
  exact ⟨config, hconfig, (hprotected nodes.pod_name 1 (by decide) config hconfig "").mpr
    (.inl (by decide))⟩

end nim_test_node.connmanager.env
