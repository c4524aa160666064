import Mathlib.Data.List.Nodup
import Mathlib.Data.List.Range
import DstTestNode.Rust.Checked
import DstTestNode.Rust.Env

open rust rust_test_node.env

namespace rust_test_node.main

/-- The address of a pod in the simulator. -/
def pod_address (id : Nat) : String := "pod-" ++ id.repr ++ ":" ++ MY_PORT.repr

/-- The other peers of a node. -/
def other_peers (config : PeerConfig) : List Nat :=
  (List.range config.network_size).filter fun id => id ≠ config.my_id

/-- The addresses that `connect_gossipsub_peers` resolves. `shuffle` is the
permutation of the random number generator. -/
def t_addresses (profile : Profile) (config : PeerConfig) (shuffle : List Nat → List Nat) :
    Except Panic (List String) :=
  if config.in_shadow then do
    let peers := other_peers config
    let doubled ← usize_mul profile config.connect_to 2
    let limit := min doubled peers.length
    let chosen ← slice_upto (shuffle peers) limit
    .ok (chosen.map pod_address)
  else .ok [config.service ++ ":" ++ MY_PORT.repr]

/-- The candidates of a node: different peers of the network, without the node
itself, and enough of them for the connections asked for. -/
structure ValidCandidates (config : PeerConfig) (ids : List Nat) : Prop where
  nodup : ids.Nodup
  in_network : ∀ id ∈ ids, id < config.network_size
  not_self : config.my_id ∉ ids
  length : ids.length = min (2 * config.connect_to) (other_peers config).length
  sufficient : config.connect_to ≤ ids.length

theorem mem_other_peers {config : PeerConfig} {id : Nat} :
    id ∈ other_peers config ↔ id < config.network_size ∧ id ≠ config.my_id := by
  simp [other_peers]

theorem nodup_other_peers (config : PeerConfig) : (other_peers config).Nodup :=
  List.nodup_range.filter _

/-- At most one peer of the network is the node itself. -/
theorem length_other_peers (config : PeerConfig) :
    config.network_size ≤ (other_peers config).length + 1 := by
  have hsplit := List.length_eq_length_filter_add
    (l := List.range config.network_size) fun id => decide (id ≠ config.my_id)
  have hself : ((List.range config.network_size).filter fun id =>
      !decide (id ≠ config.my_id)).length ≤ 1 := by
    have hcount := List.nodup_iff_count_le_one.mp (List.nodup_range (n := config.network_size))
      config.my_id
    simpa [List.count_eq_length_filter, beq_eq_decide] using hcount
  rw [List.length_range] at hsplit
  simp only [other_peers]
  omega

/-- The slice of the shuffled peers never panics. -/
theorem t_addresses_shadow {config : PeerConfig} (hconnect : config.connect_to < config.network_size)
    (hsmall : config.network_size < 2 ^ 62) (hshadow : config.in_shadow = true) (profile : Profile)
    {shuffle : List Nat → List Nat} (hshuffle : ∀ peers, (shuffle peers).Perm peers) :
    t_addresses profile config shuffle = .ok (((shuffle (other_peers config)).take
      (min (config.connect_to * 2) (other_peers config).length)).map pod_address) := by
  have hmul : usize_mul profile config.connect_to 2 = .ok (config.connect_to * 2) :=
    if_neg (by omega)
  have hslice : slice_upto (shuffle (other_peers config))
      (min (config.connect_to * 2) (other_peers config).length) =
      .ok ((shuffle (other_peers config)).take
        (min (config.connect_to * 2) (other_peers config).length)) := by
    rw [slice_upto, if_pos]
    rw [(hshuffle _).length_eq]
    exact Nat.min_le_right _ _
  simp only [t_addresses, hshadow, if_true, hmul, hslice, bind, Except.bind]

/-- The first of the shuffled peers are valid candidates. -/
theorem validCandidates_take {config : PeerConfig}
    (hconnect : config.connect_to < config.network_size) {peers : List Nat}
    (hpeers : peers.Perm (other_peers config)) :
    ValidCandidates config
      (peers.take (min (config.connect_to * 2) (other_peers config).length)) := by
  have hmem : ∀ id ∈ peers.take (min (config.connect_to * 2) (other_peers config).length),
      id < config.network_size ∧ id ≠ config.my_id :=
    fun id hid => mem_other_peers.mp (hpeers.mem_iff.mp (List.mem_of_mem_take hid))
  have hlength : (peers.take (min (config.connect_to * 2) (other_peers config).length)).length =
      min (2 * config.connect_to) (other_peers config).length := by
    rw [List.length_take, hpeers.length_eq]
    omega
  have hothers := length_other_peers config
  refine ⟨?_, fun id hid => (hmem id hid).1, fun hself => (hmem _ hself).2 rfl, hlength, ?_⟩
  · exact ((hpeers.nodup_iff.mpr (nodup_other_peers config)).sublist (List.take_sublist _ _))
  · rw [hlength]
    omega

/-- Some shuffle puts a peer first. -/
theorem exists_shuffle_first {config : PeerConfig} {id : Nat} (hpositive : 1 ≤ config.connect_to)
    (hid : id ∈ other_peers config) :
    ∃ shuffle : List Nat → List Nat, (∀ peers, (shuffle peers).Perm peers) ∧
      id ∈ (shuffle (other_peers config)).take
        (min (config.connect_to * 2) (other_peers config).length) := by
  refine ⟨fun peers => if id ∈ peers then id :: peers.erase id else peers, fun peers => ?_, ?_⟩
  · simp only
    split_ifs with hmem
    · exact (List.perm_cons_erase hmem).symm
    · exact .refl _
  · have hpos := List.length_pos_of_mem hid
    have hlimit : min (config.connect_to * 2) (other_peers config).length ≠ 0 := by omega
    obtain ⟨limit, hlimit⟩ := Nat.exists_eq_succ_of_ne_zero hlimit
    simp only [if_pos hid, hlimit, List.take_succ_cons]
    exact List.mem_cons_self

/-- The candidates of an accepted configuration are valid whatever the shuffle
does, and over all shuffles every other peer can be one. -/
theorem candidates_valid {environment : Environment} {hostname : Option String}
    {config : PeerConfig} (haccepted : get_peer_details environment hostname = some (.ok config))
    (hsmall : config.network_size < 2 ^ 62) (hshadow : config.in_shadow = true)
    (profile : Profile) (my_id : Nat) :
    let node := { config with my_id := my_id }
    (∀ shuffle : List Nat → List Nat, (∀ peers, (shuffle peers).Perm peers) →
      ∃ ids : List Nat, t_addresses profile node shuffle = .ok (ids.map pod_address) ∧
        ValidCandidates node ids) ∧
    (1 ≤ config.connect_to → ∀ id, id < config.network_size → id ≠ my_id →
      ∃ shuffle : List Nat → List Nat, (∀ peers, (shuffle peers).Perm peers) ∧
        ∃ ids : List Nat, t_addresses profile node shuffle = .ok (ids.map pod_address) ∧ id ∈ ids) := by
  intro node
  have hconnect : node.connect_to < node.network_size := (get_peer_details_accepts haccepted).2.1
  refine ⟨fun shuffle hshuffle => ?_, fun hpositive id hid hother => ?_⟩
  · exact ⟨_, t_addresses_shadow hconnect hsmall hshadow profile hshuffle,
      validCandidates_take hconnect (hshuffle _)⟩
  · have hmem : id ∈ other_peers node := mem_other_peers.mpr ⟨hid, hother⟩
    have hsome : 1 ≤ node.connect_to := hpositive
    obtain ⟨shuffle, hshuffle, hfirst⟩ := exists_shuffle_first hsome hmem
    exact ⟨shuffle, hshuffle, _,
      t_addresses_shadow hconnect hsmall hshadow profile hshuffle, hfirst⟩

/-- The fourth of a hundred nodes in the simulator. -/
theorem candidates_valid_hundred :
    ∃ config, get_peer_details
        (AList.insert "SHADOWENV" "true" (AList.insert "CONNECTTO" "12" ∅)) "pod-3" =
          some (.ok config) ∧
      let node := { config with my_id := config.my_id }
      (∀ shuffle : List Nat → List Nat, (∀ peers, (shuffle peers).Perm peers) →
        ∃ ids : List Nat, t_addresses .release node shuffle = .ok (ids.map pod_address) ∧
          ValidCandidates node ids) ∧
      (1 ≤ config.connect_to → ∀ id, id < config.network_size → id ≠ config.my_id →
        ∃ shuffle : List Nat → List Nat, (∀ peers, (shuffle peers).Perm peers) ∧
          ∃ ids : List Nat, t_addresses .release node shuffle = .ok (ids.map pod_address) ∧
            id ∈ ids) := by
  let config : PeerConfig := ⟨"pod-3", 3, 100, 12, 1, "yamux", "/ip4/0.0.0.0/tcp/5000",
    "nimp2p-service", true⟩
  have haccepted : get_peer_details
      (AList.insert "SHADOWENV" "true" (AList.insert "CONNECTTO" "12" ∅)) "pod-3" =
        some (.ok config) := by decide +kernel
  exact ⟨config, haccepted, candidates_valid haccepted (by norm_num [config]) rfl .release 3⟩

end rust_test_node.main
