import DstTestNode.Nim.GossipsubEnv
import DstTestNode.Shadow.HostTable

open nim nim_test_node.gossipsub_queues.env

namespace shadow.topogen

/-- A process of the host reads its environment back as it was meant: in the
simulator, as the peer, network and transport that the generator asked for. -/
def ReadsBack (config : Config) (i network_size : Nat) (num_frags : Int) (muxer : String) : Prop :=
  ∃ host, config.hosts.lookup (pod_name i) = some host ∧ ∃ process ∈ host.processes,
    in_shadow process.environment = true ∧ chunks process.environment = .ok num_frags ∧
      ∃ details, get_peer_details process.environment (pod_name i) = .ok (.ok details) ∧
        details.my_id = i ∧ details.network_size = network_size ∧
        details.connect_to = connections ∧ details.muxer = muxer

section

variable (network_size : Nat) (num_publishers num_frags : Int) (muxer : String)

/-- What the node finds in the environment of a peer. -/
theorem get_env_peer_environment :
    let environment := peer_environment network_size num_publishers num_frags muxer
    get_env environment "SHADOWENV" "" = "1" ∧ get_env environment "PEERS" "100" = network_size.repr ∧
      get_env environment "CONNECTTO" "10" = "10" ∧
      get_env environment "FRAGMENTS" "1" = num_frags.repr ∧
      get_env environment "MUXER" "yamux" = muxer ∧
      get_env environment "PEER_ID_OFFSET" "0" = "0" ∧
      get_env environment "FILEPATH" "./" = "./" := by
  have hshadow : shadow_env.repr = "1" := by decide
  have hconnections : connections.repr = "10" := by decide
  simp [get_env, peer_environment, dict, hshadow, hconnections, AList.lookup_insert_ne,
    -AList.insert_empty]

/-- The generator writes `1` where the node expects `true`. -/
theorem in_shadow_peer_environment :
    in_shadow (peer_environment network_size num_publishers num_frags muxer) = false := by
  obtain ⟨hshadow, _⟩ := get_env_peer_environment network_size num_publishers num_frags muxer
  rw [in_shadow, hshadow]
  decide

end

/-- Arguments that the parser accepts have a one-digit number of fragments and
a known muxer. -/
theorem parse_arguments_choices {args : Args} (haccepted : parse_arguments args = .ok args) :
    (1 ≤ args.num_frags ∧ args.num_frags < 10) ∧ args.muxer ∈ ["mplex", "yamux", "quic"] := by
  unfold parse_arguments at haccepted
  split_ifs at haccepted with hfrags hmuxer
  exact ⟨hfrags, hmuxer⟩

theorem lower_muxer {muxer : String} (hmuxer : muxer ∈ ["mplex", "yamux", "quic"]) :
    to_lower_ascii muxer ∈ ["quic", "yamux", "mplex"] := by
  simp only [List.mem_cons, List.not_mem_nil, or_false] at hmuxer
  rcases hmuxer with rfl | rfl | rfl <;> decide

/-- Everything but the simulator flag reads back, for networks whose size fits
an `int`: the node takes itself for one outside the simulator. -/
theorem peer_environment_details {args : Args} (haccepted : parse_arguments args = .ok args)
    {i network_size : Nat} (hi : i < network_size) (hlarge : connections < network_size)
    (hfits : network_size < 2 ^ 63) :
    let environment := peer_environment network_size args.messages args.num_frags args.muxer
    in_shadow environment = false ∧ chunks environment = .ok args.num_frags ∧
      get_peer_details environment (pod_name i) = .ok (.ok
        { my_id := i
          network_size := network_size
          connect_to := connections
          muxer := args.muxer
          file_path := "./"
          address := listen_address args.muxer }) := by
  obtain ⟨hfrags, hmuxer⟩ := parse_arguments_choices haccepted
  have henvironment := get_env_peer_environment network_size args.messages args.num_frags args.muxer
  have hflag := in_shadow_peer_environment network_size args.messages args.num_frags args.muxer
  generalize peer_environment network_size args.messages args.num_frags args.muxer = environment
    at henvironment hflag
  obtain ⟨_, hpeers, hconnectto, hfragments, hmux, hoffset, hpath⟩ := henvironment
  refine ⟨hflag, ?_, ?_⟩
  · obtain ⟨frags, hnat⟩ := Int.eq_ofNat_of_zero_le (show 0 ≤ args.num_frags by omega)
    rw [chunks, hfragments, hnat]
    exact parse_int_repr (by omega)
  · have hordinal : parse_int (last_part (pod_name i) '-') = .ok (i : Int) := by
      rw [pod_name, last_part_number]
      exact parse_int_repr (by omega)
    have hzero : parse_int "0" = .ok 0 := parse_int_repr (n := 0) (by decide)
    have hten : parse_int "10" = .ok 10 := parse_int_repr (n := 10) (by decide)
    have hadd : int_add 0 i = .ok (i : Int) := by
      rw [int_add, if_pos (by simp only [int_low, int_high]; omega), zero_add]
    have hconnect : ¬ (network_size : Int) ≤ 10 := by
      simp only [connections] at hlarge
      omega
    simp only [get_peer_details, hordinal, hoffset, hzero, hadd, hpeers, parse_int_repr hfits,
      hconnectto, hten, hmux, hflag, hpath, bind, Except.bind]
    simp only [lower_muxer hmuxer, not_true, if_false, hconnect, connections, Bool.false_eq_true]
    rfl

/-- No host of a generated configuration reads its environment back as meant:
every peer takes itself for one outside the simulator. -/
theorem environment_not_read_back {steps network_size : Nat}
    (num_publishers num_frags message_size : Int) (message_delay muxer : String)
    (hsteps : 1 ≤ steps) {i : Nat} (hi : i < network_size) :
    ∃ config, create_shadow_config steps network_size num_publishers num_frags message_size
        message_delay muxer = .ok config ∧
      (config.hosts.lookup (pod_name i)).isSome ∧
      ¬ ReadsBack config i network_size num_frags muxer := by
  obtain ⟨config, hconfig, hhosts⟩ := create_shadow_config_hosts hsteps network_size num_publishers
    num_frags message_size message_delay muxer
  have hhost : config.hosts.lookup (pod_name i) =
      some (peer_host network_size num_publishers num_frags muxer (i % steps)) := by
    rw [hhosts, if_neg (Nat.ne_of_lt hi), if_pos (lt_max_of_lt_right hi)]
  refine ⟨config, hconfig, by rw [hhost]; rfl, ?_⟩
  rintro ⟨host, hlookup, process, hprocess, hflag, _⟩
  rw [hhost] at hlookup
  cases hlookup
  have hpeer := in_shadow_peer_environment network_size num_publishers num_frags muxer
  rw [List.mem_singleton.mp hprocess] at hflag
  exact absurd (hpeer.symm.trans hflag) (by decide)

theorem environment_not_read_back_default :
    ∃ config, create_shadow_config 1 100 10 1 1500 "0.1" "yamux" = .ok config ∧
      (config.hosts.lookup (pod_name 0)).isSome ∧ ¬ ReadsBack config 0 100 1 "yamux" :=
  environment_not_read_back 10 1 1500 "0.1" "yamux" (by decide) (by decide)

/-- A network of 1000 peers in five stages: the last peer, on the fifth stage,
is told `SHADOWENV=1`. -/
theorem last_peer_not_in_shadow :
    ∃ config, create_shadow_config 5 1000 10 1 15000 "4.0" "quic" = .ok config ∧
      ¬ ReadsBack config 999 1000 1 "quic" := by
  obtain ⟨config, hconfig, hhosts⟩ :=
    create_shadow_config_hosts (show 0 < 5 by omega) 1000 10 1 15000 "4.0" "quic"
  refine ⟨config, hconfig, ?_⟩
  rintro ⟨host, hlookup, process, hprocess, hflag, _⟩
  rw [hhosts] at hlookup
  cases hlookup
  rw [List.mem_singleton.mp hprocess] at hflag
  exact absurd ((in_shadow_peer_environment 1000 10 1 "quic").symm.trans hflag) (by decide)

end shadow.topogen
