import DstTestNode.Nodes.SimulatedDials

open shadow.topogen (Config Args parse_arguments parse_arguments_choices create_shadow_config
  create_shadow_config_hosts peer_environment peer_host runs_node connections)

namespace nodes

/-- The configuration that is generated for some arguments. -/
def generated (args : Args) : Except python.PyError Config :=
  create_shadow_config args.anchor_stages.toNat args.network_size.toNat args.messages args.num_frags
    args.msg_size_bytes args.delay_seconds args.muxer

section

variable {config : Config} (service : NameService config) (environment : nim.Environment)
  (network_size i : Nat)

/-- The Rust node of a host waits for a name for ever. -/
def RustWaits : Prop :=
  ∃ details, rust_test_node.env.get_peer_details environment (shadow.topogen.pod_name i) =
      some (.ok details) ∧
    ∀ profile dial shuffle shuffle_addrs fuel,
      rust_test_node.main.connect_gossipsub_peers profile details service.lookup dial shuffle
        shuffle_addrs fuel = .ok none

/-- The Go node of a host gives up without a dial. -/
def GoGivesUp : Prop :=
  ∃ details, go_test_node.main.get_env_variables environment (.ok (shadow.topogen.pod_name i)) =
      .ok details ∧
    ∀ (ID : Type) lookup_addr (id_from_private_key : String → Option ID) connect shuffle
      shuffle_infos fuel, (∀ infos, (shuffle_infos infos).Perm infos) →
        go_test_node.main.max_retries ≤ fuel →
          go_test_node.main.connect_to_peers (go_test_node.main.in_shadow environment) details
            service.lookup lookup_addr id_from_private_key connect shuffle shuffle_infos fuel =
              .ok (some ⟨0, []⟩)

/-- The Nim node of a host waits for a name for ever. -/
def NimWaits : Prop :=
  ∃ details, nim_test_node.gossipsub_queues.env.get_peer_details environment
      (shadow.topogen.pod_name i) = .ok (.ok details) ∧
    ∀ connect shuffle shuffle_addrs fuel,
      nim_test_node.gossipsub_queues.main.connect_gossipsub_peers environment details
        service.lookup connect shuffle shuffle_addrs fuel = .ok none

end

/-- The peers of a generated configuration, with the environment of each. -/
theorem generated_peers {args : Args} (hsteps : 1 ≤ args.anchor_stages)
    (hpositive : 0 ≤ args.network_size) : ∃ config, generated args = .ok config ∧
      ∀ i : Nat, i < args.network_size → ∃ host,
        config.hosts.lookup (shadow.topogen.pod_name i) = some host ∧ runs_node host = true ∧
        ∀ process ∈ host.processes, process.environment = peer_environment args.network_size.toNat
          args.messages args.num_frags args.muxer := by
  obtain ⟨config, hconfig, hhosts⟩ := create_shadow_config_hosts
    (show 0 < args.anchor_stages.toNat by omega) args.network_size.toNat args.messages args.num_frags
    args.msg_size_bytes args.delay_seconds args.muxer
  refine ⟨config, hconfig, fun i hi => ⟨peer_host args.network_size.toNat args.messages
    args.num_frags args.muxer (i % args.anchor_stages.toNat), ?_, rfl, ?_⟩⟩
  · rw [hhosts, if_neg (by omega), if_pos (by omega)]
  · intro process hprocess
    rw [List.mem_singleton.mp hprocess]

/-- In a network as it is generated no node ever dials another one: all nodes take
themselves for ones outside the simulator, and look for a service that no host has. The
Go node gives up after five lookups, and the Rust and the Nim node look for ever; a
Rust node that is to use `mplex` does not even start. -/
theorem nobody_dials {args : Args} (haccepted : parse_arguments args = .ok args)
    (hsteps : 1 ≤ args.anchor_stages) (hlarge : connections < args.network_size)
    (hfits : args.network_size < 2 ^ 62) : ∃ config, generated args = .ok config ∧
      ∀ (service : NameService config) (i : Nat), i < args.network_size → ∃ host,
        config.hosts.lookup (shadow.topogen.pod_name i) = some host ∧ runs_node host = true ∧
        ∀ process ∈ host.processes,
          (args.muxer ≠ "mplex" → RustWaits service process.environment i) ∧
          (args.muxer = "mplex" → ∃ message, rust_test_node.env.get_peer_details
            process.environment (shadow.topogen.pod_name i) = some (.error message)) ∧
          GoGivesUp service process.environment i ∧ NimWaits service process.environment i := by
  obtain ⟨config, hconfig, hpeers⟩ := generated_peers hsteps (by omega)
  obtain ⟨hfrags, hmuxer⟩ := parse_arguments_choices haccepted
  refine ⟨config, hconfig, fun service i hi => ?_⟩
  obtain ⟨host, hhost, hnode, henvironment⟩ := hpeers i hi
  refine ⟨host, hhost, hnode, fun process hprocess => ?_⟩
  rw [henvironment process hprocess]
  obtain ⟨frags, hfrags_eq⟩ := Int.eq_ofNat_of_zero_le (show 0 ≤ args.num_frags by omega)
  have hvariables := peerVariables_peer_environment args.network_size.toNat args.messages
    args.num_frags args.muxer
  have hgo_flag : go_test_node.main.in_shadow (peer_environment args.network_size.toNat args.messages
      args.num_frags args.muxer) = false := by
    rw [go_test_node.main.in_shadow, go_test_node.main.getenv, hvariables.shadowenv]
    decide
  have hnim_flag := shadow.topogen.in_shadow_peer_environment args.network_size.toNat args.messages
    args.num_frags args.muxer
  generalize peer_environment args.network_size.toNat args.messages args.num_frags args.muxer =
    environment at hvariables hgo_flag hnim_flag ⊢
  rw [hfrags_eq] at hvariables
  refine ⟨fun hplex => ⟨_, rust_reads hvariables (by omega) (by omega) (by omega) ?_ (by omega), ?_⟩,
    ?_, ⟨_, go_reads hvariables (by omega) (by omega) hmuxer, ?_⟩,
    ⟨_, nim_reads hvariables (by omega) (by omega) (by omega) hmuxer, ?_⟩⟩
  · simpa [hplex] using hmuxer
  · intro profile dial shuffle shuffle_addrs fuel
    have hflag : rust_test_node.env.eq_ignore_ascii_case "1" "true" = false := by decide
    exact rust_waits hconfig service fuel profile _ hflag rfl dial shuffle shuffle_addrs
  · intro hplex
    exact rust_refuses (hplex ▸ hvariables) (by omega)
  · intro ID lookup_addr id_from_private_key connect shuffle shuffle_infos fuel hinfos hfuel
    rw [hgo_flag]
    exact go_gives_up hconfig service fuel _ rfl lookup_addr id_from_private_key connect shuffle hinfos
      hfuel
  · intro connect shuffle shuffle_addrs fuel
    exact nim_waits hconfig service fuel environment _ hnim_flag hvariables.service connect shuffle
      shuffle_addrs

/-- A hundred peers over five stages. -/
def hundred_peers (muxer : String) : Args :=
  ⟨100, 50, 150, 40, 130, 5, 15000, 1, 10, "4.0", muxer⟩

/-- A simulator in which the address of a host is its name. -/
def named (config : Config) : NameService config where
  address name := if name ∈ config.hosts then some name else none
  known := by
    intro name
    split_ifs with hmem <;> simp [hmem]
  distinct := by
    intro name other text hname hother
    split_ifs at hname hother
    rw [Option.some.inj hname, Option.some.inj hother]

theorem exists_process {host : shadow.topogen.Host} (hnode : runs_node host = true) :
    ∃ process, process ∈ host.processes := by
  have hpaths : host.processes.map shadow.topogen.Process.path = ["./main"] := by
    simpa [runs_node] using hnode
  apply List.exists_mem_of_ne_nil
  rintro hempty
  simp [hempty] at hpaths

theorem nobody_dials_hundred : ∃ config, generated (hundred_peers "yamux") = .ok config ∧
    ∃ process : shadow.topogen.Process, RustWaits (named config) process.environment 3 ∧
      GoGivesUp (named config) process.environment 3 ∧
      NimWaits (named config) process.environment 3 := by
  have haccepted : parse_arguments (hundred_peers "yamux") = .ok (hundred_peers "yamux") := rfl
  obtain ⟨config, hconfig, hpeers⟩ := nobody_dials haccepted (by decide) (by decide) (by decide)
  obtain ⟨host, _, hnode, hdials⟩ := hpeers (named config) 3 (by decide)
  obtain ⟨process, hprocess⟩ := exists_process hnode
  obtain ⟨hrust, _, hgo, hnim⟩ := hdials process hprocess
  exact ⟨config, hconfig, process, hrust (by decide), hgo, hnim⟩

end nodes
