import DstTestNode.Nodes.Simulator

open rust
open shadow.topogen (Config create_shadow_config create_shadow_config_hosts
  pod_names_create_shadow_config connections)

namespace nodes

theorem host_part_of_notMem {name : String} (hname : ':' ∉ name.toList) : host_part name = name := by
  have hall : ∀ c ∈ name.toList, (decide (c ≠ ':')) = true := by
    intro c hc
    simpa using fun heq : c = ':' => hname (heq ▸ hc)
  rw [host_part, List.takeWhile_eq_self_iff.mpr hall, String.ofList_toList]

theorem host_part_append {name : String} (hname : ':' ∉ name.toList) (port : String) :
    host_part (name ++ ":" ++ port) = name := by
  have hall : ∀ c ∈ name.toList, (decide (c ≠ ':')) = true := by
    intro c hc
    simpa using fun heq : c = ':' => hname (heq ▸ hc)
  have hchars : (name ++ ":" ++ port).toList = name.toList ++ ':' :: port.toList := by simp
  rw [host_part, hchars, List.takeWhile_append_of_pos hall, List.takeWhile_cons_of_neg (by simp),
    List.append_nil, String.ofList_toList]

theorem host_part_service_append (port : String) :
    host_part ("nimp2p-service" ++ ":" ++ port) = "nimp2p-service" :=
  host_part_append (by decide) port

section

variable {steps network_size : Nat} {num_publishers num_frags message_size : Int}
  {message_delay muxer : String} {config : Config}
  (hconfig : create_shadow_config steps network_size num_publishers num_frags message_size
    message_delay muxer = .ok config)

include hconfig

/-- No host has the name that the nodes look for outside the simulator. -/
theorem service_notMem : "nimp2p-service" ∉ config.hosts := by
  intro hmem
  obtain ⟨i, hi⟩ := pod_names_create_shadow_config hconfig _ hmem
  have hfirst := congrArg (fun name : String => name.toList.head?) hi
  simp [shadow.topogen.pod_name] at hfirst

theorem lookup_service (service : NameService config) {t_address : String}
    (hname : host_part t_address = "nimp2p-service") (attempt : Nat) :
    service.lookup t_address attempt = none := by
  rw [NameService.lookup, hname, Option.map_eq_none_iff, ← Option.not_isSome_iff_eq_none,
    service.known]
  exact service_notMem hconfig

variable (service : NameService config) (fuel : Nat)

/-- The Rust node waits for the name of its service, when it takes itself for one
outside the simulator. -/
theorem rust_waits (profile : Profile) (rust : rust_test_node.env.PeerConfig)
    (hshadow : rust.in_shadow = false) (hservice : rust.service = "nimp2p-service")
    (dial : String → Bool) (shuffle : List Nat → List Nat)
    (shuffle_addrs : List String → List String) :
    rust_test_node.main.connect_gossipsub_peers profile rust service.lookup dial shuffle
      shuffle_addrs fuel = .ok none := by
  have hnone := lookup_service hconfig service
    (host_part_service_append rust_test_node.env.MY_PORT.repr)
  have haddress : rust_test_node.main.resolve_address service.lookup false rust.muxer fuel
      ("nimp2p-service" ++ ":" ++ rust_test_node.env.MY_PORT.repr) = none := by
    rw [rust_test_node.main.resolve_address, Retries.retry_eq_none hnone fun _ => rfl]
    rfl
  simp only [rust_test_node.main.connect_gossipsub_peers, rust_test_node.main.t_addresses, hshadow,
    hservice, Bool.false_eq_true, if_false, bind, Except.bind, Retries.gather, haddress]

/-- So does the Nim node. -/
theorem nim_waits (environment : nim.Environment)
    (details : nim_test_node.gossipsub_queues.env.PeerDetails)
    (hshadow : nim_test_node.gossipsub_queues.env.in_shadow environment = false)
    (hservice : environment.lookup "SERVICE" = none) (connect : String → Bool)
    (shuffle : List Nat → List Nat) (shuffle_addrs : List String → List String) :
    nim_test_node.gossipsub_queues.main.connect_gossipsub_peers environment details service.lookup
      connect shuffle shuffle_addrs fuel = .ok none := by
  have hnone := lookup_service hconfig service
    (host_part_service_append nim_test_node.gossipsub_queues.env.my_port.repr)
  have haddress : nim_test_node.gossipsub_queues.main.resolve_address service.lookup false
      details.muxer fuel ("nimp2p-service" ++ ":" ++
        nim_test_node.gossipsub_queues.env.my_port.repr) = none := by
    rw [nim_test_node.gossipsub_queues.main.resolve_address,
      Retries.retry_eq_none hnone fun _ => rfl]
    rfl
  simp only [nim_test_node.gossipsub_queues.main.connect_gossipsub_peers,
    nim_test_node.gossipsub_queues.main.t_addresses, hshadow, nim.get_env, hservice,
    Option.getD_none, Bool.false_eq_true, if_false, bind, Except.bind, Retries.gather, haddress]

/-- The Go node gives up after its last lookup, and dials no peer. -/
theorem go_gives_up {ID : Type} (details : go_test_node.main.EnvVariables)
    (hservice : details.service_name = "nimp2p-service")
    (lookup_addr : IpAddr → Option (List String)) (id_from_private_key : String → Option ID)
    (connect : ID → go_test_node.main.PeerInfo → Bool) (shuffle : List Nat → List Nat)
    {shuffle_infos : List go_test_node.main.PeerInfo → List go_test_node.main.PeerInfo}
    (hshuffle_infos : ∀ infos, (shuffle_infos infos).Perm infos)
    (hfuel : go_test_node.main.max_retries ≤ fuel) :
    go_test_node.main.connect_to_peers false details service.lookup lookup_addr id_from_private_key
      connect shuffle shuffle_infos fuel = .ok (some ⟨0, []⟩) := by
  have hname : host_part "nimp2p-service" = "nimp2p-service" := host_part_of_notMem (by decide)
  have hnone := lookup_service hconfig service hname
  have hlast : (fun attempt => false || attempt == go_test_node.main.max_retries)
      go_test_node.main.max_retries = true := by decide
  have haddress : go_test_node.main.resolve_address service.lookup lookup_addr false details.muxer
      fuel "nimp2p-service" = some none := by
    rw [go_test_node.main.resolve_address, Retries.retry_of_gives_up hnone hlast (by decide)
      (by simp only [go_test_node.main.max_retries] at hfuel ⊢; omega)]
    rfl
  have hempty : shuffle_infos [] = [] := List.perm_nil.mp (hshuffle_infos [])
  simp only [go_test_node.main.connect_to_peers, go_test_node.main.t_addresses, hservice,
    Bool.false_eq_true, if_false, bind, Except.bind, Retries.gather, haddress, Option.getD_none,
    List.append_nil, hempty, go_test_node.main.dial_peers]
  split_ifs <;> rfl

end

end nodes
