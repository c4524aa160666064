import Mathlib
import DstTestNode.Library.Tally
import DstTestNode.Shadow.HostTable

open python

namespace shadow.topogen

/-- The host runs the node binary. -/
def runs_node (host : Host) : Bool := host.processes.map Process.path == ["./main"]

/-- The host runs the publish controller. -/
def runs_controller (host : Host) : Bool :=
  host.processes.map Process.path == ["/usr/bin/python"] && host.processes.all fun process =>
    process.args.any fun args => args.startsWith "../../../traffic_sync.py "

/-- The peers of a configuration that are attached to a node of the network. -/
def peers_at (config : Config) (stage : Nat) : Nat :=
  config.hosts.entries.countP fun entry => runs_node entry.2 && entry.2.network_node_id == stage

/-- The hosts are the requested peers, spread over the stages in turn, and the
publish controller. -/
structure RequestedNetwork (config : Config) (steps network_size : Nat) : Prop where
  hosts : ∀ name, name ∈ config.hosts ↔ ∃ i, i ≤ network_size ∧ name = pod_name i
  peers : ∀ i, i < network_size → ∃ host, config.hosts.lookup (pod_name i) = some host ∧
    runs_node host = true ∧ host.network_node_id = i % steps
  controller : ∃ host, config.hosts.lookup (pod_name network_size) = some host ∧
    runs_controller host = true ∧ host.network_node_id = steps
  size : (config.hosts.entries.countP fun entry => runs_node entry.2) = network_size
  balanced : ∀ a b, a < steps → b < steps → peers_at config a ≤ peers_at config b + 1

theorem runs_node_peer_host (network_size : Nat) (num_publishers num_frags : Int) (muxer : String)
    (stage : Nat) : runs_node (peer_host network_size num_publishers num_frags muxer stage) = true :=
  rfl

theorem runs_node_controller_host (steps network_size : Nat) (num_publishers message_size : Int)
    (message_delay : String) : runs_node (controller_host steps network_size num_publishers
      message_size message_delay) = false :=
  rfl

theorem runs_controller_controller_host (steps network_size : Nat)
    (num_publishers message_size : Int) (message_delay : String) :
    runs_controller (controller_host steps network_size num_publishers message_size
      message_delay) = true := by
  simp [runs_controller, controller_host, String.startsWith_string_iff]

theorem pod_names_add_template (host : Nat → Host) (items : List Nat)
    (tables : (AList fun _ : Nat => Host) × (AList fun _ : String => Host))
    (htables : ∀ name ∈ tables.2, ∃ i, name = pod_name i) :
    ∀ name ∈ (items.foldl (add_template host) tables).2, ∃ i, name = pod_name i := by
  induction items generalizing tables with
  | nil => exact htables
  | cons i items ih =>
    apply ih
    intro name hname
    rcases (AList.mem_insert _).mp hname with rfl | hname
    · exact ⟨i, rfl⟩
    · exact htables name hname

theorem pod_names_add_peer {steps : Nat} {host_templates : AList fun _ : Nat => Host}
    {items : List Nat} {hosts last : AList fun _ : String => Host}
    (hhosts : ∀ name ∈ hosts, ∃ i, name = pod_name i)
    (hrun : items.foldlM (add_peer steps host_templates) hosts = .ok last) :
    ∀ name ∈ last, ∃ i, name = pod_name i := by
  induction items generalizing hosts with
  | nil =>
    cases hrun
    exact hhosts
  | cons i items ih =>
    simp only [List.foldlM_cons, bind, Except.bind] at hrun
    split at hrun
    · cases hrun
    next middle hmiddle =>
    refine ih (fun name hname => ?_) hrun
    simp only [add_peer, bind, Except.bind] at hmiddle
    split at hmiddle
    · cases hmiddle
    split at hmiddle
    · cases hmiddle
    cases hmiddle
    rcases (AList.mem_insert _).mp hname with rfl | hname
    · exact ⟨i, rfl⟩
    · exact hhosts name hname

/-- Every host of a configuration is a pod. -/
theorem pod_names_create_shadow_config {steps network_size : Nat}
    {num_publishers num_frags message_size : Int} {message_delay muxer : String} {config : Config}
    (hconfig : create_shadow_config steps network_size num_publishers num_frags message_size
      message_delay muxer = .ok config) :
    ∀ name ∈ config.hosts, ∃ i, name = pod_name i := by
  simp only [create_shadow_config, bind, Except.bind] at hconfig
  split at hconfig
  · cases hconfig
  next hosts hhosts =>
  cases hconfig
  intro name hname
  rcases (AList.mem_insert _).mp hname with rfl | hname
  · exact ⟨network_size, rfl⟩
  · refine pod_names_add_peer (pod_names_add_template _ _ _ fun name hname => ?_) hhosts name hname
    exact absurd hname (AList.notMem_empty name)

/-- How many numbers below `n` a stage gets when they go to the stages in turn. -/
theorem countP_mod (n : Nat) {steps stage : Nat} (hstage : stage < steps) :
    ((List.range n).countP fun i => i % steps == stage) =
      n / steps + if stage < n % steps then 1 else 0 := by
  have hcount := Nat.count_modEq_card n (show 0 < steps by omega) stage
  rw [Nat.mod_eq_of_lt hstage] at hcount
  rw [← hcount, Nat.count]
  apply List.countP_congr
  intro i _
  simp [Nat.ModEq, Nat.mod_eq_of_lt hstage]

section

variable {steps network_size : Nat} {num_publishers num_frags message_size : Int}
  {message_delay muxer : String} {config : Config}

/-- The hosts with a property, counted by their numbers. -/
theorem countP_hosts {count : Nat} (hpods : ∀ name ∈ config.hosts, ∃ i, name = pod_name i)
    (hmem : ∀ i, pod_name i ∈ config.hosts ↔ i < count) (property : Host → Bool) :
    (config.hosts.entries.countP fun entry => property entry.2) =
      (List.range count).countP fun i => (config.hosts.lookup (pod_name i)).any property := by
  have hnodup : ((List.range count).map pod_name).Nodup :=
    List.nodup_range.map fun i j heq => pod_name_inj.mp heq
  have hkeys : ∀ name, name ∈ config.hosts ↔ name ∈ (List.range count).map pod_name := by
    intro name
    simp only [List.mem_map, List.mem_range]
    constructor
    · intro hname
      obtain ⟨i, rfl⟩ := hpods name hname
      exact ⟨i, (hmem i).mp hname, rfl⟩
    · rintro ⟨i, hi, rfl⟩
      exact (hmem i).mpr hi
  rw [Tally.countP_entries hnodup hkeys, List.countP_map]
  rfl

variable (hpods : ∀ name ∈ config.hosts, ∃ i, name = pod_name i)
  (hlookup : ∀ i, config.hosts.lookup (pod_name i) =
    if i = network_size then
      some (controller_host steps network_size num_publishers message_size message_delay)
    else if i < network_size then
      some (peer_host network_size num_publishers num_frags muxer (i % steps))
    else none)

include hlookup

theorem mem_hosts (i : Nat) : pod_name i ∈ config.hosts ↔ i < network_size + 1 := by
  rw [← AList.lookup_isSome, hlookup]
  split_ifs <;> simp <;> omega

include hpods

/-- The peers with a property, when the controller is the host after them. -/
theorem countP_peers (property : Host → Bool) :
    (config.hosts.entries.countP fun entry => runs_node entry.2 && property entry.2) =
      (List.range network_size).countP fun i =>
        property (peer_host network_size num_publishers num_frags muxer (i % steps)) := by
  rw [countP_hosts hpods (mem_hosts hlookup) fun host => runs_node host && property host,
    List.range_succ, List.countP_append]
  have hlast : ([network_size].countP fun i => (config.hosts.lookup (pod_name i)).any fun host =>
      runs_node host && property host) = 0 := by
    simp [hlookup, runs_node_controller_host]
  rw [hlast, Nat.add_zero]
  apply List.countP_congr
  intro i hi
  have hi := List.mem_range.mp hi
  rw [hlookup, if_neg (by omega), if_pos hi, Option.any_some, runs_node_peer_host, Bool.true_and]

/-- The peers of the stages, which get them in turn, differ by at most one. -/
theorem peers_at_balanced {a b : Nat} (ha : a < steps) (hb : b < steps) :
    peers_at config a ≤ peers_at config b + 1 := by
  have hpeers := countP_peers hpods hlookup
  rw [peers_at, peers_at, hpeers fun host => host.network_node_id == a,
    hpeers fun host => host.network_node_id == b]
  have ha' := countP_mod network_size ha
  have hb' := countP_mod network_size hb
  simp only [peer_host]
  rw [ha', hb']
  split_ifs <;> omega

/-- Hosts that are looked up so are the requested network. -/
theorem requestedNetwork_of_lookup : RequestedNetwork config steps network_size where
  hosts name := by
    constructor
    · intro hname
      obtain ⟨i, rfl⟩ := hpods name hname
      exact ⟨i, Nat.lt_succ_iff.mp ((mem_hosts hlookup i).mp hname), rfl⟩
    · rintro ⟨i, hi, rfl⟩
      exact (mem_hosts hlookup i).mpr (Nat.lt_succ_iff.mpr hi)
  peers i hi := ⟨_, by rw [hlookup, if_neg (by omega), if_pos hi], rfl, rfl⟩
  controller :=
    ⟨_, by rw [hlookup, if_pos rfl], runs_controller_controller_host _ _ _ _ _, rfl⟩
  size := by
    have hall := countP_peers hpods hlookup fun _ => true
    simpa using hall
  balanced a b ha hb := peers_at_balanced hpods hlookup ha hb

end

/-- The hosts are the requested network exactly when there are at most as many
stages as hosts: each further stage gets a peer of its own. -/
theorem requested_network_iff {steps : Nat} (hsteps : 1 ≤ steps) (network_size : Nat)
    (num_publishers num_frags message_size : Int) (message_delay muxer : String) :
    ∃ config, create_shadow_config steps network_size num_publishers num_frags message_size
        message_delay muxer = .ok config ∧
      (RequestedNetwork config steps network_size ↔ steps ≤ network_size + 1) := by
  obtain ⟨config, hconfig, hlookup⟩ := create_shadow_config_hosts hsteps network_size num_publishers
    num_frags message_size message_delay muxer
  refine ⟨config, hconfig, fun hrequested => ?_, fun hle => ?_⟩
  · by_contra hmany
    have hextra : pod_name (network_size + 1) ∈ config.hosts := by
      rw [← AList.lookup_isSome, hlookup, if_neg (by omega), if_pos (by omega)]
      rfl
    obtain ⟨i, hi, hname⟩ := (hrequested.hosts _).mp hextra
    have heq := pod_name_inj.mp hname
    omega
  · apply requestedNetwork_of_lookup (pod_names_create_shadow_config hconfig)
    intro i
    rw [hlookup]
    split_ifs <;> first | rfl | omega

/-- A hundred peers over five stages. -/
theorem requested_network_hundred :
    ∃ config, create_shadow_config 5 100 10 1 15000 "4.0" "yamux" = .ok config ∧
      RequestedNetwork config 5 100 := by
  obtain ⟨config, hconfig, hiff⟩ :=
    requested_network_iff (show 1 ≤ 5 by omega) 100 10 1 15000 "4.0" "yamux"
  exact ⟨config, hconfig, hiff.mpr (by omega)⟩

/-- One peer over five stages: the templates of the last three stages are
further hosts that run the node binary. -/
theorem extra_peers_five_stages :
    ∃ args config,
      parse_arguments ⟨1, 50, 150, 40, 130, 5, 15000, 1, 10, "4.0", "yamux"⟩ = .ok args ∧
      create_shadow_config args.anchor_stages.toNat args.network_size.toNat args.messages
        args.num_frags args.msg_size_bytes args.delay_seconds args.muxer = .ok config ∧
      (∃ host, config.hosts.lookup "pod-4" = some host ∧ runs_node host = true) ∧
      ¬ RequestedNetwork config 5 1 := by
  obtain ⟨config, hconfig, hlookup⟩ := create_shadow_config_hosts (show 0 < 5 by omega) 1 10
    1 15000 "4.0" "yamux"
  have hextra : config.hosts.lookup "pod-4" = some (peer_host 1 10 1 "yamux" 4) :=
    (hlookup 4).trans rfl
  refine ⟨_, config, rfl, hconfig, ⟨_, hextra, rfl⟩, fun hrequested => ?_⟩
  have hmem : pod_name 4 ∈ config.hosts := AList.lookup_isSome.mp (by
    rw [show pod_name 4 = "pod-4" from rfl, hextra]
    rfl)
  obtain ⟨i, hi, hname⟩ := (hrequested.hosts _).mp hmem
  have heq := pod_name_inj.mp hname
  omega

end shadow.topogen
