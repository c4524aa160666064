import Mathlib
import DstTestNode.Shadow.Python

open python

namespace shadow.topogen

def shadow_env : Nat := 1

def connections : Nat := 10

def gml_file : String := "network_topology.gml"

/-- The arguments of the generator, after conversion to their types. The text
of the delay is the one it is printed with. -/
structure Args where
  network_size : Int
  min_bandwidth : Int
  max_bandwidth : Int
  min_latency : Int
  max_latency : Int
  anchor_stages : Int
  msg_size_bytes : Int
  num_frags : Int
  messages : Int
  delay_seconds : String
  muxer : String

/-- Why the argument parser refuses its arguments. -/
inductive ParserError where
  | invalid_choice (argument : String)
  | error (message : String)
  deriving DecidableEq, Repr

def parse_arguments (args : Args) : Except ParserError Args :=
  if ¬ (1 ≤ args.num_frags ∧ args.num_frags < 10) then .error (.invalid_choice "num_frags")
  else if args.muxer ∉ ["mplex", "yamux", "quic"] then .error (.invalid_choice "muxer")
  else if args.min_bandwidth > args.max_bandwidth then
    .error (.error "min_bandwidth cannot exceed max_bandwidth")
  else if args.min_latency > args.max_latency then
    .error (.error "min_latency cannot exceed max_latency")
  else .ok args

/-- A mapping from texts to texts. -/
abbrev Dict : Type := AList fun _ : String => String

/-- A dictionary display. -/
def dict (items : List (String × String)) : Dict :=
  items.foldl (fun mapping item => mapping.insert item.1 item.2) ∅

structure Process where
  path : String
  args : Option String
  start_time : String
  environment : Dict

structure Host where
  network_node_id : Nat
  processes : List Process

structure General where
  bootstrap_end_time : String
  heartbeat_interval : String
  stop_time : String
  progress : Bool
  deriving DecidableEq, Repr

structure Config where
  general : General
  use_memory_manager : Bool
  graph_type : String
  graph_path : String
  hosts : AList fun _ : String => Host

/-- `f'pod-{i}'`. -/
def pod_name (i : Nat) : String := "pod" ++ "-" ++ i.repr

/-- The environment of the peers. -/
def peer_environment (network_size : Nat) (num_publishers num_frags : Int) (muxer : String) : Dict :=
  dict [("PEERS", network_size.repr), ("SHADOWENV", shadow_env.repr),
    ("CONNECTTO", connections.repr), ("PUBLISHERS", num_publishers.repr),
    ("FRAGMENTS", num_frags.repr), ("MUXER", muxer)]

/-- The host template of one stage. -/
def peer_host (network_size : Nat) (num_publishers num_frags : Int) (muxer : String) (i : Nat) :
    Host where
  network_node_id := i
  processes :=
    [{ path := "./main"
       args := none
       start_time := "5s"
       environment := peer_environment network_size num_publishers num_frags muxer }]

/-- The host of the publish controller. -/
def controller_host (steps network_size : Nat) (num_publishers message_size : Int)
    (message_delay : String) : Host where
  network_node_id := steps
  processes :=
    [{ path := "/usr/bin/python"
       args := some ("../../../traffic_sync.py -s " ++ message_size.repr ++ " -m " ++
         num_publishers.repr ++ " -d " ++ message_delay ++ " -n " ++ network_size.repr ++
         " --peer-selection id")
       start_time := "500s"
       environment := dict [("SHADOWENV", shadow_env.repr)] }]

/-- One iteration of the loop over the stages: the template, and the first host
made of it. -/
def add_template (host : Nat → Host)
    (tables : (AList fun _ : Nat => Host) × (AList fun _ : String => Host)) (i : Nat) :
    (AList fun _ : Nat => Host) × (AList fun _ : String => Host) :=
  (tables.1.insert i (host i), tables.2.insert (pod_name i) (host i))

/-- One iteration of the loop that distributes the other peers over the stages. -/
def add_peer (steps : Nat) (host_templates : AList fun _ : Nat => Host)
    (hosts : AList fun _ : String => Host) (i : Nat) :
    Except PyError (AList fun _ : String => Host) := do
  let stage ← int_mod i steps
  match host_templates.lookup stage with
  | none => .error .key_error
  | some host => .ok (hosts.insert (pod_name i) host)

def create_shadow_config (steps network_size : Nat) (num_publishers num_frags message_size : Int)
    (message_delay muxer : String) : Except PyError Config := do
  let (host_templates, hosts) := (range 0 steps).foldl
    (add_template (peer_host network_size num_publishers num_frags muxer)) (∅, ∅)
  let hosts ← (range steps network_size).foldlM (add_peer steps host_templates) hosts
  .ok
    { general :=
        { bootstrap_end_time := "10s"
          heartbeat_interval := "12s"
          stop_time := "15m"
          progress := true }
      use_memory_manager := false
      graph_type := "gml"
      graph_path := gml_file
      hosts := hosts.insert (pod_name network_size)
        (controller_host steps network_size num_publishers message_size message_delay) }

theorem pod_name_inj {i j : Nat} : pod_name i = pod_name j ↔ i = j := by
  constructor
  · intro heq
    have hchars := congrArg String.toList heq
    simp only [pod_name, String.toList_append, List.append_cancel_left_eq] at hchars
    exact Nat.repr_inj.mp (String.toList_inj.mp hchars)
  · rintro rfl
    rfl

/-- The loop over the stages makes the template and the first host of each. -/
theorem foldl_add_template (host : Nat → Host) (items : List Nat)
    (tables : (AList fun _ : Nat => Host) × (AList fun _ : String => Host)) (i : Nat) :
    (items.foldl (add_template host) tables).1.lookup i =
        (if i ∈ items then some (host i) else tables.1.lookup i) ∧
      (items.foldl (add_template host) tables).2.lookup (pod_name i) =
        if i ∈ items then some (host i) else tables.2.lookup (pod_name i) := by
  induction items generalizing tables with
  | nil => simp
  | cons j items ih =>
    obtain ⟨htemplates, hhosts⟩ := ih (add_template host tables j)
    rw [List.foldl_cons, htemplates, hhosts]
    by_cases hitems : i ∈ items
    · simp [hitems]
    · by_cases hij : i = j
      · subst hij
        simp [add_template]
      · simp [hitems, hij, add_template, AList.lookup_insert_ne, pod_name_inj]

/-- The loop over the other peers gives each of them the template of its stage. -/
theorem foldlM_add_peer {steps : Nat} (hsteps : 0 < steps) {host : Nat → Host}
    {host_templates : AList fun _ : Nat => Host}
    (htemplates : ∀ i, i < steps → host_templates.lookup i = some (host i)) (items : List Nat)
    (hosts : AList fun _ : String => Host) :
    ∃ last, items.foldlM (add_peer steps host_templates) hosts = .ok last ∧
      ∀ i, last.lookup (pod_name i) =
        if i ∈ items then some (host (i % steps)) else hosts.lookup (pod_name i) := by
  induction items generalizing hosts with
  | nil => exact ⟨hosts, rfl, by simp⟩
  | cons j items ih =>
    have hstep : add_peer steps host_templates hosts j =
        .ok (hosts.insert (pod_name j) (host (j % steps))) := by
      simp only [add_peer, int_mod_of_pos hsteps, htemplates _ (Nat.mod_lt j hsteps), bind,
        Except.bind]
    obtain ⟨last, hlast, hlookup⟩ := ih (hosts.insert (pod_name j) (host (j % steps)))
    refine ⟨last, ?_, fun i => ?_⟩
    · simp only [List.foldlM_cons, hstep, bind, Except.bind]
      exact hlast
    · rw [hlookup]
      by_cases hitems : i ∈ items
      · simp [hitems]
      · by_cases hij : i = j
        · subst hij
          simp
        · simp [hitems, hij, AList.lookup_insert_ne, pod_name_inj]

/-- The configuration can be built for any positive number of stages. Its peers
take the templates of the stages in turn, and the controller comes last. -/
theorem create_shadow_config_hosts {steps : Nat} (hsteps : 0 < steps) (network_size : Nat)
    (num_publishers num_frags message_size : Int) (message_delay muxer : String) :
    ∃ config, create_shadow_config steps network_size num_publishers num_frags message_size
        message_delay muxer = .ok config ∧
      ∀ i, config.hosts.lookup (pod_name i) =
        if i = network_size then
          some (controller_host steps network_size num_publishers message_size message_delay)
        else if i < max steps network_size then
          some (peer_host network_size num_publishers num_frags muxer (i % steps))
        else none := by
  let host := peer_host network_size num_publishers num_frags muxer
  let tables := (range 0 steps).foldl (add_template host) (∅, ∅)
  have htables := foldl_add_template host (range 0 steps) (∅, ∅)
  have htemplates : ∀ i, i < steps → tables.1.lookup i = some (host i) := by
    intro i hi
    rw [(htables i).1, if_pos (mem_range.mpr ⟨Nat.zero_le _, hi⟩)]
  obtain ⟨hosts, hrun, hlookup⟩ :=
    foldlM_add_peer hsteps htemplates (range steps network_size) tables.2
  simp only [tables, host] at hrun hlookup
  simp only [create_shadow_config, hrun, bind, Except.bind]
  refine ⟨_, rfl, fun i => ?_⟩
  by_cases hcontroller : i = network_size
  · subst hcontroller
    simp
  · have hname : pod_name i ≠ pod_name network_size := fun heq => hcontroller (pod_name_inj.mp heq)
    rw [AList.lookup_insert_ne hname, hlookup, (htables i).2, if_neg hcontroller]
    simp only [mem_range, Nat.zero_le, true_and, AList.lookup_empty, host]
    by_cases hfirst : i < steps
    · simp [hfirst, Nat.mod_eq_of_lt hfirst]
    · by_cases hpeer : i < network_size
      · simp [hfirst, hpeer, Nat.le_of_not_lt hfirst]
      · simp [hfirst, hpeer]

end shadow.topogen
