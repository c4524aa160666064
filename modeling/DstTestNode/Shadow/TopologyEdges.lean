import DstTestNode.Shadow.Topology
import Mathlib.Order.MinMax
import Mathlib.Data.Prod.Basic

open python

namespace shadow.topogen

variable {Loss : Type}

theorem edge_key_of_le {u v : Nat} (hle : u ≤ v) : edge_key u v = (u, v) := by
  simp [edge_key, hle]

namespace Graph

theorem mem_nodes_add_node (G : Graph Loss) (n : Nat) (attrs : NodeAttrs → NodeAttrs) (other : Nat) :
    other ∈ (G.add_node n attrs).nodes ↔ other = n ∨ other ∈ G.nodes := by
  simp [add_node]

theorem mem_nodes_add_edge {G : Graph Loss} {n : Nat} (u v : Nat) (hn : n ∈ G.nodes) :
    n ∈ (G.add_edge u v).nodes := by
  simp only [add_edge, mem_nodes_add_node]
  exact .inr (.inr hn)

theorem lookup_add_edge_of_ne (G : Graph Loss) {u v : Nat} {key : Nat × Nat}
    (hne : key ≠ edge_key u v) : (G.add_edge u v).edges.lookup key = G.edges.lookup key := by
  simp only [add_edge, AList.lookup_insert_ne hne]
  rfl

theorem mem_edges_add_edge (G : Graph Loss) (u v : Nat) (key : Nat × Nat) :
    key ∈ (G.add_edge u v).edges ↔ key = edge_key u v ∨ key ∈ G.edges := by
  simp only [add_edge, AList.mem_insert]
  rfl

end Graph

/-- The nodes below `n` are there, and the edges between any two of them. -/
structure Complete (n : Nat) (G : Graph Loss) : Prop where
  nodes : ∀ i, i < n → i ∈ G.nodes
  edges : ∀ i j, i < j → j < n → (i, j) ∈ G.edges

theorem mem_nodes_foldl_add_node (items : List Nat) (G : Graph Loss) (n : Nat) :
    n ∈ (items.foldl (fun G i => G.add_node i id) G).nodes ↔ n ∈ items ∨ n ∈ G.nodes := by
  induction items generalizing G with
  | nil => simp
  | cons i items ih =>
    rw [List.foldl_cons, ih, Graph.mem_nodes_add_node, List.mem_cons]
    tauto

theorem mem_edges_foldl_add_node (items : List Nat) (G : Graph Loss) (key : Nat × Nat) :
    key ∈ (items.foldl (fun G i => G.add_node i id) G).edges ↔ key ∈ G.edges := by
  induction items generalizing G with
  | nil => rfl
  | cons i items ih =>
    rw [List.foldl_cons, ih]
    rfl

theorem foldl_add_edge (i : Nat) (items : List Nat) (G : Graph Loss) :
    (∀ n ∈ G.nodes, n ∈ (items.foldl (fun G j => G.add_edge i j) G).nodes) ∧
      ∀ key, key ∈ (items.foldl (fun G j => G.add_edge i j) G).edges ↔
        (∃ j ∈ items, key = edge_key i j) ∨ key ∈ G.edges := by
  induction items generalizing G with
  | nil => simp
  | cons j items ih =>
    obtain ⟨hnodes, hedges⟩ := ih (G.add_edge i j)
    refine ⟨fun n hn => hnodes n (Graph.mem_nodes_add_edge i j hn), fun key => ?_⟩
    rw [List.foldl_cons, hedges, Graph.mem_edges_add_edge]
    simp only [List.mem_cons, exists_eq_or_imp]
    rw [or_left_comm, or_assoc]

/-- The rows of edges that `complete_graph` adds, one for each node. -/
theorem foldl_add_row (n : Nat) (items : List Nat) (G : Graph Loss) :
    (∀ node ∈ G.nodes, node ∈
        (items.foldl (fun G i => (range (i + 1) n).foldl (fun G j => G.add_edge i j) G) G).nodes) ∧
      ∀ key, key ∈
          (items.foldl (fun G i => (range (i + 1) n).foldl (fun G j => G.add_edge i j) G) G).edges ↔
        (∃ i ∈ items, ∃ j ∈ range (i + 1) n, key = edge_key i j) ∨ key ∈ G.edges := by
  induction items generalizing G with
  | nil => simp
  | cons i items ih =>
    obtain ⟨hrow_nodes, hrow_edges⟩ := foldl_add_edge i (range (i + 1) n) G
    obtain ⟨hnodes, hedges⟩ := ih ((range (i + 1) n).foldl (fun G j => G.add_edge i j) G)
    refine ⟨fun node hnode => hnodes node (hrow_nodes node hnode), fun key => ?_⟩
    rw [List.foldl_cons, hedges, hrow_edges]
    simp only [List.mem_cons, exists_eq_or_imp]
    rw [or_left_comm, or_assoc]

theorem complete_graph_edges (n : Nat) (key : Nat × Nat) :
    key ∈ (complete_graph n : Graph Loss).edges ↔ key.1 < key.2 ∧ key.2 < n := by
  simp only [complete_graph, (foldl_add_row n _ _).2, mem_edges_foldl_add_node]
  have hempty : key ∉ (Graph.empty : Graph Loss).edges := by simp [Graph.empty]
  simp only [hempty, or_false, mem_range]
  constructor
  · rintro ⟨i, hi, j, ⟨hlt, hj⟩, heq⟩
    rw [heq, edge_key_of_le (by omega)]
    exact ⟨hlt, hj⟩
  · rintro ⟨hlt, hn⟩
    exact ⟨key.1, ⟨Nat.zero_le _, by omega⟩, key.2, ⟨hlt, hn⟩, by rw [edge_key_of_le (by omega)]⟩

theorem complete_graph_complete (n : Nat) : Complete n (complete_graph n : Graph Loss) where
  nodes := by
    intro i hi
    apply (foldl_add_row n _ _).1
    rw [mem_nodes_foldl_add_node]
    exact .inl (mem_range.mpr ⟨Nat.zero_le _, hi⟩)
  edges := fun i j hlt hj => (complete_graph_edges n (i, j)).mpr ⟨hlt, hj⟩

/-- The edges under some keys get the attributes that `value` gives them, all
other edges are unchanged, and no node is removed. -/
structure Writes (value : Nat × Nat → EdgeAttrs Loss) (keys : List (Nat × Nat))
    (before after : Graph Loss) : Prop where
  edges : ∀ key, after.edges.lookup key =
    if key ∈ keys then some (value key) else before.edges.lookup key
  nodes : ∀ n, n ∈ before.nodes → n ∈ after.nodes

namespace Writes

variable {value : Nat × Nat → EdgeAttrs Loss} {keys later : List (Nat × Nat)}
  {before middle after : Graph Loss}

theorem refl (value : Nat × Nat → EdgeAttrs Loss) (G : Graph Loss) : Writes value [] G G where
  edges := by simp
  nodes := fun _ hn => hn

theorem trans (hfirst : Writes value keys before middle) (hsecond : Writes value later middle after) :
    Writes value (keys ++ later) before after where
  edges := by
    intro key
    rw [hsecond.edges, hfirst.edges]
    by_cases hlater : key ∈ later
    · simp [hlater]
    · simp [hlater]
  nodes := fun n hn => hsecond.nodes n (hfirst.nodes n hn)

theorem mem_edges (hwrites : Writes value keys before after) {key : Nat × Nat}
    (hkey : key ∈ before.edges) : key ∈ after.edges := by
  rw [← AList.lookup_isSome] at hkey ⊢
  rw [hwrites.edges]
  split
  · rfl
  · exact hkey

theorem complete {n : Nat} (hwrites : Writes value keys before after) (hbefore : Complete n before) :
    Complete n after where
  nodes := fun i hi => hwrites.nodes i (hbefore.nodes i hi)
  edges := fun i j hlt hj => hwrites.mem_edges (hbefore.edges i j hlt hj)

/-- A loop whose every iteration writes the keys of its item writes all keys. -/
theorem foldlM {n : Nat} {step : Graph Loss → Nat → Except PyError (Graph Loss)}
    {row : Nat → List (Nat × Nat)} {items : List Nat}
    (hstep : ∀ i ∈ items, ∀ G, Complete n G →
      ∃ next, step G i = .ok next ∧ Writes value (row i) G next)
    {G : Graph Loss} (hG : Complete n G) :
    ∃ last, items.foldlM step G = .ok last ∧ Writes value (items.flatMap row) G last := by
  induction items generalizing G with
  | nil => exact ⟨G, rfl, refl value G⟩
  | cons i items ih =>
    obtain ⟨next, hnext, hwrites⟩ := hstep i List.mem_cons_self G hG
    obtain ⟨last, hlast, hrest⟩ := ih (fun j hj => hstep j (List.mem_cons_of_mem i hj))
      (hwrites.complete hG)
    refine ⟨last, ?_, hwrites.trans hrest⟩
    simp only [List.foldlM_cons, hnext, bind, Except.bind]
    exact hlast

end Writes

/-- Setting an attribute of a node that exists writes no edge. -/
theorem set_node_writes (value : Nat × Nat → EdgeAttrs Loss) {G : Graph Loss} {i : Nat}
    (hnode : i ∈ G.nodes) (attrs : NodeAttrs → NodeAttrs) :
    ∃ next, G.set_node i attrs = .ok next ∧ Writes value [] G next := by
  obtain ⟨old, hold⟩ := Option.isSome_iff_exists.mp (AList.lookup_isSome.mpr hnode)
  simp only [Graph.set_node, hold]
  exact ⟨_, rfl, by simp, fun n hn => by simp [hn]⟩

/-- Setting both attributes of an edge that exists writes that edge. -/
theorem set_link_writes {value : Nat × Nat → EdgeAttrs Loss} {G : Graph Loss} {u v : Nat}
    (hedge : edge_key u v ∈ G.edges) {latency : Int} {packet_loss : Loss}
    (hvalue : value (edge_key u v) = ⟨some ⟨latency, "ms"⟩, some packet_loss⟩) :
    ∃ next, set_link G u v latency packet_loss = .ok next ∧
      Writes value [edge_key u v] G next := by
  obtain ⟨old, hold⟩ := Option.isSome_iff_exists.mp (AList.lookup_isSome.mpr hedge)
  simp only [set_link, Graph.set_edge, hold, AList.lookup_insert, bind, Except.bind]
  refine ⟨_, rfl, fun key => ?_, fun n hn => hn⟩
  by_cases hkey : key = edge_key u v
  · subst hkey
    simp [hvalue]
  · simp [hkey, AList.lookup_insert_ne hkey]

/-- Adding an edge and setting both its attributes writes that edge. -/
theorem add_link_writes {value : Nat × Nat → EdgeAttrs Loss} (G : Graph Loss) (u v : Nat)
    {latency : Int} {packet_loss : Loss}
    (hvalue : value (edge_key u v) = ⟨some ⟨latency, "ms"⟩, some packet_loss⟩) :
    ∃ next, set_link (G.add_edge u v) u v latency packet_loss = .ok next ∧
      Writes value [edge_key u v] G next := by
  obtain ⟨next, hnext, hwrites⟩ := set_link_writes
    ((G.mem_edges_add_edge u v (edge_key u v)).mpr (.inl rfl)) hvalue
  refine ⟨next, hnext, fun key => ?_, fun n hn => hwrites.nodes n (Graph.mem_nodes_add_edge u v hn)⟩
  rw [hwrites.edges]
  by_cases hkey : key = edge_key u v
  · simp [hkey]
  · simp [hkey, G.lookup_add_edge_of_ne hkey]

section

variable [Zero Loss] (steps : Nat) (latency_jump min_latency max_latency : Int) (packet_loss : Loss)

/-- The attributes that an edge of the topology ends up with, by its end nodes
in ascending order. -/
def link_attrs (key : Nat × Nat) : EdgeAttrs Loss :=
  if key.2 = steps then ⟨some ⟨1, "ms"⟩, some 0⟩
  else if key.1 = key.2 then
    ⟨some ⟨self_latency steps latency_jump min_latency key.1, "ms"⟩, some packet_loss⟩
  else ⟨some ⟨edge_latency steps latency_jump min_latency max_latency key.2, "ms"⟩, some packet_loss⟩

/-- One stage writes its self-loop and its edges to the later stages. -/
theorem configure_stage_writes (bandwidth_jump min_bandwidth : Int) {i : Nat} (hi : i < steps)
    {G : Graph Loss} (hG : Complete steps G) :
    ∃ next, configure_stage steps bandwidth_jump min_bandwidth latency_jump min_latency max_latency
        packet_loss G i = .ok next ∧
      Writes (link_attrs steps latency_jump min_latency max_latency packet_loss)
        ((i, i) :: (range (i + 1) steps).map fun j => (i, j)) G next := by
  let value := link_attrs steps latency_jump min_latency max_latency packet_loss
  let node_bw : Quantity := ⟨i * bandwidth_jump + min_bandwidth, "Mbit"⟩
  obtain ⟨up, hup, hwrites_up⟩ := set_node_writes value (hG.nodes i hi)
    ({ · with host_bandwidth_up := some node_bw })
  obtain ⟨down, hdown, hwrites_down⟩ := set_node_writes value
    ((hwrites_up.complete hG).nodes i hi) ({ · with host_bandwidth_down := some node_bw })
  have hself : value (edge_key i i) =
      ⟨some ⟨self_latency steps latency_jump min_latency i, "ms"⟩, some packet_loss⟩ := by
    simp [value, link_attrs, edge_key, Nat.ne_of_lt hi]
  obtain ⟨looped, hlooped, hloop⟩ := add_link_writes down i i hself
  have hlooped_writes := (hwrites_up.trans hwrites_down).trans hloop
  have hrow : ∀ j ∈ range (i + 1) steps, ∀ G : Graph Loss, Complete steps G →
      ∃ next, set_link G i j (edge_latency steps latency_jump min_latency max_latency j)
        packet_loss = .ok next ∧ Writes value [(i, j)] G next := by
    intro j hj G hG
    obtain ⟨hlt, hj⟩ := mem_range.mp hj
    have hkey := edge_key_of_le (show i ≤ j by omega)
    have hlink : value (edge_key i j) =
        ⟨some ⟨edge_latency steps latency_jump min_latency max_latency j, "ms"⟩,
          some packet_loss⟩ := by
      simp [value, link_attrs, hkey, Nat.ne_of_lt hj, show i ≠ j by omega]
    rw [← hkey]
    exact set_link_writes (hkey ▸ hG.edges i j hlt hj) hlink
  obtain ⟨next, hnext, hrow_writes⟩ := Writes.foldlM hrow (hlooped_writes.complete hG)
  refine ⟨next, ?_, ?_⟩
  · simp only [configure_stage, node_bw, bind, Except.bind] at hup hdown hlooped hnext ⊢
    rw [hup]
    dsimp only
    rw [hdown]
    dsimp only
    rw [hlooped]
    exact hnext
  · have hkeys := hlooped_writes.trans hrow_writes
    simpa [edge_key_of_le, ← List.map_eq_flatMap] using hkeys

/-- The injector's node is connected to every stage and to itself. -/
theorem connect_injector_writes {i : Nat} (hi : i ≤ steps) (G : Graph Loss) :
    ∃ next, connect_injector steps G i = .ok next ∧
      Writes (link_attrs steps latency_jump min_latency max_latency packet_loss) [(i, steps)] G next := by
  have hkey := edge_key_of_le hi
  rw [← hkey]
  exact add_link_writes G i steps (by simp [link_attrs, hkey])

/-- The keys that the two loops write are all pairs of nodes. -/
theorem mem_written_keys (key : Nat × Nat) :
    key ∈ ((range 0 steps).flatMap fun i => (i, i) :: (range (i + 1) steps).map fun j => (i, j)) ++
        (range 0 (steps + 1)).flatMap (fun i => [(i, steps)]) ↔
      key.1 ≤ key.2 ∧ key.2 ≤ steps := by
  obtain ⟨i, j⟩ := key
  simp only [List.mem_append, List.mem_flatMap, List.mem_cons, List.mem_map, mem_range,
    Prod.mk.injEq, List.not_mem_nil, or_false]
  constructor
  · rintro (⟨k, hk, heq | ⟨l, hl, heq⟩⟩ | ⟨k, hk, heq⟩) <;> omega
  · rintro ⟨hij, hj⟩
    by_cases hhub : j = steps
    · exact .inr ⟨i, by omega, rfl, hhub⟩
    · refine .inl ⟨i, by omega, ?_⟩
      by_cases hloop : i = j
      · exact .inl ⟨rfl, hloop.symm⟩
      · exact .inr ⟨j, by omega, rfl, rfl⟩

/-- The topology is built whenever the two jumps can be computed. Its edges are
those between any two of its nodes, with the attributes written last. -/
theorem create_network_topology_lookup {min_bandwidth max_bandwidth bandwidth_jump : Int}
    {latency_jump min_latency max_latency : Int} (packet_loss : Loss)
    (hbandwidth : int_truediv (max_bandwidth - min_bandwidth) steps = .ok bandwidth_jump)
    (hlatency : int_truediv (max_latency - min_latency) steps = .ok latency_jump) :
    ∃ G, create_network_topology steps min_bandwidth max_bandwidth min_latency max_latency
        packet_loss = .ok G ∧
      ∀ key, G.edges.lookup key = if key.1 ≤ key.2 ∧ key.2 ≤ steps then
        some (link_attrs steps latency_jump min_latency max_latency packet_loss key) else none := by
  let value := link_attrs steps latency_jump min_latency max_latency packet_loss
  have hstage : ∀ i ∈ range 0 steps, ∀ G : Graph Loss, Complete steps G →
      ∃ next, configure_stage steps bandwidth_jump min_bandwidth latency_jump min_latency max_latency
        packet_loss G i = .ok next ∧
      Writes value ((i, i) :: (range (i + 1) steps).map fun j => (i, j)) G next :=
    fun i hi G hG => configure_stage_writes steps latency_jump min_latency max_latency packet_loss
      bandwidth_jump min_bandwidth (mem_range.mp hi).2 hG
  have hlink : ∀ i ∈ range 0 (steps + 1), ∀ G : Graph Loss, Complete 0 G →
      ∃ next, connect_injector steps G i = .ok next ∧ Writes value [(i, steps)] G next :=
    fun i hi G _ => connect_injector_writes steps latency_jump min_latency max_latency packet_loss
      (Nat.lt_succ_iff.mp (mem_range.mp hi).2) G
  obtain ⟨staged, hstaged, hstages⟩ := Writes.foldlM hstage (complete_graph_complete steps)
  let joined := staged.add_node steps fun _ => ⟨some ⟨100, "Mbit"⟩, some ⟨100, "Mbit"⟩⟩
  obtain ⟨G, hG, hinjector⟩ := Writes.foldlM hlink
    (show Complete 0 joined from ⟨by simp, by simp⟩)
  refine ⟨G, ?_, fun key => ?_⟩
  · simp only [create_network_topology, hbandwidth, hlatency, hstaged, bind, Except.bind]
    exact hG
  · have hwrites : Writes (link_attrs steps latency_jump min_latency max_latency packet_loss) _
        (complete_graph steps) G :=
      hstages.trans ⟨hinjector.edges, fun n hn => hinjector.nodes n (by
        rw [Graph.mem_nodes_add_node]
        exact .inr hn)⟩
    rw [hwrites.edges]
    by_cases hkey : key.1 ≤ key.2 ∧ key.2 ≤ steps
    · rw [if_pos ((mem_written_keys steps key).mpr hkey), if_pos hkey]
    · rw [if_neg (fun hmem => hkey ((mem_written_keys steps key).mp hmem)), if_neg hkey,
        AList.lookup_eq_none, complete_graph_edges]
      exact fun hedge => hkey ⟨Nat.le_of_lt hedge.1, Nat.le_of_lt hedge.2⟩

/-- The same edges by their end nodes, in any order. -/
theorem create_network_topology_edges {min_bandwidth max_bandwidth bandwidth_jump : Int}
    {latency_jump min_latency max_latency : Int} (packet_loss : Loss)
    (hbandwidth : int_truediv (max_bandwidth - min_bandwidth) steps = .ok bandwidth_jump)
    (hlatency : int_truediv (max_latency - min_latency) steps = .ok latency_jump) :
    ∃ G, create_network_topology steps min_bandwidth max_bandwidth min_latency max_latency
        packet_loss = .ok G ∧
      ∀ u v, G.edges.lookup (edge_key u v) = if max u v ≤ steps then
        some (link_attrs steps latency_jump min_latency max_latency packet_loss (edge_key u v))
        else none := by
  obtain ⟨G, hG, hedges⟩ := create_network_topology_lookup steps packet_loss hbandwidth hlatency
  refine ⟨G, hG, fun u v => ?_⟩
  have hordered : (edge_key u v).1 ≤ (edge_key u v).2 := min_le_max
  simp only [hedges, hordered, true_and]
  rfl

/-- The latencies of a topology, by its latency jump. -/
def HasLatencies (G : Graph Loss) (steps : Nat) (latency_jump min_latency max_latency : Int) : Prop :=
  ∀ u v, G.latency u v =
    if steps < max u v then none
    else if max u v = steps then some 1
    else if u = v then some (self_latency steps latency_jump min_latency u)
    else some (edge_latency steps latency_jump min_latency max_latency (max u v))

/-- A topology that was built has the latencies of its latency jump. -/
theorem create_network_topology_latency {min_bandwidth max_bandwidth : Int} {G : Graph Loss}
    {min_latency max_latency : Int} {packet_loss : Loss}
    (hG : create_network_topology steps min_bandwidth max_bandwidth min_latency max_latency
      packet_loss = .ok G) :
    ∃ latency_jump, int_truediv (max_latency - min_latency) steps = .ok latency_jump ∧
      HasLatencies G steps latency_jump min_latency max_latency := by
  cases hbandwidth : int_truediv (max_bandwidth - min_bandwidth) steps with
  | error e => simp [create_network_topology, hbandwidth, bind, Except.bind] at hG
  | ok bandwidth_jump =>
    cases hlatency : int_truediv (max_latency - min_latency) steps with
    | error e => simp [create_network_topology, hbandwidth, hlatency, bind, Except.bind] at hG
    | ok latency_jump =>
      obtain ⟨built, hbuilt, hedges⟩ :=
        create_network_topology_edges steps packet_loss hbandwidth hlatency
      rw [hG] at hbuilt
      cases hbuilt
      refine ⟨latency_jump, rfl, fun u v => ?_⟩
      rw [Graph.latency, hedges]
      by_cases hbeyond : steps < max u v
      · simp [hbeyond, Nat.not_le.mpr hbeyond]
      · have hself : min u v = max u v ↔ u = v := by omega
        have hmin : u = v → min u v = u := by omega
        simp only [hbeyond, Nat.le_of_not_lt hbeyond, if_true, if_false, Option.bind_some, link_attrs,
          edge_key, hself]
        split_ifs with hhub hloop
        · rfl
        · simp [hmin hloop]
        · rfl

end

end shadow.topogen
