import DstTestNode.Shadow.TopologyEdges

open python

namespace shadow.topogen

variable {Loss : Type}

namespace Graph

theorem set_edge_nodes {G next : Graph Loss} {u v : Nat} {attrs : EdgeAttrs Loss → EdgeAttrs Loss}
    (hset : G.set_edge u v attrs = .ok next) : next.nodes = G.nodes := by
  simp only [set_edge] at hset
  split at hset
  · cases hset
  · cases hset
    rfl

theorem set_node_lookup {G next : Graph Loss} {n : Nat} {attrs : NodeAttrs → NodeAttrs}
    (hset : G.set_node n attrs = .ok next) (other : Nat) :
    next.nodes.lookup other =
      if other = n then (G.nodes.lookup n).map attrs else G.nodes.lookup other := by
  simp only [set_node] at hset
  split at hset
  · cases hset
  · next old hold =>
    cases hset
    by_cases hother : other = n
    · subst hother
      simp [hold]
    · simp [hother, AList.lookup_insert_ne hother]

theorem set_node_mem {G next : Graph Loss} {n : Nat} {attrs : NodeAttrs → NodeAttrs}
    (hset : G.set_node n attrs = .ok next) : n ∈ G.nodes := by
  simp only [set_node] at hset
  split at hset
  · cases hset
  · next old hold => exact AList.lookup_isSome.mp (by rw [hold]; rfl)

/-- Adding a node that exists without attributes changes nothing. -/
theorem lookup_add_node_id {G : Graph Loss} {n : Nat} (hn : n ∈ G.nodes) (other : Nat) :
    (G.add_node n id).nodes.lookup other = G.nodes.lookup other := by
  by_cases hother : other = n
  · subst hother
    obtain ⟨old, hold⟩ := Option.isSome_iff_exists.mp (AList.lookup_isSome.mpr hn)
    simp [add_node, hold]
  · simp [add_node, AList.lookup_insert_ne hother]

theorem lookup_add_edge_nodes {G : Graph Loss} {u v : Nat} (hu : u ∈ G.nodes) (hv : v ∈ G.nodes)
    (n : Nat) : (G.add_edge u v).nodes.lookup n = G.nodes.lookup n := by
  have hv' : v ∈ (G.add_node u id).nodes := (G.mem_nodes_add_node u id v).mpr (.inr hv)
  exact (lookup_add_node_id hv' n).trans (lookup_add_node_id hu n)

end Graph

/-- Setting the attributes of an edge leaves the nodes alone. -/
theorem set_link_nodes {G next : Graph Loss} {u v : Nat} {latency : Int} {packet_loss : Loss}
    (hset : set_link G u v latency packet_loss = .ok next) : next.nodes = G.nodes := by
  simp only [set_link, bind, Except.bind] at hset
  split at hset
  · cases hset
  · next middle hmiddle => exact (Graph.set_edge_nodes hset).trans (Graph.set_edge_nodes hmiddle)

/-- What every iteration of a loop keeps, the loop keeps. -/
theorem foldlM_keeps {α β : Type} {step : α → Nat → Except PyError α} (view : α → β) (first : α)
    {items : List Nat} (hstep : ∀ i ∈ items, ∀ before after, view before = view first →
      step before i = .ok after → view after = view before)
    {start last : α} (hstart : view start = view first)
    (hrun : items.foldlM step start = .ok last) : view last = view first := by
  induction items generalizing start with
  | nil =>
    cases hrun
    exact hstart
  | cons i items ih =>
    simp only [List.foldlM_cons, bind, Except.bind] at hrun
    split at hrun
    · cases hrun
    next middle hmiddle =>
    have hnext := hstep i List.mem_cons_self start middle hstart hmiddle
    exact ih (fun j hj => hstep j (List.mem_cons_of_mem i hj)) (hnext.trans hstart) hrun

/-- The attributes of a stage's node. -/
def stage_attrs (bandwidth_jump min_bandwidth : Int) (i : Nat) : NodeAttrs :=
  let node_bw : Quantity := ⟨i * bandwidth_jump + min_bandwidth, "Mbit"⟩
  ⟨some node_bw, some node_bw⟩

section

variable {steps : Nat} {bandwidth_jump min_bandwidth latency_jump min_latency max_latency : Int}
  {packet_loss : Loss}

/-- One stage sets the attributes of its own node. -/
theorem configure_stage_nodes {G next : Graph Loss} {i : Nat}
    (hstage : configure_stage steps bandwidth_jump min_bandwidth latency_jump min_latency
      max_latency packet_loss G i = .ok next) (n : Nat) :
    next.nodes.lookup n =
      if n = i then some (stage_attrs bandwidth_jump min_bandwidth i) else G.nodes.lookup n := by
  simp only [configure_stage, bind, Except.bind] at hstage
  split at hstage
  · cases hstage
  next up hup =>
  split at hstage
  · cases hstage
  next down hdown =>
  split at hstage
  · cases hstage
  next looped hlooped =>
  have hrow : next.nodes = looped.nodes :=
    foldlM_keeps Graph.nodes looped (fun j _ before after _ hlink => set_link_nodes hlink) rfl hstage
  have hi : i ∈ down.nodes := by
    rw [← AList.lookup_isSome, Graph.set_node_lookup hdown, if_pos rfl, Option.isSome_map,
      AList.lookup_isSome]
    exact Graph.set_node_mem hdown
  rw [hrow, set_link_nodes hlooped, Graph.lookup_add_edge_nodes hi hi, Graph.set_node_lookup hdown]
  by_cases hn : n = i
  · obtain ⟨old, hold⟩ := Option.isSome_iff_exists.mp
      (AList.lookup_isSome.mpr (Graph.set_node_mem hup))
    simp [hn, Graph.set_node_lookup hup, hold, stage_attrs]
  · simp [hn, Graph.set_node_lookup hup]

/-- The loop over the stages sets the attributes of their nodes. -/
theorem foldlM_configure_stage_nodes {items : List Nat} {G last : Graph Loss}
    (hrun : items.foldlM (configure_stage steps bandwidth_jump min_bandwidth latency_jump
      min_latency max_latency packet_loss) G = .ok last) (n : Nat) :
    last.nodes.lookup n =
      if n ∈ items then some (stage_attrs bandwidth_jump min_bandwidth n)
      else G.nodes.lookup n := by
  induction items generalizing G with
  | nil =>
    cases hrun
    simp
  | cons i items ih =>
    simp only [List.foldlM_cons, bind, Except.bind] at hrun
    split at hrun
    · cases hrun
    next middle hmiddle =>
    rw [ih hrun, configure_stage_nodes hmiddle]
    by_cases hn : n = i
    · simp [hn]
    · simp [hn]

end

/-- The nodes of a complete graph are those below its size, without attributes. -/
theorem complete_graph_nodes (n : Nat) {node : Nat} (hnode : n ≤ node) :
    node ∉ (complete_graph n : Graph Loss).nodes := by
  have hrow (i : Nat) (hi : i < n) (items : List Nat) (hitems : ∀ j ∈ items, j < n)
      (G : Graph Loss) (hG : node ∉ G.nodes) :
      node ∉ (items.foldl (fun G j => G.add_edge i j) G).nodes := by
    induction items generalizing G with
    | nil => exact hG
    | cons j items ih =>
      have hj := hitems j List.mem_cons_self
      apply ih fun k hk => hitems k (List.mem_cons_of_mem j hk)
      simp only [Graph.add_edge, Graph.mem_nodes_add_node]
      rintro (rfl | rfl | hmem)
      · omega
      · omega
      · exact hG hmem
  have hrows (items : List Nat) (hitems : ∀ i ∈ items, i < n) (G : Graph Loss)
      (hG : node ∉ G.nodes) : node ∉ (items.foldl (fun G i =>
        (range (i + 1) n).foldl (fun G j => G.add_edge i j) G) G).nodes := by
    induction items generalizing G with
    | nil => exact hG
    | cons i items ih =>
      apply ih fun k hk => hitems k (List.mem_cons_of_mem i hk)
      exact hrow i (hitems i List.mem_cons_self) _ (fun j hj => (mem_range.mp hj).2) G hG
  apply hrows _ fun i hi => (mem_range.mp hi).2
  rw [mem_nodes_foldl_add_node]
  rintro (hmem | hmem)
  · have hlt := (mem_range.mp hmem).2
    omega
  · simp [Graph.empty] at hmem

/-- Connecting the injector leaves the nodes alone. -/
theorem connect_injector_nodes [Zero Loss] {steps : Nat} {G last : Graph Loss}
    (hmem : ∀ node ≤ steps, node ∈ G.nodes)
    (hrun : (range 0 (steps + 1)).foldlM (connect_injector steps) G = .ok last) (n : Nat) :
    last.nodes.lookup n = G.nodes.lookup n := by
  have hkeeps := foldlM_keeps (fun H : Graph Loss => H.nodes.lookup) G
    (fun i hi before after hbefore hlink => ?_) rfl hrun
  · exact congrFun hkeeps n
  · have hbefore_mem : ∀ node ≤ steps, node ∈ before.nodes := by
      intro node hnode
      rw [← AList.lookup_isSome, congrFun hbefore node, AList.lookup_isSome]
      exact hmem node hnode
    have hi := Nat.lt_succ_iff.mp (mem_range.mp hi).2
    funext node
    rw [set_link_nodes hlink]
    exact Graph.lookup_add_edge_nodes (hbefore_mem i hi) (hbefore_mem steps le_rfl) node

/-- The nodes of a topology that was built: the stages with their bandwidths,
and the node of the injector. -/
theorem create_network_topology_nodes [Zero Loss] {steps : Nat} {min_bandwidth max_bandwidth
    min_latency max_latency bandwidth_jump : Int} {packet_loss : Loss} {G : Graph Loss}
    (hbandwidth : int_truediv (max_bandwidth - min_bandwidth) steps = .ok bandwidth_jump)
    (hG : create_network_topology steps min_bandwidth max_bandwidth min_latency max_latency
      packet_loss = .ok G) (n : Nat) :
    G.nodes.lookup n =
      if n < steps then some (stage_attrs bandwidth_jump min_bandwidth n)
      else if n = steps then some ⟨some ⟨100, "Mbit"⟩, some ⟨100, "Mbit"⟩⟩ else none := by
  simp only [create_network_topology, hbandwidth, bind, Except.bind] at hG
  split at hG
  · cases hG
  next latency_jump hlatency =>
  split at hG
  · cases hG
  next staged hstaged =>
  have hstages := foldlM_configure_stage_nodes hstaged
  let joined := staged.add_node steps fun _ => ⟨some ⟨100, "Mbit"⟩, some ⟨100, "Mbit"⟩⟩
  have hjoined (node : Nat) : joined.nodes.lookup node =
      if node < steps then some (stage_attrs bandwidth_jump min_bandwidth node)
      else if node = steps then some ⟨some ⟨100, "Mbit"⟩, some ⟨100, "Mbit"⟩⟩ else none := by
    by_cases hnode : node = steps
    · subst hnode
      simp [joined, Graph.add_node]
    · have hnone : steps ≤ node → (complete_graph steps : Graph Loss).nodes.lookup node = none :=
        fun hle => AList.lookup_eq_none.mpr (complete_graph_nodes steps hle)
      simp only [joined, Graph.add_node, AList.lookup_insert_ne hnode, hstages, mem_range,
        Nat.zero_le, true_and, hnode, if_false]
      split_ifs with hlt
      · rfl
      · exact hnone (by omega)
  have hmem : ∀ node ≤ steps, node ∈ joined.nodes := by
    intro node hnode
    rw [← AList.lookup_isSome, hjoined]
    split_ifs
    · rfl
    · rfl
    · omega
  exact (connect_injector_nodes hmem hG n).trans (hjoined n)

end shadow.topogen
