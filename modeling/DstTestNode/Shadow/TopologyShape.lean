import DstTestNode.Shadow.TopologyNodes
import DstTestNode.Shadow.Latency

open python

namespace shadow.topogen

variable {Loss : Type}

/-- The nodes up to `steps`, one edge for every unordered pair of them, and no
attribute missing. -/
structure FullyAttributed (G : Graph Loss) (steps : Nat) : Prop where
  nodes : ∀ n, n ∈ G.nodes ↔ n ≤ steps
  edges : ∀ key, key ∈ G.edges ↔ key.1 ≤ key.2 ∧ key.2 ≤ steps
  node_attrs : ∀ n attrs, G.nodes.lookup n = some attrs →
    attrs.host_bandwidth_up.isSome ∧ attrs.host_bandwidth_down.isSome
  edge_attrs : ∀ key attrs, G.edges.lookup key = some attrs →
    attrs.latency.isSome ∧ attrs.packet_loss.isSome

/-- The stages have bandwidths within the requested bounds that do not decrease,
and latencies within theirs: those of the self-loops do not increase, and those
of the other edges depend on the later stage only and do not increase with it. -/
structure WithinBounds (G : Graph Loss) (steps : Nat) (min_bandwidth max_bandwidth min_latency
    max_latency : Int) : Prop where
  bandwidth : ∃ bandwidth : Nat → Int,
    (∀ i, i < steps → G.nodes.lookup i =
        some ⟨some ⟨bandwidth i, "Mbit"⟩, some ⟨bandwidth i, "Mbit"⟩⟩ ∧
      min_bandwidth ≤ bandwidth i ∧ bandwidth i ≤ max_bandwidth) ∧
    ∀ i j, i ≤ j → j < steps → bandwidth i ≤ bandwidth j
  self_loops : ∃ latency : Nat → Int,
    (∀ i, i < steps → G.latency i i = some (latency i) ∧
      min_latency ≤ latency i ∧ latency i ≤ max_latency) ∧
    ∀ i j, i ≤ j → j < steps → latency j ≤ latency i
  links : ∃ latency : Nat → Int,
    (∀ i j, i < j → j < steps → G.latency i j = some (latency j) ∧
      min_latency ≤ latency j ∧ latency j ≤ max_latency) ∧
    ∀ j k, j ≤ k → k < steps → latency k ≤ latency j

section

variable {steps : Nat}

/-- As many truncated steps as there are stages do not exceed the whole span. -/
theorem mul_step_le (hsteps : 0 < steps) {span : Int} (hspan : 0 ≤ span) {count : Int}
    (hcount : count ≤ steps) : count * (span / steps) ≤ span := by
  have hstep : 0 ≤ span / (steps : Int) := Int.ediv_nonneg hspan (by omega)
  calc count * (span / steps) ≤ steps * (span / steps) :=
        mul_le_mul_of_nonneg_right hcount hstep
    _ ≤ span := Int.mul_ediv_self_le (by omega)

theorem self_latency_antitone {latency_jump min_latency : Int} (hjump : 0 ≤ latency_jump)
    {i j : Nat} (hij : i ≤ j) :
    self_latency steps latency_jump min_latency j ≤ self_latency steps latency_jump min_latency i := by
  have hsteps : (steps - j : Int) ≤ steps - i := by omega
  have hproduct := mul_le_mul_of_nonneg_right hsteps hjump
  simp only [self_latency]
  omega

theorem fullyAttributed_of_lookup {G : Graph Loss} {node : Nat → NodeAttrs}
    {edge : Nat × Nat → EdgeAttrs Loss}
    (hnodes : ∀ n, G.nodes.lookup n = if n ≤ steps then some (node n) else none)
    (hedges : ∀ key, G.edges.lookup key =
      if key.1 ≤ key.2 ∧ key.2 ≤ steps then some (edge key) else none)
    (hnode : ∀ n, (node n).host_bandwidth_up.isSome ∧ (node n).host_bandwidth_down.isSome)
    (hedge : ∀ key, (edge key).latency.isSome ∧ (edge key).packet_loss.isSome) :
    FullyAttributed G steps where
  nodes n := by
    rw [← AList.lookup_isSome, hnodes]
    split_ifs with hn <;> simp [hn]
  edges key := by
    rw [← AList.lookup_isSome, hedges]
    split_ifs with hkey <;> simp [hkey]
  node_attrs n attrs hattrs := by
    rw [hnodes] at hattrs
    split_ifs at hattrs
    cases hattrs
    exact hnode n
  edge_attrs key attrs hattrs := by
    rw [hedges] at hattrs
    split_ifs at hattrs
    cases hattrs
    exact hedge key

end

/-- The bandwidth of a stage, in steps of the truncated jump. -/
def stage_bandwidth (steps : Nat) (min_bandwidth max_bandwidth : Int) (i : Nat) : Int :=
  i * ((max_bandwidth - min_bandwidth) / steps) + min_bandwidth

section

variable {steps : Nat} {low high : Int} (hle : low ≤ high)

include hle

variable (steps) in
theorem jump_nonneg : 0 ≤ (high - low) / (steps : Int) :=
  Int.ediv_nonneg (by omega) (by omega)

theorem stage_bandwidth_bounds (hsteps : 1 ≤ steps) {i : Nat} (hi : i < steps) :
    low ≤ stage_bandwidth steps low high i ∧ stage_bandwidth steps low high i ≤ high := by
  have hproduct := mul_nonneg (by omega : (0 : Int) ≤ i) (jump_nonneg steps hle)
  have hspan := mul_step_le hsteps (by omega : 0 ≤ high - low)
    (by omega : (i : Int) ≤ steps)
  simp only [stage_bandwidth]
  omega

theorem stage_bandwidth_mono {i j : Nat} (hij : i ≤ j) :
    stage_bandwidth steps low high i ≤ stage_bandwidth steps low high j := by
  have hproduct := mul_le_mul_of_nonneg_right (by omega : (i : Int) ≤ j)
    (jump_nonneg steps hle)
  simp only [stage_bandwidth]
  omega

theorem self_latency_bounds (hsteps : 1 ≤ steps) (hlow : 0 ≤ low) {i : Nat} :
    low ≤ self_latency steps ((high - low) / steps) low i ∧
      self_latency steps ((high - low) / steps) low i ≤ high := by
  have hspan := mul_step_le hsteps (by omega : 0 ≤ high - low)
    (by omega : (steps - i : Int) ≤ steps)
  simp only [self_latency]
  omega

end

/-- The topology is complete, has every attribute, and keeps to the requested
bounds, where the two jumps are exact floor divisions. -/
theorem network_topology_shape [Zero Loss] {steps : Nat} (hsteps : 1 ≤ steps)
    {min_bandwidth max_bandwidth min_latency max_latency : Int}
    (hbandwidths : min_bandwidth ≤ max_bandwidth) (hmin_latency : 0 ≤ min_latency)
    (hlatencies : min_latency ≤ max_latency) (packet_loss : Loss)
    (hbandwidth : int_truediv (max_bandwidth - min_bandwidth) steps =
      .ok ((max_bandwidth - min_bandwidth) / steps))
    (hlatency : int_truediv (max_latency - min_latency) steps =
      .ok ((max_latency - min_latency) / steps)) :
    ∃ G, create_network_topology steps min_bandwidth max_bandwidth min_latency max_latency
        packet_loss = .ok G ∧
      FullyAttributed G steps ∧
      WithinBounds G steps min_bandwidth max_bandwidth min_latency max_latency := by
  obtain ⟨G, hG, hedges⟩ := create_network_topology_lookup steps packet_loss hbandwidth hlatency
  have hnodes := create_network_topology_nodes hbandwidth hG
  obtain ⟨latency_jump, hjump, hlatency_of⟩ := create_network_topology_latency steps hG
  rw [hlatency] at hjump
  cases hjump
  have hlatency_jump : 0 ≤ (max_latency - min_latency) / (steps : Int) :=
    jump_nonneg steps hlatencies
  refine ⟨G, hG, ?_, ⟨stage_bandwidth steps min_bandwidth max_bandwidth, fun i hi => ⟨?_, ?_⟩,
      fun i j hij _ => stage_bandwidth_mono hbandwidths hij⟩,
    ⟨self_latency steps _ min_latency, fun i hi => ⟨?_, ?_⟩,
      fun i j hij _ => self_latency_antitone hlatency_jump hij⟩,
    ⟨edge_latency steps _ min_latency max_latency, fun i j hij hj => ⟨?_, ?_, ?_⟩,
      fun j k hjk _ => edge_latency_antitone hlatency_jump hjk⟩⟩
  · apply fullyAttributed_of_lookup ?_ hedges ?_ ?_
    · exact fun n => if n < steps then
        stage_attrs ((max_bandwidth - min_bandwidth) / steps) min_bandwidth n
        else ⟨some ⟨100, "Mbit"⟩, some ⟨100, "Mbit"⟩⟩
    · intro n
      rw [hnodes]
      split_ifs <;> first | rfl | omega
    · intro n
      split_ifs <;> exact ⟨rfl, rfl⟩
    · intro key
      unfold link_attrs
      split_ifs <;> exact ⟨rfl, rfl⟩
  · rw [hnodes, if_pos hi]
    rfl
  · exact stage_bandwidth_bounds hbandwidths hsteps hi
  · rw [hlatency_of, if_neg (by omega), if_neg (by omega), if_pos rfl]
  · exact self_latency_bounds hlatencies hsteps hmin_latency
  · rw [hlatency_of, if_neg (by omega), if_neg (by omega), if_neg (by omega),
      Nat.max_eq_right (by omega)]
  · exact min_le_edge_latency hlatency_jump hlatencies hj
  · exact min_le_right _ _

/-- Five stages with bandwidths from 50 to 150 and latencies from 40 to 130. -/
theorem network_topology_shape_five :
    ∃ G, create_network_topology 5 50 150 40 130 (0 : Nat) = .ok G ∧ FullyAttributed G 5 ∧
      WithinBounds G 5 50 150 40 130 :=
  network_topology_shape (by omega) (by omega) (by omega) (by omega) 0
    (int_truediv_exact (by omega) (by omega) (by omega))
    (int_truediv_exact (by omega) (by omega) (by omega))

end shadow.topogen
