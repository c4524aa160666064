import Mathlib.Algebra.Order.Ring.Int
import Mathlib.Tactic.Linarith
import DstTestNode.Library.LeastCost
import DstTestNode.Shadow.TopologyEdges

open python

namespace shadow.topogen

variable {Loss : Type}

/-- Between any two stages, the edge is a path of least latency, and its
latency is at least the requested minimum. -/
def ImposesLatencies (G : Graph Loss) (steps : Nat) (min_latency : Int) : Prop :=
  ∀ i j, i < steps → j < steps → i ≠ j → ∃ latency, G.latency i j = some latency ∧
    IsLeast {cost | PathCost G.latency i j cost} latency ∧ min_latency ≤ latency

section

variable {steps : Nat} {latency_jump min_latency max_latency : Int}

theorem min_le_edge_latency (hjump : 0 ≤ latency_jump) (hmax : min_latency ≤ max_latency) {j : Nat}
    (hj : j < steps) : min_latency ≤ edge_latency steps latency_jump min_latency max_latency j := by
  have hsteps : (0 : Int) ≤ steps - j := by omega
  have hproduct := mul_nonneg hsteps hjump
  simp only [edge_latency]
  omega

/-- The first stage after stage zero has the largest latency. -/
theorem edge_latency_antitone (hjump : 0 ≤ latency_jump) {j k : Nat} (hjk : j ≤ k) :
    edge_latency steps latency_jump min_latency max_latency k ≤
      edge_latency steps latency_jump min_latency max_latency j := by
  have hsteps : (steps - k : Int) ≤ steps - j := by omega
  have hproduct := mul_le_mul_of_nonneg_right hsteps hjump
  simp only [edge_latency]
  omega

/-- If one latency between stages is positive, all of them are. -/
theorem edge_latency_pos (hjump : 0 ≤ latency_jump) (hmin : 0 ≤ min_latency)
    (hmax : min_latency ≤ max_latency) {j k : Nat} (hk : k < steps)
    (hpos : 0 < edge_latency steps latency_jump min_latency max_latency j) :
    0 < edge_latency steps latency_jump min_latency max_latency k := by
  by_cases hzero : min_latency = 0
  · have hjump_pos : 0 < latency_jump := by
      by_contra hnot
      have hjump_zero : latency_jump = 0 := by omega
      simp [edge_latency, hjump_zero, hzero] at hpos
    have hsteps : (0 : Int) < steps - k := by omega
    have hproduct := mul_pos hsteps hjump_pos
    simp only [edge_latency] at hpos ⊢
    omega
  · have hle := min_le_edge_latency hjump hmax hk
    omega

end

section

variable {steps : Nat} {min_bandwidth max_bandwidth min_latency max_latency : Int}
  {packet_loss : Loss} {G : Graph Loss} {latency_jump : Int}

/-- No edge has a negative latency. Between different nodes all latencies are
positive as soon as one between stages is. -/
theorem HasLatencies.bounds (hG : HasLatencies G steps latency_jump min_latency max_latency)
    (hjump : 0 ≤ latency_jump) (hmin : 0 ≤ min_latency) (hmax : min_latency ≤ max_latency)
    {u v : Nat} {edge : Int} (hedge : G.latency u v = some edge) :
    0 ≤ edge ∧ ∀ j, 0 < edge_latency steps latency_jump min_latency max_latency j → u ≠ v →
      0 < edge := by
  rw [hG] at hedge
  split_ifs at hedge with hbeyond hhub hloop
  · cases hedge
    exact ⟨by omega, fun _ _ _ => by omega⟩
  · cases hedge
    refine ⟨?_, fun _ _ hne => absurd hloop hne⟩
    simp only [self_latency]
    omega
  · cases hedge
    have hstage : max u v < steps := by omega
    have hle := min_le_edge_latency hjump hmax hstage
    exact ⟨by omega, fun j hpos _ => edge_latency_pos hjump hmin hmax hstage hpos⟩

/-- When no latency between stages exceeds the way through the injector's node,
a potential shows that every edge between stages is a path of least latency. -/
theorem HasLatencies.imposes (hG : HasLatencies G steps latency_jump min_latency max_latency)
    (hjump : 0 ≤ latency_jump) (hmin : 0 ≤ min_latency) (hmax : min_latency ≤ max_latency)
    (hshort : edge_latency steps latency_jump min_latency max_latency 1 ≤ 2) :
    ImposesLatencies G steps min_latency := by
  intro i j hi hj hne
  let direct := edge_latency steps latency_jump min_latency max_latency (max i j)
  have hedge : G.latency i j = some direct := by
    rw [hG, if_neg (by omega), if_neg (by omega), if_neg hne]
  have hbound : direct ≤ 2 :=
    (edge_latency_antitone hjump (show 1 ≤ max i j by omega)).trans hshort
  have hdirect : min_latency ≤ direct := min_le_edge_latency hjump hmax (by omega)
  let potential (x : Nat) : Int := if x = j then 0 else if x = i then direct else min direct 1
  refine ⟨direct, hedge, ?_, hdirect⟩
  apply PathCost.isLeast_of_potential potential ?_ hedge (by simp [potential, hne])
    (by simp [potential])
  intro u v edge huv
  obtain ⟨hnonneg, hpositive⟩ := hG.bounds hjump hmin hmax huv
  by_cases hloop : u = v
  · subst hloop
    omega
  · by_cases hends : u = i ∧ v = j
    · obtain ⟨rfl, rfl⟩ := hends
      have hsame : direct = edge := Option.some.inj (hedge.symm.trans huv)
      simp [potential, hne, hsame]
    · have hpos : 0 < direct → 0 < edge := fun hpos => hpositive _ hpos hloop
      simp only [potential]
      split_ifs <;> omega

/-- A latency between stages above two milliseconds is undercut by the way
through the injector's node. -/
theorem HasLatencies.not_imposes (hG : HasLatencies G steps latency_jump min_latency max_latency)
    (hsteps : 2 ≤ steps) (hlong : 2 < edge_latency steps latency_jump min_latency max_latency 1) :
    ¬ ImposesLatencies G steps min_latency := by
  intro himposes
  obtain ⟨latency, hlatency, hleast, _⟩ := himposes 0 1 (by omega) (by omega) (by omega)
  have hin : G.latency 0 steps = some 1 := by
    rw [hG, if_neg (by omega), if_pos (by omega)]
  have hout : G.latency steps 1 = some 1 := by
    rw [hG, if_neg (by omega), if_pos (by omega)]
  have hdirect :
      G.latency 0 1 = some (edge_latency steps latency_jump min_latency max_latency 1) := by
    rw [hG, if_neg (by omega), if_neg (by omega), if_neg (by omega)]
    rfl
  have hle := hleast.2 (PathCost.cons hin (PathCost.single hout))
  rw [hdirect] at hlatency
  cases hlatency
  omega

/-- The topology imposes the latencies it declares exactly when the largest of
them, that of the edge between stages zero and one, is at most two
milliseconds: the latency of the way through the injector's node. -/
theorem imposes_latencies_iff [Zero Loss] (hsteps : 2 ≤ steps) (hmin : 0 ≤ min_latency)
    (hmax : min_latency ≤ max_latency)
    (hG : create_network_topology steps min_bandwidth max_bandwidth min_latency max_latency
      packet_loss = .ok G) :
    ImposesLatencies G steps min_latency ↔
      ∀ latency_jump, int_truediv (max_latency - min_latency) steps = .ok latency_jump →
        min ((steps - 1) * latency_jump + min_latency) max_latency ≤ 2 := by
  obtain ⟨latency_jump, hquotient, hlatencies⟩ := create_network_topology_latency steps hG
  have hjump := int_truediv_nonneg (by omega) (by omega) hquotient
  have hcondition : (∀ jump, int_truediv (max_latency - min_latency) steps = .ok jump →
      min ((steps - 1) * jump + min_latency) max_latency ≤ 2) ↔
      edge_latency steps latency_jump min_latency max_latency 1 ≤ 2 := by
    simp [hquotient, edge_latency]
  rw [hcondition]
  constructor
  · intro himposes
    by_contra hlong
    exact HasLatencies.not_imposes hlatencies hsteps (by omega) himposes
  · exact HasLatencies.imposes hlatencies hjump hmin hmax

/-- Two stages with latencies of one and two milliseconds. -/
theorem imposes_latencies_one_to_two :
    ∃ G, create_network_topology 2 50 150 1 2 (0 : Nat) = .ok G ∧ ImposesLatencies G 2 1 := by
  have hbandwidth : int_truediv (150 - 50) (2 : Nat) = .ok 50 := by decide
  have hlatency : int_truediv (2 - 1) (2 : Nat) = .ok 0 := by decide
  obtain ⟨G, hG, _⟩ := create_network_topology_edges 2 (0 : Nat) hbandwidth hlatency
  refine ⟨G, hG, (imposes_latencies_iff (by omega) (by omega) (by omega) hG).mpr ?_⟩
  intro latency_jump hjump
  rw [hlatency] at hjump
  cases hjump
  decide

/-- Two stages that declare a latency of 100 ms between them: the way through
the injector's node takes two. -/
theorem declared_latency_undercut :
    ∃ G, create_network_topology 2 50 50 100 100 (0 : Nat) = .ok G ∧ G.latency 0 1 = some 100 ∧
      PathCost G.latency 0 1 2 ∧ ¬ ImposesLatencies G 2 100 := by
  have hbandwidth : int_truediv (50 - 50) (2 : Nat) = .ok 0 := by decide
  have hlatency : int_truediv (100 - 100) (2 : Nat) = .ok 0 := by decide
  obtain ⟨G, hG, _⟩ := create_network_topology_edges 2 (0 : Nat) hbandwidth hlatency
  obtain ⟨latency_jump, hjump, hlatencies⟩ := create_network_topology_latency 2 hG
  rw [hlatency] at hjump
  cases hjump
  refine ⟨G, hG, hlatencies 0 1, ?_, HasLatencies.not_imposes hlatencies (by omega) (by decide)⟩
  exact PathCost.cons (hlatencies 0 2) (PathCost.single (hlatencies 2 1))

end

end shadow.topogen
