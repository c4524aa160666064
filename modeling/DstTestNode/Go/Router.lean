import Mathlib.Data.Finset.Card
import Mathlib.Data.Finset.Prod
import DstTestNode.Library.Machine
import DstTestNode.Go.Tracer

namespace go_test_node.metrics

/-- The topics a router has joined, the mesh of each, and the prunes it still
owes to the tracer for the topic it is leaving. -/
structure Router where
  joined : Finset String
  mesh : String → Finset String
  pending : Finset (String × String)

namespace Router

def new : Router where
  joined := ∅
  mesh := fun _ => ∅
  pending := ∅

/-- The events the router can emit. While it leaves a topic it emits nothing
but the prunes of the peers that were in the mesh of that topic. -/
def emits (self : Router) : TraceEvent → Prop
  | .add_peer _ => self.pending = ∅
  | .remove_peer _ => self.pending = ∅
  | .join topic => self.pending = ∅ ∧ topic ∉ self.joined
  | .leave topic => self.pending = ∅ ∧ topic ∈ self.joined
  | .graft p topic => self.pending = ∅ ∧ topic ∈ self.joined ∧ p ∉ self.mesh topic
  | .prune p topic =>
    (self.pending = ∅ ∧ topic ∈ self.joined ∧ p ∈ self.mesh topic) ∨ (topic, p) ∈ self.pending

instance (self : Router) (event : TraceEvent) : Decidable (self.emits event) :=
  match event with
  | .add_peer _ => inferInstanceAs (Decidable (_ = _))
  | .remove_peer _ => inferInstanceAs (Decidable (_ = _))
  | .join _ => inferInstanceAs (Decidable (_ ∧ _))
  | .leave _ => inferInstanceAs (Decidable (_ ∧ _))
  | .graft _ _ => inferInstanceAs (Decidable (_ ∧ _))
  | .prune _ _ => inferInstanceAs (Decidable (_ ∨ _))

/-- What the router does as it emits an event. -/
def next (self : Router) : TraceEvent → Router
  | .add_peer _ => self
  | .remove_peer p => { self with mesh := fun topic => (self.mesh topic).erase p }
  | .join topic =>
    { self with joined := insert topic self.joined, mesh := Function.update self.mesh topic ∅ }
  | .leave topic =>
    { joined := self.joined.erase topic
      mesh := Function.update self.mesh topic ∅
      pending := {topic} ×ˢ self.mesh topic }
  | .graft p topic =>
    { self with mesh := Function.update self.mesh topic (insert p (self.mesh topic)) }
  | .prune p topic =>
    { self with
      mesh := Function.update self.mesh topic ((self.mesh topic).erase p)
      pending := self.pending.erase (topic, p) }

/-- Topics that are not joined have no mesh, and owed prunes are of such topics. -/
structure Valid (router : Router) : Prop where
  mesh_joined : ∀ topic, topic ∉ router.joined → router.mesh topic = ∅
  pending_left : ∀ topic p, (topic, p) ∈ router.pending → topic ∉ router.joined

theorem valid_new : new.Valid where
  mesh_joined := fun _ _ => rfl
  pending_left := fun _ _ hpending => absurd hpending (Finset.notMem_empty _)

/-- Every event the router emits keeps it valid. -/
theorem Valid.next {self : Router} (hself : self.Valid) {event : TraceEvent}
    (hemits : self.emits event) : (self.next event).Valid := by
  cases event with
  | add_peer p => exact hself
  | remove_peer p =>
    refine ⟨fun topic hnot => ?_, hself.pending_left⟩
    simp [Router.next, hself.mesh_joined topic hnot]
  | join topic =>
    obtain ⟨hpending, _⟩ := hemits
    refine ⟨fun other hnot => ?_, fun other p hother => ?_⟩
    · obtain ⟨hne, hold⟩ := not_or.mp (Finset.mem_insert.not.mp hnot)
      simp [Router.next, hne, hself.mesh_joined other hold]
    · simp [Router.next, hpending] at hother
  | leave topic =>
    refine ⟨fun other hnot => ?_, fun other p hother => ?_⟩
    · by_cases hne : other = topic
      · subst hne
        simp [Router.next]
      · have hold : other ∉ self.joined := fun hmem => hnot (Finset.mem_erase.mpr ⟨hne, hmem⟩)
        simp [Router.next, hne, hself.mesh_joined other hold]
    · simp only [Router.next, Finset.mem_product, Finset.mem_singleton] at hother
      simp [Router.next, hother.1]
  | graft p topic =>
    obtain ⟨hpending, hjoined, _⟩ := hemits
    refine ⟨fun other hnot => ?_, hself.pending_left⟩
    have hne : other ≠ topic := fun heq => hnot (heq ▸ hjoined)
    simp [Router.next, hne, hself.mesh_joined other hnot]
  | prune p topic =>
    refine ⟨fun other hnot => ?_, fun other q hother => ?_⟩
    · by_cases hne : other = topic
      · subst hne
        simp [Router.next, hself.mesh_joined other hnot]
      · simp [Router.next, hne, hself.mesh_joined other hnot]
    · exact hself.pending_left other q (Finset.mem_of_mem_erase hother)

end Router

/-- A router and the tracer that sees its events. -/
structure TracedRouter where
  router : Router
  tracer : GossipSubTracer

def traced_router (d_low : Int) : Machine TracedRouter TraceEvent where
  initial := { router := .new, tracer := .new d_low }
  enabled := fun self event => self.router.emits event
  next := fun self event =>
    { router := self.router.next event, tracer := self.tracer.trace event }

instance (d_low : Int) (self : TracedRouter) (event : TraceEvent) :
    Decidable ((traced_router d_low).enabled self event) :=
  inferInstanceAs (Decidable (self.router.emits event))

/-- The tracer's count of every joined topic is the size of its mesh. -/
def MeshSizesAgree (self : TracedRouter) : Prop :=
  ∀ topic ∈ self.router.joined, self.tracer.count topic = (self.router.mesh topic).card

/-- A peer that disconnects is in no mesh. -/
def RemovedOutsideMesh (self : TracedRouter) : TraceEvent → Prop
  | .remove_peer p => ∀ topic ∈ self.router.joined, p ∉ self.router.mesh topic
  | _ => True

instance (self : TracedRouter) (event : TraceEvent) : Decidable (RemovedOutsideMesh self event) :=
  match event with
  | .remove_peer _ => inferInstanceAs (Decidable (∀ topic ∈ self.router.joined, _))
  | .add_peer _ | .join _ | .leave _ | .graft _ _ | .prune _ _ => .isTrue trivial

/-- As long as no peer disconnects from a mesh, every topic counts its mesh,
and a topic that is not joined counts zero. -/
theorem count_next {self : TracedRouter} (hvalid : self.router.Valid)
    (hcounts : ∀ topic, self.tracer.count topic = (self.router.mesh topic).card)
    {event : TraceEvent} (hemits : self.router.emits event)
    (hcondition : RemovedOutsideMesh self event) (topic : String) :
    (self.tracer.trace event).count topic = ((self.router.next event).mesh topic).card := by
  cases event with
  | add_peer p => exact hcounts topic
  | remove_peer p =>
    have hnot : p ∉ self.router.mesh topic := by
      by_cases hjoined : topic ∈ self.router.joined
      · exact hcondition topic hjoined
      · simp [hvalid.mesh_joined topic hjoined]
    simp only [Router.next, Finset.erase_eq_of_notMem hnot]
    exact hcounts topic
  | join other =>
    simp only [GossipSubTracer.trace, GossipSubTracer.count_join, Router.next]
    by_cases hother : topic = other
    · subst hother
      simp [hcounts topic, hvalid.mesh_joined topic hemits.2]
    · simpa [hother] using hcounts topic
  | leave other =>
    simp only [GossipSubTracer.trace, GossipSubTracer.count_leave, Router.next]
    by_cases hother : topic = other
    · subst hother
      simp
    · simpa [hother] using hcounts topic
  | graft p other =>
    simp only [GossipSubTracer.trace, GossipSubTracer.count_graft, Router.next]
    by_cases hother : topic = other
    · subst hother
      simp [hcounts topic, Finset.card_insert_of_notMem hemits.2.2]
    · simpa [hother] using hcounts topic
  | prune p other =>
    simp only [GossipSubTracer.trace, GossipSubTracer.count_prune, Router.next]
    by_cases hother : topic = other
    · subst hother
      simp only [if_true, Function.update_self, hcounts topic]
      rcases hemits with ⟨_, _, hmem⟩ | hpending
      · have hcard := Finset.card_erase_add_one hmem
        omega
      · have hempty := hvalid.mesh_joined topic (hvalid.pending_left topic p hpending)
        simp [hempty]
    · simpa [hother] using hcounts topic

/-- The tracer's mesh sizes are the router's mesh sizes in a sequence of events
exactly when no peer disconnects while it is in a mesh. -/
theorem mesh_sizes_agree_iff (d_low : Int) (events : List TraceEvent)
    (hlegal : (traced_router d_low).Legal events) :
    (traced_router d_low).Always MeshSizesAgree events ↔
      (traced_router d_low).Meets RemovedOutsideMesh events := by
  apply Machine.always_iff_meets _ (fun self => self.router.Valid ∧
    ∀ topic, self.tracer.count topic = (self.router.mesh topic).card)
  · exact ⟨Router.valid_new, fun topic => rfl⟩
  · exact fun self hself topic _ => hself.2 topic
  · exact fun self event hself hemits hcondition =>
      ⟨hself.1.next hemits, count_next hself.1 hself.2 hemits hcondition⟩
  · rintro self event ⟨hvalid, hcounts⟩ hemits hnot hagrees
    cases event with
    | remove_peer p =>
      simp only [RemovedOutsideMesh, not_forall, not_not] at hnot
      obtain ⟨topic, hjoined, hmem⟩ := hnot
      have hcount : self.tracer.count topic = ((self.router.mesh topic).erase p).card :=
        hagrees topic hjoined
      have hcard := Finset.card_erase_add_one hmem
      rw [hcounts topic] at hcount
      omega
    | _ => exact hnot trivial
  · exact hlegal

/-- A run of every event kind, in which the peer leaves the mesh before it
disconnects. -/
theorem mesh_sizes_agree_pruned :
    (traced_router 4).Always MeshSizesAgree
      [.add_peer "p", .join "test", .graft "p" "test", .prune "p" "test", .remove_peer "p",
        .leave "test"] :=
  (mesh_sizes_agree_iff 4 _ (by decide)).mpr (by decide)

/-- A peer that disconnects from the mesh of a topic stays counted there. -/
theorem removed_peer_stays_counted :
    (traced_router 4).Legal [.add_peer "p", .join "test", .graft "p" "test", .remove_peer "p"] ∧
      ¬ (traced_router 4).Always MeshSizesAgree
        [.add_peer "p", .join "test", .graft "p" "test", .remove_peer "p"] := by
  refine ⟨by decide, fun halways => ?_⟩
  have hcount := halways.last "test" (by decide)
  revert hcount
  decide

end go_test_node.metrics
