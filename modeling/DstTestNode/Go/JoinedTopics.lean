import DstTestNode.Go.Router

namespace go_test_node.metrics

/-- After a completed operation the map has exactly the joined topics as its
keys, and the health gauges classify these keys and sum to their number. -/
def TracksJoined (self : TracedRouter) : Prop :=
  self.router.pending = ∅ →
    (∀ topic, topic ∈ self.tracer.mesh_peer_count ↔ topic ∈ self.router.joined) ∧
      self.tracer.Fresh ∧
      self.tracer.gauges.gossipsub_no_peers_topics + self.tracer.gauges.gossipsub_low_peers_topics +
        self.tracer.gauges.gossipsub_healthy_peers_topics = self.router.joined.card

/-- An event is not the last prune of a topic that was left with peers in its
mesh. A topic left with an empty mesh owes no prunes. -/
def NotLastPrune (self : TracedRouter) : TraceEvent → Prop
  | .prune p topic => self.router.pending ≠ {(topic, p)}
  | _ => True

instance (self : TracedRouter) (event : TraceEvent) : Decidable (NotLastPrune self event) :=
  match event with
  | .prune _ _ => inferInstanceAs (Decidable (_ ≠ _))
  | .add_peer _ | .remove_peer _ | .join _ | .leave _ | .graft _ _ => .isTrue trivial

/-- Up-to-date gauges sum to the number of joined topics once these are the keys. -/
theorem tracksJoined_of_keys {self : TracedRouter} (hfresh : self.tracer.Fresh)
    (hkeys : ∀ topic, topic ∈ self.tracer.mesh_peer_count ↔ topic ∈ self.router.joined) :
    TracksJoined self := by
  refine fun _ => ⟨hkeys, hfresh, ?_⟩
  have hjoined : self.tracer.mesh_peer_count.keys.toFinset = self.router.joined := by
    ext topic
    rw [List.mem_toFinset]
    exact hkeys topic
  rw [hfresh.sum, ← hjoined, List.toFinset_card_of_nodup self.tracer.mesh_peer_count.keys_nodup]

/-- The keys of the map follow the joined topics through every event but the
prunes of a topic that was left. -/
theorem keys_next {self : TracedRouter}
    (hkeys : ∀ topic, topic ∈ self.tracer.mesh_peer_count ↔ topic ∈ self.router.joined)
    {event : TraceEvent} (hemits : self.router.emits event) (hpending : self.router.pending = ∅)
    (topic : String) :
    topic ∈ (self.tracer.trace event).mesh_peer_count ↔ topic ∈ (self.router.next event).joined := by
  cases event with
  | add_peer p => exact hkeys topic
  | remove_peer p => exact hkeys topic
  | join other =>
    rw [GossipSubTracer.trace, GossipSubTracer.mem_join, hkeys topic, Router.next,
      Finset.mem_insert]
  | leave other =>
    rw [GossipSubTracer.trace, GossipSubTracer.mem_leave, hkeys topic, Router.next,
      Finset.mem_erase]
  | graft p other =>
    rw [GossipSubTracer.trace, GossipSubTracer.mem_graft, hkeys topic, Router.next,
      or_iff_right_of_imp]
    rintro rfl
    exact hemits.2.1
  | prune p other =>
    rw [GossipSubTracer.trace, GossipSubTracer.mem_prune, hkeys topic, Router.next,
      or_iff_right_of_imp]
    rintro rfl
    rcases hemits with ⟨_, hjoined, _⟩ | howed
    · exact hjoined
    · simp [hpending] at howed

/-- While prunes are owed, only the last one completes the operation. -/
theorem pending_next {self : TracedRouter} {event : TraceEvent} (hemits : self.router.emits event)
    (hpending : self.router.pending ≠ ∅) (hcondition : NotLastPrune self event) :
    (self.router.next event).pending ≠ ∅ := by
  cases event with
  | prune p topic =>
    intro hnone
    rcases (Finset.erase_eq_empty_iff _ _).mp hnone with hempty | hlast
    · exact hpending hempty
    · exact hcondition hlast
  | add_peer p => exact absurd hemits hpending
  | remove_peer p => exact absurd hemits hpending
  | join topic => exact absurd hemits.1 hpending
  | leave topic => exact absurd hemits.1 hpending
  | graft p topic => exact absurd hemits.1 hpending

/-- The tracer tracks exactly the joined topics in a sequence of events exactly
when no leave of a topic with peers in its mesh completes. -/
theorem tracks_joined_iff (d_low : Int) (events : List TraceEvent)
    (hlegal : (traced_router d_low).Legal events) :
    (traced_router d_low).Always TracksJoined events ↔
      (traced_router d_low).Meets NotLastPrune events := by
  apply Machine.always_iff_meets _ (fun self => self.router.Valid ∧ self.tracer.Fresh ∧
    (self.router.pending = ∅ →
      ∀ topic, topic ∈ self.tracer.mesh_peer_count ↔ topic ∈ self.router.joined))
  · refine ⟨Router.valid_new, GossipSubTracer.fresh_new d_low, fun _ topic => ?_⟩
    simp [traced_router, GossipSubTracer.new, Router.new]
  · rintro self ⟨_, hfresh, hkeys⟩ hpending
    exact tracksJoined_of_keys hfresh (hkeys hpending) hpending
  · rintro self event ⟨hvalid, hfresh, hkeys⟩ hemits hcondition
    refine ⟨hvalid.next hemits, hfresh.trace event, fun hnext => ?_⟩
    by_cases hpending : self.router.pending = ∅
    · exact keys_next (hkeys hpending) hemits hpending
    · exact absurd hnext (pending_next hemits hpending hcondition)
  · rintro self event ⟨hvalid, _, _⟩ _ hnot htracks
    cases event with
    | prune p topic =>
      have hlast : self.router.pending = {(topic, p)} := not_not.mp hnot
      have hleft := hvalid.pending_left topic p (by simp [hlast])
      have hempty : (self.router.next (.prune p topic)).pending = ∅ := by
        simp [Router.next, hlast]
      have hkey := (htracks hempty).1 topic
      have hmem : topic ∈ (self.tracer.trace (.prune p topic)).mesh_peer_count :=
        (GossipSubTracer.mem_prune self.tracer p topic topic).mpr (.inl rfl)
      exact hleft (hkey.mp hmem)
    | _ => exact hnot trivial
  · exact hlegal

/-- A topic is left after its last peer was pruned, and joined again. -/
theorem tracks_joined_rejoined :
    (traced_router 4).Always TracksJoined
      [.join "test", .join "blocks", .graft "p" "test", .prune "p" "test", .leave "test",
        .join "test"] :=
  (tracks_joined_iff 4 _ (by decide)).mpr (by decide)

/-- The prune that follows the leave of a topic brings its key back. -/
theorem left_topic_stays_tracked :
    (traced_router 4).Legal [.join "test", .graft "p" "test", .leave "test", .prune "p" "test"] ∧
      ¬ (traced_router 4).Always TracksJoined
        [.join "test", .graft "p" "test", .leave "test", .prune "p" "test"] := by
  refine ⟨by decide, fun halways => ?_⟩
  have hkey := (halways.last (by decide)).1 "test"
  revert hkey
  decide

end go_test_node.metrics
