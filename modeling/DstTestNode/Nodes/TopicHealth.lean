import DstTestNode.Go.Tracer
import DstTestNode.Rust.Metrics

open go_test_node.metrics rust_test_node.metrics

namespace nodes

/-- The `(topic, count)` entries of `meshPeerCount`. -/
def mesh_counts (t : GossipSubTracer) : List (String × Int) :=
  t.mesh_peer_count.entries.map fun entry => (entry.1, entry.2)

/-- The loops of the two nodes classify the same counts in the same way. -/
theorem count_health_eq (d_low : Int) (listing : List (String × Int)) (health : Int × Int × Int) :
    GossipSubMetrics.count_health d_low listing health =
      topic_health d_low (listing.map Prod.snd) health := by
  induction listing generalizing health with
  | nil => rfl
  | cons entry listing ih =>
    obtain ⟨topic, count⟩ := entry
    simp only [GossipSubMetrics.count_health, List.map_cons, topic_health]
    split_ifs
    all_goals apply ih

theorem counts_eq (t : GossipSubTracer) : t.counts = (mesh_counts t).map Prod.snd := by
  simp [GossipSubTracer.counts, mesh_counts]

/-- Up-to-date gauges of the Go tracer are those that the Rust node computes
from any listing of the same counts. -/
theorem update_health_eq {t : GossipSubTracer} (hfresh : t.Fresh) {metrics : GossipSubMetrics}
    (hlow : metrics.d_low = t.d_low) {listing : List (String × Int)}
    (hlisting : listing.Perm (mesh_counts t)) :
    t.gauges.gossipsub_no_peers_topics =
        (metrics.update_health listing).libp2p_gossipsub_no_peers_topics ∧
      t.gauges.gossipsub_low_peers_topics =
        (metrics.update_health listing).libp2p_gossipsub_low_peers_topics ∧
      t.gauges.gossipsub_healthy_peers_topics =
        (metrics.update_health listing).libp2p_gossipsub_healthy_peers_topics := by
  have hhealth : (t.gauges.gossipsub_no_peers_topics, t.gauges.gossipsub_low_peers_topics,
      t.gauges.gossipsub_healthy_peers_topics) =
        GossipSubMetrics.count_health metrics.d_low listing (0, 0, 0) := by
    rw [count_health_eq, topic_health_perm (hlisting.map Prod.snd), ← counts_eq, hlow]
    exact hfresh
  simpa only [GossipSubMetrics.update_health, Prod.ext_iff] using hhealth

/-- After any trace events no count is negative, and the gauges of the Go node
are those of the Rust node on any listing of the counts; they sum to the number
of topics. -/
theorem topic_health_agrees (d_low : Int) (events : List TraceEvent) (metrics : GossipSubMetrics)
    (hlow : metrics.d_low = d_low) (listing : List (String × Int))
    (hlisting : listing.Perm (mesh_counts ((GossipSubTracer.new d_low).trace_all events))) :
    let t := (GossipSubTracer.new d_low).trace_all events
    let health := metrics.update_health listing
    (∀ entry ∈ mesh_counts t, 0 ≤ entry.2) ∧
      t.gauges.gossipsub_no_peers_topics = health.libp2p_gossipsub_no_peers_topics ∧
      t.gauges.gossipsub_low_peers_topics = health.libp2p_gossipsub_low_peers_topics ∧
      t.gauges.gossipsub_healthy_peers_topics = health.libp2p_gossipsub_healthy_peers_topics ∧
      t.gauges.gossipsub_no_peers_topics + t.gauges.gossipsub_low_peers_topics +
        t.gauges.gossipsub_healthy_peers_topics = (mesh_counts t).length := by
  intro t health
  have hsound : t.Sound d_low := (GossipSubTracer.sound_new d_low).trace_all events
  obtain ⟨hno, hlows, hhealthy⟩ := update_health_eq hsound.fresh (hlow.trans hsound.d_low.symm)
    hlisting
  refine ⟨?_, hno, hlows, hhealthy, ?_⟩
  · intro entry hentry
    obtain ⟨⟨topic, count⟩, hmem, rfl⟩ := List.mem_map.mp hentry
    have hlookup : t.mesh_peer_count.lookup topic = some count := AList.mem_lookup_iff.mpr hmem
    simpa [GossipSubTracer.count, hlookup] using hsound.counts topic
  · simpa [mesh_counts, AList.keys, List.keys] using hsound.fresh.sum

theorem topic_health_agrees_pruned :
    let t := (GossipSubTracer.new 4).trace_all
      [.prune "p" "test", .join "test", .graft "p" "test", .graft "q" "blocks"]
    t.gauges.gossipsub_low_peers_topics =
      ((GossipSubMetrics.new 4).update_health
        [("test", 1), ("blocks", 1)]).libp2p_gossipsub_low_peers_topics :=
  (topic_health_agrees 4 [.prune "p" "test", .join "test", .graft "p" "test", .graft "q" "blocks"]
    (GossipSubMetrics.new 4) rfl [("test", 1), ("blocks", 1)] (by decide)).2.2.1

end nodes
