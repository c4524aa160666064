import DstTestNode.Library.Machine
import DstTestNode.Go.Tracer

namespace go_test_node.metrics

/-- The tracer with the other per-topic gauge that the start-up writes, and the
topics that its loop has still to reset, if it has been called. -/
structure Exporter where
  tracer : GossipSubTracer
  gossipsub_peers_per_topic_gossipsub : String → Int
  topics_left : Option (List String)

/-- A callback of the tracer, the call of `InitPubsubMetrics`, or the next round
of its loop. No lock is held between two rounds. -/
inductive MetricsEvent where
  | trace (event : TraceEvent)
  | init_pubsub_metrics (topics : List String)
  | init_topic
  deriving DecidableEq, Repr

/-- The mesh gauge of a topic, zero when it was never set. -/
def GossipSubTracer.mesh_gauge (t : GossipSubTracer) (topic : String) : Int :=
  t.gauges.gossipsub_peers_per_topic_mesh topic

namespace Exporter

def new (d_low : Int) : Exporter where
  tracer := .new d_low
  gossipsub_peers_per_topic_gossipsub := fun _ => 0
  topics_left := none

/-- `libp2pGossipsubPeersPerTopicMesh.WithLabelValues(topic).Set(0)`, and the
same for the other gauge. -/
def reset_gauges (self : Exporter) (topic : String) : Exporter :=
  { self with
    tracer :=
      { self.tracer with gauges :=
          { self.tracer.gauges with
            gossipsub_peers_per_topic_mesh :=
              Function.update self.tracer.gauges.gossipsub_peers_per_topic_mesh topic 0 } }
    gossipsub_peers_per_topic_gossipsub :=
      Function.update self.gossipsub_peers_per_topic_gossipsub topic 0 }

/-- A round of the loop of `InitPubsubMetrics`. The counters whose labels it
creates read zero before and after. -/
def init_topic (self : Exporter) : Exporter :=
  match self.topics_left with
  | some (topic :: topics) => { self.reset_gauges topic with topics_left := some topics }
  | _ => self

def next (self : Exporter) : MetricsEvent → Exporter
  | .trace event => { self with tracer := self.tracer.trace event }
  | .init_pubsub_metrics topics => { self with topics_left := some topics }
  | .init_topic => self.init_topic

/-- The topic of the next round of the loop. -/
def next_topic (self : Exporter) : Option String :=
  self.topics_left.bind List.head?

/-- The mesh gauge of a topic is its count, and zero for a topic that is not in
the map. -/
def ShowsMesh (self : Exporter) : Prop :=
  ∀ topic, (topic ∈ self.tracer.mesh_peer_count →
      self.tracer.mesh_gauge topic = self.tracer.count topic) ∧
    (topic ∉ self.tracer.mesh_peer_count → self.tracer.mesh_gauge topic = 0)

/-- A topic that is left, or whose gauge the start-up resets, has no peers in
its mesh at that time. -/
def Quiet (self : Exporter) : MetricsEvent → Prop
  | .trace (.leave topic) => self.tracer.count topic = 0
  | .init_topic => ∀ topic ∈ self.next_topic, self.tracer.count topic = 0
  | _ => True

instance (self : Exporter) (event : MetricsEvent) : Decidable (self.Quiet event) :=
  match event with
  | .trace (.leave _) => inferInstanceAs (Decidable (_ = _))
  | .init_topic => inferInstanceAs (Decidable (∀ _ ∈ self.next_topic, _))
  | .init_pubsub_metrics _ | .trace (.add_peer _) | .trace (.remove_peer _) | .trace (.join _) | .trace (.graft _ _)
  | .trace (.prune _ _) => .isTrue trivial

/-- A topic that is not in the map counts zero, so the gauge always shows the count. -/
theorem showsMesh_iff (self : Exporter) :
    self.ShowsMesh ↔ ∀ topic, self.tracer.mesh_gauge topic = self.tracer.count topic := by
  constructor
  · intro hshows topic
    by_cases hmem : topic ∈ self.tracer.mesh_peer_count
    · exact (hshows topic).1 hmem
    · rw [(hshows topic).2 hmem, GossipSubTracer.count_of_not_mem hmem]
  · intro hshows topic
    refine ⟨fun _ => hshows topic, fun hnot => ?_⟩
    rw [hshows topic, GossipSubTracer.count_of_not_mem hnot]

/-- A round leaves the counts alone. -/
theorem init_topic_count (self : Exporter) (topic : String) :
    self.init_topic.tracer.count topic = self.tracer.count topic := by
  rw [init_topic]
  split <;> rfl

/-- A round resets the gauge of its topic and keeps all others. -/
theorem init_topic_mesh_gauge (self : Exporter) (topic : String) :
    self.init_topic.tracer.mesh_gauge topic =
      if self.next_topic = some topic then 0 else self.tracer.mesh_gauge topic := by
  rw [init_topic, next_topic]
  split
  · next first topics hleft =>
    by_cases hfirst : first = topic
    · simp [hleft, hfirst, reset_gauges, GossipSubTracer.mesh_gauge]
    · simp [hleft, hfirst, Ne.symm hfirst, reset_gauges, GossipSubTracer.mesh_gauge]
  · next hleft =>
    rw [if_neg]
    rcases hpending : self.topics_left with _ | _ | ⟨first, topics⟩
    · simp
    · simp
    · exact absurd hpending (hleft first topics)

end Exporter

namespace GossipSubTracer

/-- Joining and leaving write no mesh gauge. -/
theorem mesh_gauge_join (t : GossipSubTracer) (joined topic : String) :
    (t.join joined).mesh_gauge topic = t.mesh_gauge topic := by
  unfold join
  split <;> rfl

theorem mesh_gauge_leave (t : GossipSubTracer) (left topic : String) :
    (t.leave left).mesh_gauge topic = t.mesh_gauge topic := by
  unfold leave
  split <;> rfl

/-- Grafting and pruning write the new count of their topic to its gauge. -/
theorem mesh_gauge_graft (t : GossipSubTracer) (p grafted topic : String) :
    (t.graft p grafted).mesh_gauge topic =
      if topic = grafted then (t.graft p grafted).count topic else t.mesh_gauge topic := by
  by_cases htopic : topic = grafted
  · subst htopic
    simp [graft, mesh_gauge, update_topic_health_metrics, set_mesh_gauge, count, set_count]
  · simp [graft, mesh_gauge, update_topic_health_metrics, set_mesh_gauge, set_count, htopic]

theorem mesh_gauge_prune (t : GossipSubTracer) (p pruned topic : String) :
    (t.prune p pruned).mesh_gauge topic =
      if topic = pruned then (t.prune p pruned).count topic else t.mesh_gauge topic := by
  by_cases htopic : topic = pruned
  · subst htopic
    simp [prune, mesh_gauge, update_topic_health_metrics, set_mesh_gauge, count]
  · simp only [prune, htopic, if_false]
    split <;>
      simp [mesh_gauge, update_topic_health_metrics, set_mesh_gauge, set_count, htopic]

/-- A trace event moves the gauges with the counts, unless it leaves a topic
with peers. -/
theorem mesh_gauge_trace {t : GossipSubTracer} (hshows : ∀ topic, t.mesh_gauge topic = t.count topic)
    {event : TraceEvent} (hquiet : ∀ left, event = .leave left → t.count left = 0)
    (topic : String) : (t.trace event).mesh_gauge topic = (t.trace event).count topic := by
  cases event with
  | add_peer p => exact hshows topic
  | remove_peer p => exact hshows topic
  | join joined =>
    rw [trace, mesh_gauge_join, count_join]
    exact hshows topic
  | leave left =>
    rw [trace, mesh_gauge_leave, count_leave, hshows topic]
    split
    · next htopic => rw [htopic, hquiet left rfl]
    · rfl
  | graft p grafted =>
    rw [trace, mesh_gauge_graft]
    split
    · rfl
    · next htopic => rw [hshows topic, count_graft, if_neg htopic]
  | prune p pruned =>
    rw [trace, mesh_gauge_prune]
    split
    · rfl
    · next htopic => rw [hshows topic, count_prune, if_neg htopic]

end GossipSubTracer

/-- The tracer callbacks, interleaved with a single start-up of the metrics. -/
def metrics_exporter (d_low : Int) : Machine Exporter MetricsEvent where
  initial := .new d_low
  enabled := fun self event => match event with
    | .trace _ => True
    | .init_pubsub_metrics _ => self.topics_left = none
    | .init_topic => self.next_topic.isSome
  next := Exporter.next

instance (d_low : Int) (self : Exporter) (event : MetricsEvent) :
    Decidable ((metrics_exporter d_low).enabled self event) :=
  match event with
  | .trace _ => .isTrue trivial
  | .init_pubsub_metrics _ => inferInstanceAs (Decidable (self.topics_left = none))
  | .init_topic => inferInstanceAs (Decidable (self.next_topic.isSome = true))

/-- The mesh gauges show the counts in every reachable state exactly when no
topic with peers in its mesh is left, or reset by the start-up. -/
theorem shows_mesh_iff (d_low : Int) (events : List MetricsEvent)
    (hlegal : (metrics_exporter d_low).Legal events) :
    (metrics_exporter d_low).Always Exporter.ShowsMesh events ↔
      (metrics_exporter d_low).Meets Exporter.Quiet events := by
  apply Machine.always_iff_meets _ Exporter.ShowsMesh
  · rw [Exporter.showsMesh_iff]
    intro topic
    rfl
  · intro self hshows
    exact hshows
  · intro self event hshows _ hquiet
    rw [Exporter.showsMesh_iff] at hshows ⊢
    intro topic
    cases event with
    | trace event =>
      apply GossipSubTracer.mesh_gauge_trace hshows
      rintro left rfl
      exact hquiet
    | init_pubsub_metrics topics => exact hshows topic
    | init_topic =>
      refine (self.init_topic_mesh_gauge topic).trans (Eq.trans ?_ (self.init_topic_count topic).symm)
      split
      · next hnext => exact (hquiet topic hnext).symm
      · exact hshows topic
  · intro self event hshows _ hnot hnext
    rw [Exporter.showsMesh_iff] at hshows hnext
    cases event with
    | trace event =>
      cases event with
      | leave left =>
        have hgauge := self.tracer.mesh_gauge_leave left left
        have hcount := self.tracer.count_leave left left
        rw [if_pos rfl] at hcount
        exact hnot ((hshows left).symm.trans (hgauge.symm.trans ((hnext left).trans hcount)))
      | _ => exact hnot trivial
    | init_pubsub_metrics topics => exact hnot trivial
    | init_topic =>
      apply hnot
      intro topic hmem
      have hgauge := self.init_topic_mesh_gauge topic
      rw [if_pos (Option.mem_def.mp hmem)] at hgauge
      exact (self.init_topic_count topic).symm.trans ((hnext topic).symm.trans hgauge)
  · exact hlegal

/-- A start-up over two topics, with a peer grafted between its rounds. -/
theorem shows_mesh_restarted :
    (metrics_exporter 4).Always Exporter.ShowsMesh
      [.trace (.join "test"), .init_pubsub_metrics ["test", "other"], .init_topic,
        .trace (.graft "p" "test"), .init_topic, .trace (.prune "p" "test"),
        .trace (.leave "test"), .trace (.join "test")] :=
  (shows_mesh_iff 4 [.trace (.join "test"), .init_pubsub_metrics ["test", "other"], .init_topic,
    .trace (.graft "p" "test"), .init_topic, .trace (.prune "p" "test"),
    .trace (.leave "test"), .trace (.join "test")] (by decide)).mpr (by decide)

/-- A graft before the start-up is reset by it. -/
theorem early_graft_reset :
    (metrics_exporter 4).Legal [.trace (.join "test"), .trace (.graft "p" "test"),
        .init_pubsub_metrics ["test"], .init_topic] ∧
      ¬ (metrics_exporter 4).Always Exporter.ShowsMesh [.trace (.join "test"),
        .trace (.graft "p" "test"), .init_pubsub_metrics ["test"], .init_topic] := by
  refine ⟨by decide, fun halways => ?_⟩
  have hgauge := (halways.last "test").1 (by decide)
  revert hgauge
  decide

end go_test_node.metrics
