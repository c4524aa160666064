import Mathlib.Data.List.AList

namespace go_test_node.metrics

/-- The gauges that the tracer writes. A label that was never set reads zero. -/
structure Gauges where
  pubsub_peers : Int
  gossipsub_peers_per_topic_mesh : String → Int
  gossipsub_no_peers_topics : Int
  gossipsub_low_peers_topics : Int
  gossipsub_healthy_peers_topics : Int

/-- The tracer with the gauges of its process. Its counts stay far below the
range of an `int`. -/
structure GossipSubTracer where
  mesh_peer_count : AList fun _ : String => Int
  d_low : Int
  gauges : Gauges

/-- The trace events of the router that the tracer acts on. -/
inductive TraceEvent where
  | add_peer (p : String)
  | remove_peer (p : String)
  | join (topic : String)
  | leave (topic : String)
  | graft (p topic : String)
  | prune (p topic : String)
  deriving DecidableEq, Repr

/-- The loop of `updateTopicHealthMetrics` over the counts of the topics. -/
def topic_health (d_low : Int) : List Int → Int × Int × Int → Int × Int × Int
  | [], health => health
  | count :: counts, (no_peers, low_peers, healthy) =>
    if count = 0 then topic_health d_low counts (no_peers + 1, low_peers, healthy)
    else if count < d_low then topic_health d_low counts (no_peers, low_peers + 1, healthy)
    else topic_health d_low counts (no_peers, low_peers, healthy + 1)

namespace GossipSubTracer

def new (d_low : Int) : GossipSubTracer where
  mesh_peer_count := ∅
  d_low := d_low
  gauges :=
    { pubsub_peers := 0
      gossipsub_peers_per_topic_mesh := fun _ => 0
      gossipsub_no_peers_topics := 0
      gossipsub_low_peers_topics := 0
      gossipsub_healthy_peers_topics := 0 }

/-- `t.meshPeerCount[topic]`, which reads zero for a topic that is not there. -/
def count (t : GossipSubTracer) (topic : String) : Int :=
  (t.mesh_peer_count.lookup topic).getD 0

/-- `t.meshPeerCount[topic] = value`. -/
def set_count (t : GossipSubTracer) (topic : String) (value : Int) : GossipSubTracer :=
  { t with mesh_peer_count := t.mesh_peer_count.insert topic value }

/-- The counts of the topics, in the order in which the map is traversed. -/
def counts (t : GossipSubTracer) : List Int :=
  t.mesh_peer_count.entries.map Sigma.snd

def update_topic_health_metrics (t : GossipSubTracer) : GossipSubTracer :=
  let (no_peers, low_peers, healthy) := topic_health t.d_low t.counts (0, 0, 0)
  { t with gauges :=
      { t.gauges with
        gossipsub_no_peers_topics := no_peers
        gossipsub_low_peers_topics := low_peers
        gossipsub_healthy_peers_topics := healthy } }

/-- Set the mesh gauge of a topic to its count. -/
def set_mesh_gauge (t : GossipSubTracer) (topic : String) : GossipSubTracer :=
  { t with gauges :=
      { t.gauges with
        gossipsub_peers_per_topic_mesh :=
          Function.update t.gauges.gossipsub_peers_per_topic_mesh topic (t.count topic) } }

def add_peer (t : GossipSubTracer) (_p : String) : GossipSubTracer :=
  { t with gauges := { t.gauges with pubsub_peers := t.gauges.pubsub_peers + 1 } }

def remove_peer (t : GossipSubTracer) (_p : String) : GossipSubTracer :=
  { t with gauges := { t.gauges with pubsub_peers := t.gauges.pubsub_peers - 1 } }

def join (t : GossipSubTracer) (topic : String) : GossipSubTracer :=
  if topic ∈ t.mesh_peer_count then t
  else (t.set_count topic 0).update_topic_health_metrics

def leave (t : GossipSubTracer) (topic : String) : GossipSubTracer :=
  if topic ∈ t.mesh_peer_count then
    { t with mesh_peer_count := t.mesh_peer_count.erase topic }.update_topic_health_metrics
  else t

def graft (t : GossipSubTracer) (_p topic : String) : GossipSubTracer :=
  let t := t.set_count topic (t.count topic + 1)
  (t.set_mesh_gauge topic).update_topic_health_metrics

def prune (t : GossipSubTracer) (_p topic : String) : GossipSubTracer :=
  let t := t.set_count topic (t.count topic - 1)
  let t := if t.count topic < 0 then t.set_count topic 0 else t
  (t.set_mesh_gauge topic).update_topic_health_metrics

def trace (t : GossipSubTracer) : TraceEvent → GossipSubTracer
  | .add_peer p => t.add_peer p
  | .remove_peer p => t.remove_peer p
  | .join topic => t.join topic
  | .leave topic => t.leave topic
  | .graft p topic => t.graft p topic
  | .prune p topic => t.prune p topic

/-- The health gauges classify the topics of the map. -/
def Fresh (t : GossipSubTracer) : Prop :=
  (t.gauges.gossipsub_no_peers_topics, t.gauges.gossipsub_low_peers_topics,
    t.gauges.gossipsub_healthy_peers_topics) = topic_health t.d_low t.counts (0, 0, 0)

@[simp] theorem count_set_count (t : GossipSubTracer) (topic : String) (value : Int) :
    (t.set_count topic value).count topic = value := by
  simp [count, set_count]

@[simp] theorem count_set_count_of_ne (t : GossipSubTracer) {topic other : String} (value : Int)
    (hne : other ≠ topic) : (t.set_count topic value).count other = t.count other := by
  simp [count, set_count, AList.lookup_insert_ne hne]

@[simp] theorem mem_set_count (t : GossipSubTracer) (topic other : String) (value : Int) :
    other ∈ (t.set_count topic value).mesh_peer_count ↔
      other = topic ∨ other ∈ t.mesh_peer_count := by
  simp [set_count]

@[simp] theorem mesh_peer_count_update (t : GossipSubTracer) :
    t.update_topic_health_metrics.mesh_peer_count = t.mesh_peer_count := rfl

@[simp] theorem mesh_peer_count_set_mesh_gauge (t : GossipSubTracer) (topic : String) :
    (t.set_mesh_gauge topic).mesh_peer_count = t.mesh_peer_count := rfl

@[simp] theorem count_update (t : GossipSubTracer) (topic : String) :
    t.update_topic_health_metrics.count topic = t.count topic := rfl

@[simp] theorem count_set_mesh_gauge (t : GossipSubTracer) (topic other : String) :
    (t.set_mesh_gauge topic).count other = t.count other := rfl

theorem fresh_update (t : GossipSubTracer) : t.update_topic_health_metrics.Fresh := rfl

theorem count_of_not_mem {t : GossipSubTracer} {topic : String}
    (hnot : topic ∉ t.mesh_peer_count) : t.count topic = 0 := by
  rw [count, AList.lookup_eq_none.mpr hnot, Option.getD_none]

/-- Joining keeps every count: a topic that was not there counts zero. -/
theorem count_join (t : GossipSubTracer) (topic other : String) :
    (t.join topic).count other = t.count other := by
  unfold join
  split
  · rfl
  · next hnot =>
    by_cases hother : other = topic
    · subst hother
      simp [count_of_not_mem hnot]
    · simp [hother]

theorem mem_join (t : GossipSubTracer) (topic other : String) :
    other ∈ (t.join topic).mesh_peer_count ↔ other = topic ∨ other ∈ t.mesh_peer_count := by
  unfold join
  split
  · next hmem =>
    refine ⟨.inr, ?_⟩
    rintro (heq | hold)
    · exact heq ▸ hmem
    · exact hold
  · simp

/-- Leaving forgets the count of the topic and keeps all others. -/
theorem count_leave (t : GossipSubTracer) (topic other : String) :
    (t.leave topic).count other = if other = topic then 0 else t.count other := by
  unfold leave
  split
  · by_cases hother : other = topic
    · subst hother
      simp [count]
    · simp [count, hother, AList.lookup_erase_ne hother]
  · next hnot =>
    by_cases hother : other = topic
    · subst hother
      simp [count_of_not_mem hnot]
    · simp [hother]

theorem mem_leave (t : GossipSubTracer) (topic other : String) :
    other ∈ (t.leave topic).mesh_peer_count ↔ other ≠ topic ∧ other ∈ t.mesh_peer_count := by
  unfold leave
  split
  · simp
  · next hnot =>
    refine ⟨fun hmem => ⟨?_, hmem⟩, And.right⟩
    rintro rfl
    exact hnot hmem

theorem count_graft (t : GossipSubTracer) (p topic other : String) :
    (t.graft p topic).count other = if other = topic then t.count topic + 1 else t.count other := by
  by_cases hother : other = topic
  · subst hother
    simp [graft]
  · simp [graft, hother]

theorem mem_graft (t : GossipSubTracer) (p topic other : String) :
    other ∈ (t.graft p topic).mesh_peer_count ↔ other = topic ∨ other ∈ t.mesh_peer_count := by
  simp [graft]

/-- Pruning takes one off the count of the topic, clamped at zero. -/
theorem count_prune (t : GossipSubTracer) (p topic other : String) :
    (t.prune p topic).count other =
      if other = topic then max 0 (t.count topic - 1) else t.count other := by
  by_cases hother : other = topic
  · subst hother
    by_cases hneg : t.count other - 1 < 0
    · simp only [prune, count_set_count, hneg, if_true, count_update, count_set_mesh_gauge]
      omega
    · simp only [prune, count_set_count, hneg, if_false, count_update, count_set_mesh_gauge, if_true]
      omega
  · simp only [prune, count_set_count, hother, if_false, count_update, count_set_mesh_gauge]
    split <;> simp [hother]

theorem mem_prune (t : GossipSubTracer) (p topic other : String) :
    other ∈ (t.prune p topic).mesh_peer_count ↔ other = topic ∨ other ∈ t.mesh_peer_count := by
  simp only [prune, mesh_peer_count_update, mesh_peer_count_set_mesh_gauge]
  split <;> simp

theorem fresh_new (d_low : Int) : (new d_low).Fresh := rfl

/-- Every trace event leaves the health gauges up to date. -/
theorem Fresh.trace {t : GossipSubTracer} (hfresh : t.Fresh) (event : TraceEvent) :
    (t.trace event).Fresh := by
  cases event with
  | add_peer p => exact hfresh
  | remove_peer p => exact hfresh
  | join topic =>
    simp only [GossipSubTracer.trace, GossipSubTracer.join]
    split
    · exact hfresh
    · exact fresh_update _
  | leave topic =>
    simp only [GossipSubTracer.trace, GossipSubTracer.leave]
    split
    · exact fresh_update _
    · exact hfresh
  | graft p topic => exact fresh_update _
  | prune p topic => exact fresh_update _

theorem d_low_trace (t : GossipSubTracer) (event : TraceEvent) :
    (t.trace event).d_low = t.d_low := by
  cases event with
  | add_peer p => rfl
  | remove_peer p => rfl
  | join topic =>
    simp only [GossipSubTracer.trace, GossipSubTracer.join]
    split <;> rfl
  | leave topic =>
    simp only [GossipSubTracer.trace, GossipSubTracer.leave]
    split <;> rfl
  | graft p topic => rfl
  | prune p topic =>
    simp only [GossipSubTracer.trace, GossipSubTracer.prune]
    split <;> rfl

/-- No trace event makes a count negative. -/
theorem count_trace_nonneg {t : GossipSubTracer} (hcounts : ∀ topic, 0 ≤ t.count topic)
    (event : TraceEvent) (topic : String) : 0 ≤ (t.trace event).count topic := by
  cases event with
  | add_peer p => exact hcounts topic
  | remove_peer p => exact hcounts topic
  | join joined =>
    rw [trace, count_join]
    exact hcounts topic
  | leave left =>
    rw [trace, count_leave]
    split
    · exact Int.le_refl 0
    · exact hcounts topic
  | graft p grafted =>
    rw [trace, count_graft]
    have hold := hcounts grafted
    split
    · omega
    · exact hcounts topic
  | prune p pruned =>
    rw [trace, count_prune]
    split
    · exact Int.le_max_left _ _
    · exact hcounts topic

/-- The tracer after a sequence of trace events. -/
def trace_all (t : GossipSubTracer) (events : List TraceEvent) : GossipSubTracer :=
  events.foldl trace t

/-- What holds of a tracer after any trace events. -/
structure Sound (d_low : Int) (t : GossipSubTracer) : Prop where
  d_low : t.d_low = d_low
  fresh : t.Fresh
  counts : ∀ topic, 0 ≤ t.count topic

theorem Sound.trace_all {d_low : Int} {t : GossipSubTracer} (hsound : t.Sound d_low)
    (events : List TraceEvent) : (t.trace_all events).Sound d_low := by
  induction events generalizing t with
  | nil => exact hsound
  | cons event events ih =>
    apply ih
    exact ⟨(d_low_trace t event).trans hsound.d_low, hsound.fresh.trace event,
      count_trace_nonneg hsound.counts event⟩

theorem sound_new (d_low : Int) : (new d_low).Sound d_low where
  d_low := rfl
  fresh := fresh_new d_low
  counts _ := Int.le_refl 0

end GossipSubTracer

/-- The classification of the topics does not depend on their order. -/
theorem topic_health_perm {d_low : Int} {counts others : List Int} (hperm : counts.Perm others)
    (health : Int × Int × Int) : topic_health d_low counts health = topic_health d_low others health := by
  induction hperm generalizing health with
  | nil => rfl
  | cons count _ ih =>
    simp only [topic_health]
    split_ifs
    all_goals apply ih
  | swap first second counts =>
    simp only [topic_health]
    split_ifs <;> rfl
  | trans _ _ ihfirst ihsecond => exact (ihfirst health).trans (ihsecond health)

/-- The three classes of topics together are all topics. -/
theorem topic_health_sum (d_low : Int) (counts : List Int) (health : Int × Int × Int) :
    (topic_health d_low counts health).1 + (topic_health d_low counts health).2.1 +
      (topic_health d_low counts health).2.2 =
      health.1 + health.2.1 + health.2.2 + counts.length := by
  induction counts generalizing health with
  | nil => simp [topic_health]
  | cons count counts ih =>
    obtain ⟨no_peers, low_peers, healthy⟩ := health
    simp only [topic_health, List.length_cons]
    split_ifs
    all_goals
      rw [ih]
      dsimp only
      omega

/-- Up-to-date health gauges sum to the number of topics in the map. -/
theorem GossipSubTracer.Fresh.sum {t : GossipSubTracer} (hfresh : t.Fresh) :
    t.gauges.gossipsub_no_peers_topics + t.gauges.gossipsub_low_peers_topics +
      t.gauges.gossipsub_healthy_peers_topics = t.mesh_peer_count.keys.length := by
  have hsum := topic_health_sum t.d_low t.counts (0, 0, 0)
  rw [← hfresh] at hsum
  simpa [GossipSubTracer.counts, AList.keys, List.keys] using hsum

end go_test_node.metrics
