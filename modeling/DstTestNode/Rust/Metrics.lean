import Mathlib.Logic.Function.Basic

namespace rust_test_node.metrics

/-- The metrics of one node. A family maps each topic label to its value, a
label that was never created reading zero. -/
structure GossipSubMetrics where
  libp2p_peers : Int
  libp2p_pubsub_peers : Int
  libp2p_pubsub_topics : Int
  libp2p_gossipsub_peers_per_topic_mesh : String → Int
  libp2p_gossipsub_peers_per_topic_gossipsub : String → Int
  libp2p_gossipsub_no_peers_topics : Int
  libp2p_gossipsub_low_peers_topics : Int
  libp2p_gossipsub_healthy_peers_topics : Int
  libp2p_gossipsub_received : Nat
  libp2p_pubsub_messages_published : String → Nat
  libp2p_pubsub_validation_success : Nat
  libp2p_pubsub_validation_failure : Nat
  libp2p_pubsub_received_subscriptions : String → Nat
  libp2p_pubsub_received_unsubscriptions : String → Nat
  d_low : Int

namespace GossipSubMetrics

def new (d_low : Int) : GossipSubMetrics where
  libp2p_peers := 0
  libp2p_pubsub_peers := 0
  libp2p_pubsub_topics := 0
  libp2p_gossipsub_peers_per_topic_mesh := fun _ => 0
  libp2p_gossipsub_peers_per_topic_gossipsub := fun _ => 0
  libp2p_gossipsub_no_peers_topics := 0
  libp2p_gossipsub_low_peers_topics := 0
  libp2p_gossipsub_healthy_peers_topics := 0
  libp2p_gossipsub_received := 0
  libp2p_pubsub_messages_published := fun _ => 0
  libp2p_pubsub_validation_success := 0
  libp2p_pubsub_validation_failure := 0
  libp2p_pubsub_received_subscriptions := fun _ => 0
  libp2p_pubsub_received_unsubscriptions := fun _ => 0
  d_low := d_low

/-- Increment the counter of one topic label, creating it at zero. -/
def inc_label (family : String → Nat) (topic : String) : String → Nat :=
  Function.update family topic (family topic + 1)

def set_peers (self : GossipSubMetrics) (count : Int) : GossipSubMetrics :=
  { self with libp2p_peers := count }

def set_pubsub_peers (self : GossipSubMetrics) (count : Int) : GossipSubMetrics :=
  { self with libp2p_pubsub_peers := count }

def set_pubsub_topics (self : GossipSubMetrics) (count : Int) : GossipSubMetrics :=
  { self with libp2p_pubsub_topics := count }

def set_mesh_peers (self : GossipSubMetrics) (topic : String) (count : Int) : GossipSubMetrics :=
  { self with
    libp2p_gossipsub_peers_per_topic_mesh :=
      Function.update self.libp2p_gossipsub_peers_per_topic_mesh topic count }

def set_topic_peers (self : GossipSubMetrics) (topic : String) (count : Int) : GossipSubMetrics :=
  { self with
    libp2p_gossipsub_peers_per_topic_gossipsub :=
      Function.update self.libp2p_gossipsub_peers_per_topic_gossipsub topic count }

/-- The loop of `update_health`: no-peers, low-peers and healthy topics. -/
def count_health (d_low : Int) : List (String × Int) → Int × Int × Int → Int × Int × Int
  | [], counts => counts
  | (_topic, count) :: mesh_counts, (no_peers, low_peers, healthy) =>
    if count = 0 then count_health d_low mesh_counts (no_peers + 1, low_peers, healthy)
    else if count < d_low then count_health d_low mesh_counts (no_peers, low_peers + 1, healthy)
    else count_health d_low mesh_counts (no_peers, low_peers, healthy + 1)

def update_health (self : GossipSubMetrics) (mesh_counts : List (String × Int)) :
    GossipSubMetrics :=
  let (no_peers, low_peers, healthy) := count_health self.d_low mesh_counts (0, 0, 0)
  { self with
    libp2p_gossipsub_no_peers_topics := no_peers
    libp2p_gossipsub_low_peers_topics := low_peers
    libp2p_gossipsub_healthy_peers_topics := healthy }

def inc_received_message (self : GossipSubMetrics) : GossipSubMetrics :=
  { self with
    libp2p_gossipsub_received := self.libp2p_gossipsub_received + 1
    libp2p_pubsub_validation_success := self.libp2p_pubsub_validation_success + 1 }

def inc_messages_published (self : GossipSubMetrics) (topic : String) : GossipSubMetrics :=
  { self with
    libp2p_pubsub_messages_published := inc_label self.libp2p_pubsub_messages_published topic }

def inc_received_subscriptions (self : GossipSubMetrics) (topic : String) : GossipSubMetrics :=
  { self with
    libp2p_pubsub_received_subscriptions :=
      inc_label self.libp2p_pubsub_received_subscriptions topic }

def inc_received_unsubscriptions (self : GossipSubMetrics) (topic : String) : GossipSubMetrics :=
  { self with
    libp2p_pubsub_received_unsubscriptions :=
      inc_label self.libp2p_pubsub_received_unsubscriptions topic }

theorem inc_label_apply (family : String → Nat) (topic other : String) :
    inc_label family topic other = family other + if topic = other then 1 else 0 := by
  by_cases hother : topic = other
  · subst hother
    simp [inc_label]
  · simp [inc_label, hother, Ne.symm hother]

theorem inc_messages_published_apply (self : GossipSubMetrics) (topic other : String) :
    (self.inc_messages_published topic).libp2p_pubsub_messages_published other =
      self.libp2p_pubsub_messages_published other + if topic = other then 1 else 0 :=
  inc_label_apply _ _ _

end GossipSubMetrics

end rust_test_node.metrics
