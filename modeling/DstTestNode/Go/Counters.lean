import Mathlib.Logic.Function.Iterate
import Mathlib.Data.List.Count

namespace go_test_node.metrics

/-- A counter vector with one label. A label that was never used reads zero. -/
abbrev CounterVec : Type := String → Nat

/-- `WithLabelValues(label).Add(value)`. -/
def CounterVec.add (self : CounterVec) (label : String) (value : Nat) : CounterVec :=
  Function.update self label (self label + value)

def CounterVec.inc (self : CounterVec) (label : String) : CounterVec :=
  self.add label 1

/-- The counters of one node, which all start at zero. -/
structure Counters where
  network_bytes : CounterVec
  pubsub_messages_published : CounterVec
  pubsub_broadcast_messages : CounterVec
  pubsub_received_messages : CounterVec
  pubsub_broadcast_subscriptions : CounterVec
  pubsub_broadcast_unsubscriptions : CounterVec
  pubsub_received_subscriptions : CounterVec
  pubsub_received_unsubscriptions : CounterVec
  pubsub_broadcast_ihave : CounterVec
  pubsub_received_ihave : CounterVec
  pubsub_broadcast_iwant : Nat
  pubsub_received_iwant : Nat
  pubsub_broadcast_graft : CounterVec
  pubsub_received_graft : CounterVec
  pubsub_broadcast_prune : CounterVec
  pubsub_received_prune : CounterVec
  pubsub_broadcast_idontwant : Nat
  pubsub_received_idontwant : Nat
  gossipsub_duplicate : Nat
  gossipsub_received : Nat
  pubsub_validation_success : Nat
  pubsub_validation_failure : Nat
  pubsub_reject_reason : CounterVec
  pubsub_rpc_drop : Nat

/-- A subscription of an RPC. Its getters read `false` and `""` for an absent field. -/
structure SubOpts where
  subscribe : Option Bool
  topicid : Option String

def SubOpts.get_topicid (self : SubOpts) : String := self.topicid.getD ""

def SubOpts.get_subscribe (self : SubOpts) : Bool := self.subscribe.getD false

/-- An entry with a topic: an ihave, graft or prune of the control part, or a
published message. -/
structure TopicEntry where
  topic_id : Option String

def TopicEntry.get_topic (self : TopicEntry) : String := self.topic_id.getD ""

/-- The message ids of an iwant or idontwant entry. -/
structure IdsEntry where
  message_ids : List String

structure ControlMessage where
  ihave : List TopicEntry
  iwant : List IdsEntry
  graft : List TopicEntry
  prune : List TopicEntry
  idontwant : List IdsEntry

/-- An RPC between two routers, with its encoded size. -/
structure RPC where
  subscriptions : List SubOpts
  publish : List TopicEntry
  control : Option ControlMessage
  size : Nat

/-- A loop that counts the topic of each entry. -/
def inc_each : List TopicEntry → CounterVec → CounterVec
  | [], counter => counter
  | entry :: entries, counter => inc_each entries (counter.inc entry.get_topic)

/-- A loop that counts the topic of each subscription and unsubscription. -/
def inc_subscriptions : List SubOpts → CounterVec × CounterVec → CounterVec × CounterVec
  | [], counters => counters
  | sub :: subs, (subscriptions, unsubscriptions) =>
    let topic := sub.get_topicid
    if sub.get_subscribe then inc_subscriptions subs (subscriptions.inc topic, unsubscriptions)
    else inc_subscriptions subs (subscriptions, unsubscriptions.inc topic)

namespace Counters

def new : Counters where
  network_bytes := fun _ => 0
  pubsub_messages_published := fun _ => 0
  pubsub_broadcast_messages := fun _ => 0
  pubsub_received_messages := fun _ => 0
  pubsub_broadcast_subscriptions := fun _ => 0
  pubsub_broadcast_unsubscriptions := fun _ => 0
  pubsub_received_subscriptions := fun _ => 0
  pubsub_received_unsubscriptions := fun _ => 0
  pubsub_broadcast_ihave := fun _ => 0
  pubsub_received_ihave := fun _ => 0
  pubsub_broadcast_iwant := 0
  pubsub_received_iwant := 0
  pubsub_broadcast_graft := fun _ => 0
  pubsub_received_graft := fun _ => 0
  pubsub_broadcast_prune := fun _ => 0
  pubsub_received_prune := fun _ => 0
  pubsub_broadcast_idontwant := 0
  pubsub_received_idontwant := 0
  gossipsub_duplicate := 0
  gossipsub_received := 0
  pubsub_validation_success := 0
  pubsub_validation_failure := 0
  pubsub_reject_reason := fun _ => 0
  pubsub_rpc_drop := 0

def deliver_message (self : Counters) : Counters :=
  { self with
    gossipsub_received := self.gossipsub_received + 1
    pubsub_validation_success := self.pubsub_validation_success + 1 }

def record_message_published (self : Counters) (topic : String) : Counters :=
  { self with pubsub_messages_published := self.pubsub_messages_published.inc topic }

/-- `RecvRPC`. -/
def recv_rpc (self : Counters) (rpc : RPC) : Counters :=
  let self := { self with network_bytes := self.network_bytes.add "in" rpc.size }
  let (subscriptions, unsubscriptions) := inc_subscriptions rpc.subscriptions
    (self.pubsub_received_subscriptions, self.pubsub_received_unsubscriptions)
  let self :=
    { self with
      pubsub_received_subscriptions := subscriptions
      pubsub_received_unsubscriptions := unsubscriptions }
  let self := match rpc.control with
    | none => self
    | some control =>
      { self with
        pubsub_received_ihave := inc_each control.ihave self.pubsub_received_ihave
        pubsub_received_iwant := self.pubsub_received_iwant + control.iwant.length
        pubsub_received_graft := inc_each control.graft self.pubsub_received_graft
        pubsub_received_prune := inc_each control.prune self.pubsub_received_prune
        pubsub_received_idontwant := self.pubsub_received_idontwant + control.idontwant.length }
  { self with pubsub_received_messages := inc_each rpc.publish self.pubsub_received_messages }

/-- `SendRPC`. -/
def send_rpc (self : Counters) (rpc : RPC) (_p : String) : Counters :=
  let self := { self with network_bytes := self.network_bytes.add "out" rpc.size }
  let (subscriptions, unsubscriptions) := inc_subscriptions rpc.subscriptions
    (self.pubsub_broadcast_subscriptions, self.pubsub_broadcast_unsubscriptions)
  let self :=
    { self with
      pubsub_broadcast_subscriptions := subscriptions
      pubsub_broadcast_unsubscriptions := unsubscriptions }
  let self := match rpc.control with
    | none => self
    | some control =>
      { self with
        pubsub_broadcast_ihave := inc_each control.ihave self.pubsub_broadcast_ihave
        pubsub_broadcast_iwant := self.pubsub_broadcast_iwant + control.iwant.length
        pubsub_broadcast_graft := inc_each control.graft self.pubsub_broadcast_graft
        pubsub_broadcast_prune := inc_each control.prune self.pubsub_broadcast_prune
        pubsub_broadcast_idontwant := self.pubsub_broadcast_idontwant + control.idontwant.length }
  { self with pubsub_broadcast_messages := inc_each rpc.publish self.pubsub_broadcast_messages }

end Counters

theorem CounterVec.inc_apply (self : CounterVec) (label other : String) :
    self.inc label other = self other + if label = other then 1 else 0 := by
  by_cases hother : label = other
  · subst hother
    simp [inc, add]
  · simp [inc, add, hother, Ne.symm hother]

theorem Counters.record_message_published_apply (self : Counters) (topic other : String) :
    (self.record_message_published topic).pubsub_messages_published other =
      self.pubsub_messages_published other + if topic = other then 1 else 0 :=
  CounterVec.inc_apply _ _ _

theorem Counters.record_message_published_iterate (self : Counters) (topic : String) (n : Nat) :
    ((fun counters : Counters => counters.record_message_published topic)^[n]
        self).pubsub_messages_published topic = self.pubsub_messages_published topic + n := by
  induction n with
  | zero => rfl
  | succ n ih =>
    rw [Function.iterate_succ_apply', record_message_published_apply, if_pos rfl, ih, Nat.add_assoc]

/-- The loop adds the number of entries on each topic. -/
theorem inc_each_apply (entries : List TopicEntry) (counter : CounterVec) (topic : String) :
    inc_each entries counter topic =
      counter topic + entries.countP fun entry => entry.get_topic = topic := by
  induction entries generalizing counter with
  | nil => rfl
  | cons entry entries ih =>
    rw [inc_each, ih, CounterVec.inc_apply, List.countP_cons]
    simp only [decide_eq_true_eq]
    omega

/-- The loop adds the number of subscriptions and unsubscriptions of each topic. -/
theorem inc_subscriptions_apply (subs : List SubOpts) (counters : CounterVec × CounterVec)
    (topic : String) :
    (inc_subscriptions subs counters).1 topic = counters.1 topic +
        subs.countP (fun sub => sub.get_subscribe ∧ sub.get_topicid = topic) ∧
      (inc_subscriptions subs counters).2 topic = counters.2 topic +
        subs.countP (fun sub => ¬ sub.get_subscribe ∧ sub.get_topicid = topic) := by
  induction subs generalizing counters with
  | nil => exact ⟨rfl, rfl⟩
  | cons sub subs ih =>
    obtain ⟨subscriptions, unsubscriptions⟩ := counters
    simp only [inc_subscriptions, List.countP_cons]
    cases hsubscribe : sub.get_subscribe with
    | true =>
      obtain ⟨hsubscriptions, hunsubscriptions⟩ := ih (subscriptions.inc sub.get_topicid,
        unsubscriptions)
      rw [if_pos rfl, hsubscriptions, hunsubscriptions]
      simp only [CounterVec.inc_apply, decide_eq_true_eq, true_and, not_true_eq_false, false_and,
        if_false]
      omega
    | false =>
      obtain ⟨hsubscriptions, hunsubscriptions⟩ := ih (subscriptions,
        unsubscriptions.inc sub.get_topicid)
      rw [if_neg Bool.false_ne_true, hsubscriptions, hunsubscriptions]
      simp only [CounterVec.inc_apply, decide_eq_true_eq, Bool.false_eq_true, false_and, if_false,
        not_false_eq_true, true_and]
      omega

end go_test_node.metrics
