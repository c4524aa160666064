import Mathlib.Algebra.GroupWithZero.Nat
import Mathlib.Data.Fintype.Basic
import DstTestNode.Library.Distributed
import DstTestNode.Go.Counters

namespace go_test_node.metrics

/-- What a node counts of the RPCs it exchanges. -/
inductive Traffic where
  | network_bytes
  | messages (topic : String)
  | subscriptions (topic : String)
  | unsubscriptions (topic : String)
  | ihave (topic : String)
  | iwant
  | graft (topic : String)
  | prune (topic : String)
  | idontwant
  deriving DecidableEq, Repr

/-- The counter of the traffic that a node has sent. -/
def Counters.broadcast (self : Counters) : Traffic → Nat
  | .network_bytes => self.network_bytes "out"
  | .messages topic => self.pubsub_broadcast_messages topic
  | .subscriptions topic => self.pubsub_broadcast_subscriptions topic
  | .unsubscriptions topic => self.pubsub_broadcast_unsubscriptions topic
  | .ihave topic => self.pubsub_broadcast_ihave topic
  | .iwant => self.pubsub_broadcast_iwant
  | .graft topic => self.pubsub_broadcast_graft topic
  | .prune topic => self.pubsub_broadcast_prune topic
  | .idontwant => self.pubsub_broadcast_idontwant

/-- The counter of the traffic that a node has received. -/
def Counters.received (self : Counters) : Traffic → Nat
  | .network_bytes => self.network_bytes "in"
  | .messages topic => self.pubsub_received_messages topic
  | .subscriptions topic => self.pubsub_received_subscriptions topic
  | .unsubscriptions topic => self.pubsub_received_unsubscriptions topic
  | .ihave topic => self.pubsub_received_ihave topic
  | .iwant => self.pubsub_received_iwant
  | .graft topic => self.pubsub_received_graft topic
  | .prune topic => self.pubsub_received_prune topic
  | .idontwant => self.pubsub_received_idontwant

/-- The counters that no RPC touches. -/
structure OtherCounters where
  network_bytes : { direction : String // direction ≠ "in" ∧ direction ≠ "out" } → Nat
  pubsub_messages_published : CounterVec
  gossipsub_duplicate : Nat
  gossipsub_received : Nat
  pubsub_validation_success : Nat
  pubsub_validation_failure : Nat
  pubsub_reject_reason : CounterVec
  pubsub_rpc_drop : Nat

def Counters.others (self : Counters) : OtherCounters where
  network_bytes := fun direction => self.network_bytes direction
  pubsub_messages_published := self.pubsub_messages_published
  gossipsub_duplicate := self.gossipsub_duplicate
  gossipsub_received := self.gossipsub_received
  pubsub_validation_success := self.pubsub_validation_success
  pubsub_validation_failure := self.pubsub_validation_failure
  pubsub_reject_reason := self.pubsub_reject_reason
  pubsub_rpc_drop := self.pubsub_rpc_drop

/-- The entries of one kind in the control part of an RPC. -/
def RPC.control_entries {Entry : Type} (self : RPC) (entries : ControlMessage → List Entry) :
    List Entry :=
  self.control.elim [] entries

/-- The traffic that an RPC carries. -/
def RPC.carries (self : RPC) : Traffic → Nat
  | .network_bytes => self.size
  | .messages topic => self.publish.countP fun msg => msg.get_topic = topic
  | .subscriptions topic =>
    self.subscriptions.countP fun sub => sub.get_subscribe ∧ sub.get_topicid = topic
  | .unsubscriptions topic =>
    self.subscriptions.countP fun sub => ¬ sub.get_subscribe ∧ sub.get_topicid = topic
  | .ihave topic =>
    (self.control_entries ControlMessage.ihave).countP fun ihave => ihave.get_topic = topic
  | .iwant => (self.control_entries ControlMessage.iwant).length
  | .graft topic =>
    (self.control_entries ControlMessage.graft).countP fun graft => graft.get_topic = topic
  | .prune topic =>
    (self.control_entries ControlMessage.prune).countP fun prune => prune.get_topic = topic
  | .idontwant => (self.control_entries ControlMessage.idontwant).length

namespace Counters

/-- Receiving an RPC counts the traffic it carries as received. -/
theorem received_recv_rpc (self : Counters) (rpc : RPC) (traffic : Traffic) :
    (self.recv_rpc rpc).received traffic = self.received traffic + rpc.carries traffic := by
  have hsubs := inc_subscriptions_apply rpc.subscriptions
    (self.pubsub_received_subscriptions, self.pubsub_received_unsubscriptions)
  unfold recv_rpc
  cases traffic with
  | network_bytes =>
    cases rpc.control with
    | none | some control => simp [received, RPC.carries, CounterVec.add]
  | messages topic =>
    cases rpc.control with
    | none | some control => exact inc_each_apply _ _ _
  | subscriptions topic =>
    cases rpc.control with
    | none | some control => exact (hsubs topic).1
  | unsubscriptions topic =>
    cases rpc.control with
    | none | some control => exact (hsubs topic).2
  | ihave topic | iwant | graft topic | prune topic | idontwant =>
    cases hcontrol : rpc.control with
    | none | some control =>
      simp [received, RPC.carries, RPC.control_entries, hcontrol, inc_each_apply]

/-- Sending an RPC counts the traffic it carries as broadcast. -/
theorem broadcast_send_rpc (self : Counters) (rpc : RPC) (p : String) (traffic : Traffic) :
    (self.send_rpc rpc p).broadcast traffic = self.broadcast traffic + rpc.carries traffic := by
  have hsubs := inc_subscriptions_apply rpc.subscriptions
    (self.pubsub_broadcast_subscriptions, self.pubsub_broadcast_unsubscriptions)
  unfold send_rpc
  cases traffic with
  | network_bytes =>
    cases rpc.control with
    | none | some control => simp [broadcast, RPC.carries, CounterVec.add]
  | messages topic =>
    cases rpc.control with
    | none | some control => exact inc_each_apply _ _ _
  | subscriptions topic =>
    cases rpc.control with
    | none | some control => exact (hsubs topic).1
  | unsubscriptions topic =>
    cases rpc.control with
    | none | some control => exact (hsubs topic).2
  | ihave topic | iwant | graft topic | prune topic | idontwant =>
    cases hcontrol : rpc.control with
    | none | some control =>
      simp [broadcast, RPC.carries, RPC.control_entries, hcontrol, inc_each_apply]

/-- Each direction leaves the counters of the other alone. -/
theorem broadcast_recv_rpc (self : Counters) (rpc : RPC) (traffic : Traffic) :
    (self.recv_rpc rpc).broadcast traffic = self.broadcast traffic := by
  unfold recv_rpc
  cases rpc.control <;> cases traffic <;> simp [broadcast, CounterVec.add]

theorem received_send_rpc (self : Counters) (rpc : RPC) (p : String) (traffic : Traffic) :
    (self.send_rpc rpc p).received traffic = self.received traffic := by
  unfold send_rpc
  cases rpc.control <;> cases traffic <;> simp [received, CounterVec.add]

/-- Neither direction touches any other counter. -/
theorem others_recv_rpc (self : Counters) (rpc : RPC) : (self.recv_rpc rpc).others = self.others := by
  have hbytes : ∀ direction : { direction : String // direction ≠ "in" ∧ direction ≠ "out" },
      self.network_bytes.add "in" rpc.size direction = self.network_bytes direction :=
    fun direction => Function.update_of_ne direction.2.1 _ _
  unfold recv_rpc
  cases rpc.control <;> simp [others, hbytes]

theorem others_send_rpc (self : Counters) (rpc : RPC) (p : String) :
    (self.send_rpc rpc p).others = self.others := by
  have hbytes : ∀ direction : { direction : String // direction ≠ "in" ∧ direction ≠ "out" },
      self.network_bytes.add "out" rpc.size direction = self.network_bytes direction :=
    fun direction => Function.update_of_ne direction.2.2 _ _
  unfold send_rpc
  cases rpc.control <;> simp [others, hbytes]

end Counters

section Network

variable {Node : Type}

/-- An RPC passes through the tracer of its sender or of its receiver. -/
inductive RpcEvent (Node : Type) where
  | send (node : Node) (rpc : RPC) (p : String)
  | recv (node : Node) (rpc : RPC)

/-- The counters of all nodes, each traced by its own process. -/
def rpc_network (Node : Type) : Distributed Node Counters (RpcEvent Node) where
  node
    | .send node _ _ => node
    | .recv node _ => node
  next self
    | .send _ rpc p => self.send_rpc rpc p
    | .recv _ rpc => self.recv_rpc rpc

def RpcEvent.sent : RpcEvent Node → Option RPC
  | .send _ rpc _ => some rpc
  | .recv _ _ => none

def RpcEvent.received : RpcEvent Node → Option RPC
  | .send _ _ _ => none
  | .recv _ rpc => some rpc

def sent_rpcs (events : List (RpcEvent Node)) : List RPC :=
  events.filterMap RpcEvent.sent

def received_rpcs (events : List (RpcEvent Node)) : List RPC :=
  events.filterMap RpcEvent.received

variable [DecidableEq Node] [Fintype Node]

/-- Over all nodes, the broadcast counters grow by the traffic that was sent. -/
theorem sum_broadcast (states : Node → Counters) (events : List (RpcEvent Node))
    (traffic : Traffic) :
    ∑ node, ((rpc_network Node).run states events node).broadcast traffic =
      ∑ node, (states node).broadcast traffic +
        ((sent_rpcs events).map fun rpc => rpc.carries traffic).sum := by
  apply Distributed.sum_run_items _ (fun self : Counters => self.broadcast traffic) RpcEvent.sent
  intro self event
  cases event with
  | send node rpc p => exact self.broadcast_send_rpc rpc p traffic
  | recv node rpc => exact self.broadcast_recv_rpc rpc traffic

/-- Over all nodes, the received counters grow by the traffic that was received. -/
theorem sum_received (states : Node → Counters) (events : List (RpcEvent Node))
    (traffic : Traffic) :
    ∑ node, ((rpc_network Node).run states events node).received traffic =
      ∑ node, (states node).received traffic +
        ((received_rpcs events).map fun rpc => rpc.carries traffic).sum := by
  apply Distributed.sum_run_items _ (fun self : Counters => self.received traffic) RpcEvent.received
  intro self event
  cases event with
  | send node rpc p => exact self.received_send_rpc rpc p traffic
  | recv node rpc => exact self.received_recv_rpc rpc traffic

omit [Fintype Node] in
/-- No node touches any other counter. -/
theorem others_run (states : Node → Counters) (events : List (RpcEvent Node)) (node : Node) :
    ((rpc_network Node).run states events node).others = (states node).others := by
  apply Distributed.run_frame
  intro self event
  cases event with
  | send node rpc p => exact self.others_send_rpc rpc p
  | recv node rpc => exact self.others_recv_rpc rpc

/-- When every RPC that was sent is received exactly once, by whichever node,
the broadcast and received counters of all nodes mirror each other, both count
what the RPCs carry, and no other counter of any node changes. -/
theorem rpc_accounting_mirrors (events : List (RpcEvent Node))
    (hdelivered : (received_rpcs events).Perm (sent_rpcs events)) :
    (∀ traffic,
      ∑ node, ((rpc_network Node).run (fun _ => Counters.new) events node).broadcast traffic =
        ∑ node, ((rpc_network Node).run (fun _ => Counters.new) events node).received traffic ∧
      ∑ node, ((rpc_network Node).run (fun _ => Counters.new) events node).broadcast traffic =
        ((sent_rpcs events).map fun rpc => rpc.carries traffic).sum) ∧
      ∀ node, ((rpc_network Node).run (fun _ => Counters.new) events node).others =
        Counters.new.others := by
  refine ⟨fun traffic => ?_, fun node => others_run _ events node⟩
  have hzero : Counters.new.broadcast traffic = 0 ∧ Counters.new.received traffic = 0 := by
    cases traffic <;> exact ⟨rfl, rfl⟩
  simp only [sum_broadcast, sum_received, hzero, Finset.sum_const_zero, Nat.zero_add,
    (hdelivered.map _).sum_eq, and_self]

end Network

/-- A graft and a message of 40 bytes. -/
def graft_rpc : RPC where
  subscriptions := []
  publish := [⟨some "test"⟩]
  control := some ⟨[], [], [⟨some "test"⟩], [], []⟩
  size := 40

/-- They reach another node before the sender has traced them. -/
theorem rpc_accounting_mirrors_graft :
    ∑ node, ((rpc_network (Fin 3)).run (fun _ => Counters.new)
        [.recv 1 graft_rpc, .send 0 graft_rpc "q"] node).broadcast (.graft "test") = 1 ∧
      ∑ node, ((rpc_network (Fin 3)).run (fun _ => Counters.new)
        [.recv 1 graft_rpc, .send 0 graft_rpc "q"] node).received (.graft "test") = 1 := by
  obtain ⟨htraffic, _⟩ := rpc_accounting_mirrors
    [RpcEvent.recv (1 : Fin 3) graft_rpc, .send 0 graft_rpc "q"] (List.Perm.refl _)
  obtain ⟨hmirror, hcarried⟩ := htraffic (.graft "test")
  have hone : ∑ node, ((rpc_network (Fin 3)).run (fun _ => Counters.new)
      [.recv 1 graft_rpc, .send 0 graft_rpc "q"] node).broadcast (.graft "test") = 1 :=
    hcarried.trans (by decide)
  exact ⟨hone, hmirror.symm.trans hone⟩

end go_test_node.metrics
