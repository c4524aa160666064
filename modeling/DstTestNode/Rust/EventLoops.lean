import DstTestNode.Rust.PanicFree

open rust rust_test_node.metrics

namespace rust_test_node.main

inductive GossipsubEvent where
  | message (message : Delivery)
  | subscribed (peer_id topic : String)
  | unsubscribed (peer_id topic : String)
  | other

inductive SwarmEvent where
  | gossipsub (event : GossipsubEvent)
  | connection_established (peer_id : String)
  | connection_closed (peer_id : String)
  | incoming_connection_error
  | outgoing_connection_error
  | other

/-- What is handed to `metrics.record`: a swarm event, or the gossipsub event
inside one. -/
inductive Recorded where
  | swarm (event : SwarmEvent)
  | gossipsub (event : GossipsubEvent)

/-- What the two event loops of the node write: the state of the message
handler and its output, the messages that reached the handler, and the events
that reached `metrics.record`. -/
structure NodeState where
  receiver : Receiver
  reports : List Report
  handled : List Delivery
  recorded : List Recorded

namespace NodeState

def new (custom_metrics : GossipSubMetrics) : NodeState where
  receiver := { msg_seen := ∅, custom_metrics := custom_metrics }
  reports := []
  handled := []
  recorded := []

def record (self : NodeState) (event : Recorded) : NodeState :=
  { self with recorded := self.recorded ++ [event] }

def update_metrics (self : NodeState) (update : GossipSubMetrics → GossipSubMetrics) : NodeState :=
  { self with receiver :=
      { self.receiver with custom_metrics := update self.receiver.custom_metrics } }

end NodeState

/-- One event of the 20 second loop in `connect_gossipsub_peers`. -/
def connect_loop_event (self : NodeState) : SwarmEvent → NodeState
  | .connection_established _ => self
  | .gossipsub gossipsub_event =>
    match gossipsub_event with
    | .subscribed _ topic => self.update_metrics (·.inc_received_subscriptions topic)
    | .unsubscribed _ topic => self.update_metrics (·.inc_received_unsubscriptions topic)
    | _ => self
  | _ => self

/-- One event of the swarm branch of the main loop. -/
def main_loop_event (profile : Profile) (chunks : UInt32) (self : NodeState)
    (event : SwarmEvent) : Except Panic NodeState :=
  let self := self.record (.swarm event)
  match event with
  | .gossipsub gossipsub_event =>
    let self := self.record (.gossipsub gossipsub_event)
    match gossipsub_event with
    | .message message => do
      let (receiver, report) ← create_message_handler profile message chunks self.receiver
      .ok { self with
        receiver := receiver
        reports := self.reports ++ report.toList
        handled := self.handled ++ [message] }
    | .subscribed _ topic => .ok (self.update_metrics (·.inc_received_subscriptions topic))
    | .unsubscribed _ topic => .ok (self.update_metrics (·.inc_received_unsubscriptions topic))
    | .other => .ok self
  | _ => .ok self

def connect_loop (self : NodeState) (events : List SwarmEvent) : NodeState :=
  events.foldl connect_loop_event self

def main_loop (profile : Profile) (chunks : UInt32) (self : NodeState)
    (events : List SwarmEvent) : Except Panic NodeState :=
  events.foldlM (main_loop_event profile chunks) self

/-- The node sees `early` in the loop of `connect_gossipsub_peers`, and `late`
in the main loop. -/
def node_run (profile : Profile) (chunks : UInt32) (custom_metrics : GossipSubMetrics)
    (early late : List SwarmEvent) : Except Panic NodeState :=
  main_loop profile chunks (connect_loop (.new custom_metrics) early) late

/-- The messages among a sequence of events. -/
def messages : List SwarmEvent → List Delivery
  | [] => []
  | .gossipsub (.message message) :: events => message :: messages events
  | _ :: events => messages events

def SwarmEvent.subscribes (topic : String) : SwarmEvent → Bool
  | .gossipsub (.subscribed _ label) => label = topic
  | _ => false

def SwarmEvent.unsubscribes (topic : String) : SwarmEvent → Bool
  | .gossipsub (.unsubscribed _ label) => label = topic
  | _ => false

/-- The subscription counters of each topic grow by the number of subscription
events of that topic. -/
def CountsSubscriptions (self next : NodeState) (events : List SwarmEvent) : Prop :=
  ∀ topic, next.receiver.custom_metrics.libp2p_pubsub_received_subscriptions topic =
      self.receiver.custom_metrics.libp2p_pubsub_received_subscriptions topic +
        events.countP (·.subscribes topic) ∧
    next.receiver.custom_metrics.libp2p_pubsub_received_unsubscriptions topic =
      self.receiver.custom_metrics.libp2p_pubsub_received_unsubscriptions topic +
        events.countP (·.unsubscribes topic)

/-- What the main loop hands to `metrics.record` on one event. -/
def recordings : SwarmEvent → List Recorded
  | .gossipsub event => [.swarm (.gossipsub event), .gossipsub event]
  | event => [.swarm event]

/-- Two runs of a node have the same outcome: fragment counter, reported
messages, received-message and subscription counters, and recorded events. -/
structure SameOutcome (left right : NodeState) : Prop where
  msg_seen : ∀ tx_time, left.receiver.msg_seen.lookup tx_time = right.receiver.msg_seen.lookup tx_time
  reports : ∀ report, report ∈ left.reports ↔ report ∈ right.reports
  received : left.receiver.custom_metrics.libp2p_gossipsub_received =
    right.receiver.custom_metrics.libp2p_gossipsub_received
  subscriptions : left.receiver.custom_metrics.libp2p_pubsub_received_subscriptions =
    right.receiver.custom_metrics.libp2p_pubsub_received_subscriptions
  unsubscriptions : left.receiver.custom_metrics.libp2p_pubsub_received_unsubscriptions =
    right.receiver.custom_metrics.libp2p_pubsub_received_unsubscriptions
  recorded : left.recorded = right.recorded

/-- Splitting a sequence of events between the two loops makes no difference:
the node handles every message exactly once, and ends as if the main loop had
processed the whole sequence. -/
def SplitAgrees (profile : Profile) (chunks : UInt32) (custom_metrics : GossipSubMetrics)
    (early late : List SwarmEvent) : Prop :=
  ∃ split whole, node_run profile chunks custom_metrics early late = .ok split ∧
    node_run profile chunks custom_metrics [] (early ++ late) = .ok whole ∧
    SameOutcome split whole ∧ split.handled = messages (early ++ late)

theorem messages_cons (event : SwarmEvent) (events : List SwarmEvent) :
    messages (event :: events) = messages [event] ++ messages events := by
  rcases event with gossipsub_event | _ | _ | _ | _ | _
  · cases gossipsub_event <;> rfl
  all_goals rfl

/-- An event whose messages carry their header is processed, and the fragment
counter stays accounted. -/
theorem main_loop_event_accepted (profile : Profile) (chunks : UInt32) {self : NodeState}
    {event : SwarmEvent} (hself : self.receiver.Counting chunks)
    (hheader : ∀ message ∈ messages [event], 8 ≤ message.data.length) :
    ∃ next, main_loop_event profile chunks self event = .ok next ∧
      next.receiver.Counting chunks := by
  rcases event with gossipsub_event | _ | _ | _ | _ | _
  · cases gossipsub_event with
    | message message =>
      obtain ⟨times, htimes⟩ := hself
      obtain ⟨next, report, hstep, hnext, _⟩ := create_message_handler_spec profile message
        chunks self.receiver (hheader message (by simp [messages])) htimes
      simp only [main_loop_event, NodeState.record, hstep, bind, Except.bind]
      exact ⟨_, rfl, _, hnext⟩
    | subscribed peer_id topic => exact ⟨_, rfl, hself⟩
    | unsubscribed peer_id topic => exact ⟨_, rfl, hself⟩
    | other => exact ⟨_, rfl, hself⟩
  all_goals exact ⟨_, rfl, hself⟩

/-- The main loop completes when every message carries its header. -/
theorem main_loop_accepted (profile : Profile) (chunks : UInt32) {self : NodeState}
    {events : List SwarmEvent} (hself : self.receiver.Counting chunks)
    (hheader : ∀ message ∈ messages events, 8 ≤ message.data.length) :
    ∃ last, main_loop profile chunks self events = .ok last := by
  induction events generalizing self with
  | nil => exact ⟨self, rfl⟩
  | cons event events ih =>
    rw [messages_cons, List.forall_mem_append] at hheader
    obtain ⟨next, hstep, hnext⟩ := main_loop_event_accepted profile chunks hself hheader.1
    obtain ⟨last, hlast⟩ := ih hnext hheader.2
    exact ⟨last, by simpa only [main_loop, List.foldlM_cons, hstep, bind, Except.bind] using hlast⟩

/-- The loop of `connect_gossipsub_peers` handles and records nothing. -/
theorem connect_loop_frame (self : NodeState) (events : List SwarmEvent) :
    (connect_loop self events).receiver.msg_seen = self.receiver.msg_seen ∧
      (connect_loop self events).reports = self.reports ∧
      (connect_loop self events).handled = self.handled ∧
      (connect_loop self events).recorded = self.recorded := by
  induction events generalizing self with
  | nil => exact ⟨rfl, rfl, rfl, rfl⟩
  | cons event events ih =>
    have hevent : (connect_loop_event self event).receiver.msg_seen = self.receiver.msg_seen ∧
        (connect_loop_event self event).reports = self.reports ∧
        (connect_loop_event self event).handled = self.handled ∧
        (connect_loop_event self event).recorded = self.recorded := by
      rcases event with gossipsub_event | _ | _ | _ | _ | _
      · cases gossipsub_event <;> exact ⟨rfl, rfl, rfl, rfl⟩
      all_goals exact ⟨rfl, rfl, rfl, rfl⟩
    obtain ⟨hseen, hreports, hhandled, hrecorded⟩ := ih (connect_loop_event self event)
    exact ⟨hseen.trans hevent.1, hreports.trans hevent.2.1, hhandled.trans hevent.2.2.1,
      hrecorded.trans hevent.2.2.2⟩

theorem CountsSubscriptions.trans {first second third : NodeState} {before after : List SwarmEvent}
    (hbefore : CountsSubscriptions first second before)
    (hafter : CountsSubscriptions second third after) :
    CountsSubscriptions first third (before ++ after) := by
  intro topic
  obtain ⟨hsub, hunsub⟩ := hbefore topic
  obtain ⟨hsubs, hunsubs⟩ := hafter topic
  rw [List.countP_append, List.countP_append]
  omega

theorem countsSubscriptions_subscribed (self : NodeState) (peer_id topic : String) :
    CountsSubscriptions self (self.update_metrics (·.inc_received_subscriptions topic))
      [.gossipsub (.subscribed peer_id topic)] := by
  intro other
  simp [NodeState.update_metrics, GossipSubMetrics.inc_received_subscriptions,
    GossipSubMetrics.inc_label_apply, SwarmEvent.subscribes, SwarmEvent.unsubscribes,
    List.countP_singleton]

theorem countsSubscriptions_unsubscribed (self : NodeState) (peer_id topic : String) :
    CountsSubscriptions self (self.update_metrics (·.inc_received_unsubscriptions topic))
      [.gossipsub (.unsubscribed peer_id topic)] := by
  intro other
  simp [NodeState.update_metrics, GossipSubMetrics.inc_received_unsubscriptions,
    GossipSubMetrics.inc_label_apply, SwarmEvent.subscribes, SwarmEvent.unsubscribes,
    List.countP_singleton]

theorem connect_loop_event_subscriptions (self : NodeState) (event : SwarmEvent) :
    CountsSubscriptions self (connect_loop_event self event) [event] := by
  rcases event with gossipsub_event | _ | _ | _ | _ | _
  · cases gossipsub_event with
    | subscribed peer_id topic => exact countsSubscriptions_subscribed self peer_id topic
    | unsubscribed peer_id topic => exact countsSubscriptions_unsubscribed self peer_id topic
    | message message => exact fun topic => ⟨rfl, rfl⟩
    | other => exact fun topic => ⟨rfl, rfl⟩
  all_goals exact fun topic => ⟨rfl, rfl⟩

theorem connect_loop_subscriptions (self : NodeState) (events : List SwarmEvent) :
    CountsSubscriptions self (connect_loop self events) events := by
  induction events generalizing self with
  | nil => exact fun topic => ⟨rfl, rfl⟩
  | cons event events ih => exact (connect_loop_event_subscriptions self event).trans (ih _)

/-- What the main loop leaves behind of a sequence of events: all of them are
recorded, their messages are handled and carried headers, and their
subscriptions are counted. -/
structure Processes (before after : NodeState) (events : List SwarmEvent) : Prop where
  recorded : after.recorded = before.recorded ++ events.flatMap recordings
  handled : after.handled = before.handled ++ messages events
  headers : ∀ message ∈ messages events, 8 ≤ message.data.length
  subscriptions : CountsSubscriptions before after events

namespace Processes

theorem nil (self : NodeState) : Processes self self [] where
  recorded := by simp
  handled := by simp [messages]
  headers := by simp [messages]
  subscriptions := fun topic => ⟨rfl, rfl⟩

theorem cons {first second third : NodeState} {event : SwarmEvent} {events : List SwarmEvent}
    (hevent : Processes first second [event]) (hevents : Processes second third events) :
    Processes first third (event :: events) where
  recorded := by
    rw [hevents.recorded, hevent.recorded, List.append_assoc, ← List.flatMap_append]
    rfl
  handled := by
    rw [hevents.handled, hevent.handled, messages_cons event events, List.append_assoc]
  headers := by
    rw [messages_cons, List.forall_mem_append]
    exact ⟨hevent.headers, hevents.headers⟩
  subscriptions := hevent.subscriptions.trans hevents.subscriptions

end Processes

/-- An event that is processed is processed in full. -/
theorem main_loop_event_ok {profile : Profile} {chunks : UInt32} {self next : NodeState}
    {event : SwarmEvent} (hstep : main_loop_event profile chunks self event = .ok next) :
    Processes self next [event] := by
  rcases event with gossipsub_event | _ | _ | _ | _ | _
  · cases gossipsub_event with
    | message message =>
      by_cases hshort : message.data.length < 8
      · simp only [main_loop_event, NodeState.record, bind, Except.bind,
          create_message_handler_short _ _ _ _ hshort] at hstep
        cases hstep
      · simp only [main_loop_event, NodeState.record, bind, Except.bind] at hstep
        split at hstep
        · cases hstep
        · next handled hhandler =>
          cases hstep
          refine ⟨by simp [recordings], by simp [messages], by simpa [messages] using hshort, ?_⟩
          have hmetrics := create_message_handler_received hhandler
          split at hmetrics <;>
            simp [CountsSubscriptions, hmetrics, GossipSubMetrics.inc_received_message,
              SwarmEvent.subscribes, SwarmEvent.unsubscribes]
    | subscribed peer_id topic =>
      cases hstep
      exact ⟨by simp [recordings, NodeState.record, NodeState.update_metrics],
        by simp [messages, NodeState.record, NodeState.update_metrics], by simp [messages],
        countsSubscriptions_subscribed self peer_id topic⟩
    | unsubscribed peer_id topic =>
      cases hstep
      exact ⟨by simp [recordings, NodeState.record, NodeState.update_metrics],
        by simp [messages, NodeState.record, NodeState.update_metrics], by simp [messages],
        countsSubscriptions_unsubscribed self peer_id topic⟩
    | other =>
      cases hstep
      exact ⟨by simp [recordings, NodeState.record], by simp [messages, NodeState.record],
        by simp [messages], fun topic => ⟨rfl, rfl⟩⟩
  all_goals
    cases hstep
    exact ⟨by simp [recordings, NodeState.record], by simp [messages, NodeState.record],
      by simp [messages], fun topic => ⟨rfl, rfl⟩⟩

/-- A completed run of the main loop has processed all its events. -/
theorem main_loop_ok {profile : Profile} {chunks : UInt32} {self last : NodeState}
    {events : List SwarmEvent} (hrun : main_loop profile chunks self events = .ok last) :
    Processes self last events := by
  induction events generalizing self with
  | nil =>
    cases hrun
    exact Processes.nil _
  | cons event events ih =>
    simp only [main_loop, List.foldlM_cons, bind, Except.bind] at hrun
    split at hrun
    · cases hrun
    · next next hstep => exact (main_loop_event_ok hstep).cons (ih hrun)

/-- The subscription counters do not depend on the split: both loops count all
subscription events. -/
theorem node_run_subscriptions {profile : Profile} {chunks : UInt32}
    {custom_metrics : GossipSubMetrics} {early late : List SwarmEvent} {last : NodeState}
    (hrun : node_run profile chunks custom_metrics early late = .ok last) :
    CountsSubscriptions (.new custom_metrics) last (early ++ late) :=
  (connect_loop_subscriptions _ early).trans (main_loop_ok hrun).subscriptions

theorem recordings_ne_nil (event : SwarmEvent) : recordings event ≠ [] := by
  cases event <;> simp [recordings]

/-- The two loops agree on a split exactly when the first one sees no event at
all, and every message carries its header. -/
theorem split_agrees_iff (profile : Profile) (chunks : UInt32) (custom_metrics : GossipSubMetrics)
    (early late : List SwarmEvent) :
    SplitAgrees profile chunks custom_metrics early late ↔
      early = [] ∧ ∀ message ∈ messages late, 8 ≤ message.data.length := by
  constructor
  · rintro ⟨split, whole, hsplit, hwhole, hsame, hhandled⟩
    obtain ⟨_, _, _, hearly⟩ := connect_loop_frame (.new custom_metrics) early
    have hlate := main_loop_ok hsplit
    refine ⟨?_, hlate.headers⟩
    have hrecorded := hsame.recorded
    rw [hlate.recorded, (main_loop_ok hwhole).recorded, hearly, List.flatMap_append] at hrecorded
    simp only [connect_loop, List.foldl_nil] at hrecorded
    have hnothing : early.flatMap recordings = [] := by simpa using hrecorded
    cases early with
    | nil => rfl
    | cons event events =>
      simp only [List.flatMap_cons, List.append_eq_nil_iff] at hnothing
      exact absurd hnothing.1 (recordings_ne_nil event)
  · rintro ⟨hearly, hheaders⟩
    subst hearly
    have hcounting : (NodeState.new custom_metrics).receiver.Counting chunks :=
      ⟨[], CountingMap.accounts_empty _⟩
    obtain ⟨last, hlast⟩ := main_loop_accepted profile chunks hcounting hheaders
    have hhandled := (main_loop_ok hlast).handled
    exact ⟨last, last, hlast, hlast, ⟨fun _ => rfl, fun _ => Iff.rfl, rfl, rfl, rfl, rfl⟩,
      by simpa [NodeState.new] using hhandled⟩

/-- A message that arrives while the node waits for its peers is neither
handled nor reported; in the main loop it would be. -/
theorem early_message_lost :
    let message : Delivery := ⟨[64, 66, 15, 0, 0, 0, 0, 0], ⟨3000000, by decide, ""⟩⟩
    let events := [SwarmEvent.gossipsub (.message message)]
    ¬ SplitAgrees .release 1 (.new 4) events [] ∧
      (node_run .release 1 (.new 4) events []).map NodeState.reports = .ok [] ∧
      (node_run .release 1 (.new 4) [] events).map NodeState.reports =
        .ok [{ tx_time := 1000000, latency := 2 }] := by
  have htime : read_i64 [64, 66, 15, 0, 0, 0, 0, 0] = some 1000000 := by decide
  refine ⟨?_, rfl, ?_⟩
  · rintro ⟨split, whole, hsplit, hwhole, hsame, hhandled⟩
    cases hsplit
    cases hhandled
  · simp [node_run, main_loop, main_loop_event, connect_loop, NodeState.new, NodeState.record,
      create_message_handler, htime, bind, Except.bind, Except.map, pure, Except.pure]

end rust_test_node.main
