import DstTestNode.Nim.GossipsubFragments
import DstTestNode.Nim.PingSweeps

open nim
open nim_test_node.gossipsub_queues.main (Defect)
open nim_test_node.regression.ping_utils (Connections Keepalive PingBatch Suspension Sweep
  SweepStarts collect_peers found keepalive sound_after step_next)

namespace nim_test_node.regression.ping_utils

variable {PeerId : Type} [DecidableEq PeerId] {own : PeerId}

/-- The most resumptions that are left for a `pingLoop` that is to stop. -/
def Suspension.turns : Suspension PeerId → Nat
  | .batch _ futs => futs.length + 2
  | .gap _ => 2
  | .stagger | .interval => 1
  | .stopped => 0

namespace Keepalive

variable {self : Keepalive PeerId} {event : Event PeerId}

omit [DecidableEq PeerId] in
theorem turns_finish_batch (hflag : self.messages_started = true) (sweep : Sweep PeerId) :
    (self.finish_batch sweep).pinging.turns ≤ 2 := by
  by_cases hmore : sweep.i + PingBatch < sweep.peers.length
  · rw [Keepalive.finish_batch, if_pos hmore]
    exact Nat.le_refl _
  · rw [Keepalive.finish_batch, if_neg hmore, ping_batch_of_started hflag]
    exact Nat.le_succ _

/-- With the flag set, every resumption brings the end of the loop nearer. -/
theorem turns_next (hflag : self.messages_started = true) (henabled : enabled self event) :
    (next own self event).pinging.turns + (if event.resumes then 1 else 0) ≤
      self.pinging.turns := by
  have hstep : Step own self event (next own self event) := step_next henabled
  generalize next own self event = result at hstep ⊢
  cases hstep with
  | noted => exact Nat.le_refl _
  | @completed sweep futs peer hcase hpeer hmore =>
    have herase := List.length_erase_of_mem hpeer
    have hpositive := List.length_pos_of_mem hpeer
    rw [hcase]
    simp only [Suspension.turns, Event.resumes, if_true]
    omega
  | @finished sweep futs peer hcase hpeer hdone =>
    have hpositive := List.length_pos_of_mem hpeer
    have hle := turns_finish_batch hflag sweep
    rw [hcase]
    change _ + 1 ≤ futs.length + 2
    omega
  | resumed hcase =>
    rw [ping_batch_of_started hflag, hcase]
    exact Nat.le_refl _
  | woken hcase connections =>
    rw [Keepalive.ping_loop, if_neg (not_not_intro hflag)]
    cases hpinging : self.pinging with
    | batch sweep futs | gap sweep => simp [hpinging, Suspension.sweep] at hcase
    | stagger | interval => exact Nat.le_refl _
    | stopped => simp [enabled, hpinging] at henabled

theorem started_next (hflag : self.messages_started = true) (henabled : enabled self event) :
    (next own self event).messages_started = true :=
  (pinged_step hflag (step_next henabled)).1

/-- A loop that has not stopped waits for something that can happen. -/
theorem exists_turn (hself : self.Sound own) (hpinging : self.pinging ≠ .stopped) :
    ∃ event : Event PeerId, event.resumes = true ∧ enabled self event := by
  cases hcase : self.pinging with
  | batch sweep futs | gap sweep =>
    exact exists_resume hself (by rw [hcase]; exact Option.some_ne_none _)
  | stagger | interval =>
    exact ⟨.sleep_over ⟨[], List.nodup_nil⟩, rfl, by simp only [enabled, hcase]⟩
  | stopped => exact absurd hcase hpinging

end Keepalive

/-- Once the flag is set, the loop stops after the batch that is in flight. -/
theorem stopped_after {events more : List (Event PeerId)}
    (hlegal : (keepalive own).Legal (events ++ more))
    (hflag : ((keepalive own).after events).messages_started = true)
    (hmany : PingBatch + 2 ≤ more.countP Event.resumes) :
    ((keepalive own).after (events ++ more)).pinging = .stopped := by
  have hstays : ∀ before, before <+: more →
      ((keepalive own).after (events ++ before)).messages_started = true := by
    intro before hpre
    obtain ⟨rest, rfl⟩ := hpre
    rw [← List.append_assoc] at hlegal
    exact (keepalive own).invariant_from (fun self => self.messages_started = true)
      hlegal.of_append hflag fun _ _ _ hset henabled => Keepalive.started_next hset henabled
  have hcount := (keepalive own).countP_le_measure Event.resumes (fun self => self.pinging.turns)
    (fun self => self.messages_started = true)
    (fun before _ event hset henabled _ => Keepalive.turns_next hset henabled) hlegal hstays
  have hsound := (sound_after hlegal.of_append).pinging
  have hfirst : ((keepalive own).after events).pinging.turns ≤ PingBatch + 2 := by
    cases hcase : ((keepalive own).after events).pinging with
    | batch sweep futs =>
      rw [hcase] at hsound
      exact Nat.add_le_add_right hsound.2.1 2
    | gap sweep | stagger | interval | stopped =>
      simp only [Suspension.turns]
      omega
  have hlast : ((keepalive own).after (events ++ more)).pinging.turns = 0 := by omega
  cases hcase : ((keepalive own).after (events ++ more)).pinging with
  | stopped => rfl
  | batch sweep futs | gap sweep | stagger | interval =>
    rw [hcase] at hlast
    simp [Suspension.turns] at hlast

end nim_test_node.regression.ping_utils

namespace nim_test_node.regression.node.main

/-- The handler that `createMessageHandler` returns, with the flag that
`notePublishingStarted` sets and the table it shares between its calls. -/
def create_message_handler (message : Delivery) (messages_started : Bool)
    (messages_chunks : MessagesChunks) : Except Defect (Bool × MessagesChunks) := do
  let headers ← read_headers message
  if headers.timestamp_ns < 1000000 then .ok (messages_started, messages_chunks)
  else .ok (true, messages_chunks.inc headers.msg_id)

/-- A node: its keepalive pings, the table of its message handler, and the defect
that ended it, if any. -/
structure Node (PeerId : Type) where
  pings : Keepalive PeerId
  messages_chunks : MessagesChunks
  defect : Option Defect

/-- What happens to a node: a message of the subscription, or something that
`pingLoop` waits for. -/
inductive Event (PeerId : Type) where
  | message (message : Delivery)
  | pinging (event : ping_utils.Event PeerId)

variable {PeerId : Type}

def Node.receive (self : Node PeerId) (message : Delivery) : Node PeerId :=
  match create_message_handler message self.pings.messages_started self.messages_chunks with
  | .ok result =>
    { self with
      pings := { self.pings with messages_started := result.1 }
      messages_chunks := result.2 }
  | .error defect => { self with defect := some defect }

def Event.heard : Event PeerId → Option Delivery
  | .message received => some received
  | .pinging _ => none

/-- The messages of a run. -/
def heard (events : List (Event PeerId)) : List Delivery := events.filterMap Event.heard

/-- What an event is for `pingLoop`. -/
def Event.noticed : Event PeerId → Option (ping_utils.Event PeerId)
  | .message received =>
    if WellFormed received.data ∧ (counted_id received.data).isSome then
      some .note_publishing_started
    else none
  | .pinging event => some event

theorem create_message_handler_eq {message : Delivery} (hformed : WellFormed message.data)
    (messages_started : Bool) (messages_chunks : MessagesChunks) :
    create_message_handler message messages_started messages_chunks =
      .ok ((counted_id message.data).elim (messages_started, messages_chunks)
        fun msg_id => (true, messages_chunks.inc msg_id)) := by
  obtain ⟨headers, hheaders, htimestamp, hid, _⟩ := read_headers_eq hformed
  simp only [create_message_handler, hheaders, bind, Except.bind, htimestamp, counted_id, ← hid]
  by_cases hwarm : LittleEndian.value (message.data.take 8) < 1000000
  · rw [if_pos (by omega), if_pos hwarm]
    rfl
  · rw [if_neg (by omega), if_neg hwarm]
    rfl

theorem create_message_handler_error {message : Delivery} (hformed : ¬ WellFormed message.data)
    (messages_started : Bool) (messages_chunks : MessagesChunks) :
    ∃ defect, create_message_handler message messages_started messages_chunks = .error defect := by
  cases hheaders : read_headers message with
  | ok headers => exact absurd (read_headers_ok_iff.mp ⟨headers, hheaders⟩) hformed
  | error defect => exact ⟨defect, by simp [create_message_handler, hheaders, bind, Except.bind]⟩

namespace Node

variable {self : Node PeerId}

theorem receive_eq {message : Delivery} (hformed : WellFormed message.data) :
    self.receive message = (counted_id message.data).elim self fun msg_id =>
      { self with
        pings := { self.pings with messages_started := true }
        messages_chunks := self.messages_chunks.inc msg_id } := by
  rw [receive, create_message_handler_eq hformed]
  cases counted_id message.data <;> rfl

theorem receive_error (self : Node PeerId) {message : Delivery} (hformed : ¬ WellFormed message.data) :
    ∃ defect, self.receive message = { self with defect := some defect } := by
  obtain ⟨defect, hdefect⟩ := create_message_handler_error hformed self.pings.messages_started
    self.messages_chunks
  exact ⟨defect, by rw [receive, hdefect]⟩

end Node

theorem heard_snoc_message (events : List (Event PeerId)) (received : Delivery) :
    heard (events ++ [.message received]) = heard events ++ [received] := by
  rw [heard, List.filterMap_append]
  rfl

theorem heard_snoc_pinging (events : List (Event PeerId)) (event : ping_utils.Event PeerId) :
    heard (events ++ [.pinging event]) = heard events := by
  rw [heard, List.filterMap_append]
  exact List.append_nil _

variable [DecidableEq PeerId]

/-- The handler and the loop of a node, in the turns that they take. -/
def event_loop (own : PeerId) : Machine (Node PeerId) (Event PeerId) where
  initial := ⟨(keepalive own).initial, ∅, none⟩
  enabled self
    | .message _ => self.defect = none
    | .pinging event => self.defect = none ∧ event.resumes = true ∧
      (keepalive own).enabled self.pings event
  next self
    | .message received => self.receive received
    | .pinging event => { self with pings := (keepalive own).next self.pings event }

/-- What a message does to the loop. -/
theorem Node.pings_receive {self : Node PeerId} (own : PeerId) (message : Delivery) :
    (self.receive message).pings = (Event.noticed (.message message)).elim self.pings
      ((keepalive own).next self.pings) := by
  by_cases hformed : WellFormed message.data
  · rw [Node.receive_eq hformed]
    cases hid : counted_id message.data with
    | none => simp [Event.noticed, hid]
    | some msg_id =>
      simp only [Event.noticed, hid, hformed, Option.isSome_some, and_self, if_true]
      rfl
  · obtain ⟨defect, hdefect⟩ := self.receive_error hformed
    simp [hdefect, Event.noticed, hformed]

/-- The loop of a node runs as if it were alone, with its flag set by messages. -/
theorem pings_after {own : PeerId} {events : List (Event PeerId)}
    (hlegal : (event_loop own).Legal events) :
    (keepalive own).Legal (events.filterMap Event.noticed) ∧
      ((event_loop own).after events).pings =
        (keepalive own).after (events.filterMap Event.noticed) := by
  refine (event_loop own).after_filterMap (keepalive own) Node.pings Event.noticed rfl ?_ ?_ hlegal
  · intro self event henabled step hstep
    cases event with
    | message received =>
      rw [Event.noticed] at hstep
      split_ifs at hstep
      · cases hstep
        trivial
      · cases hstep
    | pinging event =>
      cases hstep
      exact henabled.2.2
  · intro self event
    cases event with
    | message received => exact Node.pings_receive own received
    | pinging event => rfl

/-- What a node has done with the messages of a run. -/
structure Node.Accounts (node : Node PeerId) (messages : List Delivery) : Prop where
  formed : node.defect = none → ∀ message ∈ messages, WellFormed message.data
  malformed : node.defect ≠ none → ∃ message ∈ messages, ¬ WellFormed message.data
  counts : node.defect = none → node.messages_chunks.Counts (counted_ids messages)
  started : node.defect = none → (node.pings.messages_started = true ↔ counted_ids messages ≠ [])

omit [DecidableEq PeerId] in
theorem Node.Accounts.receive {self : Node PeerId} {messages : List Delivery}
    (haccounts : self.Accounts messages) (halive : self.defect = none) (received : Delivery) :
    (self.receive received).Accounts (messages ++ [received]) := by
  by_cases hformed : WellFormed received.data
  · have hall : ∀ message ∈ messages ++ [received], WellFormed message.data := by
      intro message hmessage
      rcases List.mem_append.mp hmessage with hold | hnew
      · exact haccounts.formed halive message hold
      · rwa [List.mem_singleton.mp hnew]
    have hids : counted_ids (messages ++ [received]) =
        counted_ids messages ++ (counted_id received.data).toList := by
      rw [counted_ids, List.filterMap_append, ← counted_ids]
      cases hid : counted_id received.data <;> simp [hid]
    rw [Node.receive_eq hformed]
    cases hid : counted_id received.data with
    | none =>
      rw [hid, Option.toList_none, List.append_nil] at hids
      refine ⟨fun _ => hall, fun hdead => absurd halive hdead, ?_, ?_⟩
      · exact fun _ => hids ▸ haccounts.counts halive
      · exact fun _ => hids ▸ haccounts.started halive
    | some msg_id =>
      rw [hid, Option.toList_some] at hids
      refine ⟨fun _ => hall, fun hdead => absurd halive hdead, ?_, ?_⟩
      · exact fun _ => hids ▸ (haccounts.counts halive).inc msg_id
      · simp [hids]
  · obtain ⟨defect, hdefect⟩ := self.receive_error hformed
    rw [hdefect]
    refine ⟨fun halive => absurd halive (Option.some_ne_none _),
      fun _ => ⟨received, by simp, hformed⟩, fun halive => absurd halive (Option.some_ne_none _),
      fun halive => absurd halive (Option.some_ne_none _)⟩

theorem accounts_after {own : PeerId} {events : List (Event PeerId)}
    (hlegal : (event_loop own).Legal events) :
    ((event_loop own).after events).Accounts (heard events) := by
  induction events using List.reverseRecOn with
  | nil =>
    refine ⟨fun _ _ hmem => absurd hmem List.not_mem_nil, fun hdead => absurd rfl hdead, ?_, ?_⟩
    · exact fun _ => MessagesChunks.counts_empty
    · exact fun _ => ⟨fun hstarted => absurd hstarted Bool.false_ne_true, fun hne => absurd rfl hne⟩
  | append_singleton events event ih =>
    obtain ⟨hbefore, henabled⟩ := ((event_loop own).meets_snoc _ events event).mp hlegal
    rw [Machine.after_snoc]
    cases event with
    | message received =>
      rw [heard_snoc_message]
      exact (ih hbefore).receive henabled received
    | pinging event =>
      obtain ⟨halive, hresumes, _⟩ := henabled
      have haccounts := ih hbefore
      rw [heard_snoc_pinging]
      refine ⟨haccounts.formed, haccounts.malformed, haccounts.counts, fun _ => ?_⟩
      rw [← haccounts.started halive]
      exact Eq.congr_left (Keepalive.messages_started_next hresumes)

def Event.resumes : Event PeerId → Bool
  | .message _ => false
  | .pinging event => event.resumes

omit [DecidableEq PeerId] in
/-- The resumptions of a loop are those of its node. -/
theorem countP_resumes (events : List (Event PeerId)) :
    (events.filterMap Event.noticed).countP ping_utils.Event.resumes =
      events.countP Event.resumes := by
  rw [List.countP_filterMap]
  apply List.countP_congr
  intro event _
  cases event with
  | message received =>
    rw [Event.noticed]
    split_ifs <;> simp [Event.resumes, ping_utils.Event.resumes]
  | pinging event => rfl

/-- Before the first message that is no warm-up, the loop of a node that wakes
starts a sweep. -/
theorem starts_sweep {own : PeerId} {events : List (Event PeerId)}
    (hlegal : (event_loop own).Legal events)
    (halive : ((event_loop own).after events).defect = none)
    (hflag : ((event_loop own).after events).pings.messages_started = false)
    (hsweep : ((event_loop own).after events).pings.pinging.sweep = none)
    (connections : Connections PeerId) :
    (event_loop own).enabled ((event_loop own).after events)
        (.pinging (.sleep_over connections)) ∧
      SweepStarts own connections ((event_loop own).after events).pings
        ((event_loop own).after (events ++ [.pinging (.sleep_over connections)])).pings := by
  obtain ⟨hlegal', hpings⟩ := pings_after hlegal
  rw [hpings] at hflag hsweep
  obtain ⟨henabled, hstarts⟩ := ping_utils.sweep_starts hlegal' hflag hsweep connections
  rw [Machine.after_snoc, ← hpings] at hstarts
  refine ⟨⟨halive, rfl, by rwa [hpings]⟩, ?_⟩
  rw [Machine.after_snoc]
  exact hstarts

/-- The sweep of a node returns. -/
theorem sweep_returns {own : PeerId} {events more : List (Event PeerId)}
    (hlegal : (event_loop own).Legal (events ++ more)) {sweep : Sweep PeerId}
    (hsweep : ((event_loop own).after events).pings.pinging.sweep = some sweep)
    (hmany : 2 * (collect_peers own sweep.connections).length ≤ more.countP Event.resumes) :
    ∃ before, before <+: more ∧
      ((event_loop own).after (events ++ before)).pings.pinging.sweep = none := by
  obtain ⟨hbegun, hpings⟩ := pings_after hlegal.of_append
  obtain ⟨hlegal', _⟩ := pings_after hlegal
  rw [hpings] at hsweep
  rw [List.filterMap_append] at hlegal'
  have hpeers := ((sound_after hbegun).pinging.begun hsweep).peers_eq
  obtain ⟨turns, hturns, hover⟩ := ping_utils.sweep_ends hlegal' hsweep
    (by rwa [hpeers, countP_resumes])
  obtain ⟨before, hpre, rfl⟩ := List.prefix_filterMap_iff.mp hturns
  obtain ⟨rest, rfl⟩ := hpre
  rw [← List.append_assoc] at hlegal
  obtain ⟨_, hbefore⟩ := pings_after hlegal.of_append
  refine ⟨before, List.prefix_append _ _, ?_⟩
  rw [hbefore, List.filterMap_append]
  exact hover

/-- From the connections to the messages. The sweeps of a node are those that
the sleeps before the first message that is no warm-up start, each over the
connections that it finds. Until then no sleep is the last one, and a sweep that
starts returns and has pinged each connected peer but the node itself once. From
that message on no ping is sent, and the loop stops within one batch of
completions and two more turns, which always come. The table counts the fragments
of every message, until a payload without both headers ends the node. -/
theorem handoff (own : PeerId) {events : List (Event PeerId)}
    (hlegal : (event_loop own).Legal events) :
    let state := (event_loop own).after events
    (state.defect = none ↔ ∀ message ∈ heard events, WellFormed message.data) ∧
    state.pings.started.map (·.connections) = found (events.filterMap Event.noticed) ∧
    (state.defect = none → state.messages_chunks.Counts (counted_ids (heard events)) ∧
      (counted_ids (heard events) = [] →
        (∀ sweep ∈ state.pings.sweeps, ∀ peer, sweep.pinged.flatten.count peer =
          if peer ∈ sweep.connections.keys ∧ peer ≠ own then 1 else 0) ∧
        (state.pings.pinging.sweep = none → ∀ connections,
          (event_loop own).enabled state (.pinging (.sleep_over connections)) ∧
          SweepStarts own connections state.pings
            ((event_loop own).after (events ++ [.pinging (.sleep_over connections)])).pings) ∧
        ∀ sweep, state.pings.pinging.sweep = some sweep →
          (∃ event, (event_loop own).enabled state (.pinging event)) ∧
          ∀ more, (event_loop own).Legal (events ++ more) →
            2 * (collect_peers own sweep.connections).length ≤ more.countP Event.resumes →
            ∃ before, before <+: more ∧
              ((event_loop own).after (events ++ before)).pings.pinging.sweep = none) ∧
      (counted_ids (heard events) ≠ [] → ∀ more, (event_loop own).Legal (events ++ more) →
        let later := (event_loop own).after (events ++ more)
        later.pings.started.map (·.pinged) = state.pings.started.map (·.pinged) ∧
        (PingBatch + 2 ≤ more.countP Event.resumes → later.pings.pinging = .stopped) ∧
        (later.defect = none → later.pings.pinging ≠ .stopped →
          ∃ event, (event_loop own).enabled later (.pinging event)))) := by
  intro state
  have haccounts := accounts_after hlegal
  obtain ⟨hlegal', hpings⟩ := pings_after hlegal
  have hsound := sound_after hlegal'
  rw [← hpings] at hsound
  refine ⟨⟨haccounts.formed, fun hformed => ?_⟩, ?_, fun halive => ⟨haccounts.counts halive,
    fun hnone => ?_, fun hsome more hmore => ?_⟩⟩
  · by_contra hdead
    obtain ⟨message, hmessage, hmalformed⟩ := haccounts.malformed hdead
    exact hmalformed (hformed message hmessage)
  · rw [← ping_utils.connections_after hlegal', ← hpings]
  · have hflag : state.pings.messages_started = false :=
      Bool.eq_false_iff.mpr fun hstarted => (haccounts.started halive).mp hstarted hnone
    refine ⟨fun sweep hsweep => (hsound.complete hflag sweep hsweep).once,
      fun hsweep connections => ?_, fun sweep hsweep => ⟨?_, fun more hmore hmany => ?_⟩⟩
    · exact starts_sweep hlegal halive hflag hsweep connections
    · obtain ⟨event, hresumes, henabled⟩ :=
        Keepalive.exists_resume hsound (by rw [hsweep]; exact Option.some_ne_none _)
      exact ⟨event, halive, hresumes, henabled⟩
    · exact sweep_returns hmore hsweep hmany
  · have hflag : state.pings.messages_started = true := (haccounts.started halive).mpr hsome
    obtain ⟨hmore', hlater⟩ := pings_after hmore
    rw [List.filterMap_append] at hmore' hlater
    simp only [state] at hflag ⊢
    rw [hpings] at hflag ⊢
    rw [hlater]
    refine ⟨ping_utils.pinged_after hmore' hflag, fun hmany => ?_, fun hrunning hpinging => ?_⟩
    · exact ping_utils.stopped_after hmore' hflag (by rwa [countP_resumes])
    · obtain ⟨event, hresumes, henabled⟩ := Keepalive.exists_turn (sound_after hmore') hpinging
      refine ⟨event, hrunning, hresumes, ?_⟩
      rw [hlater]
      exact henabled

instance (own : PeerId) (self : Node PeerId) (event : Event PeerId) :
    Decidable ((event_loop own).enabled self event) :=
  match event with
  | .message _ => inferInstanceAs (Decidable (self.defect = none))
  | .pinging event => inferInstanceAs (Decidable
    (self.defect = none ∧ event.resumes = true ∧ (keepalive own).enabled self.pings event))

/-- A node with two peers, and a message in its first batch. -/
def first_message : List (Event Nat) :=
  [.pinging (.sleep_over ⟨List.range 3, List.nodup_range⟩),
    .message (gossipsub_queues.main.pair_delivery 0 0)]

theorem handoff_two :
    ((event_loop 0).after (first_message ++ [.pinging (.ping_completed 2),
      .pinging (.ping_completed 1), .pinging (.sleep_over ⟨List.range 4, List.nodup_range⟩)])
        ).pings.started.map (·.pinged) = [[[1, 2]]] ∧
    ((event_loop 0).after first_message).pings.started.map (·.connections.keys) = [[0, 1, 2]] := by
  have hlegal : (event_loop 0).Legal (first_message ++ [.pinging (.ping_completed 2),
      .pinging (.ping_completed 1),
      .pinging (.sleep_over ⟨List.range 4, List.nodup_range⟩)]) := by
    decide +kernel
  obtain ⟨_, hfound, hhandoff⟩ := handoff 0 hlegal.of_append
  obtain ⟨_, _, hstops⟩ := hhandoff (by decide +kernel)
  refine ⟨(hstops (by decide +kernel) _ hlegal).1.trans (by decide +kernel), ?_⟩
  have hkeys := congrArg (List.map Connections.keys) hfound
  rw [List.map_map] at hkeys
  exact hkeys.trans (by decide +kernel)

end nim_test_node.regression.node.main
