import DstTestNode.Rust.PublishSafety

open rust rust_test_node.metrics

namespace rust_test_node.main

namespace Consistent

variable {profile : Profile} {chunks : UInt32} {self : Protocol}

/-- A consistent protocol that has lost nothing is exact. -/
theorem exact (hself : Consistent chunks self) (hcomplete : Complete self) : Exact chunks self where
  bounded := hself.bounded
  once := hself.sent_nodup.sublist ((List.sublist_append_left _ _).trans hself.order.sublist)
  ordered := (List.prefix_append _ _).trans hself.order
  kept := by
    intro cmd hcmd
    rw [hcomplete] at hcmd
    rcases List.mem_append.mp hcmd with hexecuted | hqueued
    · obtain ⟨run, hrun, heq⟩ := List.mem_map.mp hexecuted
      obtain ⟨verdict, hanswers, hreply⟩ := hself.answered run hrun
      exact .inr ⟨run, hrun, heq, verdict, hanswers, heq ▸ hreply⟩
    · exact .inl hqueued
  own := hself.own

/-- Receiving a command that can be published executes it. -/
theorem receive (hself : Consistent chunks self) (hcomplete : Complete self) {now : Utc}
    {outcome : Outcomes} (hpublishable : Sustained profile self (.receive now outcome)) :
    Consistent chunks (self.receive profile now outcome) ∧
      Complete (self.receive profile now outcome) := by
  cases hqueue : self.publish_rx with
  | nil =>
    simp only [Protocol.receive, hqueue]
    exact ⟨hself, hcomplete⟩
  | cons cmd publish_rx =>
    have hcmd : cmd.Publishable profile outcome := hpublishable cmd (by simp [hqueue])
    obtain ⟨verdict, hverdict⟩ := (publish_new_message_answers_iff profile cmd now outcome).mpr hcmd
    simp only [Protocol.receive, hqueue, hverdict]
    refine ⟨hself.execute hqueue rfl hverdict, ?_⟩
    simp only [Complete] at hcomplete ⊢
    rw [hcomplete, hqueue]
    simp

/-- Receiving any other command ends the main loop. -/
theorem receive_crash {now : Utc} {outcome : Outcomes}
    (hnot : ¬ Sustained profile self (.receive now outcome)) :
    self.receive profile now outcome = self.crash := by
  cases hqueue : self.publish_rx with
  | nil => simp [Sustained, hqueue] at hnot
  | cons cmd publish_rx =>
    have hcmd : ¬ cmd.Publishable profile outcome := by simpa [Sustained, hqueue] using hnot
    cases hresponse : (publish_new_message profile cmd now outcome).response with
    | error panic => simp only [Protocol.receive, hqueue, hresponse]
    | ok verdict =>
      have hanswers := publish_new_message_answers_iff profile cmd now outcome
      exact absurd (hanswers.mp ⟨verdict, hresponse⟩) hcmd

/-- Handling a swarm event whose messages have headers keeps the protocol
consistent and loses nothing. -/
theorem swarm (hself : Consistent chunks self) (hcomplete : Complete self) {event : SwarmEvent}
    (hheader : Sustained profile self (.swarm event)) :
    Consistent chunks (self.next profile chunks (.swarm event)) ∧
      Complete (self.next profile chunks (.swarm event)) := by
  obtain ⟨node, hstep, hnode⟩ := main_loop_event_accepted profile chunks hself.counting hheader
  simp only [Protocol.next, hstep]
  exact ⟨hself.set_node hnode, hcomplete⟩

/-- A message without a header ends the main loop. -/
theorem swarm_crash {event : SwarmEvent}
    (hnot : ¬ Sustained profile self (.swarm event)) :
    self.next profile chunks (.swarm event) = self.crash := by
  cases hstep : main_loop_event profile chunks self.node event with
  | error panic => simp only [Protocol.next, hstep]
  | ok node => exact absurd (main_loop_event_ok hstep).headers hnot

/-- The steps of a request keep the protocol consistent and lose nothing, while
the main loop runs. -/
theorem request (profile : Profile) (hself : Consistent chunks self) (hcomplete : Complete self)
    (halive : self.crashed = false) {event : ProtocolEvent} (hready : self.ready event)
    (hrequest : event.of_request) :
    Consistent chunks (self.next profile chunks event) ∧
      Complete (self.next profile chunks event) := by
  cases event with
  | arrive id req =>
    simp only [Protocol.ready] at hready
    split at hready
    · next hstage =>
      exact ⟨hself.set_stage id _ (by simp [hstage, Stage.sent_request]) (by simp [OwnVerdict]),
        hcomplete⟩
    · cases hready
  | acquire id =>
    simp only [Protocol.ready] at hready
    split at hready
    · next req hstage =>
      simp only [Protocol.next, hstage]
      exact ⟨(hself.set_stage id _ (by simp [hstage, Stage.sent_request])
        (by simp [OwnVerdict])).set_lock _, hcomplete⟩
    · cases hready
  | send id =>
    simp only [Protocol.ready, halive, Bool.false_eq_true, false_or] at hready
    split at hready
    · next req hstage =>
      simp only [Protocol.next, hstage, halive, Bool.false_eq_true, if_false]
      refine ⟨hself.send hcomplete hstage hready, ?_⟩
      simp only [Complete] at hcomplete ⊢
      rw [hcomplete, List.append_assoc]
      rfl
    · cases hready
  | release id =>
    simp only [Protocol.ready] at hready
    split at hready
    · next req hstage =>
      simp only [Protocol.next, hstage]
      exact ⟨(hself.set_stage id _ (by simp [hstage, Stage.sent_request])
        (by simp [OwnVerdict])).set_lock _, hcomplete⟩
    · cases hready
  | deliver id =>
    simp only [Protocol.ready, halive, Bool.false_eq_true, false_or] at hready
    split at hready
    · next req hstage =>
      obtain ⟨verdict, hreply⟩ := Option.isSome_iff_exists.mp hready
      simp only [Protocol.next, hstage]
      exact ⟨hself.set_stage id _ (by simp [hstage, Stage.sent_request])
        (hself.own_verdict hstage hreply), hcomplete⟩
    · cases hready
  | tick _ | receive _ _ | swarm _ => cases hrequest

end Consistent

/-- What every interleaving keeps whose events the main loop survives. -/
structure Running (chunks : UInt32) (state : Protocol) : Prop where
  consistent : Consistent chunks state
  complete : Complete state
  alive : state.crashed = false
  serviceable : Serviceable state

namespace Running

variable {profile : Profile} {chunks : UInt32} {self : Protocol}

/-- The main loop survives what it can publish and what has headers. -/
theorem alive_next (profile : Profile) (hself : Running chunks self) {event : ProtocolEvent}
    (hsustained : Sustained profile self event) :
    (self.next profile chunks event).crashed = false := by
  cases event with
  | receive now outcome =>
    cases hqueue : self.publish_rx with
    | nil => simpa only [Protocol.next, Protocol.receive, hqueue] using hself.alive
    | cons cmd publish_rx =>
      obtain ⟨verdict, hverdict⟩ := (publish_new_message_answers_iff profile cmd now outcome).mpr
        (hsustained cmd (by simp [hqueue]))
      simpa only [Protocol.next, Protocol.receive, hqueue, hverdict] using hself.alive
  | swarm event =>
    obtain ⟨node, hstep, _⟩ := main_loop_event_accepted profile chunks hself.consistent.counting
      hsustained
    simpa only [Protocol.next, hstep] using hself.alive
  | send id =>
    simp only [Protocol.next, hself.alive, Bool.false_eq_true, if_false]
    split <;> exact hself.alive
  | acquire id | release id | deliver id =>
    simp only [Protocol.next]
    split <;> exact hself.alive
  | arrive _ _ | tick _ => exact hself.alive

theorem next (hself : Running chunks self) {event : ProtocolEvent} (hready : self.ready event)
    (hsustained : Sustained profile self event) :
    Running chunks (self.next profile chunks event) := by
  have hkept : Consistent chunks (self.next profile chunks event) ∧
      Complete (self.next profile chunks event) := by
    cases event with
    | receive now outcome => exact hself.consistent.receive hself.complete hsustained
    | swarm event => exact hself.consistent.swarm hself.complete hsustained
    | tick view =>
      exact ⟨hself.consistent.set_node hself.consistent.counting, hself.complete⟩
    | _ => exact hself.consistent.request profile hself.complete hself.alive hready trivial
  exact ⟨hkept.1, hkept.2, hself.alive_next profile hsustained,
    hself.serviceable.next profile chunks hready⟩

end Running

section Refused

variable (profile : Profile) (chunks : UInt32) (custom_metrics : GossipSubMetrics)
  (early : List SwarmEvent) {self : Protocol}

/-- After a panic a new request takes the free lock, and is told that its
command could not be sent. -/
theorem fresh_refused {id : Nat} (req : PublishRequest) (hcrashed : self.crashed = true)
    (hlock : self.publish_tx = none) (hidle : self.stage id = .idle) :
    (publish_protocol profile chunks custom_metrics early).MeetsFrom Protocol.ready self
        [.arrive id req, .acquire id, .send id] ∧
      ([.arrive id req, .acquire id, .send id].foldl (Protocol.next profile chunks) self).stage id =
        .answered req (send_failed send_error) ∧
      ([.arrive id req, .acquire id, .send id].foldl
        (Protocol.next profile chunks) self).executed = self.executed := by
  simp [Machine.MeetsFrom, publish_protocol, Protocol.ready, Protocol.next, Protocol.set_stage,
    hidle, hlock, hcrashed]

/-- After a panic some request gets an answer without having sent its command:
the one that is about to send, or else a new one. -/
theorem refused (hself : Serviceable self) (hcrashed : self.crashed = true) :
    ∃ more, (∀ event ∈ more, event.of_request) ∧
      (publish_protocol profile chunks custom_metrics early).MeetsFrom Protocol.ready self more ∧
      ∃ id req reply, (self.stage id).sent_request = none ∧
        (more.foldl (Protocol.next profile chunks) self).stage id = .answered req reply ∧
        (more.foldl (Protocol.next profile chunks) self).executed = self.executed := by
  obtain ⟨fresh, hfresh⟩ := hself.fresh
  have hidle : self.stage fresh = .idle := hfresh fresh (Nat.le_refl _)
  cases hlock : self.publish_tx with
  | none =>
    obtain ⟨hready, hstage, hexecuted⟩ :=
      fresh_refused profile chunks custom_metrics early ⟨"test", 8⟩ hcrashed hlock hidle
    exact ⟨_, by simp [ProtocolEvent.of_request], hready, fresh, _, _,
      by simp [hidle, Stage.sent_request], hstage, hexecuted⟩
  | some holder =>
    obtain ⟨req, hholding | hsent⟩ := hself.holder holder hlock
    · refine ⟨[.send holder], by simp [ProtocolEvent.of_request], ?_, holder, req,
        send_failed send_error, by simp [hholding, Stage.sent_request], ?_, ?_⟩
      · simp [Machine.MeetsFrom, Protocol.ready, hholding, hcrashed]
      · simp [Protocol.next, hholding, hcrashed, Protocol.set_stage]
      · simp [Protocol.next, hholding, hcrashed, Protocol.set_stage]
    · have hne : fresh ≠ holder := by
        rintro rfl
        rw [hidle] at hsent
        cases hsent
      -- the lock is given back first, which leaves the fresh request as it is
      have hfreed : self.next profile chunks (.release holder) =
          { self.set_stage holder (.awaiting req) with publish_tx := none } := by
        simp only [Protocol.next, hsent]
      have hstill : (self.next profile chunks (.release holder)).stage fresh = .idle := by
        simpa [hfreed, Protocol.set_stage, hne] using hidle
      obtain ⟨hready, hstage, hexecuted⟩ := fresh_refused profile chunks custom_metrics early
        ⟨"test", 8⟩ (by rw [hfreed]; exact hcrashed) (by rw [hfreed]) hstill
      refine ⟨.release holder :: _, by simp [ProtocolEvent.of_request], ⟨?_, hready⟩, fresh, _, _,
        by simp [hidle, Stage.sent_request], hstage, ?_⟩
      · simp [Protocol.ready, hsent]
      · exact hexecuted.trans (by rw [hfreed]; rfl)

end Refused

/-- The protocol loses, duplicates and crosses nothing in an interleaving, and
however the requests go on from any of its states, exactly when the main loop
survives every command it receives and every swarm event it handles. -/
theorem publish_protocol_exact_iff (profile : Profile) (chunks : UInt32)
    (custom_metrics : GossipSubMetrics) (early : List SwarmEvent) (events : List ProtocolEvent)
    (hlegal : (publish_protocol profile chunks custom_metrics early).Legal events) :
    (publish_protocol profile chunks custom_metrics early).Robustly ProtocolEvent.of_request
        (Exact chunks) events ↔
      (publish_protocol profile chunks custom_metrics early).Meets (Sustained profile) events := by
  apply Machine.robustly_iff_meets _ ProtocolEvent.of_request (Running chunks)
  · exact ⟨Consistent.initial chunks custom_metrics early, rfl, rfl,
      Serviceable.initial custom_metrics early⟩
  · intro self hself
    exact hself.consistent.exact hself.complete
  · intro self event hself hready hsustained
    exact hself.next hready hsustained
  · intro self event hrequest
    cases event with
    | tick _ | receive _ _ | swarm _ => cases hrequest
    | _ => trivial
  · intro self event hself hready hnot
    have hcrash : self.next profile chunks event = self.crash := by
      cases event with
      | receive now outcome => exact Consistent.receive_crash hnot
      | swarm event => exact Consistent.swarm_crash hnot
      | _ => exact absurd trivial hnot
    have hservice : Serviceable self.crash := hcrash ▸ hself.serviceable.next profile chunks hready
    obtain ⟨more, hkind, hmore, id, req, reply, hunsent, hstage, hexecuted⟩ :=
      refused profile chunks custom_metrics early hservice rfl
    refine ⟨more, hkind, ?_, ?_⟩
    · simp only [publish_protocol, hcrash]
      exact hmore
    · simp only [publish_protocol, hcrash]
      exact hself.consistent.unsent hunsent hexecuted hstage
  · exact hlegal

/-- Two concurrent requests: the second one waits for the lock while the first
one sends, and its command is queued behind. -/
theorem publish_protocol_exact_two :
    (publish_protocol .release 1 (.new 4) []).Robustly ProtocolEvent.of_request (Exact 1)
      [.arrive 0 ⟨"test", 100⟩, .arrive 1 ⟨"test", 8⟩, .acquire 0, .send 0, .release 0, .acquire 1,
        .send 1, .receive ⟨1000000, by decide, ""⟩ (fun _ => .ok ""), .release 1,
        .receive ⟨1000001, by decide, ""⟩ (fun _ => .error "InsufficientPeers"), .deliver 1,
        .deliver 0] := by
  refine (publish_protocol_exact_iff .release 1 (.new 4) [] _ ?_).mpr ?_
  · rw [Machine.Legal, Machine.meets_iff_from]
    exact ⟨trivial, trivial, rfl, .inr (by decide : 0 < 10), trivial, rfl,
      .inr (by decide : 1 < 10), ⟨rfl, List.cons_ne_nil _ _⟩, trivial,
      ⟨rfl, List.cons_ne_nil _ _⟩, .inr rfl, .inr rfl, trivial⟩
  · rw [Machine.meets_iff_from]
    refine ⟨trivial, trivial, trivial, trivial, trivial, trivial, trivial, ?_, trivial, ?_, trivial,
      trivial, trivial⟩ <;>
    · intro cmd hcmd
      cases hcmd
      exact ⟨by decide, fun hoverflows => Profile.noConfusion hoverflows.1⟩

/-- A request for less than a header: its command is sent and received, but
neither queued nor answered afterwards, and the request learns only that the
reply channel is closed. -/
theorem short_command_lost :
    (publish_protocol .release 1 (.new 4) []).Legal
        [.arrive 0 ⟨"test", 7⟩, .acquire 0, .send 0,
          .receive ⟨1000000, by decide, ""⟩ (fun _ => .ok ""), .release 0, .deliver 0] ∧
      ((publish_protocol .release 1 (.new 4) []).after
        [.arrive 0 ⟨"test", 7⟩, .acquire 0, .send 0,
          .receive ⟨1000000, by decide, ""⟩ (fun _ => .ok ""), .release 0, .deliver 0]).stage 0 =
        .answered ⟨"test", 7⟩ ({ status := "error", message := "Channel closed" }, 500) ∧
      ¬ (publish_protocol .release 1 (.new 4) []).Always (Exact 1)
        [.arrive 0 ⟨"test", 7⟩, .acquire 0, .send 0,
          .receive ⟨1000000, by decide, ""⟩ (fun _ => .ok ""), .release 0, .deliver 0] := by
  refine ⟨?_, rfl, fun halways => ?_⟩
  · rw [Machine.Legal, Machine.meets_iff_from]
    exact ⟨trivial, rfl, .inr (by decide : 0 < 10), ⟨rfl, List.cons_ne_nil _ _⟩, trivial, .inl rfl,
      trivial⟩
  · rcases halways.last.kept (publish_command 1 ⟨"test", 7⟩ 0) (List.mem_singleton_self _) with
      hqueued | ⟨run, hrun, _⟩
    · cases hqueued
    · cases hrun

end rust_test_node.main
