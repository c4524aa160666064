import DstTestNode.Rust.PublishProtocol
import DstTestNode.Rust.Verdict

open rust rust_test_node.metrics

namespace rust_test_node.main

/-- The publish branch of the main loop on one command, with the answer sent to
its client. -/
def handle_publish (custom_metrics : GossipSubMetrics) (run : PublishRun) :
    Except Panic (GossipSubMetrics × Except String String) := do
  let topic_name := run.cmd.topic
  let answer ← (publish_new_message run.profile run.cmd run.now run.outcome).response
  .ok (custom_metrics.inc_messages_published topic_name, answer)

/-- The publish branch on a sequence of commands, with the answer to each. -/
def handle_publishes (custom_metrics : GossipSubMetrics) :
    List PublishRun → Except Panic (GossipSubMetrics × List (Except String String))
  | [] => .ok (custom_metrics, [])
  | run :: runs => do
    let (custom_metrics, answer) ← handle_publish custom_metrics run
    let (custom_metrics, answers) ← handle_publishes custom_metrics runs
    .ok (custom_metrics, answer :: answers)

/-- The number of commands on a topic that were answered with success. -/
def successes (topic : String) (runs : List PublishRun) (answers : List (Except String String)) :
    Nat :=
  (runs.zip answers).countP fun (run, answer) => run.cmd.topic = topic ∧ answer.isOk

/-- After all the commands, the counter of each topic is the number of commands
on it that were answered with success. -/
def CounterAgrees (d_low : Int) (runs : List PublishRun) : Prop :=
  ∃ custom_metrics answers,
    handle_publishes (GossipSubMetrics.new d_low) runs = .ok (custom_metrics, answers) ∧
    ∀ topic, custom_metrics.libp2p_pubsub_messages_published topic = successes topic runs answers

/-- Every command is accepted as a whole, and its accepted fragments fit the
counter of the publisher. -/
def PublishRun.Succeeds (self : PublishRun) : Prop :=
  self.Accepted ∧ self.cmd.chunks.toNat ≤ i32_max

/-- A command that can be carried out is counted whatever its answer, which is
success exactly when the command succeeds. -/
theorem handle_publish_spec (custom_metrics : GossipSubMetrics) (run : PublishRun)
    (hpublishable : run.cmd.Publishable run.profile run.outcome) :
    ∃ answer, handle_publish custom_metrics run =
        .ok (custom_metrics.inc_messages_published run.cmd.topic, answer) ∧
      (answer.isOk ↔ run.Succeeds) := by
  obtain ⟨answer, hanswer⟩ := (publish_new_message_answers_iff run.profile run.cmd run.now
    run.outcome).mpr hpublishable
  have hsuccess := publish_new_message_success_iff run hpublishable
  refine ⟨answer, by simp only [handle_publish, hanswer, bind, Except.bind], ?_⟩
  rw [PublishRun.Succeeds, ← hsuccess, hanswer]
  cases answer with
  | ok msg => simp [Except.isOk, Except.toBool]
  | error e => simp [Except.isOk, Except.toBool]

/-- The counter of a topic grows by the commands on it, and the successes are
those among them that succeed. -/
theorem handle_publishes_spec (custom_metrics : GossipSubMetrics) (runs : List PublishRun)
    (hpublishable : ∀ run ∈ runs, run.cmd.Publishable run.profile run.outcome) :
    ∃ next answers, handle_publishes custom_metrics runs = .ok (next, answers) ∧
      (∀ topic, next.libp2p_pubsub_messages_published topic =
        custom_metrics.libp2p_pubsub_messages_published topic +
          runs.countP fun run => run.cmd.topic = topic) ∧
      ∀ topic, successes topic runs answers ≤ runs.countP (fun run => run.cmd.topic = topic) ∧
        (successes topic runs answers = runs.countP (fun run => run.cmd.topic = topic) ↔
          ∀ run ∈ runs, run.cmd.topic = topic → run.Succeeds) := by
  induction runs generalizing custom_metrics with
  | nil => exact ⟨custom_metrics, [], rfl, by simp, by simp [successes]⟩
  | cons run runs ih =>
    obtain ⟨hrun, hruns⟩ := List.forall_mem_cons.mp hpublishable
    obtain ⟨answer, hstep, hanswer⟩ := handle_publish_spec custom_metrics run hrun
    obtain ⟨next, answers, hrest, hcounter, hsuccesses⟩ :=
      ih (custom_metrics.inc_messages_published run.cmd.topic) hruns
    refine ⟨next, answer :: answers, ?_, ?_, ?_⟩
    · simp only [handle_publishes, hstep, hrest, bind, Except.bind]
    · intro topic
      rw [hcounter topic, GossipSubMetrics.inc_messages_published_apply, List.countP_cons]
      simp only [decide_eq_true_eq]
      omega
    · intro topic
      obtain ⟨hle, hiff⟩ := hsuccesses topic
      have hcons : successes topic (run :: runs) (answer :: answers) =
          successes topic runs answers + if run.cmd.topic = topic ∧ answer.isOk then 1 else 0 := by
        simp [successes, List.countP_cons]
      rw [hcons, List.countP_cons, List.forall_mem_cons, ← hiff]
      by_cases htopic : run.cmd.topic = topic
      · cases hok : answer.isOk with
        | true =>
          simp only [htopic, hanswer.mp hok, and_self, decide_true, if_true, true_and, forall_const]
          omega
        | false =>
          have hfails : ¬ run.Succeeds := by rw [← hanswer, hok]; simp
          simp only [htopic, hfails, Bool.false_eq_true, and_false, decide_true, if_true, if_false,
            false_and, forall_const, iff_false]
          omega
      · simp only [htopic, decide_false, false_and, if_false, Bool.false_eq_true, true_and,
          false_implies]
        omega

/-- The counter of published messages agrees with the answers exactly when every
command succeeds: it also counts the commands answered with an error. -/
theorem published_counter_agrees_iff (d_low : Int) (runs : List PublishRun)
    (hpublishable : ∀ run ∈ runs, run.cmd.Publishable run.profile run.outcome) :
    CounterAgrees d_low runs ↔
      ∀ run ∈ runs, run.Accepted ∧ run.cmd.chunks.toNat ≤ i32_max := by
  obtain ⟨next, answers, hrun, hcounter, hsuccesses⟩ :=
    handle_publishes_spec (GossipSubMetrics.new d_low) runs hpublishable
  have hnew (topic : String) : next.libp2p_pubsub_messages_published topic =
      runs.countP fun run => run.cmd.topic = topic := by
    rw [hcounter topic]
    simp [GossipSubMetrics.new]
  constructor
  · rintro ⟨custom_metrics, verdicts, hhandled, hagrees⟩ run hmem
    rw [hrun, Except.ok.injEq, Prod.mk.injEq] at hhandled
    obtain ⟨rfl, rfl⟩ := hhandled
    have hall := hagrees run.cmd.topic
    rw [hnew] at hall
    exact (hsuccesses run.cmd.topic).2.mp hall.symm run hmem rfl
  · intro hall
    refine ⟨next, answers, hrun, fun topic => ?_⟩
    rw [hnew topic]
    exact ((hsuccesses topic).2.mpr fun run hmem _ => hall run hmem).symm

/-- A message of one fragment of 20 bytes. -/
def single_fragment : PublishCommand where
  topic := "test"
  msg_size := 20
  chunks := 1
  response_tx := 0

theorem one_second_lt : 1000000000 < 2 ^ 63 := by
  decide

/-- One second after the epoch. -/
def one_second : Utc where
  unix_nano := 1000000000
  unix_nano_lt := one_second_lt
  display := "1970-01-01 00:00:01 UTC"

/-- A message published at one second after the epoch, for given outcomes. -/
def single_run (outcome : Outcomes) : PublishRun where
  profile := .release
  cmd := single_fragment
  now := one_second
  outcome := outcome

theorem single_run_publishable (outcome : Outcomes) :
    (single_run outcome).cmd.Publishable (single_run outcome).profile outcome := by
  have hheader : single_fragment.HasHeader := by decide
  refine ⟨hheader, ?_⟩
  rintro ⟨hdebug, _⟩
  cases hdebug

theorem published_counter_agrees_accepted : CounterAgrees 4 [single_run fun _ => .ok "id"] :=
  (published_counter_agrees_iff 4 [single_run fun _ => .ok "id"]
    (List.forall_mem_singleton.mpr (single_run_publishable _))).mpr
    (List.forall_mem_singleton.mpr ⟨fun k _ _ => ⟨"id", rfl⟩, by decide⟩)

/-- A command whose only fragment is a duplicate is answered with an error, and
counted as published. -/
theorem rejected_command_counted :
    (single_run fun _ => .error "Duplicate").cmd.Publishable .release (fun _ => .error "Duplicate") ∧
      ¬ CounterAgrees 4 [single_run fun _ => .error "Duplicate"] := by
  refine ⟨single_run_publishable _, ?_⟩
  rintro ⟨custom_metrics, answers, hrun, hagrees⟩
  have hanswers : handle_publishes (GossipSubMetrics.new 4) [single_run fun _ => .error "Duplicate"] =
      .ok ((GossipSubMetrics.new 4).inc_messages_published "test",
        [.error "Failed to publish: Duplicate"]) := rfl
  rw [hanswers] at hrun
  cases hrun
  exact absurd (hagrees "test") (by decide)

/-- The health branch leaves the counters of published messages alone. -/
theorem topic_health_published (view : SwarmView) (topics : List String)
    (health : GossipSubMetrics × List (String × Int)) :
    (topic_health view topics health).1.libp2p_pubsub_messages_published =
      health.1.libp2p_pubsub_messages_published := by
  induction topics generalizing health with
  | nil => rfl
  | cons topic topics ih => exact ih _

theorem health_tick_published (view : SwarmView) (custom_metrics : GossipSubMetrics) :
    (health_tick view custom_metrics).libp2p_pubsub_messages_published =
      custom_metrics.libp2p_pubsub_messages_published :=
  topic_health_published _ _ _

/-- So does the branch of the swarm events. -/
theorem main_loop_event_published {profile : Profile} {chunks : UInt32} {self next : NodeState}
    {event : SwarmEvent} (hstep : main_loop_event profile chunks self event = .ok next) :
    next.receiver.custom_metrics.libp2p_pubsub_messages_published =
      self.receiver.custom_metrics.libp2p_pubsub_messages_published := by
  rcases event with gossipsub_event | _ | _ | _ | _ | _
  · cases gossipsub_event with
    | message message =>
      simp only [main_loop_event, NodeState.record, bind, Except.bind] at hstep
      split at hstep
      · cases hstep
      · next handled hhandler =>
        cases hstep
        have hmetrics := create_message_handler_received hhandler
        split at hmetrics <;> simp [hmetrics, GossipSubMetrics.inc_received_message]
    | subscribed peer_id topic =>
      cases hstep
      rfl
    | unsubscribed peer_id topic =>
      cases hstep
      rfl
    | other =>
      cases hstep
      rfl
  all_goals
    cases hstep
    rfl

/-- The commands a protocol has executed were all answered, and are all that
its counters have grown by. -/
structure Published (start state : Protocol) : Prop where
  answered : ∀ run ∈ state.executed, ∃ verdict, run.Answers verdict
  counted : ∀ topic, state.node.receiver.custom_metrics.libp2p_pubsub_messages_published topic =
    start.node.receiver.custom_metrics.libp2p_pubsub_messages_published topic +
      state.executed.countP fun run => run.cmd.topic = topic

namespace Published

variable {start state : Protocol}

/-- Receiving a command counts it, if it is answered. -/
theorem receive (hstate : Published start state) (profile : Profile) (now : Utc)
    (outcome : Outcomes) : Published start (state.receive profile now outcome) := by
  cases hqueue : state.publish_rx with
  | nil => simpa only [Protocol.receive, hqueue] using hstate
  | cons cmd publish_rx =>
    cases hresponse : (publish_new_message profile cmd now outcome).response with
    | error panic =>
      simp only [Protocol.receive, hqueue, hresponse, Protocol.crash]
      exact ⟨hstate.answered, hstate.counted⟩
    | ok verdict =>
      simp only [Protocol.receive, hqueue, hresponse]
      refine ⟨?_, fun topic => ?_⟩
      · intro run hrun
        rcases List.mem_append.mp hrun with hbefore | hlast
        · exact hstate.answered run hbefore
        · rw [List.mem_singleton.mp hlast]
          exact ⟨verdict, hresponse⟩
      · simp only [NodeState.update_metrics, GossipSubMetrics.inc_messages_published_apply,
          List.countP_append, List.countP_singleton, hstate.counted topic, decide_eq_true_eq]
        omega

theorem next (hstate : Published start state) (profile : Profile) (chunks : UInt32)
    (event : ProtocolEvent) : Published start (state.next profile chunks event) := by
  obtain ⟨hanswered, hcounted⟩ := hstate
  cases event with
  | arrive id req => exact ⟨hanswered, hcounted⟩
  | receive now outcome => exact Published.receive ⟨hanswered, hcounted⟩ profile now outcome
  | tick view =>
    exact ⟨hanswered, fun topic =>
      (congrFun (health_tick_published view _) topic).trans (hcounted topic)⟩
  | swarm event =>
    simp only [Protocol.next]
    split
    · exact ⟨hanswered, hcounted⟩
    · next node hnode =>
      exact ⟨hanswered, fun topic =>
        (congrFun (main_loop_event_published hnode) topic).trans (hcounted topic)⟩
  | send id =>
    simp only [Protocol.next]
    split
    · split <;> exact ⟨hanswered, hcounted⟩
    · exact ⟨hanswered, hcounted⟩
  | acquire id | release id | deliver id =>
    simp only [Protocol.next]
    split <;> exact ⟨hanswered, hcounted⟩

end Published

/-- However the requests and the other branches interleave, the counters are
those of the publish branch alone on the executed commands. -/
theorem publish_protocol_published (profile : Profile) (chunks : UInt32)
    (custom_metrics : GossipSubMetrics) (early : List SwarmEvent) {events : List ProtocolEvent}
    (hlegal : (publish_protocol profile chunks custom_metrics early).Legal events) :
    ∃ metrics answers,
      handle_publishes (Protocol.new custom_metrics early).node.receiver.custom_metrics
          ((publish_protocol profile chunks custom_metrics early).after events).executed =
        .ok (metrics, answers) ∧
      ((publish_protocol profile chunks custom_metrics early).after
          events).node.receiver.custom_metrics.libp2p_pubsub_messages_published =
        metrics.libp2p_pubsub_messages_published := by
  obtain ⟨hanswered, hcounted⟩ := Machine.invariant (publish_protocol profile chunks custom_metrics
    early) (Published (Protocol.new custom_metrics early))
    ⟨fun run hrun => absurd hrun List.not_mem_nil, fun topic => rfl⟩
    (fun state event hstate _ => hstate.next profile chunks event) hlegal
  obtain ⟨metrics, answers, hrun, hcounter, _⟩ := handle_publishes_spec
    (Protocol.new custom_metrics early).node.receiver.custom_metrics _
    (fun run hmem => (publish_new_message_answers_iff _ _ _ _).mp (hanswered run hmem))
  refine ⟨metrics, answers, hrun, funext fun topic => ?_⟩
  rw [hcounted topic, hcounter topic]

end rust_test_node.main
