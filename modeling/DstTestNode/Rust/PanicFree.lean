import DstTestNode.Rust.Publish

open rust rust_test_node.metrics

namespace rust_test_node.main

/-- The body of a `POST /publish` request. -/
structure PublishRequest where
  topic : String
  msg_size : UInt64

/-- The command that the HTTP task builds from a request. -/
def publish_command (chunks : UInt32) (req : PublishRequest) (response_tx : Nat) :
    PublishCommand where
  topic := req.topic
  msg_size := req.msg_size
  chunks := chunks
  response_tx := response_tx

/-- What reaches the swarm task from outside: a request with the clock reading
and the publish outcomes it meets, or a payload delivered by gossipsub. -/
inductive NodeInput where
  | publish (req : PublishRequest) (response_tx : Nat) (now : Utc) (outcome : Outcomes)
  | deliver (message : Delivery)

/-- One input of the swarm task; a published message is counted on its topic. -/
def handle_input (profile : Profile) (chunks : UInt32) (self : Receiver) :
    NodeInput → Except Panic Receiver
  | .publish req response_tx now outcome => do
    let cmd := publish_command chunks req response_tx
    let _answer ← (publish_new_message profile cmd now outcome).response
    .ok { self with custom_metrics := self.custom_metrics.inc_messages_published req.topic }
  | .deliver message => do
    let (self, _report) ← create_message_handler profile message chunks self
    .ok self

/-- No panic on a sequence of inputs, from an empty fragment counter. -/
def PanicFree (profile : Profile) (chunks : UInt32) (metrics : GossipSubMetrics)
    (inputs : List NodeInput) : Prop :=
  ∃ receiver, inputs.foldlM (handle_input profile chunks)
    { msg_seen := ∅, custom_metrics := metrics } = .ok receiver

/-- A request that can be published, or a payload that carries the header. -/
def NodeInput.Accepted (profile : Profile) (chunks : UInt32) : NodeInput → Prop
  | .publish req response_tx _ outcome =>
    (publish_command chunks req response_tx).Publishable profile outcome
  | .deliver message => 8 ≤ message.data.length

/-- The fragment counter accounts for some sequence of occurrences, so that all
its counts are below the threshold. -/
def Receiver.Counting (chunks : UInt32) (self : Receiver) : Prop :=
  ∃ times, CountingMap.Accounts (threshold chunks) self.msg_seen times

/-- An accepted input is handled, and keeps the fragment counter accounted. -/
theorem handle_input_accepted (profile : Profile) (chunks : UInt32) {self : Receiver}
    (hself : self.Counting chunks) {input : NodeInput} (haccepted : input.Accepted profile chunks) :
    ∃ next, handle_input profile chunks self input = .ok next ∧ next.Counting chunks := by
  cases input with
  | publish req response_tx now outcome =>
    obtain ⟨answer, hanswer⟩ := (publish_new_message_answers_iff profile
      (publish_command chunks req response_tx) now outcome).mpr haccepted
    simp only [handle_input, hanswer, bind, Except.bind]
    exact ⟨_, rfl, hself⟩
  | deliver message =>
    obtain ⟨times, htimes⟩ := hself
    obtain ⟨next, report, hstep, hnext, _⟩ :=
      create_message_handler_spec profile message chunks self haccepted htimes
    simp only [handle_input, hstep, bind, Except.bind]
    exact ⟨next, rfl, _, hnext⟩

/-- Any other input panics in every state. -/
theorem handle_input_rejected (profile : Profile) (chunks : UInt32) (self : Receiver)
    {input : NodeInput} (hrejected : ¬ input.Accepted profile chunks) :
    ∃ panic, handle_input profile chunks self input = .error panic := by
  cases input with
  | publish req response_tx now outcome =>
    have hanswer := (publish_new_message_answers_iff profile
      (publish_command chunks req response_tx) now outcome).not.mpr hrejected
    generalize hcmd : publish_command chunks req response_tx = cmd at hanswer
    cases hresponse : (publish_new_message profile cmd now outcome).response with
    | error panic =>
      simp only [handle_input, hcmd, hresponse, bind, Except.bind]
      exact ⟨panic, rfl⟩
    | ok answer => exact absurd ⟨answer, hresponse⟩ hanswer
  | deliver message =>
    have hshort := create_message_handler_short profile message chunks self
      (Nat.lt_of_not_le hrejected)
    simp only [handle_input, hshort, bind, Except.bind]
    exact ⟨_, rfl⟩

theorem foldlM_handle_input_ok_iff (profile : Profile) (chunks : UInt32) {self : Receiver}
    (hself : self.Counting chunks) (inputs : List NodeInput) :
    (∃ receiver, inputs.foldlM (handle_input profile chunks) self = .ok receiver) ↔
      ∀ input ∈ inputs, input.Accepted profile chunks := by
  induction inputs generalizing self with
  | nil => simp [pure, Except.pure]
  | cons input inputs ih =>
    rw [List.foldlM_cons, List.forall_mem_cons]
    by_cases haccepted : input.Accepted profile chunks
    · obtain ⟨next, hstep, hnext⟩ := handle_input_accepted profile chunks hself haccepted
      simp only [hstep, bind, Except.bind, haccepted, true_and]
      exact ih hnext
    · obtain ⟨panic, hstep⟩ := handle_input_rejected profile chunks self haccepted
      simp [hstep, bind, Except.bind, haccepted]

/-- The node survives a sequence of requests and payloads exactly when it can
publish every request and every payload carries its header. -/
theorem panic_free_iff (profile : Profile) (chunks : UInt32) (metrics : GossipSubMetrics)
    (inputs : List NodeInput) :
    PanicFree profile chunks metrics inputs ↔ ∀ input ∈ inputs, input.Accepted profile chunks :=
  foldlM_handle_input_ok_iff profile chunks ⟨[], CountingMap.accounts_empty _⟩ inputs

/-- A request for less than a header, a node without fragments, and a payload
of seven bytes each stop the node. -/
theorem short_input_panics :
    (¬ PanicFree .release 1 (.new 4)
        [.publish ⟨"test", 7⟩ 0 ⟨1000000, by decide, ""⟩ fun _ => .ok ""]) ∧
      (¬ PanicFree .release 0 (.new 4)
        [.publish ⟨"test", 1000⟩ 0 ⟨1000000, by decide, ""⟩ fun _ => .ok ""]) ∧
      ¬ PanicFree .release 1 (.new 4)
        [.deliver ⟨[0, 0, 0, 0, 0, 0, 0], ⟨1000000, by decide, ""⟩⟩] := by
  refine ⟨?_, ?_, ?_⟩ <;> rintro ⟨receiver, hrun⟩ <;> cases hrun

end rust_test_node.main
