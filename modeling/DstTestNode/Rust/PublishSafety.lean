import DstTestNode.Rust.PublishProtocol

open rust rust_test_node.metrics

namespace rust_test_node.main

/-- A stage at which a request has its verdict carries one that was computed
for the command of that request. -/
def OwnVerdict (chunks : UInt32) (executed : List PublishRun) (id : Nat) (stage : Stage) : Prop :=
  ∀ req reply, stage = .answered req reply →
    ∃ run ∈ executed, run.cmd = publish_command chunks req id ∧
      ∃ verdict, run.Answers verdict ∧ reply = publish_reply verdict

/-- What every interleaving keeps until a panic. A sent command belongs to the
request whose number it carries, and a reply channel holds the verdict of the
executed command with its number. -/
structure Consistent (chunks : UInt32) (state : Protocol) : Prop where
  bounded : state.publish_rx.length ≤ channel_capacity
  counting : state.node.receiver.Counting chunks
  ids : (state.sent.map PublishCommand.response_tx).Nodup
  requests : ∀ cmd ∈ state.sent, ∃ req, cmd = publish_command chunks req cmd.response_tx ∧
    (state.stage cmd.response_tx).sent_request = some req
  order : state.executed.map PublishRun.cmd ++ state.publish_rx <+: state.sent
  answered : ∀ run ∈ state.executed, ∃ verdict, run.Answers verdict ∧
    state.response_rx run.cmd.response_tx = some verdict
  replies : ∀ id verdict, state.response_rx id = some verdict →
    ∃ run ∈ state.executed, run.cmd.response_tx = id ∧ run.Answers verdict
  own : ∀ id, OwnVerdict chunks state.executed id (state.stage id)

/-- Every sent command has been executed or is in the channel. -/
def Complete (self : Protocol) : Prop :=
  self.sent = self.executed.map PublishRun.cmd ++ self.publish_rx

namespace Consistent

variable {chunks : UInt32} {self : Protocol}

theorem sent_nodup (hself : Consistent chunks self) : self.sent.Nodup :=
  hself.ids.of_map

theorem executed_sent (hself : Consistent chunks self) {run : PublishRun}
    (hrun : run ∈ self.executed) : run.cmd ∈ self.sent :=
  hself.order.subset (List.mem_append_left _ (List.mem_map_of_mem hrun))

/-- The command with the number of a request is the one the request sent. -/
theorem command_eq (hself : Consistent chunks self) {cmd : PublishCommand} {req : PublishRequest}
    (hcmd : cmd ∈ self.sent) (hstage : (self.stage cmd.response_tx).sent_request = some req) :
    cmd = publish_command chunks req cmd.response_tx := by
  obtain ⟨other, heq, hother⟩ := hself.requests cmd hcmd
  rw [hstage] at hother
  cases hother
  exact heq

theorem initial (chunks : UInt32) (custom_metrics : GossipSubMetrics) (early : List SwarmEvent) :
    Consistent chunks (.new custom_metrics early) where
  bounded := by simp [Protocol.new]
  counting := ⟨[], by
    obtain ⟨hseen, _⟩ := connect_loop_frame (.new custom_metrics) early
    simp only [Protocol.new, hseen]
    exact CountingMap.accounts_empty _⟩
  ids := by simp [Protocol.new]
  requests := by simp [Protocol.new]
  order := by simp [Protocol.new]
  answered := by simp [Protocol.new]
  replies := by simp [Protocol.new]
  own := by simp [Protocol.new, OwnVerdict]

/-- Moving a request to a stage that keeps its sent request, and at which a
verdict is its own, keeps the protocol consistent. -/
theorem set_stage (hself : Consistent chunks self) (id : Nat) (stage : Stage)
    (hkeeps : ∀ req, (self.stage id).sent_request = some req → stage.sent_request = some req)
    (hown : OwnVerdict chunks self.executed id stage) :
    Consistent chunks (self.set_stage id stage) where
  bounded := hself.bounded
  counting := hself.counting
  ids := hself.ids
  requests := by
    intro cmd hcmd
    obtain ⟨req, heq, hstage⟩ := hself.requests cmd hcmd
    refine ⟨req, heq, ?_⟩
    by_cases hid : cmd.response_tx = id
    · subst hid
      simpa [Protocol.set_stage] using hkeeps req hstage
    · simpa [Protocol.set_stage, hid] using hstage
  order := hself.order
  answered := hself.answered
  replies := hself.replies
  own := by
    intro other
    by_cases hid : other = id
    · subst hid
      simpa [Protocol.set_stage] using hown
    · simpa [Protocol.set_stage, hid] using hself.own other

theorem set_lock (hself : Consistent chunks self) (publish_tx : Option Nat) :
    Consistent chunks { self with publish_tx := publish_tx } :=
  ⟨hself.bounded, hself.counting, hself.ids, hself.requests, hself.order, hself.answered,
    hself.replies, hself.own⟩

theorem set_node (hself : Consistent chunks self) {node : NodeState}
    (hnode : node.receiver.Counting chunks) : Consistent chunks { self with node := node } :=
  ⟨hself.bounded, hnode, hself.ids, hself.requests, hself.order, hself.answered,
    hself.replies, hself.own⟩

/-- A completed send puts a fresh command at the end of the channel. -/
theorem send (hself : Consistent chunks self) (hcomplete : Complete self) {id : Nat}
    {req : PublishRequest} (hstage : self.stage id = .holding req)
    (hroom : self.publish_rx.length < channel_capacity) :
    Consistent chunks { self.set_stage id (.sent req) with
      publish_rx := self.publish_rx ++ [publish_command chunks req id]
      sent := self.sent ++ [publish_command chunks req id] } where
  bounded := by simpa using Nat.succ_le_of_lt hroom
  counting := hself.counting
  ids := by
    rw [List.map_append, List.nodup_append]
    refine ⟨hself.ids, by simp, ?_⟩
    intro used hused fresh hfresh heq
    obtain ⟨cmd, hcmd, hid⟩ := List.mem_map.mp hused
    obtain ⟨_, _, hsent⟩ := hself.requests cmd hcmd
    have hfresh : fresh = id := by simpa [publish_command] using hfresh
    rw [hid, heq, hfresh, hstage] at hsent
    cases hsent
  requests := by
    intro cmd hcmd
    rcases List.mem_append.mp hcmd with hold | hnew
    · obtain ⟨other, heq, hsent⟩ := hself.requests cmd hold
      refine ⟨other, heq, ?_⟩
      by_cases hid : cmd.response_tx = id
      · rw [hid, hstage] at hsent
        cases hsent
      · simpa [Protocol.set_stage, hid] using hsent
    · rw [List.mem_singleton.mp hnew]
      exact ⟨req, rfl, by simp [Protocol.set_stage, publish_command, Stage.sent_request]⟩
  order := by
    rw [hcomplete, List.append_assoc]
    exact List.prefix_refl _
  answered := hself.answered
  replies := hself.replies
  own := by
    intro other
    by_cases hid : other = id
    · subst hid
      simp [Protocol.set_stage, OwnVerdict]
    · simpa [Protocol.set_stage, hid] using hself.own other

/-- Executing the command at the head of the channel answers it, and touches no
other reply channel. -/
theorem execute (hself : Consistent chunks self) {cmd : PublishCommand}
    {publish_rx : List PublishCommand} (hqueue : self.publish_rx = cmd :: publish_rx)
    {run : PublishRun} (hrun : run.cmd = cmd) {verdict : Except String String}
    (hanswers : run.Answers verdict) :
    Consistent chunks { self with
      publish_rx := publish_rx
      response_rx := Function.update self.response_rx cmd.response_tx (some verdict)
      node := self.node.update_metrics (·.inc_messages_published cmd.topic)
      executed := self.executed ++ [run] } where
  bounded := by
    have hbounded := hself.bounded
    rw [hqueue, List.length_cons] at hbounded
    exact Nat.le_of_succ_le hbounded
  counting := hself.counting
  ids := hself.ids
  requests := hself.requests
  order := by
    have horder := hself.order
    rw [hqueue] at horder
    simpa [hrun] using horder
  answered := by
    intro other hother
    rcases List.mem_append.mp hother with hold | hnew
    · obtain ⟨value, hvalue, hreply⟩ := hself.answered other hold
      refine ⟨value, hvalue, ?_⟩
      have hdistinct : other.cmd.response_tx ≠ cmd.response_tx := by
        have hnodup := hself.ids.sublist (hself.order.sublist.map _)
        rw [hqueue, List.map_append, List.nodup_append] at hnodup
        exact hnodup.2.2 _ (List.mem_map_of_mem (List.mem_map_of_mem hold)) _ (by simp)
      simpa [hdistinct] using hreply
    · rw [List.mem_singleton.mp hnew]
      exact ⟨verdict, hanswers, by simp [hrun]⟩
  replies := by
    intro id value hvalue
    by_cases hid : id = cmd.response_tx
    · subst hid
      simp only [Function.update_self, Option.some.injEq] at hvalue
      subst hvalue
      exact ⟨run, by simp, by rw [hrun], hanswers⟩
    · simp only [Function.update_of_ne hid] at hvalue
      obtain ⟨other, hother, hreply⟩ := hself.replies id value hvalue
      exact ⟨other, List.mem_append_left _ hother, hreply⟩
  own := by
    intro id req reply hstage
    obtain ⟨other, hother, hown⟩ := hself.own id req reply hstage
    exact ⟨other, List.mem_append_left _ hother, hown⟩

/-- The verdict in the reply channel of a waiting request is its own. -/
theorem own_verdict (hself : Consistent chunks self) {id : Nat} {req : PublishRequest}
    {verdict : Except String String} (hstage : self.stage id = .awaiting req)
    (hreply : self.response_rx id = some verdict) :
    OwnVerdict chunks self.executed id (.answered req (response_reply (self.response_rx id))) := by
  intro other reply heq
  rw [hreply] at heq
  cases heq
  obtain ⟨run, hrun, hid, hanswers⟩ := hself.replies id verdict hreply
  have hsent : (self.stage run.cmd.response_tx).sent_request = some req := by
    rw [hid, hstage]
    rfl
  have hcmd := hself.command_eq (hself.executed_sent hrun) hsent
  exact ⟨run, hrun, by rw [hcmd, hid], verdict, hanswers, rfl⟩

/-- A request that has not sent its command when the last one is executed gets
no verdict of its own. -/
theorem unsent (hself : Consistent chunks self) {id : Nat}
    (hunsent : (self.stage id).sent_request = none) {last : Protocol} {req : PublishRequest}
    {reply : PublishResponse × Nat} (hexecuted : last.executed = self.executed)
    (hstage : last.stage id = .answered req reply) : ¬ Exact chunks last := by
  intro hexact
  obtain ⟨run, hrun, hcmd, _⟩ := hexact.own id req reply hstage
  rw [hexecuted] at hrun
  obtain ⟨other, _, hsent⟩ := hself.requests run.cmd (hself.executed_sent hrun)
  have hid : run.cmd.response_tx = id := by rw [hcmd, publish_command]
  rw [hid, hunsent] at hsent
  cases hsent

end Consistent

/-- The lock is held around a send, and there are always new requests. -/
structure Serviceable (state : Protocol) : Prop where
  holder : ∀ id, state.publish_tx = some id →
    ∃ req, state.stage id = .holding req ∨ state.stage id = .sent req
  fresh : ∃ bound, ∀ id, bound ≤ id → state.stage id = .idle

namespace Serviceable

variable {self : Protocol}

theorem initial (custom_metrics : GossipSubMetrics) (early : List SwarmEvent) :
    Serviceable (.new custom_metrics early) where
  holder := by simp [Protocol.new]
  fresh := ⟨0, fun id _ => rfl⟩

theorem fresh_set_stage (hself : Serviceable self) (id : Nat) (stage : Stage) :
    ∃ bound, ∀ other, bound ≤ other → (self.set_stage id stage).stage other = .idle := by
  obtain ⟨bound, hbound⟩ := hself.fresh
  refine ⟨max bound (id + 1), fun other hother => ?_⟩
  have hne : other ≠ id := by omega
  simpa [Protocol.set_stage, hne] using hbound other (by omega)

/-- A step of a request without the lock leaves the lock to its holder. -/
theorem set_stage (hself : Serviceable self) {id : Nat} (stage : Stage)
    (hother : ∀ req, self.stage id ≠ .holding req ∧ self.stage id ≠ .sent req) :
    Serviceable (self.set_stage id stage) where
  holder := by
    intro holder hlock
    obtain ⟨req, hholder⟩ := hself.holder holder hlock
    have hne : holder ≠ id := by
      rintro rfl
      exact hholder.elim (hother req).1 (hother req).2
    exact ⟨req, by simpa [Protocol.set_stage, hne] using hholder⟩
  fresh := hself.fresh_set_stage id stage

/-- A step that gives the lock back. -/
theorem unlock (hself : Serviceable self) (id : Nat) (stage : Stage) :
    Serviceable { self.set_stage id stage with publish_tx := none } where
  holder := by simp
  fresh := hself.fresh_set_stage id stage

theorem next (hself : Serviceable self) (profile : Profile) (chunks : UInt32)
    {event : ProtocolEvent} (hready : self.ready event) :
    Serviceable (self.next profile chunks event) := by
  cases event with
  | arrive id req =>
    simp only [Protocol.ready] at hready
    split at hready
    · next hstage => exact hself.set_stage _ (by simp [hstage])
    · cases hready
  | acquire id =>
    simp only [Protocol.next]
    split
    · next req hstage =>
      refine ⟨fun holder hlock => ?_, hself.fresh_set_stage id _⟩
      cases hlock
      exact ⟨req, .inl (by simp [Protocol.set_stage])⟩
    · exact hself
  | send id =>
    simp only [Protocol.next]
    split
    · next req hstage =>
      split
      · exact hself.unlock id _
      · refine ⟨fun holder hlock => ?_, hself.fresh_set_stage id _⟩
        obtain ⟨other, hholder⟩ := hself.holder holder hlock
        by_cases hid : holder = id
        · subst hid
          exact ⟨req, .inr (by simp [Protocol.set_stage])⟩
        · exact ⟨other, by simpa [Protocol.set_stage, hid] using hholder⟩
    · exact hself
  | release id =>
    simp only [Protocol.next]
    split
    · exact hself.unlock id _
    · exact hself
  | deliver id =>
    simp only [Protocol.next]
    split
    · next req hstage => exact hself.set_stage _ (by simp [hstage])
    · exact hself
  | tick view => exact ⟨hself.holder, hself.fresh⟩
  | receive now outcome =>
    simp only [Protocol.next, Protocol.receive]
    split
    · exact hself
    · split <;> exact ⟨hself.holder, hself.fresh⟩
  | swarm event =>
    simp only [Protocol.next]
    split <;> exact ⟨hself.holder, hself.fresh⟩

end Serviceable

end rust_test_node.main
