import DstTestNode.Library.Machine
import DstTestNode.Rust.EventLoops
import DstTestNode.Rust.Fragments

open rust rust_test_node.metrics

namespace rust_test_node.main

/-- The body of the answer to a `POST /publish` request. -/
structure PublishResponse where
  status : String
  message : String
  deriving DecidableEq, Repr

/-- The answer the HTTP handler makes of a verdict, with its status code. -/
def publish_reply : Except String String → PublishResponse × Nat
  | .ok msg => ({ status := "success", message := msg }, 200)
  | .error e => ({ status := "error", message := e }, 500)

/-- The answer if the command cannot be sent, for the text of the error. -/
def send_failed (e : String) : PublishResponse × Nat :=
  ({ status := "error", message := "Failed to send to swarm: " ++ e }, 500)

/-- The answer when the wait for the verdict ends. The reply channel is closed
without a verdict when its other end is dropped. -/
def response_reply : Option (Except String String) → PublishResponse × Nat
  | some verdict => publish_reply verdict
  | none => ({ status := "error", message := "Channel closed" }, 500)

/-- The text of the error of a send to a dropped receiver. -/
def send_error : String := "channel closed"

/-- What the health branch of the main loop reads from the swarm. -/
structure SwarmView where
  connected_peers : List String
  all_peers : List (String × List String)
  topics : List String
  mesh_peers : String → List String

/-- The loop of the health branch over the topics of the node. -/
def topic_health (view : SwarmView) :
    List String → GossipSubMetrics × List (String × Int) → GossipSubMetrics × List (String × Int)
  | [], health => health
  | topic_str :: topics, (custom_metrics, mesh_counts) =>
    let mesh_peers : Int := (view.mesh_peers topic_str).length
    let topic_peers : Int := view.all_peers.countP fun peer => topic_str ∈ peer.2
    let custom_metrics := custom_metrics.set_mesh_peers topic_str mesh_peers
    let custom_metrics := custom_metrics.set_topic_peers topic_str topic_peers
    topic_health view topics (custom_metrics, mesh_counts ++ [(topic_str, mesh_peers)])

/-- The health branch of the main loop. -/
def health_tick (view : SwarmView) (custom_metrics : GossipSubMetrics) : GossipSubMetrics :=
  let custom_metrics := custom_metrics.set_peers view.connected_peers.length
  let custom_metrics := custom_metrics.set_pubsub_peers view.all_peers.length
  let (custom_metrics, mesh_counts) := topic_health view view.topics (custom_metrics, [])
  (custom_metrics.set_pubsub_topics mesh_counts.length).update_health mesh_counts

/-- How far a request has come. The lock on the sender is held until its
command is in the channel, or the answer says that it could not be sent. -/
inductive Stage where
  | idle
  | waiting (req : PublishRequest)
  | holding (req : PublishRequest)
  | sent (req : PublishRequest)
  | awaiting (req : PublishRequest)
  | answered (req : PublishRequest) (reply : PublishResponse × Nat)

/-- The request of a stage whose send has returned. -/
def Stage.sent_request : Stage → Option PublishRequest
  | .sent req | .awaiting req | .answered req _ => some req
  | _ => none

/-- The HTTP task and the main loop. Requests have numbers, which are also the
numbers of their reply channels. Besides what the two tasks share, the state
keeps all completed sends and all executed commands, in order. -/
structure Protocol where
  stage : Nat → Stage
  publish_tx : Option Nat
  publish_rx : List PublishCommand
  response_rx : Nat → Option (Except String String)
  node : NodeState
  crashed : Bool
  sent : List PublishCommand
  executed : List PublishRun

/-- A request arrives, takes the lock, returns from its send, releases the lock
or from its wait for the verdict; or the main loop takes one of its three
branches. -/
inductive ProtocolEvent where
  | arrive (id : Nat) (req : PublishRequest)
  | acquire (id : Nat)
  | send (id : Nat)
  | release (id : Nat)
  | deliver (id : Nat)
  | tick (view : SwarmView)
  | receive (now : Utc) (outcome : Outcomes)
  | swarm (event : SwarmEvent)

/-- The events of the tasks of the requests. -/
def ProtocolEvent.of_request : ProtocolEvent → Prop
  | .arrive _ _ | .acquire _ | .send _ | .release _ | .deliver _ => True
  | .tick _ | .receive _ _ | .swarm _ => False

/-- The capacity of the channel to the swarm task. -/
def channel_capacity : Nat := 10

namespace Protocol

/-- The state in which the main loop starts, after the loop that waits for the
peers has seen some events. -/
def new (custom_metrics : GossipSubMetrics) (early : List SwarmEvent) : Protocol where
  stage := fun _ => .idle
  publish_tx := none
  publish_rx := []
  response_rx := fun _ => none
  node := connect_loop (.new custom_metrics) early
  crashed := false
  sent := []
  executed := []

def set_stage (self : Protocol) (id : Nat) (stage : Stage) : Protocol :=
  { self with stage := Function.update self.stage id stage }

/-- A panic of the main loop drops the receiver together with the commands in
the channel, and with them the other ends of their reply channels. -/
def crash (self : Protocol) : Protocol :=
  { self with crashed := true, publish_rx := [] }

/-- The tasks of the requests go on after a panic of the main loop: a send to a
dropped receiver, also one that waits for room, and a wait on a dropped reply
channel return. -/
def ready (self : Protocol) : ProtocolEvent → Prop
  | .arrive id _ => match self.stage id with
    | .idle => True
    | _ => False
  | .acquire id => match self.stage id with
    | .waiting _ => self.publish_tx = none
    | _ => False
  | .send id => match self.stage id with
    | .holding _ => self.crashed ∨ self.publish_rx.length < channel_capacity
    | _ => False
  | .release id => match self.stage id with
    | .sent _ => True
    | _ => False
  | .deliver id => match self.stage id with
    | .awaiting _ => self.crashed ∨ (self.response_rx id).isSome
    | _ => False
  | .tick _ => self.crashed = false
  | .receive _ _ => self.crashed = false ∧ self.publish_rx ≠ []
  | .swarm _ => self.crashed = false

/-- The branch of the main loop that executes one command. -/
def receive (profile : Profile) (self : Protocol) (now : Utc) (outcome : Outcomes) : Protocol :=
  match self.publish_rx with
  | [] => self
  | cmd :: publish_rx =>
    match (publish_new_message profile cmd now outcome).response with
    | .error _ => self.crash
    | .ok verdict =>
      { self with
        publish_rx := publish_rx
        response_rx := Function.update self.response_rx cmd.response_tx (some verdict)
        node := self.node.update_metrics (·.inc_messages_published cmd.topic)
        executed := self.executed ++
          [{ profile := profile, cmd := cmd, now := now, outcome := outcome }] }

def next (profile : Profile) (chunks : UInt32) (self : Protocol) : ProtocolEvent → Protocol
  | .arrive id req => self.set_stage id (.waiting req)
  | .acquire id => match self.stage id with
    | .waiting req => { self.set_stage id (.holding req) with publish_tx := some id }
    | _ => self
  | .send id => match self.stage id with
    | .holding req =>
      if self.crashed then
        { self.set_stage id (.answered req (send_failed send_error)) with publish_tx := none }
      else
        let cmd := publish_command chunks req id
        { self.set_stage id (.sent req) with
          publish_rx := self.publish_rx ++ [cmd]
          sent := self.sent ++ [cmd] }
    | _ => self
  | .release id => match self.stage id with
    | .sent req => { self.set_stage id (.awaiting req) with publish_tx := none }
    | _ => self
  | .deliver id => match self.stage id with
    | .awaiting req => self.set_stage id (.answered req (response_reply (self.response_rx id)))
    | _ => self
  | .tick view => { self with node := self.node.update_metrics (health_tick view) }
  | .receive now outcome => self.receive profile now outcome
  | .swarm event => match main_loop_event profile chunks self.node event with
    | .error _ => self.crash
    | .ok node => { self with node := node }

end Protocol

/-- The requests and the main loop, interleaved in any way. After a panic of the
main loop only the requests go on. -/
def publish_protocol (profile : Profile) (chunks : UInt32) (custom_metrics : GossipSubMetrics)
    (early : List SwarmEvent) : Machine Protocol ProtocolEvent where
  initial := .new custom_metrics early
  enabled := Protocol.ready
  next := Protocol.next profile chunks

/-- The verdict that the main loop computed for a command. -/
def PublishRun.Answers (self : PublishRun) (verdict : Except String String) : Prop :=
  (publish_new_message self.profile self.cmd self.now self.outcome).response = .ok verdict

/-- The protocol loses, duplicates and crosses nothing: the channel holds at
most its capacity, commands are executed at most once and in the order of their
sends, every sent command is queued or executed and answered, and a request
receives the verdict computed for its own command. -/
structure Exact (chunks : UInt32) (state : Protocol) : Prop where
  bounded : state.publish_rx.length ≤ channel_capacity
  once : (state.executed.map PublishRun.cmd).Nodup
  ordered : state.executed.map PublishRun.cmd <+: state.sent
  kept : ∀ cmd ∈ state.sent, cmd ∈ state.publish_rx ∨ ∃ run ∈ state.executed, run.cmd = cmd ∧
    ∃ verdict, run.Answers verdict ∧ state.response_rx cmd.response_tx = some verdict
  own : ∀ id req reply, state.stage id = .answered req reply →
    ∃ run ∈ state.executed, run.cmd = publish_command chunks req id ∧
      ∃ verdict, run.Answers verdict ∧ reply = publish_reply verdict

/-- The main loop survives an event: a received command can be published, and a
message has a header. -/
def Sustained (profile : Profile) (self : Protocol) : ProtocolEvent → Prop
  | .receive _ outcome => ∀ cmd ∈ self.publish_rx.head?, cmd.Publishable profile outcome
  | .swarm event => ∀ message ∈ messages [event], 8 ≤ message.data.length
  | _ => True

end rust_test_node.main
