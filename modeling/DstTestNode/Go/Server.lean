import DstTestNode.Go.PublishCall
import DstTestNode.Library.Tasks

open go_test_node.metrics

namespace go_test_node.main

/-- A request that the HTTP server hands to a goroutine, with the time that
`publishNewMessage` takes and the outcomes of its `topic.Publish` calls. -/
structure ServerRequest where
  r : HttpRequest
  now_nanos : Int
  publish_time : String
  outcome : Nat → Option String

/-- Where the goroutine of a request is: before `publishNewMessage`, at the head of
its loop, between `topic.Publish` and `RecordMessagePublished`, or at its end. -/
inductive Progress where
  | reading
  | publishing (topic : String) (payload : Payload) (chunk : Nat)
  | recording (topic : String) (payload : Payload) (chunk : Nat)
  | ended (result : Except Panic HttpReply)

/-- The goroutine of a request, with the payloads it has handed over and the topics
it has counted, in order. -/
structure Handling where
  request : ServerRequest
  progress : Progress
  payloads : List Payload
  recorded : List String

namespace ServerRequest

/-- The handler on this request alone. -/
def alone (self : ServerRequest) (chunks : Int) (topics : List String) (counters : Counters) :
    List Payload × Counters × Except Panic HttpReply :=
  handle_publish chunks topics self.r self.now_nanos self.publish_time self.outcome counters

def start (self : ServerRequest) : Handling := ⟨self, .reading, [], []⟩

end ServerRequest

namespace Handling

def Ended (self : Handling) : Prop := ∃ result, self.progress = .ended result

instance (handling : Handling) : Decidable handling.Ended :=
  match hprogress : handling.progress with
  | .ended result => .isTrue ⟨result, hprogress⟩
  | .reading | .publishing _ _ _ | .recording _ _ _ =>
    .isFalse fun ⟨_, hended⟩ => by
      rw [hprogress] at hended
      cases hended

/-- The checks of the handler, and the payload without a fragment number. -/
def read (chunks : Int) (topics : List String) (self : Handling) : Progress :=
  if self.request.r.method ≠ "POST" then .ended (.ok (.error "Method Not Supported" 405))
  else
    match self.request.r.body with
    | .error err => .ended (.ok (.error err 400))
    | .ok req =>
      if req.topic ∉ topics then .ended (.ok (.error "Topic not joined" 500))
      else
        match new_payload req.msg_size chunks self.request.now_nanos with
        | .error panic => .ended (.error panic)
        | .ok payload => .publishing req.topic payload 0

/-- The next part of the handling of a request. A panic ends the goroutine, but not
the server. -/
def advance (chunks : Int) (topics : List String) (counters : Counters) (self : Handling) :
    Counters × Handling :=
  match self.progress with
  | .reading => (counters, { self with progress := self.read chunks topics })
  | .publishing topic payload chunk =>
    if chunk < chunks then
      match set_byte payload 10 (UInt8.ofNat chunk) with
      | .error panic => (counters, { self with progress := .ended (.error panic) })
      | .ok payload =>
        match self.request.outcome chunk with
        | some err =>
          (counters,
            { self with
              progress := .ended (.ok (publish_reply self.request.publish_time (some err)))
              payloads := self.payloads ++ [payload] })
        | none =>
          (counters,
            { self with
              progress := .recording topic payload chunk
              payloads := self.payloads ++ [payload] })
    else
      (counters,
        { self with progress := .ended (.ok (publish_reply self.request.publish_time none)) })
  | .recording topic payload chunk =>
    (counters.record_message_published topic,
      { self with
        progress := .publishing topic payload (chunk + 1)
        recorded := self.recorded ++ [topic] })
  | .ended _ => (counters, self)

end Handling

/-- The server, whose requests are handled in goroutines of their own that share
the counters of the node. -/
def start_http_server (chunks : Int) (topics : List String) (counters : Counters) :
    Tasks Counters Handling ServerRequest Unit where
  initial := counters
  admits := fun _ _ => True
  arrive := fun counters request => (counters, [request.start])
  enabled := fun _ handling _ => ¬ handling.Ended
  step := fun counters handling _ => handling.advance chunks topics counters

instance (chunks : Int) (topics : List String) (counters shared : Counters)
    (request : ServerRequest) :
    Decidable ((start_http_server chunks topics counters).admits shared request) :=
  inferInstanceAs (Decidable True)

instance (chunks : Int) (topics : List String) (counters shared : Counters) (handling : Handling)
    (step : Unit) :
    Decidable ((start_http_server chunks topics counters).enabled shared handling step) :=
  inferInstanceAs (Decidable ¬ handling.Ended)

/-- What counting some topics one by one leaves. -/
def record_all (counters : Counters) (recorded : List String) : Counters :=
  recorded.foldl Counters.record_message_published counters

/-- The loop of `publishNewMessage` from a fragment number on, and the answer. -/
def publish_rest (chunks : Int) (request : ServerRequest) (topic : String) (payload : Payload)
    (chunk : Nat) (counters : Counters) : List Payload × Counters × Except Panic HttpReply :=
  let trace := publish_fragments topic request.outcome payload counters (chunks.toNat - chunk) chunk
  (trace.payloads, trace.counters, trace.result.map (publish_reply request.publish_time))

namespace Handling

/-- What is left of the handling of a request. -/
def left (chunks : Int) (topics : List String) (self : Handling) (counters : Counters) :
    List Payload × Counters × Except Panic HttpReply :=
  match self.progress with
  | .reading => self.request.alone chunks topics counters
  | .publishing topic payload chunk =>
    publish_rest chunks self.request topic payload chunk counters
  | .recording topic payload chunk =>
    publish_rest chunks self.request topic payload (chunk + 1)
      (counters.record_message_published topic)
  | .ended result => ([], counters, result)

/-- What the goroutine comes to when the rest of it runs on its own. -/
def comes_to (chunks : Int) (topics : List String) (self : Handling) (counters : Counters) :
    List Payload × Counters × Except Panic HttpReply :=
  (self.payloads ++ (self.left chunks topics counters).1, (self.left chunks topics counters).2)

/-- The topic that the next part of the handling counts. -/
def next_recorded (self : Handling) : List String :=
  match self.progress with
  | .recording topic _ _ => [topic]
  | _ => []

end Handling

variable {chunks : Int} {topics : List String}

theorem publish_rest_last {request : ServerRequest} {topic : String} {payload : Payload}
    {chunk : Nat} (hlast : ¬ (chunk : Int) < chunks) (counters : Counters) :
    publish_rest chunks request topic payload chunk counters =
      ([], counters, .ok (publish_reply request.publish_time none)) := by
  rw [publish_rest, Nat.sub_eq_zero_of_le (by omega), publish_fragments]
  rfl

theorem publish_rest_next {request : ServerRequest} {topic : String} {payload : Payload}
    {chunk : Nat} (hmore : (chunk : Int) < chunks) (counters : Counters) :
    publish_rest chunks request topic payload chunk counters =
      match set_byte payload 10 (UInt8.ofNat chunk) with
      | .error panic => ([], counters, .error panic)
      | .ok payload =>
        match request.outcome chunk with
        | some err => ([payload], counters, .ok (publish_reply request.publish_time (some err)))
        | none =>
          let rest := publish_rest chunks request topic payload (chunk + 1)
            (counters.record_message_published topic)
          (payload :: rest.1, rest.2) := by
  obtain ⟨left, hleft⟩ := Nat.exists_eq_succ_of_ne_zero (show chunks.toNat - chunk ≠ 0 by omega)
  have hnext : chunks.toNat - (chunk + 1) = left := by omega
  simp only [publish_rest, hleft, hnext, publish_fragments]
  cases set_byte payload 10 (UInt8.ofNat chunk) with
  | error panic => rfl
  | ok payload =>
    cases request.outcome chunk with
    | some err => simp [Except.map]
    | none => simp

/-- The checks of the handler come before everything else it does. -/
theorem left_read (self : Handling) (counters : Counters) :
    { self with progress := self.read chunks topics }.left chunks topics counters =
      self.request.alone chunks topics counters := by
  simp only [Handling.left, Handling.read, ServerRequest.alone, handle_publish]
  by_cases hmethod : self.request.r.method ≠ "POST"
  · simp only [if_pos hmethod]
  · simp only [if_neg hmethod]
    cases self.request.r.body with
    | error err => rfl
    | ok req =>
      by_cases htopic : req.topic ∉ topics
      · simp only [if_pos htopic]
      · simp only [if_neg htopic, PublishCall.publish_new_message]
        cases new_payload req.msg_size chunks self.request.now_nanos with
        | error panic => rfl
        | ok payload => rfl

/-- A part of the handling and the rest of it come to what they came to before. -/
theorem comes_to_advance (self : Handling) (counters : Counters) :
    (self.advance chunks topics counters).2.comes_to chunks topics
        (self.advance chunks topics counters).1 = self.comes_to chunks topics counters := by
  obtain ⟨request, progress, payloads, recorded⟩ := self
  cases progress with
  | reading =>
    simp only [Handling.advance, Handling.comes_to]
    rw [left_read ⟨request, .reading, payloads, recorded⟩]
    rfl
  | publishing topic payload chunk =>
    by_cases hmore : (chunk : Int) < chunks
    · simp only [Handling.advance, Handling.comes_to, Handling.left, if_pos hmore,
        publish_rest_next hmore]
      cases set_byte payload 10 (UInt8.ofNat chunk) with
      | error panic => rfl
      | ok payload =>
        cases request.outcome chunk with
        | some err => simp
        | none => simp
    · simp only [Handling.advance, Handling.comes_to, Handling.left, if_neg hmore,
        publish_rest_last hmore]
  | recording topic payload chunk => rfl
  | ended result => rfl

variable (chunks topics) in
/-- The counters change by what the part of the handling counts. -/
theorem advance_recorded (self : Handling) (counters : Counters) :
    (self.advance chunks topics counters).1 = record_all counters self.next_recorded ∧
      (self.advance chunks topics counters).2.recorded = self.recorded ++ self.next_recorded ∧
      (self.advance chunks topics counters).2.request = self.request := by
  obtain ⟨request, progress, payloads, recorded⟩ := self
  cases progress with
  | publishing topic payload chunk =>
    simp only [Handling.advance, Handling.next_recorded, List.append_nil]
    split_ifs
    · cases set_byte payload 10 (UInt8.ofNat chunk) with
      | error panic => exact ⟨rfl, rfl, rfl⟩
      | ok payload => cases request.outcome chunk <;> exact ⟨rfl, rfl, rfl⟩
    · exact ⟨rfl, rfl, rfl⟩
  | reading | recording | ended => simp [Handling.advance, Handling.next_recorded, record_all]

/-- The handling does not depend on the counters. -/
theorem advance_handling (self : Handling) (counters others : Counters) :
    (self.advance chunks topics counters).2 = (self.advance chunks topics others).2 := by
  obtain ⟨request, progress, payloads, recorded⟩ := self
  cases progress with
  | publishing topic payload chunk =>
    simp only [Handling.advance]
    split_ifs
    · cases set_byte payload 10 (UInt8.ofNat chunk) with
      | error panic => rfl
      | ok payload => cases request.outcome chunk <;> rfl
    · rfl
  | reading | recording | ended => rfl

theorem record_all_append (counters : Counters) (recorded more : List String) :
    record_all counters (recorded ++ more) = record_all (record_all counters recorded) more :=
  List.foldl_append

/-- How often each topic was counted. -/
def tally (recorded : List String) : CounterVec := fun topic => recorded.count topic

theorem tally_append (recorded more : List String) :
    tally (recorded ++ more) = tally recorded + tally more :=
  funext fun _ => List.count_append

theorem sum_tally (handlings : List Handling) :
    (handlings.map fun handling => tally handling.recorded).sum =
      tally (handlings.flatMap Handling.recorded) := by
  induction handlings with
  | nil => rfl
  | cons handling handlings ih => rw [List.map_cons, List.sum_cons, ih, List.flatMap_cons, tally_append]

/-- Counting topics changes one counter vector, by the occurrences of each topic. -/
theorem record_all_eq (counters : Counters) (recorded : List String) :
    record_all counters recorded =
      { counters with
        pubsub_messages_published := counters.pubsub_messages_published + tally recorded } := by
  induction recorded using List.reverseRecOn with
  | nil =>
    change counters = { counters with pubsub_messages_published := _ }
    congr 1
  | append_singleton recorded topic ih =>
    rw [record_all_append, ih, record_all, List.foldl_cons, List.foldl_nil,
      Counters.record_message_published, CounterVec.inc, CounterVec.add]
    congr 1
    funext other
    rw [Function.update_apply]
    by_cases hsame : other = topic
    · subst hsame
      simp [tally, Nat.add_assoc]
    · simp [tally, hsame, Ne.symm hsame]

open Tasks (Event)

variable {counters : Counters} {events : List (Event ServerRequest Unit)}

/-- Whatever happens in between, every goroutine does what the handler does on its
request alone. -/
theorem comes_to_alone
    (hlegal : (start_http_server chunks topics counters).interleaved.Legal events) :
    ∀ handling ∈ ((start_http_server chunks topics counters).interleaved.after events).tasks,
      ∀ others, handling.comes_to chunks topics (record_all others handling.recorded) =
        handling.request.alone chunks topics others := by
  refine Tasks.forall_tasks_of_local (fun handling => ∀ others,
    handling.comes_to chunks topics (record_all others handling.recorded) =
      handling.request.alone chunks topics others) ?_ ?_ hlegal
  · intro shared request _ handling hstarted others
    rw [List.mem_singleton.mp hstarted]
    rfl
  · intro shared handling _ _ hholds others
    change ∀ others, handling.comes_to chunks topics (record_all others handling.recorded) =
      handling.request.alone chunks topics others at hholds
    change ((handling.advance chunks topics shared).2.comes_to chunks topics
      (record_all others (handling.advance chunks topics shared).2.recorded)) =
        (handling.advance chunks topics shared).2.request.alone chunks topics others
    rw [advance_handling handling shared (record_all others handling.recorded)]
    obtain ⟨hcounters, hrecorded, hrequest⟩ :=
      advance_recorded chunks topics handling
        (record_all others handling.recorded)
    rw [hrecorded, record_all_append, ← hcounters, comes_to_advance, hrequest, hholds]

/-- The parts that the handling of a request can still have. -/
def Handling.parts_left (chunks : Int) (self : Handling) : Nat :=
  match self.progress with
  | .reading => 2 * chunks.toNat + 2
  | .publishing _ _ chunk => 2 * (chunks.toNat - chunk) + 1
  | .recording _ _ chunk => 2 * (chunks.toNat - (chunk + 1)) + 2
  | .ended _ => 0

variable (chunks topics) in
theorem read_cases (self : Handling) :
    (∃ topic payload, self.read chunks topics = .publishing topic payload 0) ∨
      ∃ result, self.read chunks topics = .ended result := by
  rw [Handling.read]
  split
  · exact .inr ⟨_, rfl⟩
  · split
    · exact .inr ⟨_, rfl⟩
    · split
      · exact .inr ⟨_, rfl⟩
      · split
        · exact .inr ⟨_, rfl⟩
        · exact .inl ⟨_, _, rfl⟩

theorem parts_left_advance {self : Handling} (hrunning : ¬ self.Ended) (counters : Counters) :
    (self.advance chunks topics counters).2.parts_left chunks < self.parts_left chunks := by
  obtain ⟨request, progress, payloads, recorded⟩ := self
  cases progress with
  | reading =>
    simp only [Handling.advance]
    rcases read_cases chunks topics
      ⟨request, .reading, payloads, recorded⟩ with ⟨topic, payload, hread⟩ | ⟨result, hread⟩
    · rw [hread]
      simp [Handling.parts_left]
    · rw [hread]
      simp [Handling.parts_left]
  | publishing topic payload chunk =>
    simp only [Handling.advance]
    split_ifs with hmore
    · cases set_byte payload 10 (UInt8.ofNat chunk) with
      | error panic => simp [Handling.parts_left]
      | ok payload =>
        cases request.outcome chunk with
        | some err => simp [Handling.parts_left]
        | none =>
          simp only [Handling.parts_left]
          omega
    · simp [Handling.parts_left]
  | recording topic payload chunk => simp [Handling.advance, Handling.parts_left]
  | ended result => exact absurd ⟨result, rfl⟩ hrunning

/-- The handler on requests one after another. -/
def one_after_another (chunks : Int) (topics : List String) (counters : Counters)
    (requests : List ServerRequest) : Counters :=
  requests.foldl (fun counters request => (request.alone chunks topics counters).2.1) counters

theorem one_after_another_eq {handlings : List Handling} (counters : Counters)
    (hall : ∀ handling ∈ handlings, ∀ others,
      (handling.request.alone chunks topics others).2.1 = record_all others handling.recorded) :
    one_after_another chunks topics counters (handlings.map Handling.request) =
      record_all counters (handlings.flatMap Handling.recorded) := by
  induction handlings generalizing counters with
  | nil => rfl
  | cons handling handlings ih =>
    obtain ⟨hfirst, hrest⟩ := List.forall_mem_cons.mp hall
    rw [List.flatMap_cons, record_all_append, ← ih _ hrest, ← hfirst]
    rfl

/-- The counters are those that the goroutines together have counted. -/
theorem server_counters
    (hlegal : (start_http_server chunks topics counters).interleaved.Legal events) :
    ((start_http_server chunks topics counters).interleaved.after events).shared =
      record_all counters (((start_http_server chunks topics counters).interleaved.after
        events).tasks.flatMap Handling.recorded) := by
  have hothers := Tasks.shared_invariant (fun shared => shared =
    { counters with pubsub_messages_published := shared.pubsub_messages_published }) rfl
    (fun _ _ _ hshared => hshared) (fun shared handling _ _ hshared => by
      change (handling.advance chunks topics shared).1 = { counters with
        pubsub_messages_published := (handling.advance chunks topics shared).1.pubsub_messages_published }
      rw [(advance_recorded chunks topics handling shared).1, record_all_eq]
      conv_lhs => rw [hshared]) hlegal
  have hsum := Tasks.sum_tasks Counters.pubsub_messages_published
    (fun handling => tally handling.recorded) (fun shared request _ => by
      change shared.pubsub_messages_published =
        shared.pubsub_messages_published + ([request.start].map _).sum
      rw [List.map_singleton, List.sum_singleton]
      rfl)
    (fun shared handling _ _ => by
      obtain ⟨hcounters, hrecorded, _⟩ :=
        advance_recorded chunks topics handling shared
      refine ⟨tally handling.next_recorded, ?_, ?_⟩
      · change (handling.advance chunks topics shared).1.pubsub_messages_published = _
        rw [hcounters, record_all_eq]
      · change tally (handling.advance chunks topics shared).2.recorded = _
        rw [hrecorded, tally_append]) hlegal
  rw [hothers, hsum, record_all_eq, sum_tally]
  rfl

theorem record_all_comm (counters : Counters) (recorded more : List String) :
    record_all (record_all counters recorded) more =
      record_all (record_all counters more) recorded := by
  simp only [record_all_eq, add_assoc, add_comm (tally recorded)]

/-- Concurrent requests do not get in each other's way. Whatever the interleaving,
the goroutine of every request hands over payloads and answers as the handler does
on its request alone, can take a step until it has ended, and ends within a bounded
number of steps; and when all of them have ended, the counters are those of handling
the requests one after another, in any order. -/
theorem concurrent_requests
    (hlegal : (start_http_server chunks topics counters).interleaved.Legal events) :
    let state := (start_http_server chunks topics counters).interleaved.after events
    state.tasks.map Handling.request = events.filterMap Event.arrival ∧
    (∀ handling ∈ state.tasks, ∀ others,
      handling.payloads <+: (handling.request.alone chunks topics others).1 ∧
      ∀ result, handling.progress = .ended result →
        handling.payloads = (handling.request.alone chunks topics others).1 ∧
        result = (handling.request.alone chunks topics others).2.2) ∧
    (∀ number, events.countP (Event.IsStepOf number) ≤ 2 * chunks.toNat + 2) ∧
    (∀ (number : Nat) (handling : Handling), state.tasks[number]? = some handling →
      ¬ handling.Ended →
        (start_http_server chunks topics counters).interleaved.enabled state (.step number ())) ∧
    ((∀ handling ∈ state.tasks, handling.Ended) →
      ∀ requests, requests.Perm (events.filterMap Event.arrival) →
        state.shared = one_after_another chunks topics counters requests) := by
  intro state
  have halone := comes_to_alone hlegal
  have hended {handling : Handling} (hmem : handling ∈ state.tasks) {result : Except Panic HttpReply}
      (hresult : handling.progress = .ended result) (others : Counters) :
      handling.request.alone chunks topics others =
        (handling.payloads, record_all others handling.recorded, result) := by
    rw [← halone handling hmem, Handling.comes_to, Handling.left, hresult, List.append_nil]
  have hrequests : state.tasks.map Handling.request = events.filterMap Event.arrival := by
    have hmap := Tasks.map_tasks (start_http_server chunks topics counters) Handling.request
      (fun request => [request]) (fun _ _ => rfl)
      (fun shared handling _ => (advance_recorded chunks topics handling shared).2.2) events
    rwa [List.flatMap_singleton'] at hmap
  refine ⟨hrequests, fun handling hmem others => ⟨?_, fun result hresult => ?_⟩, fun number => ?_,
    fun number handling hhandling hrunning => ⟨handling, hhandling, hrunning⟩,
    fun hall requests hperm => ?_⟩
  · rw [← halone handling hmem]
    exact List.prefix_append _ _
  · rw [hended hmem hresult]
    exact ⟨rfl, rfl⟩
  · have hsteps := Tasks.countP_isStepOf_add_le (Handling.parts_left chunks) (2 * chunks.toNat + 2)
      (fun _ request _ handling hstarted => by
        rw [List.mem_singleton.mp hstarted]
        exact Nat.le_refl (2 * chunks.toNat + 2))
      (fun shared _ _ hrunning => parts_left_advance hrunning shared) hlegal number
    omega
  · have hrecorded : ∀ handling ∈ state.tasks, ∀ others,
        (handling.request.alone chunks topics others).2.1 =
          record_all others handling.recorded := by
      intro handling hmem others
      obtain ⟨result, hresult⟩ := hall handling hmem
      rw [hended hmem hresult]
    rw [server_counters hlegal, ← one_after_another_eq counters hrecorded, hrequests]
    refine (hperm.symm.foldl_eq' ?_ counters)
    intro first hfirst second hsecond others
    rw [← hrequests] at hfirst hsecond
    obtain ⟨handling, hmem, rfl⟩ := List.mem_map.mp hfirst
    obtain ⟨handling', hmem', rfl⟩ := List.mem_map.mp hsecond
    simp only [hrecorded _ hmem, hrecorded _ hmem', record_all_comm]

def server_request (now_nanos : Int) (outcome : Nat → Option String) : ServerRequest where
  r := { method := "POST", body := .ok { topic := "test", msg_size := 6, version := 1 } }
  now_nanos := now_nanos
  publish_time := ""
  outcome := outcome

/-- Two requests of two fragments, of which the second one fails at its last
fragment. -/
def two_requests : List (Event ServerRequest Unit) :=
  .arrive (server_request 1000000 fun _ => none) ::
    .arrive (server_request 1000001 fun chunk => if chunk = 1 then some "queue full" else none) ::
      ([0, 1, 1, 0, 0, 1, 1, 0, 0, 0].map fun number => .step number ())

theorem concurrent_requests_two :
    let state := (start_http_server 2 ["test"] .new).interleaved.after two_requests
    state.shared = one_after_another 2 ["test"] .new (two_requests.filterMap Event.arrival) ∧
      state.shared.pubsub_messages_published "test" = 3 := by
  intro state
  have hlegal : (start_http_server 2 ["test"] .new).interleaved.Legal two_requests := by
    decide +kernel
  obtain ⟨-, -, -, -, hshared⟩ := concurrent_requests hlegal
  exact ⟨hshared (by decide +kernel) _ (List.Perm.refl _), by decide +kernel⟩

end go_test_node.main
