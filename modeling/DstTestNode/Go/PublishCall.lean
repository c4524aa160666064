import DstTestNode.Go.Counters
import DstTestNode.Go.Publish

open go_test_node.metrics

namespace go_test_node.main

/-- A call of `publishNewMessage`, with the outcome of its `topic.Publish` calls
by fragment: no error, or the text of the error. -/
structure PublishCall where
  topic : String
  msg_size : Int
  chunks : Int
  now_nanos : Int
  outcome : Nat → Option String

/-- What a call did: the payloads it handed to `topic.Publish`, in order, the
counters it left, and the error it returned unless it panicked. -/
structure PublishTrace where
  payloads : List Payload
  counters : Counters
  result : Except Panic (Option String)

/-- The loop over the fragments, from number `chunk` on with `remaining` to go. -/
def publish_fragments (topic : String) (outcome : Nat → Option String) (payload : Payload)
    (counters : Counters) : (remaining chunk : Nat) → PublishTrace
  | 0, _ => { payloads := [], counters := counters, result := .ok none }
  | remaining + 1, chunk =>
    match set_byte payload 10 (UInt8.ofNat chunk) with
    | .error panic => { payloads := [], counters := counters, result := .error panic }
    | .ok payload =>
      match outcome chunk with
      | some err => { payloads := [payload], counters := counters, result := .ok (some err) }
      | none =>
        let counters := counters.record_message_published topic
        let rest := publish_fragments topic outcome payload counters remaining (chunk + 1)
        { rest with payloads := payload :: rest.payloads }

/-- Every fragment in a range of numbers was accepted. -/
def Accepts (outcome : Nat → Option String) (chunk count : Nat) : Prop :=
  ∀ k, chunk ≤ k → k < chunk + count → outcome k = none

namespace PublishCall

def publish_new_message (self : PublishCall) (counters : Counters) : PublishTrace :=
  match new_payload self.msg_size self.chunks self.now_nanos with
  | .error panic => { payloads := [], counters := counters, result := .error panic }
  | .ok payload =>
    publish_fragments self.topic self.outcome payload counters self.chunks.toNat 0

/-- Every fragment of the message was accepted. -/
def Accepted (self : PublishCall) : Prop :=
  Accepts self.outcome 0 self.chunks.toNat

/-- A call whose payload can be allocated and reaches the fragment number. -/
def Publishable (self : PublishCall) : Prop :=
  0 < self.chunks ∧ 3 ≤ self.msg_size.tdiv self.chunks ∧
    self.msg_size.tdiv self.chunks ≤ max_alloc

end PublishCall

/-- A payload that reaches the fragment number is published without a panic, and
without an error exactly when every fragment was accepted. -/
theorem publish_fragments_result (topic : String) (outcome : Nat → Option String)
    {payload : Payload} (hlong : 10 < payload.length) (counters : Counters)
    (remaining chunk : Nat) :
    ∃ err, (publish_fragments topic outcome payload counters remaining chunk).result = .ok err ∧
      (err = none ↔ Accepts outcome chunk remaining) := by
  induction remaining generalizing payload counters chunk with
  | zero =>
    refine ⟨none, rfl, iff_of_true rfl fun k hlow hhigh => ?_⟩
    omega
  | succ remaining ih =>
    simp only [publish_fragments, set_byte_of_lt hlong]
    cases houtcome : outcome chunk with
    | some err =>
      refine ⟨some err, rfl, iff_of_false (Option.some_ne_none err) fun haccepts => ?_⟩
      rw [haccepts chunk le_rfl (by omega)] at houtcome
      cases houtcome
    | none =>
      have hmarked : 10 < (payload.set 10 (UInt8.ofNat chunk)).length := by simpa using hlong
      obtain ⟨err, hresult, herr⟩ := ih hmarked (counters.record_message_published topic) (chunk + 1)
      refine ⟨err, hresult, herr.trans ⟨fun haccepts k hlow hhigh => ?_, fun haccepts k hlow hhigh =>
        haccepts k (by omega) (by omega)⟩⟩
      by_cases hfirst : k = chunk
      · rw [hfirst, houtcome]
      · exact haccepts k (by omega) (by omega)

/-- The payloads handed over are the marked payloads of the first fragments. -/
theorem publish_fragments_isPrefix (topic : String) (outcome : Nat → Option String)
    (payload : Payload) (counters : Counters) (remaining chunk : Nat) :
    (publish_fragments topic outcome payload counters remaining chunk).payloads <+:
      (List.range' chunk remaining).map fun k => payload.set 10 (UInt8.ofNat k) := by
  induction remaining generalizing payload counters chunk with
  | zero => exact List.prefix_refl _
  | succ remaining ih =>
    rw [List.range'_succ, List.map_cons]
    simp only [publish_fragments, set_byte]
    split
    · exact List.nil_prefix
    · next bytes hbytes =>
      split at hbytes
      · cases hbytes
        cases outcome chunk with
        | some err => exact List.cons_prefix_cons.mpr ⟨rfl, List.nil_prefix⟩
        | none =>
          have htail := ih (payload.set 10 (UInt8.ofNat chunk))
            (counters.record_message_published topic) (chunk + 1)
          simp only [List.set_set] at htail
          exact List.cons_prefix_cons.mpr ⟨rfl, htail⟩
      · cases hbytes

/-- When everything is accepted, all fragments are handed over and counted. -/
theorem publish_fragments_accepted (topic : String) {outcome : Nat → Option String}
    {payload : Payload} (hlong : 10 < payload.length) (counters : Counters) (remaining chunk : Nat)
    (haccepts : Accepts outcome chunk remaining) :
    (publish_fragments topic outcome payload counters remaining chunk).payloads.length =
        remaining ∧
      (publish_fragments topic outcome payload counters remaining chunk).counters =
        (fun counters => counters.record_message_published topic)^[remaining] counters := by
  induction remaining generalizing payload counters chunk with
  | zero => exact ⟨rfl, rfl⟩
  | succ remaining ih =>
    have hmarked : 10 < (payload.set 10 (UInt8.ofNat chunk)).length := by simpa using hlong
    obtain ⟨hlength, hcounters⟩ := ih hmarked (counters.record_message_published topic) (chunk + 1)
      (fun k hlow hhigh => haccepts k (by omega) (by omega))
    simp only [publish_fragments, set_byte_of_lt hlong, haccepts chunk le_rfl (by omega)]
    exact ⟨by rw [List.length_cons, hlength], hcounters⟩

/-- The payload is built exactly when it can be allocated. -/
theorem new_payload_eq {msg_size chunks : Int} (hchunks : 0 < chunks) (now_nanos : Int) :
    new_payload msg_size chunks now_nanos =
      if msg_size.tdiv chunks < 0 ∨ max_alloc < msg_size.tdiv chunks then
        .error .makeslice_len_out_of_range
      else .ok (LittleEndian.signedBytes 8 now_nanos ++
        List.replicate (msg_size.tdiv chunks).toNat 0) := by
  simp only [new_payload, int_div, if_neg (Int.ne_of_gt hchunks), make_bytes, bind, Except.bind]
  split_ifs <;> rfl

namespace PublishCall

variable {self : PublishCall}

/-- The payload of a call, before any fragment number. -/
def payload (self : PublishCall) : Payload :=
  LittleEndian.signedBytes 8 self.now_nanos ++
    List.replicate (self.msg_size.tdiv self.chunks).toNat 0

theorem length_payload (hpublishable : self.Publishable) :
    (self.payload.length : Int) = 8 + self.msg_size.tdiv self.chunks ∧ 10 < self.payload.length := by
  have hlong := hpublishable.2.1
  simp only [payload, List.length_append, LittleEndian.signedBytes_length, List.length_replicate]
  omega

theorem publish_new_message_eq (hpublishable : self.Publishable) (counters : Counters) :
    self.publish_new_message counters =
      publish_fragments self.topic self.outcome self.payload counters self.chunks.toNat 0 := by
  obtain ⟨hchunks, hlong, hfits⟩ := hpublishable
  simp only [publish_new_message, new_payload_eq hchunks, if_neg (show ¬ (self.msg_size.tdiv
    self.chunks < 0 ∨ max_alloc < self.msg_size.tdiv self.chunks) by omega), payload]

/-- A call returns exactly when its payload can be allocated and reaches the
fragment number, and panics otherwise. -/
theorem publish_new_message_returns_iff (hchunks : 0 < self.chunks) (counters : Counters) :
    (∃ err, (self.publish_new_message counters).result = .ok err) ↔ self.Publishable := by
  constructor
  · rintro ⟨err, hresult⟩
    simp only [publish_new_message, new_payload_eq hchunks] at hresult
    split_ifs at hresult with hrange
    · obtain ⟨remaining, hremaining⟩ := Nat.exists_eq_succ_of_ne_zero
        (show self.chunks.toNat ≠ 0 by omega)
      simp only [hremaining, publish_fragments, set_byte] at hresult
      split_ifs at hresult with hlong
      · simp only [List.length_append, LittleEndian.signedBytes_length,
          List.length_replicate] at hlong
        exact ⟨hchunks, by omega, by omega⟩
  · intro hpublishable
    rw [publish_new_message_eq hpublishable]
    obtain ⟨err, hresult, _⟩ := publish_fragments_result self.topic self.outcome
      (length_payload hpublishable).2 counters self.chunks.toNat 0
    exact ⟨err, hresult⟩

/-- A call that returns has no error exactly when every fragment was accepted. -/
theorem publish_new_message_error_iff (hpublishable : self.Publishable) (counters : Counters) :
    (self.publish_new_message counters).result = .ok none ↔ self.Accepted := by
  obtain ⟨err, hresult, herr⟩ := publish_fragments_result self.topic self.outcome
    (length_payload hpublishable).2 counters self.chunks.toNat 0
  rw [publish_new_message_eq hpublishable, hresult, Except.ok.injEq]
  exact herr

/-- Every payload handed over is the timestamp header and the fragment. -/
theorem length_of_mem_payloads {counters : Counters} {data : Payload}
    (hdata : data ∈ (self.publish_new_message counters).payloads) :
    (data.length : Int) = 8 + self.msg_size.tdiv self.chunks := by
  unfold publish_new_message at hdata
  split at hdata
  · cases hdata
  · next payload hpayload =>
    obtain ⟨k, _, rfl⟩ := List.mem_map.mp ((publish_fragments_isPrefix _ _ _ _ _ _).subset hdata)
    rw [List.length_set]
    exact (length_new_payload hpayload).1

/-- An accepted message is handed over and counted fragment by fragment. -/
theorem publish_new_message_accepted (hpublishable : self.Publishable) (haccepted : self.Accepted)
    (counters : Counters) :
    (self.publish_new_message counters).payloads.length = self.chunks.toNat ∧
      (self.publish_new_message counters).counters =
        (fun counters => counters.record_message_published self.topic)^[self.chunks.toNat]
          counters := by
  rw [publish_new_message_eq hpublishable]
  exact publish_fragments_accepted self.topic (length_payload hpublishable).2 counters _ _ haccepted

end PublishCall

/-- The result field of a call that has ended in a given way. -/
def ended : Except Panic (Option String) → Option (Except Panic (Option String))
  | .ok none => none
  | .ok (some err) => some (.ok (some err))
  | .error panic => some (.error panic)

/-- The loop makes the iterations that the interleaved model makes while the
writer of the queue is idle: the same result, and as many messages counted. -/
theorem publish_fragments_iterate (msg_size chunks now_nanos : Int) (topic : String)
    (outcome : Nat → Option String) (self : Publisher) (counters : Counters) (remaining : Nat)
    (hresult : self.result = none) (hremaining : (self.iterations + remaining : Int) = chunks) :
    ∃ errs : List (Option String),
      (publish_new_message msg_size chunks now_nanos).MeetsFrom
        (publish_new_message msg_size chunks now_nanos).enabled self (errs.map .iterate) ∧
      (errs.foldl Publisher.iterate self).result = ended (publish_fragments topic outcome
        (self.memory self.payload) counters remaining self.iterations).result ∧
      (publish_fragments topic outcome (self.memory self.payload) counters remaining
          self.iterations).counters.pubsub_messages_published topic + self.messages_published =
        counters.pubsub_messages_published topic +
          (errs.foldl Publisher.iterate self).messages_published := by
  induction remaining generalizing self counters with
  | zero => exact ⟨[], trivial, hresult, rfl⟩
  | succ remaining ih =>
    have hready : self.ready chunks (.iterate (outcome self.iterations)) := ⟨hresult, by omega⟩
    by_cases hlong : 10 < (self.memory self.payload).length
    · cases houtcome : outcome self.iterations with
      | some err =>
        refine ⟨[some err], ⟨hready, trivial⟩, ?_, ?_⟩
        · simp [Publisher.iterate, publish_fragments, hlong, houtcome, ended]
        · simp [Publisher.iterate, publish_fragments, hlong, houtcome]
      | none =>
        rw [houtcome] at hready
        obtain ⟨errs, hlegal, hended, hcounted⟩ := ih (self.iterate none)
          (counters.record_message_published topic) (by simp [Publisher.iterate, hlong, hresult])
          (by simp [Publisher.iterate, hlong]; omega)
        have hmemory : (self.iterate none).memory (self.iterate none).payload =
            (self.memory self.payload).set 10 (UInt8.ofNat self.iterations) := by
          simp [Publisher.iterate, hlong]
        have hiterations : (self.iterate none).iterations = self.iterations + 1 := by
          simp [Publisher.iterate, hlong]
        have hpublished : (self.iterate none).messages_published = self.messages_published + 1 := by
          simp [Publisher.iterate, hlong]
        have hcounter : (counters.record_message_published topic).pubsub_messages_published topic =
            counters.pubsub_messages_published topic + 1 := by
          rw [Counters.record_message_published_apply, if_pos rfl]
        rw [hmemory, hiterations] at hended hcounted
        rw [hpublished, hcounter] at hcounted
        refine ⟨none :: errs, ⟨hready, hlegal⟩, ?_, ?_⟩
        · simpa only [publish_fragments, set_byte_of_lt hlong, houtcome, List.foldl_cons] using hended
        · simp only [publish_fragments, set_byte_of_lt hlong, houtcome, List.foldl_cons]
          omega
    · have hpanic : set_byte (self.memory self.payload) 10 (UInt8.ofNat self.iterations) =
          .error .index_out_of_range := if_neg hlong
      refine ⟨[outcome self.iterations], ⟨hready, trivial⟩, ?_, ?_⟩
      · simp [Publisher.iterate, publish_fragments, hpanic, ended]
      · simp [Publisher.iterate, publish_fragments, hpanic]

structure PublishRequest where
  topic : String
  msg_size : Int
  version : Int

structure PublishResponse where
  status : String
  message : String
  deriving DecidableEq, Repr

/-- A request to `/publish`, with what reading and parsing its body gave: the
publish request, or the text of an error. -/
structure HttpRequest where
  method : String
  body : Except String PublishRequest

/-- An answer of the HTTP handler: the text of `http.Error`, or a JSON body. -/
inductive HttpReply where
  | error (text : String) (status : Nat)
  | json (status : Nat) (resp : PublishResponse)
  deriving DecidableEq, Repr

def HttpReply.status : HttpReply → Nat
  | .error _ status => status
  | .json status _ => status

/-- The answer to the result of `publishNewMessage`. -/
def publish_reply (publish_time : String) : Option String → HttpReply
  | some err => .json 500 { status := "error", message := "Failed to publish " ++ err }
  | none =>
    .json 200 { status := "success", message := "Message published at time " ++ publish_time }

/-- The handler of `/publish`, with the payloads it hands over and the counters
it leaves. -/
def handle_publish (chunks : Int) (topics : List String) (r : HttpRequest) (now_nanos : Int)
    (publish_time : String) (outcome : Nat → Option String) (counters : Counters) :
    List Payload × Counters × Except Panic HttpReply :=
  if r.method ≠ "POST" then ([], counters, .ok (.error "Method Not Supported" 405))
  else
    match r.body with
    | .error err => ([], counters, .ok (.error err 400))
    | .ok req =>
      if req.topic ∉ topics then ([], counters, .ok (.error "Topic not joined" 500))
      else
        let call : PublishCall :=
          { topic := req.topic, msg_size := req.msg_size, chunks := chunks
            now_nanos := now_nanos, outcome := outcome }
        let trace := call.publish_new_message counters
        (trace.payloads, trace.counters, trace.result.map (publish_reply publish_time))

namespace PublishCall

variable {self : PublishCall}

/-- What the endpoint does on the request of a call. -/
def handle (self : PublishCall) (topics : List String) (version : Int) (publish_time : String)
    (counters : Counters) : List Payload × Counters × Except Panic HttpReply :=
  handle_publish self.chunks topics
    { method := "POST"
      body := .ok { topic := self.topic, msg_size := self.msg_size, version := version } }
    self.now_nanos publish_time self.outcome counters

/-- The endpoint answers with success. -/
def Succeeds (self : PublishCall) (topics : List String) (version : Int) (publish_time : String)
    (counters : Counters) : Prop :=
  ∃ reply, (self.handle topics version publish_time counters).2.2 = .ok reply ∧ reply.status = 200

/-- On a joined topic the endpoint answers with the result of the call. -/
theorem handle_eq {topics : List String} (htopic : self.topic ∈ topics) (version : Int)
    (publish_time : String) (counters : Counters) :
    self.handle topics version publish_time counters =
      ((self.publish_new_message counters).payloads, (self.publish_new_message counters).counters,
        (self.publish_new_message counters).result.map (publish_reply publish_time)) := by
  simp only [handle, handle_publish, ne_eq, not_true_eq_false, if_false, htopic]

/-- The endpoint answers with success exactly when every fragment was accepted. -/
theorem succeeds_iff (hpublishable : self.Publishable) {topics : List String}
    (htopic : self.topic ∈ topics) (version : Int) (publish_time : String) (counters : Counters) :
    self.Succeeds topics version publish_time counters ↔ self.Accepted := by
  rw [← publish_new_message_error_iff hpublishable counters, Succeeds, handle_eq htopic]
  constructor
  · rintro ⟨reply, hreply, hstatus⟩
    cases hresult : (self.publish_new_message counters).result with
    | error panic =>
      rw [hresult] at hreply
      cases hreply
    | ok err =>
      rw [hresult] at hreply
      cases hreply
      cases err with
      | none => rfl
      | some err => simp [publish_reply, HttpReply.status] at hstatus
  · intro hresult
    rw [hresult]
    exact ⟨_, rfl, rfl⟩

end PublishCall

end go_test_node.main
