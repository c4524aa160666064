import DstTestNode.Library.LittleEndian
import DstTestNode.Nim.Strutils

open nim

namespace nim_test_node.gossipsub_queues.main

abbrev Payload : Type := List UInt8

/-- The defects of the publisher, which are not catchable. -/
inductive Defect where
  | div_by_zero
  | overflow
  | range
  | index
  deriving DecidableEq, Repr

/-- The `div` of two `int` values. -/
def int_div (dividend divisor : Int) : Except Defect Int :=
  if divisor = 0 then .error .div_by_zero
  else if int_high < dividend.tdiv divisor then .error .overflow
  else .ok (dividend.tdiv divisor)

def int_sub (left right : Int) : Except Defect Int :=
  if left - right < int_low ∨ int_high < left - right then .error .overflow
  else .ok (left - right)

/-- `newSeq[byte](length)`. Running out of memory is outside the model. -/
def new_seq (length : Int) : Except Defect Payload :=
  if length < 0 then .error .range else .ok (List.replicate length.toNat 0)

/-- `bytes[index] = byte`. -/
def set_byte (bytes : Payload) (index : Nat) (byte : UInt8) : Except Defect Payload :=
  if index < bytes.length then .ok (bytes.set index byte) else .error .index

/-- The counters of the publisher. -/
structure PublishMetrics where
  dst_testnode_publish_requests_total : Nat
  dst_testnode_publish_failures_total : Nat
  deriving DecidableEq, Repr

/-- The clock reading and the random message id of a call, with the result of
each `gossipSub.publish` by fragment: the number of peers it reached. -/
structure PublishCall where
  topic : String
  msg_size : Int
  chunks : Int
  now_int : Nat
  msg_id : Nat
  outcome : Nat → Int

/-- What a call did: the payloads it handed to `gossipSub.publish`, in order,
the counters it left, and the result it returned unless it raised a defect. -/
structure PublishTrace where
  payloads : List Payload
  metrics : PublishMetrics
  result : Except Defect Int

/-- The buffer with its two headers, before any fragment number. -/
def new_buffer (call : PublishCall) : Except Defect Payload := do
  let length ← int_div call.msg_size call.chunks
  let length ← int_sub length 16
  let rest ← new_seq length
  .ok (LittleEndian.bytes 8 call.now_int ++ LittleEndian.bytes 8 call.msg_id ++ rest)

/-- The loop over the fragments, from number `chunk` on with `remaining` to go. -/
def publish_fragments (outcome : Nat → Int) (now_bytes : Payload) (res : Int) :
    (remaining chunk : Nat) → List Payload × Except Defect Int
  | 0, _ => ([], .ok res)
  | remaining + 1, chunk =>
    match set_byte now_bytes 16 (UInt8.ofNat chunk) with
    | .error defect => ([], .error defect)
    | .ok now_bytes =>
      let res := outcome chunk
      let (payloads, result) := publish_fragments outcome now_bytes res remaining (chunk + 1)
      (now_bytes :: payloads, result)

def publish_new_message (metrics : PublishMetrics) (call : PublishCall) : PublishTrace :=
  let metrics :=
    { metrics with
      dst_testnode_publish_requests_total := metrics.dst_testnode_publish_requests_total + 1 }
  match new_buffer call with
  | .error defect => { payloads := [], metrics := metrics, result := .error defect }
  | .ok now_bytes =>
    let (payloads, result) := publish_fragments call.outcome now_bytes 0 call.chunks.toNat 0
    match result with
    | .error defect => { payloads := payloads, metrics := metrics, result := .error defect }
    | .ok res =>
      let metrics :=
        if res ≤ 0 then
          { metrics with
            dst_testnode_publish_failures_total := metrics.dst_testnode_publish_failures_total + 1 }
        else metrics
      { payloads := payloads, metrics := metrics, result := .ok res }

/-- The body of a publish request. -/
structure PublishRequest where
  topic : String
  msg_size : Int
  version : Int

inductive Method where
  | post
  | other
  deriving DecidableEq, Repr

/-- A request to the endpoint, with what reading and parsing its body gives:
the publish request, or the message of a catchable error. -/
structure HttpRequest where
  meth : Method
  path : String
  body : Except String PublishRequest

structure HttpResponse where
  status : Nat
  body : String
  content_type : Option String
  deriving DecidableEq, Repr

/-- `msg.replace("\"", "\\\"")`. -/
def escape_quotes (msg : String) : String :=
  String.ofList (msg.toList.flatMap fun c => if c = '"' then ['\\', '"'] else [c])

def json_response (status : Nat) (body : String) : HttpResponse where
  status := status
  body := body
  content_type := some "application/json"

/-- The answer to the result of `publishNewMessage`. -/
def publish_response (publish_time : String) (publish_result : Int) : HttpResponse :=
  if publish_result > 0 then
    json_response 200 ("\x7b\"status\":\"success\",\"message\":\"Message published at time " ++
      publish_time ++ "\x7d")
  else
    json_response 500 ("\x7b\"status\":\"error\",\"message\":\"Failed to publist at time " ++
      publish_time ++ "\x7d")

/-- The handler of the endpoint, with the payloads it hands over and the
counters it leaves. A request that could not be received has the default answer,
which is outside the model. -/
def process_requests (metrics : PublishMetrics) (chunks : Int) (req : HttpRequest)
    (now_int msg_id : Nat) (publish_time : String) (outcome : Nat → Int) :
    List Payload × PublishMetrics × Except Defect HttpResponse :=
  match req.meth with
  | .post =>
    if req.path = "/publish" then
      match req.body with
      | .error msg =>
        ([], metrics, .ok (json_response 400 ("\x7b\"status\":\"error\",\"message\":\"" ++
          escape_quotes msg ++ "\"\x7d")))
      | .ok body =>
        let trace := publish_new_message metrics
          { topic := body.topic, msg_size := body.msg_size, chunks := chunks
            now_int := now_int, msg_id := msg_id, outcome := outcome }
        (trace.payloads, trace.metrics, trace.result.map (publish_response publish_time))
    else ([], metrics, .ok { status := 404, body := "Not Found", content_type := none })
  | .other => ([], metrics, .ok { status := 405, body := "Method Not Supported", content_type := none })

/-- A buffer that reaches the fragment number is published without a defect:
every fragment is handed over, and only the last outcome is kept. -/
theorem publish_fragments_eq (outcome : Nat → Int) {now_bytes : Payload}
    (hlong : 16 < now_bytes.length) (res : Int) (remaining chunk : Nat) :
    publish_fragments outcome now_bytes res remaining chunk =
      ((List.range' chunk remaining).map fun k => now_bytes.set 16 (UInt8.ofNat k),
        .ok (if remaining = 0 then res else outcome (chunk + remaining - 1))) := by
  induction remaining generalizing now_bytes res chunk with
  | zero => rfl
  | succ remaining ih =>
    have hset : set_byte now_bytes 16 (UInt8.ofNat chunk) =
        .ok (now_bytes.set 16 (UInt8.ofNat chunk)) := if_pos hlong
    simp only [publish_fragments, hset]
    rw [ih (by simpa using hlong), List.range'_succ, List.map_cons]
    simp only [List.set_set, Nat.add_one_ne_zero, if_false]
    cases remaining with
    | zero => rfl
    | succ remaining =>
      rw [if_neg (Nat.succ_ne_zero _), show chunk + 1 + (remaining + 1) - 1 =
        chunk + (remaining + 1 + 1) - 1 by omega]

namespace PublishCall

variable {self : PublishCall}

/-- A call whose buffer reaches the fragment number. -/
def Publishable (self : PublishCall) : Prop :=
  0 < self.chunks ∧ 17 ≤ self.msg_size.tdiv self.chunks ∧
    self.msg_size.tdiv self.chunks ≤ int_high

/-- Every fragment reached some peer. -/
def Accepted (self : PublishCall) : Prop :=
  ∀ k < self.chunks.toNat, 0 < self.outcome k

/-- The last fragment reached some peer. -/
def LastAccepted (self : PublishCall) : Prop :=
  0 < self.outcome (self.chunks.toNat - 1)

instance : Decidable self.LastAccepted :=
  inferInstanceAs (Decidable (_ < _))

/-- The buffer of a call, before any fragment number. -/
def buffer (self : PublishCall) : Payload :=
  LittleEndian.bytes 8 self.now_int ++ LittleEndian.bytes 8 self.msg_id ++
    List.replicate (self.msg_size.tdiv self.chunks - 16).toNat 0

theorem new_buffer_eq (hchunks : 0 < self.chunks) (hfits : self.msg_size.tdiv self.chunks ≤ int_high)
    (hlow : int_low + 16 ≤ self.msg_size.tdiv self.chunks) :
    new_buffer self = if self.msg_size.tdiv self.chunks < 16 then .error .range
      else .ok self.buffer := by
  have hdiv : int_div self.msg_size self.chunks = .ok (self.msg_size.tdiv self.chunks) := by
    rw [int_div, if_neg (Int.ne_of_gt hchunks), if_neg (Int.not_lt.mpr hfits)]
  have hsub : int_sub (self.msg_size.tdiv self.chunks) 16 =
      .ok (self.msg_size.tdiv self.chunks - 16) := if_neg (by omega)
  simp only [new_buffer, hdiv, hsub, new_seq, bind, Except.bind, buffer]
  by_cases hshort : self.msg_size.tdiv self.chunks < 16
  · rw [if_pos hshort, if_pos (show self.msg_size.tdiv self.chunks - 16 < 0 by omega)]
  · rw [if_neg hshort, if_neg (show ¬ self.msg_size.tdiv self.chunks - 16 < 0 by omega)]

theorem length_buffer (self : PublishCall) (hlong : 16 ≤ self.msg_size.tdiv self.chunks) :
    (self.buffer.length : Int) = self.msg_size.tdiv self.chunks := by
  simp only [buffer, List.length_append, LittleEndian.bytes_length, List.length_replicate]
  omega

/-- A call that can be carried out hands over every fragment, returns the last
outcome, and counts a failure exactly when the last fragment reached no peer. -/
theorem publish_new_message_eq (hpublishable : self.Publishable) (metrics : PublishMetrics) :
    publish_new_message metrics self =
      { payloads := (List.range self.chunks.toNat).map fun k =>
          self.buffer.set 16 (UInt8.ofNat k)
        metrics :=
          { dst_testnode_publish_requests_total := metrics.dst_testnode_publish_requests_total + 1
            dst_testnode_publish_failures_total := metrics.dst_testnode_publish_failures_total +
              if self.LastAccepted then 0 else 1 }
        result := .ok (self.outcome (self.chunks.toNat - 1)) } := by
  obtain ⟨hchunks, hlong, hfits⟩ := hpublishable
  have hlength := self.length_buffer (by omega)
  have hlow : int_low + 16 ≤ self.msg_size.tdiv self.chunks := by
    simp only [int_low]
    omega
  have hcount : self.chunks.toNat ≠ 0 := by omega
  simp only [publish_new_message, new_buffer_eq hchunks hfits hlow,
    if_neg (show ¬ self.msg_size.tdiv self.chunks < 16 by omega),
    publish_fragments_eq self.outcome (show 16 < self.buffer.length by omega), if_neg hcount,
    Nat.zero_add, List.range_eq_range']
  by_cases hlast : self.LastAccepted
  · have hres : ¬ self.outcome (self.chunks.toNat - 1) ≤ 0 := Int.not_le.mpr hlast
    rw [if_pos hlast, if_neg hres]
    rfl
  · have hres : self.outcome (self.chunks.toNat - 1) ≤ 0 := Int.not_lt.mp hlast
    rw [if_neg hlast, if_pos hres]

/-- A call returns exactly when its buffer reaches the fragment number, and
raises a defect otherwise. -/
theorem publish_new_message_returns_iff (hchunks : 0 < self.chunks) (metrics : PublishMetrics) :
    (∃ res, (publish_new_message metrics self).result = .ok res) ↔ self.Publishable := by
  constructor
  · rintro ⟨res, hresult⟩
    by_cases hrange : int_low + 16 ≤ self.msg_size.tdiv self.chunks ∧
        self.msg_size.tdiv self.chunks ≤ int_high
    · simp only [publish_new_message, new_buffer_eq hchunks hrange.2 hrange.1] at hresult
      split_ifs at hresult with hshort
      have hlength := self.length_buffer (by omega)
      obtain ⟨remaining, hremaining⟩ := Nat.exists_eq_succ_of_ne_zero
        (show self.chunks.toNat ≠ 0 by omega)
      by_cases hlong : 16 < self.buffer.length
      · exact ⟨hchunks, by omega, hrange.2⟩
      · simp only [hremaining, publish_fragments, set_byte, if_neg hlong, reduceCtorEq] at hresult
    · have hoverflow : new_buffer self = .error .overflow := by
        simp only [new_buffer, int_div, if_neg (Int.ne_of_gt hchunks), int_sub, bind, Except.bind]
        by_cases hhigh : int_high < self.msg_size.tdiv self.chunks
        · rw [if_pos hhigh]
        · rw [if_neg hhigh]
          simp only
          rw [if_pos (show self.msg_size.tdiv self.chunks - 16 < int_low ∨
            int_high < self.msg_size.tdiv self.chunks - 16 by omega)]
      simp only [publish_new_message, hoverflow, reduceCtorEq] at hresult
  · intro hpublishable
    rw [publish_new_message_eq hpublishable]
    exact ⟨_, rfl⟩

/-- What the endpoint does on the request of a call. -/
def handle (self : PublishCall) (version : Int) (publish_time : String) (metrics : PublishMetrics) :
    List Payload × PublishMetrics × Except Defect HttpResponse :=
  process_requests metrics self.chunks
    { meth := .post
      path := "/publish"
      body := .ok { topic := self.topic, msg_size := self.msg_size, version := version } }
    self.now_int self.msg_id publish_time self.outcome

/-- The endpoint answers with success. -/
def Succeeds (self : PublishCall) (version : Int) (publish_time : String)
    (metrics : PublishMetrics) : Prop :=
  ∃ reply, (self.handle version publish_time metrics).2.2 = .ok reply ∧ reply.status = 200

theorem handle_eq (self : PublishCall) (version : Int) (publish_time : String)
    (metrics : PublishMetrics) :
    self.handle version publish_time metrics =
      ((publish_new_message metrics self).payloads, (publish_new_message metrics self).metrics,
        (publish_new_message metrics self).result.map (publish_response publish_time)) := rfl

/-- The endpoint looks at the last fragment only. -/
theorem succeeds_iff (hpublishable : self.Publishable) (version : Int) (publish_time : String)
    (metrics : PublishMetrics) :
    self.Succeeds version publish_time metrics ↔ self.LastAccepted := by
  rw [Succeeds, handle_eq, publish_new_message_eq hpublishable]
  simp only [Except.map, Except.ok.injEq, exists_eq_left', publish_response, LastAccepted]
  split
  · next hres => exact iff_of_true rfl hres
  · next hres => exact iff_of_false (by simp [json_response]) hres

/-- The endpoint counts a failure exactly when it does not answer with success. -/
theorem failures_handle (hpublishable : self.Publishable) (version : Int) (publish_time : String)
    (metrics : PublishMetrics) :
    (self.handle version publish_time metrics).2.1.dst_testnode_publish_failures_total =
        metrics.dst_testnode_publish_failures_total + 1 ↔
      ¬ self.Succeeds version publish_time metrics := by
  rw [succeeds_iff hpublishable, handle_eq, publish_new_message_eq hpublishable]
  split
  · next hlast => exact iff_of_false (by simp) (not_not.mpr hlast)
  · next hlast => exact iff_of_true rfl hlast

end PublishCall

end nim_test_node.gossipsub_queues.main
