import DstTestNode.Library.Reassembly
import DstTestNode.Nim.GossipsubReceive

open nim

namespace nim_test_node.gossipsub_queues.main

namespace PublishCall

variable {self : PublishCall}

/-- The payloads a call hands to `gossipSub.publish`. -/
def payloads (self : PublishCall) : List Payload :=
  (publish_new_message ⟨0, 0⟩ self).payloads

/-- A call at a time that is not a warm-up one, with both headers in range. -/
structure Timely (call : PublishCall) : Prop where
  time_min : 1000000 ≤ call.now_int
  time_max : (call.now_int : Int) ≤ int_high
  id_max : (call.msg_id : Int) ≤ int_high

theorem payloads_eq (hpublishable : self.Publishable) : self.payloads =
    (List.range self.chunks.toNat).map fun k => self.buffer.set 16 (UInt8.ofNat k) := by
  rw [payloads, publish_new_message_eq hpublishable]

theorem length_payloads (hpublishable : self.Publishable) :
    self.payloads.length = self.chunks.toNat := by
  rw [payloads_eq hpublishable, List.length_map, List.length_range]

theorem mem_payloads (hpublishable : self.Publishable) {data : Payload} :
    data ∈ self.payloads ↔ ∃ k < self.chunks.toNat, data = self.buffer.set 16 (UInt8.ofNat k) := by
  rw [payloads_eq hpublishable, List.mem_map]
  simp only [List.mem_range, eq_comm]

/-- The fragment number is behind both headers. -/
theorem take_header (hpublishable : self.Publishable) {data : Payload} (hdata : data ∈ self.payloads) :
    data.take 16 = LittleEndian.bytes 8 self.now_int ++ LittleEndian.bytes 8 self.msg_id := by
  obtain ⟨k, _, rfl⟩ := (mem_payloads hpublishable).mp hdata
  rw [List.take_set_of_le (Nat.le_refl _), buffer, List.take_left' (by simp)]

theorem length_of_mem_payloads (hpublishable : self.Publishable) {data : Payload}
    (hdata : data ∈ self.payloads) :
    (data.length : Int) = self.msg_size.tdiv self.chunks := by
  obtain ⟨k, _, rfl⟩ := (mem_payloads hpublishable).mp hdata
  have hlong := hpublishable.2.1
  rw [List.length_set, self.length_buffer (by omega)]

/-- A receiver reads the time and the id of the call from every payload. -/
theorem headers_of_mem_payloads (hpublishable : self.Publishable) (htimely : self.Timely)
    {data : Payload} (hdata : data ∈ self.payloads) :
    WellFormed data ∧ LittleEndian.value (data.take 8) = self.now_int ∧
      counted_id data = some self.msg_id := by
  have hheader := take_header hpublishable hdata
  have htime : LittleEndian.value (data.take 8) = self.now_int := by
    have htake : data.take 8 = LittleEndian.bytes 8 self.now_int := by
      have hshort := congrArg (List.take 8) hheader
      rwa [List.take_take, List.take_left' (by simp)] at hshort
    rw [htake, LittleEndian.value_bytes]
    have hmax := htimely.time_max
    simp only [int_high] at hmax
    omega
  have hid : LittleEndian.value ((data.take 16).drop 8) = self.msg_id := by
    rw [hheader, List.drop_left' (by simp), LittleEndian.value_bytes]
    have hmax := htimely.id_max
    simp only [int_high] at hmax
    omega
  have hlength := length_of_mem_payloads hpublishable hdata
  have hlong := hpublishable.2.1
  have hmin := htimely.time_min
  refine ⟨⟨by omega, by rw [htime]; exact htimely.time_max⟩, htime, ?_⟩
  rw [counted_id, htime, if_neg (by omega), hid]

/-- Fragments up to number 255 are different payloads. -/
theorem nodup_payloads (hpublishable : self.Publishable) (hchunks : self.chunks ≤ 256) :
    self.payloads.Nodup := by
  rw [payloads_eq hpublishable]
  refine List.Nodup.map_on ?_ List.nodup_range
  intro k hk l hl hsame
  have hlength := self.length_buffer (show 16 ≤ self.msg_size.tdiv self.chunks by
    have hlong := hpublishable.2.1
    omega)
  have hlong := hpublishable.2.1
  have hin : 16 < self.buffer.length := by omega
  have hbyte := congrArg (fun data : Payload => data[16]?) hsame
  simp only [List.getElem?_set_self hin, Option.some.injEq] at hbyte
  rw [List.mem_range] at hk hl
  exact (LittleEndian.byte_inj (by omega) (by omega)).mp hbyte

end PublishCall

/-- Calls with one number of chunks, at most 256, with different ids, and the
deliveries of their payloads to one receiver, each at most once. -/
structure Traffic (chunks : Int) (calls : List PublishCall) (messages : List Delivery) : Prop where
  chunks_pos : 0 < chunks
  chunks_le : chunks ≤ 256
  same_chunks : ∀ call ∈ calls, call.chunks = chunks
  publishable : ∀ call ∈ calls, call.Publishable
  timely : ∀ call ∈ calls, call.Timely
  ids_nodup : (calls.map PublishCall.msg_id).Nodup
  published : ∀ message ∈ messages, ∃ call ∈ calls, message.data ∈ call.payloads
  once : (messages.map Delivery.data).Nodup

namespace Traffic

variable {chunks : Int} {calls : List PublishCall} {messages : List Delivery}

/-- The ids tell the calls apart, and every payload carries the id of its call. -/
theorem reassembly (traffic : Traffic chunks calls messages) :
    Reassembly PublishCall.payloads PublishCall.msg_id counted_id chunks.toNat calls
      (messages.map Delivery.data) where
  chunks_pos := by
    have hpos := traffic.chunks_pos
    omega
  length := by
    intro call hcall
    rw [PublishCall.length_payloads (traffic.publishable call hcall), traffic.same_chunks call hcall]
  nodup := by
    intro call hcall
    apply PublishCall.nodup_payloads (traffic.publishable call hcall)
    rw [traffic.same_chunks call hcall]
    exact traffic.chunks_le
  keyed := fun call hcall data hdata => (PublishCall.headers_of_mem_payloads
    (traffic.publishable call hcall) (traffic.timely call hcall) hdata).2.2
  keys_nodup := traffic.ids_nodup
  published := by
    intro data hdata
    obtain ⟨message, hmessage, rfl⟩ := List.mem_map.mp hdata
    exact traffic.published message hmessage
  once := traffic.once

/-- Every delivery has both headers, and its timestamp is that of its call. -/
theorem headers (traffic : Traffic chunks calls messages) {message : Delivery}
    (hmessage : message ∈ messages) : ∃ call ∈ calls, message.data ∈ call.payloads ∧
      WellFormed message.data ∧ LittleEndian.value (message.data.take 8) = call.now_int ∧
      counted_id message.data = some call.msg_id := by
  obtain ⟨call, hcall, hdata⟩ := traffic.published message hmessage
  exact ⟨call, hcall, hdata, PublishCall.headers_of_mem_payloads (traffic.publishable call hcall)
    (traffic.timely call hcall) hdata⟩

end Traffic

/-- All the fragments of a call were delivered. -/
def PublishCall.AllDelivered (self : PublishCall) (messages : List Delivery) : Prop :=
  Reassembly.Complete PublishCall.payloads (messages.map Delivery.data) self

instance (call : PublishCall) (messages : List Delivery) : Decidable (call.AllDelivered messages) :=
  inferInstanceAs (Decidable (Reassembly.Complete _ _ _))

/-- The last fragment of a call to be delivered is the one at position `k`. -/
def PublishCall.CompletedAt (self : PublishCall) (messages : List Delivery) (k : Nat) : Prop :=
  Reassembly.CompletedAt PublishCall.payloads (messages.map Delivery.data) k self

instance (call : PublishCall) (messages : List Delivery) (k : Nat) :
    Decidable (call.CompletedAt messages k) :=
  inferInstanceAs (Decidable (Reassembly.CompletedAt _ _ _ _))

/-- The delivery that completes a call is one of its fragments. -/
theorem Traffic.mem_payloads_of_completedAt {chunks : Int} {calls : List PublishCall}
    {messages : List Delivery} (traffic : Traffic chunks calls messages) {call : PublishCall}
    (hcall : call ∈ calls) {k : Nat} (hk : k < messages.length)
    (hcompleted : call.CompletedAt messages k) : messages[k].data ∈ call.payloads := by
  have hin : k < (messages.map Delivery.data).length := by simpa using hk
  have hkey := ((traffic.reassembly.completes_iff hin _).mpr ⟨call, hcall, rfl, hcompleted⟩).1
  have hmem := (traffic.reassembly.key_of_eq_iff hcall (List.getElem_mem hin)).mp hkey
  rwa [List.getElem_map] at hmem

/-- The line and the metrics of a call whose last fragment is received at a time. -/
def PublishCall.completion (self : PublishCall) (recv_time : Time) : Completion where
  msg_id := self.msg_id
  milliseconds := (recv_time.nanoseconds - self.now_int).tdiv 1000000

/-- The receiver gets through every delivery, and the last fragment of a call to
be delivered is the one that completes its message. -/
theorem Traffic.handled {chunks : Int} {calls : List PublishCall} {messages : List Delivery}
    (traffic : Traffic chunks calls messages) :
    ∃ messages_chunks completions,
      handle_all chunks ∅ messages = .ok (messages_chunks, completions) ∧
      messages_chunks.Counts (counted_ids messages) ∧
      (∀ msg_id, (completed_ids completions).count msg_id =
        completing chunks ((counted_ids messages).count msg_id)) ∧
      completions.length = messages.length ∧
      ∀ k (hk : k < messages.length),
        (∃ call ∈ calls, call.CompletedAt messages k ∧
          completions[k]? = some (some (call.completion messages[k].recv_time))) ∨
        ((∀ call ∈ calls, ¬ call.CompletedAt messages k) ∧ completions[k]? = some none) := by
  have hpos := traffic.chunks_pos
  have harrivals := traffic.reassembly
  obtain ⟨messages_chunks, completions, hrun, hcounts, hlength, hcompletions, htotals⟩ :=
    handle_all_spec chunks messages (fun message hmessage => by
      obtain ⟨_, _, _, hformed, _⟩ := traffic.headers hmessage
      exact hformed) MessagesChunks.counts_empty
  simp only [List.nil_append] at hcounts hcompletions htotals
  have hzero : completing chunks 0 = 0 := by simp [completing]
  refine ⟨messages_chunks, completions, hrun, hcounts, fun msg_id => ?_, hlength, fun k hk => ?_⟩
  · rw [← htotals msg_id, List.count_nil, hzero, Nat.zero_add]
  have hin : k < (messages.map Delivery.data).length := by simpa using hk
  have hat := hcompletions k hk
  have hids : counted_ids (messages.take (k + 1)) =
      ((messages.map Delivery.data).take (k + 1)).filterMap counted_id := by
    rw [counted_ids_eq, List.map_take]
  have hreport : (completions[k]?.join).map Completion.msg_id =
      (counted_id (messages.map Delivery.data)[k]).filter fun msg_id => chunks.toNat ≤
        (((messages.map Delivery.data).take (k + 1)).filterMap counted_id).count msg_id := by
    rw [hat, List.getElem_map, Option.map_map, hids]
    cases counted_id messages[k].data with
    | none => rfl
    | some msg_id =>
      have hiff : chunks ≤ ((((messages.map Delivery.data).take (k + 1)).filterMap
          counted_id).count msg_id : Int) ↔ chunks.toNat ≤ (((messages.map Delivery.data).take
            (k + 1)).filterMap counted_id).count msg_id := by omega
      simp only [Option.filter_some, hiff]
      split_ifs <;> rfl
  rcases harrivals.reports_at Completion.msg_id (by simpa using hlength) hin hreport with
    ⟨call, hcall, hcompleted, completion, hsome, hid⟩ | hnone
  · refine .inl ⟨call, hcall, hcompleted, ?_⟩
    obtain ⟨sender, hsender, _, _, htime, hcounted⟩ := traffic.headers (List.getElem_mem hk)
    rw [hsome, Option.join_some, eq_comm, hcounted, Option.map_eq_some_iff] at hat
    obtain ⟨_, hfilter, rfl⟩ := hat
    obtain ⟨hsent, _⟩ := Option.filter_eq_some_iff.mp hfilter
    obtain rfl := Option.some.inj hsent
    obtain rfl := List.inj_on_of_nodup_map traffic.ids_nodup hcall hsender hid.symm
    rw [hsome, Delivery.delay_ms, htime]
    rfl
  · exact .inr hnone

section

variable {chunks : Int} {calls : List PublishCall} {messages : List Delivery}
  {completions : List (Option Completion)}

/-- A message is completed once if all its fragments are delivered, else never. -/
theorem Traffic.count_completed (traffic : Traffic chunks calls messages)
    (htotals : ∀ msg_id, (completed_ids completions).count msg_id =
      completing chunks ((counted_ids messages).count msg_id)) {call : PublishCall}
    (hcall : call ∈ calls) : (completed_ids completions).count call.msg_id =
      if call.AllDelivered messages then 1 else 0 := by
  have hpos := traffic.chunks_pos
  have hle := traffic.reassembly.count_key_le hcall
  rw [htotals, counted_ids_eq, completing]
  split_ifs with hall
  · rw [(traffic.reassembly.complete_iff hcall).mp hall]
    omega
  · have hpartial := mt (traffic.reassembly.complete_iff hcall).mpr hall
    omega

/-- Only published messages are completed. -/
theorem Traffic.exists_completed (traffic : Traffic chunks calls messages)
    (htotals : ∀ msg_id, (completed_ids completions).count msg_id =
      completing chunks ((counted_ids messages).count msg_id)) {msg_id : Nat}
    (hmem : msg_id ∈ completed_ids completions) : ∃ call ∈ calls, call.msg_id = msg_id := by
  have hpos := traffic.chunks_pos
  have hcount := List.count_pos_iff.mpr hmem
  rw [htotals, counted_ids_eq, completing] at hcount
  have hoften : chunks.toNat ≤
      ((messages.map Delivery.data).filterMap counted_id).count msg_id := by omega
  obtain ⟨call, hcall, hid, _⟩ := traffic.reassembly.exists_complete hoften
  exact ⟨call, hcall, hid⟩

end

/-- Fragmentation end to end. The receiver gets through every delivery; a
delivery completes a message exactly when it is the last one of its fragments,
with the time since its publication as the delay; a message is completed once if
all its fragments were delivered and never otherwise; and the table counts the
fragments of every message. -/
theorem completes_once {chunks : Int} {calls : List PublishCall} {messages : List Delivery}
    (traffic : Traffic chunks calls messages) :
    ∃ messages_chunks completions,
      handle_all chunks ∅ messages = .ok (messages_chunks, completions) ∧
      (∀ k (hk : k < messages.length),
        (∃ call ∈ calls, call.CompletedAt messages k ∧
          completions[k]? = some (some (call.completion messages[k].recv_time))) ∨
        ((∀ call ∈ calls, ¬ call.CompletedAt messages k) ∧ completions[k]? = some none)) ∧
      (∀ call ∈ calls, (completed_ids completions).count call.msg_id =
        if call.AllDelivered messages then 1 else 0) ∧
      (∀ msg_id ∈ completed_ids completions, ∃ call ∈ calls, call.msg_id = msg_id) ∧
      (∀ call ∈ calls, messages_chunks.get call.msg_id =
        messages.countP fun message => message.data ∈ call.payloads) := by
  obtain ⟨messages_chunks, completions, hrun, hcounts, htotals, _, hcompletions⟩ := traffic.handled
  refine ⟨messages_chunks, completions, hrun, hcompletions,
    fun call hcall => traffic.count_completed htotals hcall,
    fun msg_id hmem => traffic.exists_completed htotals hmem, fun call hcall => ?_⟩
  rw [hcounts, counted_ids_eq, traffic.reassembly.count_key hcall, List.countP_map]
  exact congrArg Nat.cast (List.countP_congr fun _ _ => by simp)

/-- Two messages of two fragments, published in the same nanosecond. -/
def pair_call (index : Nat) : PublishCall where
  topic := "test"
  msg_size := 40
  chunks := 2
  now_int := 1700000000000000000
  msg_id := 7 + index
  outcome := fun _ => 1

/-- Both fragments of the first message around one of the second. -/
def pair_time : Time := ⟨1700000000, 5000000, by decide⟩

def pair_delivery (index : Nat) (chunk : Nat) : Delivery where
  data := (pair_call index).buffer.set 16 (UInt8.ofNat chunk)
  recv_time := pair_time

def pair_deliveries : List Delivery :=
  [pair_delivery 0 1, pair_delivery 1 0, pair_delivery 0 0]

theorem pair_traffic : Traffic 2 [pair_call 0, pair_call 1] pair_deliveries where
  chunks_pos := by decide
  chunks_le := by decide
  same_chunks := by decide
  publishable := by
    intro call hcall
    rcases List.mem_pair.mp hcall with rfl | rfl <;> exact ⟨by decide, by decide, by decide⟩
  timely := by
    intro call hcall
    rcases List.mem_pair.mp hcall with rfl | rfl <;> exact ⟨by decide, by decide, by decide⟩
  ids_nodup := by decide
  published := by decide +kernel
  once := by decide +kernel

theorem completes_once_pair :
    ∃ messages_chunks completions,
      handle_all 2 ∅ pair_deliveries = .ok (messages_chunks, completions) ∧
      (completed_ids completions).count 7 = 1 ∧ (completed_ids completions).count 8 = 0 ∧
      messages_chunks.get 8 = 1 := by
  obtain ⟨messages_chunks, completions, hrun, _, honce, _, htable⟩ := completes_once pair_traffic
  have hfirst := honce (pair_call 0) (by simp)
  have hsecond := honce (pair_call 1) (by simp)
  have hstored := htable (pair_call 1) (by simp)
  rw [if_pos (by decide +kernel)] at hfirst
  rw [if_neg (by decide +kernel)] at hsecond
  exact ⟨messages_chunks, completions, hrun, hfirst, hsecond,
    hstored.trans (by decide +kernel)⟩

end nim_test_node.gossipsub_queues.main
