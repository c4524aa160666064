import DstTestNode.Go.PublishCall
import DstTestNode.Nim.GossipsubReceive
import DstTestNode.Rust.Fragments

open nim
open nim_test_node.gossipsub_queues.main (Payload)

namespace nodes

/-- The part of a payload behind its timestamp, as the Rust and Go nodes write
it: zeros with the fragment number at the third place. -/
def marked_rest (length chunk : Nat) : Payload := (List.replicate length 0).set 2 (UInt8.ofNat chunk)

/-- A message of a node of another implementation. -/
inductive OtherCall where
  | rust (run : rust_test_node.main.PublishRun)
  | go (call : go_test_node.main.PublishCall) (counters : go_test_node.metrics.Counters)

namespace OtherCall

/-- The payloads that are handed to gossipsub. -/
def payloads : OtherCall → List Payload
  | .rust run => run.payloads
  | .go call counters => (call.publish_new_message counters).payloads

def now_nanos : OtherCall → Int
  | .rust run => run.now.unix_nano
  | .go call _ => call.now_nanos

/-- The length of the payloads behind their timestamps. -/
def rest_length : OtherCall → Nat
  | .rust run => run.cmd.fragment_length - 8
  | .go call _ => (call.msg_size.tdiv call.chunks).toNat

/-- A message of a number of fragments that was published with all of them, not
as a warm-up one, in payloads with room for a message id. -/
def Published (chunks : Nat) : OtherCall → Prop
  | .rust run => run.cmd.Publishable run.profile run.outcome ∧ run.Accepted ∧
    run.cmd.chunks.toNat = chunks ∧ 1000000 ≤ run.now.unix_nano ∧ 16 ≤ run.cmd.fragment_length
  | .go call _ => call.Publishable ∧ call.Accepted ∧ call.chunks = chunks ∧
    1000000 ≤ call.now_nanos ∧ call.now_nanos < 2 ^ 63 ∧ 8 ≤ call.msg_size.tdiv call.chunks

/-- Both implementations write the same payloads. -/
theorem payloads_eq {chunks : Nat} {call : OtherCall} (hpublished : call.Published chunks) :
    call.payloads = (List.range chunks).map fun k =>
      LittleEndian.signedBytes 8 call.now_nanos ++ marked_rest call.rest_length k := by
  cases call with
  | rust run =>
    obtain ⟨hpublishable, haccepted, rfl, _, hlong⟩ := hpublished
    rw [payloads, rust_test_node.main.PublishRun.payloads_eq_of_publishable hpublishable haccepted]
    apply List.map_congr_left
    intro k _
    have hlength : (rust_test_node.main.header_buffer run.cmd run.now).length > 10 := by
      rw [rust_test_node.main.header_buffer_length run.now hpublishable.1]
      omega
    rw [rust_test_node.main.fragment, rust_test_node.main.mark_fragment, if_pos hlength,
      rust_test_node.main.header_buffer, List.set_append_right _ _ (by simp)]
    simp [marked_rest, now_nanos, rest_length]
  | go call counters =>
    obtain ⟨hpublishable, haccepted, hchunks, _, _, _⟩ := hpublished
    have hmade := go_test_node.main.publish_fragments_isPrefix call.topic call.outcome call.payload
      counters call.chunks.toNat 0
    rw [← go_test_node.main.PublishCall.publish_new_message_eq hpublishable,
      ← List.range_eq_range'] at hmade
    have hall := (go_test_node.main.PublishCall.publish_new_message_accepted hpublishable haccepted
      counters).1
    rw [payloads, hmade.eq_of_length (by simp [hall]), hchunks, Int.toNat_natCast]
    apply List.map_congr_left
    intro k _
    rw [go_test_node.main.PublishCall.payload, List.set_append_right _ _ (by simp)]
    simp [marked_rest, now_nanos, rest_length]

theorem published_bounds {chunks : Nat} {call : OtherCall} (hpublished : call.Published chunks) :
    1000000 ≤ call.now_nanos ∧ call.now_nanos < 2 ^ 63 ∧ 8 ≤ call.rest_length := by
  cases call with
  | rust run =>
    obtain ⟨_, _, _, hmin, hlong⟩ := hpublished
    have hlt := run.now.unix_nano_lt
    simp only [now_nanos, rest_length]
    omega
  | go call counters =>
    obtain ⟨_, _, _, hmin, hmax, hlong⟩ := hpublished
    simp only [now_nanos, rest_length]
    omega

/-- A Nim receiver takes the fragment number for the id of the message. -/
theorem counted_id_payload {chunks : Nat} {call : OtherCall} (hpublished : call.Published chunks)
    {k : Nat} (hk : k < 256) :
    nim_test_node.WellFormed
        (LittleEndian.signedBytes 8 call.now_nanos ++ marked_rest call.rest_length k) ∧
      nim_test_node.counted_id
        (LittleEndian.signedBytes 8 call.now_nanos ++ marked_rest call.rest_length k) =
          some (65536 * k) := by
  obtain ⟨hmin, hmax, hlong⟩ := published_bounds hpublished
  have htime : LittleEndian.value ((LittleEndian.signedBytes 8 call.now_nanos ++
      marked_rest call.rest_length k).take 8) = call.now_nanos.toNat := by
    rw [List.take_left' (by simp), LittleEndian.signedBytes, LittleEndian.value_bytes]
    omega
  have hid : LittleEndian.value (((LittleEndian.signedBytes 8 call.now_nanos ++
      marked_rest call.rest_length k).take 16).drop 8) = 65536 * k := by
    obtain ⟨more, hmore⟩ := Nat.exists_eq_add_of_le hlong
    have hrest : (marked_rest call.rest_length k).take 8 =
        [0, 0, UInt8.ofNat k, 0, 0, 0, 0, 0] := by
      rw [marked_rest, hmore, List.replicate_add]
      rfl
    rw [List.drop_take, List.drop_left' (by simp), hrest]
    simp only [LittleEndian.value, UInt8.toNat_ofNat', Nat.mod_eq_of_lt hk]
    norm_num
    omega
  refine ⟨⟨?_, ?_⟩, ?_⟩
  · simp [marked_rest]
    omega
  · rw [htime, int_high]
    omega
  · rw [nim_test_node.counted_id, htime, if_neg (by omega), hid]

/-- Every message has the same ids, one for each fragment number. -/
theorem ids_payloads {chunks : Nat} (hchunks : chunks ≤ 256) {call : OtherCall}
    (hpublished : call.Published chunks) :
    call.payloads.filterMap nim_test_node.counted_id =
      (List.range chunks).map fun k => 65536 * k := by
  rw [payloads_eq hpublished, List.filterMap_map]
  have hids : ∀ k ∈ List.range chunks, (nim_test_node.counted_id ∘ fun k =>
      LittleEndian.signedBytes 8 call.now_nanos ++ marked_rest call.rest_length k) k =
        some (65536 * k) := by
    intro k hk
    rw [List.mem_range] at hk
    rw [Function.comp_apply, (counted_id_payload hpublished (by omega)).2]
  rw [List.filterMap_congr hids, List.filterMap_eq_map']

theorem count_ids {chunks : Nat} (hchunks : chunks ≤ 256) {calls : List OtherCall}
    (hpublished : ∀ call ∈ calls, call.Published chunks) (msg_id : Nat) :
    ((calls.flatMap payloads).filterMap nim_test_node.counted_id).count msg_id =
      if ∃ k < chunks, 65536 * k = msg_id then calls.length else 0 := by
  induction calls with
  | nil => simp
  | cons call calls ih =>
    obtain ⟨hcall, hcalls⟩ := List.forall_mem_cons.mp hpublished
    have hnodup : ((List.range chunks).map fun k => 65536 * k).Nodup :=
      List.Nodup.map (fun k l hsame => by simpa using hsame) List.nodup_range
    rw [List.flatMap_cons, List.filterMap_append, List.count_append, ih hcalls,
      ids_payloads hchunks hcall, hnodup.count]
    simp only [List.mem_map, List.mem_range, List.length_cons]
    split_ifs <;> omega

end OtherCall

/-- Messages of one number of fragments, at most 256, from nodes of other
implementations, and every fragment of them delivered once in any order. -/
structure OtherTraffic (chunks : Nat) (calls : List OtherCall)
    (messages : List nim_test_node.Delivery) : Prop where
  chunks_pos : 0 < chunks
  chunks_le : chunks ≤ 256
  published : ∀ call ∈ calls, call.Published chunks
  delivered : (messages.map nim_test_node.Delivery.data).Perm (calls.flatMap OtherCall.payloads)

theorem OtherTraffic.formed {chunks : Nat} {calls : List OtherCall}
    {messages : List nim_test_node.Delivery} (traffic : OtherTraffic chunks calls messages) :
    ∀ message ∈ messages, nim_test_node.WellFormed message.data := by
  intro message hmessage
  obtain ⟨call, hcall, hdata⟩ := List.mem_flatMap.mp
    (traffic.delivered.mem_iff.mp (List.mem_map_of_mem hmessage))
  rw [OtherCall.payloads_eq (traffic.published call hcall)] at hdata
  obtain ⟨k, hk, hsame⟩ := List.mem_map.mp hdata
  have hchunks := traffic.chunks_le
  rw [← hsame]
  exact (OtherCall.counted_id_payload (traffic.published call hcall) (by
    rw [List.mem_range] at hk
    omega)).1

open nim_test_node.gossipsub_queues.main (handle_all handle_all_spec completed_ids completing
  counted_ids_eq)

/-- A Nim receiver counts the fragments with one number of all Rust and Go
messages together. It completes nothing before it has heard as many messages as
there are chunks, and then every fragment of every message. -/
theorem fragments_mixed_up {chunks : Nat} {calls : List OtherCall}
    {messages : List nim_test_node.Delivery} (traffic : OtherTraffic chunks calls messages) :
    ∃ messages_chunks completions,
      handle_all chunks ∅ messages = .ok (messages_chunks, completions) ∧
      (∀ k < chunks, messages_chunks.get (65536 * k) = calls.length ∧
        (completed_ids completions).count (65536 * k) = calls.length + 1 - chunks) ∧
      (∀ msg_id ∈ completed_ids completions, ∃ k < chunks, 65536 * k = msg_id) ∧
      (completed_ids completions).length = chunks * (calls.length + 1 - chunks) := by
  have hpos := traffic.chunks_pos
  obtain ⟨messages_chunks, completions, hrun, hcounts, _, _, htotals⟩ := handle_all_spec
    (chunks : Int) messages traffic.formed nim_test_node.MessagesChunks.counts_empty
  have hcount (msg_id : Nat) : (nim_test_node.counted_ids messages).count msg_id =
      if ∃ k < chunks, 65536 * k = msg_id then calls.length else 0 := by
    rw [counted_ids_eq, (traffic.delivered.filterMap _).count_eq,
      OtherCall.count_ids traffic.chunks_le traffic.published]
  have hcompleted (msg_id : Nat) : (completed_ids completions).count msg_id =
      if ∃ k < chunks, 65536 * k = msg_id then calls.length + 1 - chunks else 0 := by
    have htotal := htotals msg_id
    simp only [List.count_nil, List.nil_append, hcount, completing, Int.toNat_natCast] at htotal
    split_ifs at htotal ⊢ <;> omega
  refine ⟨messages_chunks, completions, hrun, fun k hk => ⟨?_, ?_⟩, fun msg_id hmem => ?_, ?_⟩
  · rw [hcounts, List.nil_append, hcount, if_pos ⟨k, hk, rfl⟩]
  · rw [hcompleted, if_pos ⟨k, hk, rfl⟩]
  · by_contra hnot
    have hzero := hcompleted msg_id
    rw [if_neg hnot] at hzero
    exact (List.count_pos_iff.mpr hmem).ne' hzero
  · have hinj : Function.Injective fun k : Nat => 65536 * k := fun k l hsame => by
      simpa using hsame
    have hids : (completed_ids completions).toFinset ⊆
        (Finset.range chunks).image fun k => 65536 * k := by
      intro msg_id hmem
      by_contra hnot
      have hzero := hcompleted msg_id
      rw [if_neg (by simpa using hnot)] at hzero
      exact (List.count_pos_iff.mpr (List.mem_toFinset.mp hmem)).ne' hzero
    rw [← List.sum_toFinset_count_eq_length, Finset.sum_subset hids (fun msg_id _ hnot =>
      List.count_eq_zero.mpr (mt List.mem_toFinset.mpr hnot)), Finset.sum_image hinj.injOn]
    rw [Finset.sum_congr rfl fun k hk => by rw [hcompleted, if_pos ⟨k, Finset.mem_range.mp hk, rfl⟩],
      Finset.sum_const, Finset.card_range, smul_eq_mul]

/-- A message of two fragments from a Rust node and one from a Go node. -/
def two_calls : List OtherCall :=
  [.rust
    { profile := .release
      cmd := { topic := "test", msg_size := 32, chunks := 2, response_tx := 0 }
      now := { unix_nano := 1000000, unix_nano_lt := by decide, display := "" }
      outcome := fun _ => .ok "" },
    .go
      { topic := "test", msg_size := 16, chunks := 2, now_nanos := 1000001
        outcome := fun _ => none } .new]

def two_calls_deliveries : List nim_test_node.Delivery :=
  (two_calls.flatMap OtherCall.payloads).map fun data => ⟨data, 0, 2000000, by decide⟩

theorem two_calls_traffic : OtherTraffic 2 two_calls two_calls_deliveries where
  chunks_pos := by decide
  chunks_le := by decide
  published := by
    intro call hcall
    rcases List.mem_pair.mp hcall with rfl | rfl
    · exact ⟨⟨by decide, fun hoverflow => by cases hoverflow.1⟩,
        fun k _ _ => ⟨"", rfl⟩, rfl, by decide, by decide⟩
    · exact ⟨⟨by decide, by decide, by decide⟩, fun k _ _ => rfl, rfl, by decide, by decide,
        by decide⟩
  delivered := by
    rw [two_calls_deliveries, List.map_map]
    exact List.Perm.of_eq (List.map_id _)

theorem fragments_mixed_up_two :
    ∃ messages_chunks completions,
      handle_all 2 ∅ two_calls_deliveries = .ok (messages_chunks, completions) ∧
      messages_chunks.get 65536 = 2 ∧ (completed_ids completions).count 65536 = 1 ∧
      (completed_ids completions).length = 2 := by
  obtain ⟨messages_chunks, completions, hrun, hids, _, hlength⟩ :=
    fragments_mixed_up two_calls_traffic
  obtain ⟨htable, hcompleted⟩ := hids 1 (by decide)
  exact ⟨messages_chunks, completions, hrun, htable, hcompleted, hlength⟩

end nodes
