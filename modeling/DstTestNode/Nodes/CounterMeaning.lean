import DstTestNode.Nodes.Verdicts
import DstTestNode.Rust.Accounting

open rust rust_test_node.main rust_test_node.metrics
open go_test_node.metrics (Counters)

namespace nodes

/-- The counters of a Go publisher after a list of calls. -/
def go_publish (counters : Counters) (calls : List GoCall) : Counters :=
  calls.foldl (fun counters call => (call.publish_new_message counters).counters) counters

/-- The counters of a Go receiver whose tracer is told of every delivered message. -/
def go_deliver (counters : Counters) (messages : List Payload) : Counters :=
  messages.foldl (fun counters _ => counters.deliver_message) counters

/-- A command that is carried out and accepted as a whole. -/
structure RustRequest (topic : String) (fragments : UInt32) (run : PublishRun) : Prop where
  topic : run.cmd.topic = topic
  chunks : run.cmd.chunks = fragments
  publishable : run.cmd.Publishable run.profile run.outcome
  accepted : run.Accepted
  timed : 1000000 ≤ run.now.unix_nano

structure GoRequest (topic : String) (fragments : UInt32) (call : GoCall) : Prop where
  topic : call.topic = topic
  chunks : call.chunks = fragments.toNat
  publishable : call.Publishable
  accepted : call.Accepted

/-- The publishers end with the same number of published messages, and the
receivers with the same number of received ones. -/
def SameCounters (profile : Profile) (d_low : Int) (topic : String) (fragments : UInt32)
    (runs : List PublishRun) (calls : List GoCall) (deliveries : List Delivery)
    (messages : List Payload) : Prop :=
  ∃ published answers receiver reports,
    handle_publishes (GossipSubMetrics.new d_low) runs = .ok (published, answers) ∧
    receive_all profile fragments ⟨∅, GossipSubMetrics.new d_low⟩ deliveries =
      .ok (receiver, reports) ∧
    published.libp2p_pubsub_messages_published topic =
      (go_publish Counters.new calls).pubsub_messages_published topic ∧
    receiver.custom_metrics.libp2p_gossipsub_received =
      (go_deliver Counters.new messages).gossipsub_received

/-- The Go publisher counts every fragment. -/
theorem go_publish_published {topic : String} {fragments : UInt32} {calls : List GoCall}
    (hcalls : ∀ call ∈ calls, GoRequest topic fragments call) (counters : Counters) :
    (go_publish counters calls).pubsub_messages_published topic =
      counters.pubsub_messages_published topic + fragments.toNat * calls.length := by
  induction calls generalizing counters with
  | nil => rfl
  | cons call calls ih =>
    obtain ⟨hcall, hrest⟩ := List.forall_mem_cons.mp hcalls
    have hcounters := (go_test_node.main.PublishCall.publish_new_message_accepted
      hcall.publishable hcall.accepted counters).2
    have hchunks : call.chunks.toNat = fragments.toNat := by
      rw [hcall.chunks, Int.toNat_natCast]
    rw [hcall.topic, hchunks] at hcounters
    rw [go_publish, List.foldl_cons, ← go_publish, ih hrest, hcounters,
      Counters.record_message_published_iterate, List.length_cons, Nat.mul_succ]
    omega

/-- The Go node hands over every fragment. -/
theorem go_payloads_length {topic : String} {fragments : UInt32} {calls : List GoCall}
    (hcalls : ∀ call ∈ calls, GoRequest topic fragments call) (counters : Counters) :
    (calls.flatMap fun call => (call.publish_new_message counters).payloads).length =
      fragments.toNat * calls.length := by
  induction calls with
  | nil => rfl
  | cons call calls ih =>
    obtain ⟨hcall, hrest⟩ := List.forall_mem_cons.mp hcalls
    have hlength := (go_test_node.main.PublishCall.publish_new_message_accepted
      hcall.publishable hcall.accepted counters).1
    have hchunks : call.chunks.toNat = fragments.toNat := by
      rw [hcall.chunks, Int.toNat_natCast]
    rw [List.flatMap_cons, List.length_append, ih hrest, hlength, hchunks, List.length_cons,
      Nat.mul_succ, Nat.add_comm]

/-- The Go receiver counts every delivered message. -/
theorem go_deliver_received (counters : Counters) (messages : List Payload) :
    (go_deliver counters messages).gossipsub_received =
      counters.gossipsub_received + messages.length := by
  induction messages generalizing counters with
  | nil => rfl
  | cons data messages ih =>
    rw [go_deliver, List.foldl_cons, ← go_deliver, ih, List.length_cons]
    simp only [Counters.deliver_message]
    omega

/-- The fragments of accepted commands have the publishing time of their command
as their header. -/
theorem header_count_payloads {topic : String} {fragments : UInt32} {runs : List PublishRun}
    (hruns : ∀ run ∈ runs, RustRequest topic fragments run) (tx_time : Int) :
    header_count (runs.flatMap PublishRun.payloads) tx_time =
      fragments.toNat * (runs.map fun run => (run.now.unix_nano : Int)).count tx_time := by
  induction runs with
  | nil => simp [header_count]
  | cons run runs ih =>
    obtain ⟨hrun, hrest⟩ := List.forall_mem_cons.mp hruns
    have hpayloads : header_count run.payloads tx_time =
        if (run.now.unix_nano : Int) = tx_time then fragments.toNat else 0 := by
      have hheader : ∀ chunk, LittleEndian.signed ((fragment run.cmd run.now chunk).take 8) =
          run.now.unix_nano := by
        intro chunk
        have htime := fragment_time run.cmd run.now chunk
        unfold read_i64 at htime
        split at htime
        · simpa [List.take_take] using htime
        · cases htime
      rw [PublishRun.payloads_eq_of_publishable hrun.publishable hrun.accepted, hrun.chunks,
        header_count, List.countP_map]
      simp only [Function.comp_def, hheader]
      split <;> simp [*]
    rw [List.flatMap_cons, header_count, List.countP_append, ← header_count, ← header_count,
      ih hrest, hpayloads, List.map_cons, List.count_cons]
    split <;> simp_all [Nat.mul_add, Nat.add_comm]

/-- Every accepted command is reported once by a receiver of all its fragments. -/
theorem reported_times_perm {topic : String} {fragments : UInt32} (hfragments : 1 ≤ fragments.toNat)
    {runs : List PublishRun} (hruns : ∀ run ∈ runs, RustRequest topic fragments run)
    {metrics : GossipSubMetrics} {payloads : List Payload}
    (hpayloads : payloads.Perm (runs.flatMap PublishRun.payloads)) {receiver : Receiver}
    {reports : List (Option Report)}
    (haccounting : Accounting fragments metrics payloads receiver reports) :
    (reported_times reports).Perm (runs.map fun run => (run.now.unix_nano : Int)) := by
  apply List.perm_iff_count.mpr
  intro tx_time
  by_cases hmin : 1000000 ≤ tx_time
  · have hthreshold : threshold fragments = fragments.toNat := max_eq_left hfragments
    rw [haccounting.reported tx_time hmin, header_count_perm hpayloads,
      header_count_payloads hruns, hthreshold, Nat.mul_div_cancel_left _ hfragments]
  · rw [List.count_eq_zero.mpr (haccounting.warm_up tx_time (by omega)).1]
    symm
    apply List.count_eq_zero.mpr
    intro hmem
    obtain ⟨run, hrun, rfl⟩ := List.mem_map.mp hmem
    have htimed := (hruns run hrun).timed
    omega

/-- A Rust publisher and a receiver of all its fragments count every message once. -/
theorem rust_counts_messages (profile : Profile) (d_low : Int) {topic : String} {fragments : UInt32}
    (hfragments : 1 ≤ fragments.toNat) {runs : List PublishRun}
    (hruns : ∀ run ∈ runs, RustRequest topic fragments run) {deliveries : List Delivery}
    (hdeliveries : (deliveries.map Delivery.data).Perm (runs.flatMap PublishRun.payloads)) :
    ∃ published answers receiver reports,
      handle_publishes (GossipSubMetrics.new d_low) runs = .ok (published, answers) ∧
      receive_all profile fragments ⟨∅, GossipSubMetrics.new d_low⟩ deliveries =
        .ok (receiver, reports) ∧
      published.libp2p_pubsub_messages_published topic = runs.length ∧
      receiver.custom_metrics.libp2p_gossipsub_received = runs.length := by
  obtain ⟨published, answers, hpublish, hpublished, _⟩ := handle_publishes_spec
    (GossipSubMetrics.new d_low) runs fun run hrun => (hruns run hrun).publishable
  have hlen : ∀ message ∈ deliveries, 8 ≤ message.data.length := by
    intro message hmessage
    have hmem := hdeliveries.mem_iff.mp (List.mem_map_of_mem (f := Delivery.data) hmessage)
    obtain ⟨run, hrun, hpayload⟩ := List.mem_flatMap.mp hmem
    obtain ⟨hheader, chunk, _, heq⟩ := PublishRun.mem_payloads hpayload
    rw [heq, fragment_length_eq run.now hheader]
    exact hheader.2.1
  obtain ⟨receiver, reports, hreceive, haccounting⟩ := receive_all_accounting profile fragments
    (GossipSubMetrics.new d_low) deliveries hlen
  refine ⟨published, answers, receiver, reports, hpublish, hreceive, ?_, ?_⟩
  · have hall : runs.countP (fun run => run.cmd.topic = topic) = runs.length :=
      List.countP_eq_length.mpr fun run hrun => by simp [(hruns run hrun).topic]
    rw [hpublished topic, hall]
    exact Nat.zero_add _
  · rw [haccounting.received, (reported_times_perm hfragments hruns hdeliveries
      haccounting).length_eq, List.length_map]
    exact Nat.zero_add _

/-- A Go publisher and a receiver of all its fragments count every fragment. -/
theorem go_counts_fragments {topic : String} {fragments : UInt32} {calls : List GoCall}
    (hcalls : ∀ call ∈ calls, GoRequest topic fragments call) {messages : List Payload}
    (hmessages : messages.Perm
      (calls.flatMap fun call => (call.publish_new_message Counters.new).payloads)) :
    (go_publish Counters.new calls).pubsub_messages_published topic =
        fragments.toNat * calls.length ∧
      (go_deliver Counters.new messages).gossipsub_received = fragments.toNat * calls.length := by
  constructor
  · rw [go_publish_published hcalls]
    exact Nat.zero_add _
  · rw [go_deliver_received, hmessages.length_eq, go_payloads_length hcalls]
    exact Nat.zero_add _

/-- The counters of the two nodes mean the same exactly when messages are not
fragmented: the Rust node counts messages, the Go node fragments. -/
theorem same_counters_iff (profile : Profile) (d_low : Int) (topic : String) (fragments : UInt32)
    (hfragments : 1 ≤ fragments.toNat) (runs : List PublishRun) (calls : List GoCall)
    (hsame : List.Forall₂ (fun run call => call.msg_size = run.cmd.msg_size.toNat) runs calls)
    (hruns : ∀ run ∈ runs, RustRequest topic fragments run)
    (hcalls : ∀ call ∈ calls, GoRequest topic fragments call)
    (deliveries : List Delivery)
    (hdeliveries : (deliveries.map Delivery.data).Perm (runs.flatMap PublishRun.payloads))
    (messages : List Payload)
    (hmessages : messages.Perm
      (calls.flatMap fun call => (call.publish_new_message Counters.new).payloads)) :
    SameCounters profile d_low topic fragments runs calls deliveries messages ↔
      fragments.toNat = 1 ∨ runs = [] := by
  obtain ⟨published, answers, receiver, reports, hpublish, hreceive, hrust_published,
    hrust_received⟩ := rust_counts_messages profile d_low hfragments hruns hdeliveries
  obtain ⟨hgo_published, hgo_received⟩ := go_counts_fragments hcalls hmessages
  rw [← hsame.length_eq] at hgo_published hgo_received
  have hcounts : runs.length = fragments.toNat * runs.length ↔ fragments.toNat = 1 ∨ runs = [] := by
    rw [eq_comm, ← List.length_eq_zero_iff]
    by_cases hempty : runs.length = 0
    · simp [hempty]
    · rw [Nat.mul_eq_right hempty]
      simp [hempty]
  constructor
  · rintro ⟨published', answers', receiver', reports', hpublish', hreceive', hsamepublished, _⟩
    rw [hpublish, Except.ok.injEq, Prod.mk.injEq] at hpublish'
    obtain ⟨rfl, rfl⟩ := hpublish'
    rw [hrust_published, hgo_published] at hsamepublished
    exact hcounts.mp hsamepublished
  · intro hsingle
    have hequal := hcounts.mpr hsingle
    refine ⟨published, answers, receiver, reports, hpublish, hreceive, ?_, ?_⟩
    · rw [hrust_published, hgo_published]
      exact hequal
    · rw [hrust_received, hgo_received]
      exact hequal

/-- A message in one fragment of 20 bytes. -/
def rust_single : PublishRun :=
  { rust_pair (fun _ => true) with
    cmd := { topic := "test", msg_size := 20, chunks := 1, response_tx := 0 } }

def go_single : GoCall :=
  { go_pair (fun _ => true) with msg_size := 20, chunks := 1 }

theorem rust_single_request : RustRequest "test" 1 rust_single where
  topic := rfl
  chunks := rfl
  publishable := ⟨by decide, by rintro ⟨hdebug, _⟩; cases hdebug⟩
  accepted k _ _ := ⟨"id", rfl⟩
  timed := by norm_num [rust_single, rust_pair, one_second]

theorem go_single_request : GoRequest "test" 1 go_single where
  topic := rfl
  chunks := rfl
  publishable := ⟨by decide, by decide, by
    have hlength : go_single.msg_size.tdiv go_single.chunks = 20 := rfl
    norm_num [hlength, go_test_node.main.max_alloc]⟩
  accepted k _ _ := rfl

theorem same_counters_single :
    SameCounters .release 4 "test" 1 [rust_single] [go_single]
      (rust_single.payloads.map fun data => ⟨data, rust_single.now⟩)
      (go_single.publish_new_message Counters.new).payloads :=
  (same_counters_iff .release 4 "test" 1 (by decide) [rust_single] [go_single]
    (.cons rfl .nil) (List.forall_mem_singleton.mpr rust_single_request)
    (List.forall_mem_singleton.mpr go_single_request)
    (rust_single.payloads.map fun data => ⟨data, rust_single.now⟩)
    (by rw [List.map_map]; simp [Function.comp_def])
    (go_single.publish_new_message Counters.new).payloads (by simp)).mpr (.inl rfl)

/-- One accepted message of two fragments counts once in the Rust publisher and
twice in the Go publisher. -/
theorem fragments_counted_twice :
    (RustRequest "test" 2 (rust_pair fun _ => true) ∧ GoRequest "test" 2 (go_pair fun _ => true)) ∧
      ∀ deliveries messages, ¬ SameCounters .release 4 "test" 2 [rust_pair fun _ => true]
        [go_pair fun _ => true] deliveries messages := by
  refine ⟨⟨⟨rfl, rfl, ⟨by decide, by rintro ⟨hdebug, _⟩; cases hdebug⟩, fun k _ _ => ⟨"id", rfl⟩,
    by norm_num [rust_pair, one_second]⟩, ⟨rfl, rfl, ?_, fun k _ _ => rfl⟩⟩, ?_⟩
  · have hchunks : 0 < (go_pair fun _ => true).chunks := by decide
    exact (go_test_node.main.PublishCall.publish_new_message_returns_iff hchunks _).mp
      (go_pair_returns _)
  · rintro deliveries messages ⟨published, answers, receiver, reports, hpublish, _, hpublished, _⟩
    have hhandled : handle_publishes (GossipSubMetrics.new 4) [rust_pair fun _ => true] =
        .ok ((GossipSubMetrics.new 4).inc_messages_published "test",
          [.ok "Message published at time 1970-01-01 00:00:01 UTC"]) := rfl
    rw [hhandled] at hpublish
    cases hpublish
    exact absurd hpublished (by decide)

end nodes
