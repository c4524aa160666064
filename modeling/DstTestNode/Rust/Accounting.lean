import DstTestNode.Rust.Handler

open rust rust_test_node.metrics

namespace rust_test_node.main

/-- The number of payloads whose first eight bytes decode as `tx_time`. -/
def header_count (payloads : List Payload) (tx_time : Int) : Nat :=
  payloads.countP fun data => LittleEndian.signed (data.take 8) = tx_time

/-- Reordered payloads have the same headers. -/
theorem header_count_perm {payloads shuffled : List Payload} (hperm : shuffled.Perm payloads)
    (tx_time : Int) : header_count shuffled tx_time = header_count payloads tx_time :=
  hperm.countP_eq _

/-- The timestamp of a payload with a header is counted unless it is a warm-up one. -/
theorem counted_time_eq {data : Payload} (hlen : 8 ≤ data.length) :
    counted_time data = if 1000000 ≤ LittleEndian.signed (data.take 8) then
      some (LittleEndian.signed (data.take 8)) else none := by
  simp [counted_time, read_i64, hlen, Option.filter_some, List.take_take]

/-- The counted timestamps are the headers that are not warm-up ones. -/
theorem counted_times_count {messages : List Delivery}
    (hlen : ∀ message ∈ messages, 8 ≤ message.data.length) (tx_time : Int) :
    (counted_times messages).count tx_time =
      if 1000000 ≤ tx_time then header_count (messages.map Delivery.data) tx_time else 0 := by
  induction messages with
  | nil => simp [counted_times, header_count]
  | cons message messages ih =>
    obtain ⟨hhead, htail⟩ := List.forall_mem_cons.mp hlen
    have hone : (counted_time message.data).toList.count tx_time =
        if 1000000 ≤ tx_time ∧ LittleEndian.signed (message.data.take 8) = tx_time then 1 else 0 := by
      rw [counted_time_eq hhead]
      by_cases hsame : LittleEndian.signed (message.data.take 8) = tx_time
      · rw [hsame]
        by_cases hmin : 1000000 ≤ tx_time <;> simp [hmin]
      · split <;> simp [hsame]
    rw [← List.singleton_append, counted_times_append, counted_times_singleton, List.count_append,
      hone, ih htail]
    simp only [header_count, List.singleton_append, List.map_cons, List.countP_cons,
      decide_eq_true_eq]
    by_cases hmin : 1000000 ≤ tx_time <;> simp [hmin, Nat.add_comm]

/-- Every report counts one received message, and nothing else touches the metrics. -/
theorem receive_all_received {profile : Profile} {chunks : UInt32} {self next : Receiver}
    {messages : List Delivery} {reports : List (Option Report)}
    (hrun : receive_all profile chunks self messages = .ok (next, reports)) :
    next.custom_metrics = GossipSubMetrics.inc_received_message^[(reported_times reports).length]
      self.custom_metrics := by
  induction messages generalizing self reports with
  | nil =>
    cases hrun
    rfl
  | cons message messages ih =>
    simp only [receive_all, bind, Except.bind] at hrun
    split at hrun
    · cases hrun
    · next step hstep =>
      obtain ⟨mid, report⟩ := step
      simp only at hrun
      split at hrun
      · cases hrun
      · next rest hrest =>
        obtain ⟨last, later⟩ := rest
        cases hrun
        rw [ih hrest, create_message_handler_received hstep]
        cases report with
        | none => simp [reported_times]
        | some report => simp [reported_times]

theorem inc_received_message_iterate (metrics : GossipSubMetrics) (n : Nat) :
    (GossipSubMetrics.inc_received_message^[n] metrics).libp2p_gossipsub_received =
      metrics.libp2p_gossipsub_received + n := by
  induction n with
  | zero => rfl
  | succ n ih =>
    rw [Function.iterate_succ_apply', GossipSubMetrics.inc_received_message, ih, Nat.add_assoc]

/-- What is left of a receiver after a sequence of payloads, and the timestamps
it has reported. -/
structure Accounting (chunks : UInt32) (metrics : GossipSubMetrics) (payloads : List Payload)
    (last : Receiver) (reports : List (Option Report)) : Prop where
  reported : ∀ tx_time, 1000000 ≤ tx_time →
    (reported_times reports).count tx_time = header_count payloads tx_time / threshold chunks
  stored : ∀ tx_time, 1000000 ≤ tx_time → ∀ count, last.msg_seen.lookup tx_time = some count ↔
    count ≠ 0 ∧ header_count payloads tx_time % threshold chunks = count
  warm_up : ∀ tx_time < 1000000, tx_time ∉ reported_times reports ∧
    last.msg_seen.lookup tx_time = none
  room : ∀ profile tx_time count, last.msg_seen.lookup tx_time = some count →
    1 ≤ count ∧ count ≤ threshold chunks - 1 ∧ u32_add profile count 1 = .ok (count + 1)
  received : last.custom_metrics.libp2p_gossipsub_received =
    metrics.libp2p_gossipsub_received + (reported_times reports).length

/-- The map accounts for a sequence of payloads by division with remainder. -/
theorem receive_all_accounting (profile : Profile) (chunks : UInt32) (metrics : GossipSubMetrics)
    (messages : List Delivery) (hlen : ∀ message ∈ messages, 8 ≤ message.data.length) :
    ∃ last reports, receive_all profile chunks ⟨∅, metrics⟩ messages = .ok (last, reports) ∧
      Accounting chunks metrics (messages.map Delivery.data) last reports := by
  obtain ⟨last, reports, hrun, hseen, _, _, htotals⟩ := receive_all_spec profile chunks
    ⟨∅, metrics⟩ messages hlen (CountingMap.accounts_empty _)
  refine ⟨last, reports, hrun, ?_⟩
  have hlookup (tx_time : Int) : last.msg_seen.lookup tx_time =
      CountingMap.pending (threshold chunks) ((counted_times messages).count tx_time) := by
    simpa using hseen tx_time
  have hcount (tx_time : Int) : (reported_times reports).count tx_time =
      (counted_times messages).count tx_time / threshold chunks := by
    simpa using htotals tx_time
  have hpos := threshold_pos chunks
  refine ⟨?_, ?_, ?_, ?_, ?_⟩
  · intro tx_time hmin
    rw [hcount, counted_times_count hlen, if_pos hmin]
  · intro tx_time hmin count
    rw [hlookup, counted_times_count hlen, if_pos hmin, CountingMap.pending_eq_some]
  · intro tx_time hwarm
    have hzero : (counted_times messages).count tx_time = 0 := by
      rw [counted_times_count hlen, if_neg (by omega)]
    refine ⟨?_, by rw [hlookup, hzero, CountingMap.pending_zero]⟩
    apply List.count_eq_zero.mp
    rw [hcount, hzero, Nat.zero_div]
  · intro build tx_time count hstored
    rw [hlookup, CountingMap.pending_eq_some] at hstored
    obtain ⟨hne, hmod⟩ := hstored
    have hlt := Nat.mod_lt ((counted_times messages).count tx_time) hpos
    have hmax := threshold_lt chunks
    exact ⟨by omega, by omega, u32_add_of_lt build (by omega)⟩
  · rw [receive_all_received hrun, inc_received_message_iterate]

/-- The headers alone determine the final map. -/
theorem Accounting.lookup_eq {chunks : UInt32} {metrics : GossipSubMetrics}
    {payloads shuffled : List Payload} {last other : Receiver}
    {reports others : List (Option Report)} (hperm : shuffled.Perm payloads)
    (hlast : Accounting chunks metrics payloads last reports)
    (hother : Accounting chunks metrics shuffled other others) (tx_time : Int) :
    other.msg_seen.lookup tx_time = last.msg_seen.lookup tx_time := by
  by_cases hmin : 1000000 ≤ tx_time
  · ext count
    rw [hother.stored tx_time hmin, hlast.stored tx_time hmin, header_count_perm hperm]
  · rw [(hother.warm_up tx_time (by omega)).2, (hlast.warm_up tx_time (by omega)).2]

/-- The headers alone determine the multiset of reported timestamps. -/
theorem Accounting.reported_perm {chunks : UInt32} {metrics : GossipSubMetrics}
    {payloads shuffled : List Payload} {last other : Receiver}
    {reports others : List (Option Report)} (hperm : shuffled.Perm payloads)
    (hlast : Accounting chunks metrics payloads last reports)
    (hother : Accounting chunks metrics shuffled other others) :
    (reported_times others).Perm (reported_times reports) := by
  apply List.perm_iff_count.mpr
  intro tx_time
  by_cases hmin : 1000000 ≤ tx_time
  · rw [hother.reported tx_time hmin, hlast.reported tx_time hmin, header_count_perm hperm]
  · rw [List.count_eq_zero.mpr (hother.warm_up tx_time (by omega)).1,
      List.count_eq_zero.mpr (hlast.warm_up tx_time (by omega)).1]

/-- The reassembler never panics, accounts exactly for its payloads, and ends in
the same state with the same timestamps reported after any permutation of them,
whatever the clock reads. -/
theorem receive_all_exact (profile : Profile) (chunks : UInt32) (metrics : GossipSubMetrics)
    (messages : List Delivery) (hlen : ∀ message ∈ messages, 8 ≤ message.data.length) :
    ∃ last reports, receive_all profile chunks ⟨∅, metrics⟩ messages = .ok (last, reports) ∧
      Accounting chunks metrics (messages.map Delivery.data) last reports ∧
      ∀ shuffled : List Delivery, (shuffled.map Delivery.data).Perm (messages.map Delivery.data) →
        ∃ other others, receive_all profile chunks ⟨∅, metrics⟩ shuffled = .ok (other, others) ∧
          (∀ tx_time, other.msg_seen.lookup tx_time = last.msg_seen.lookup tx_time) ∧
          other.custom_metrics = last.custom_metrics ∧
          (reported_times others).Perm (reported_times reports) := by
  obtain ⟨last, reports, hrun, haccounting⟩ := receive_all_accounting profile chunks metrics
    messages hlen
  refine ⟨last, reports, hrun, haccounting, fun shuffled hperm => ?_⟩
  have hlen' : ∀ message ∈ shuffled, 8 ≤ message.data.length := by
    intro message hmessage
    obtain ⟨original, horiginal, hdata⟩ := List.mem_map.mp
      (hperm.mem_iff.mp (List.mem_map_of_mem (f := Delivery.data) hmessage))
    rw [← hdata]
    exact hlen original horiginal
  obtain ⟨other, others, hother, haccounting'⟩ := receive_all_accounting profile chunks metrics
    shuffled hlen'
  have hreports := haccounting.reported_perm hperm haccounting'
  refine ⟨other, others, hother, haccounting.lookup_eq hperm haccounting', ?_, hreports⟩
  rw [receive_all_received hother, receive_all_received hrun, hreports.length_eq]

/-- A payload with a given first byte of its header. -/
def early_delivery (byte : UInt8) (body : List UInt8) : Delivery where
  data := [byte, 66, 15, 0, 0, 0, 0, 0] ++ body
  now := ⟨2000000, by decide, ""⟩

/-- Messages of two fragments each, and one header three times: one report, and
one fragment is left. -/
theorem receive_all_exact_repeated : ∃ last reports,
    receive_all .debug 2 ⟨∅, GossipSubMetrics.new 4⟩ [early_delivery 64 [], early_delivery 65 [1],
      early_delivery 64 [], early_delivery 64 [7]] = .ok (last, reports) ∧
      (reported_times reports).count 1000000 = 1 ∧ last.msg_seen.lookup 1000000 = some 1 ∧
      last.msg_seen.lookup 1000001 = some 1 := by
  obtain ⟨last, reports, hrun, haccounting, _⟩ := receive_all_exact .debug 2 (GossipSubMetrics.new 4)
    [early_delivery 64 [], early_delivery 65 [1], early_delivery 64 [], early_delivery 64 [7]]
    (by simp [early_delivery])
  refine ⟨last, reports, hrun, ?_, ?_, ?_⟩
  · exact (haccounting.reported 1000000 (by omega)).trans (by decide)
  · exact (haccounting.stored 1000000 (by omega) 1).mpr (by decide)
  · exact (haccounting.stored 1000001 (by omega) 1).mpr (by decide)

end rust_test_node.main
