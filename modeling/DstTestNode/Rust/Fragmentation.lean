import DstTestNode.Rust.MessageIds

open rust rust_test_node.metrics

namespace rust_test_node.main

/-- The timestamp of the message that a command publishes. -/
abbrev PublishRun.tx_time (self : PublishRun) : Int := self.now.unix_nano

/-- The number of deliveries that carry a payload of the command. -/
def PublishRun.delivered (self : PublishRun) (messages : List Delivery) : Nat :=
  messages.countP fun message => message.data ∈ self.payloads

/-- All the fragments of the command were published and delivered. -/
def PublishRun.AllDelivered (self : PublishRun) (messages : List Delivery) : Prop :=
  self.payloads.length = self.cmd.chunks.toNat ∧
    ∀ data ∈ self.payloads, data ∈ messages.map Delivery.data

instance (run : PublishRun) (messages : List Delivery) : Decidable (run.AllDelivered messages) :=
  inferInstanceAs (Decidable (_ ∧ _))

/-- Publish commands with one number of chunks, at most 256, in buffers with
room for the fragment number, carried out at pairwise distinct times with every
publish call accepted; and the deliveries of their payloads to one receiver,
each at most once. -/
structure Traffic (chunks : UInt32) (runs : List PublishRun) (messages : List Delivery) : Prop where
  chunks_pos : 1 ≤ chunks.toNat
  chunks_le : chunks.toNat ≤ 256
  same_chunks : ∀ run ∈ runs, run.cmd.chunks = chunks
  long : ∀ run ∈ runs, 10 < run.cmd.fragment_length
  times_nodup : (runs.map fun run => run.now.unix_nano).Nodup
  times_min : ∀ run ∈ runs, 1000000 ≤ run.now.unix_nano
  accepted : ∀ run ∈ runs, run.Accepted
  published : ∀ message ∈ messages, ∃ run ∈ runs, message.data ∈ run.payloads
  once : (messages.map Delivery.data).Nodup

namespace Traffic

variable {chunks : UInt32} {runs : List PublishRun} {messages : List Delivery}

theorem numbered (traffic : Traffic chunks runs messages) {run : PublishRun} (hrun : run ∈ runs) :
    run.cmd.Numbered := by
  have hchunks := traffic.chunks_le
  rw [← traffic.same_chunks run hrun] at hchunks
  exact Or.inr ⟨hchunks, traffic.long run hrun⟩

/-- Any initial part of the deliveries is traffic of the same commands. -/
theorem take (traffic : Traffic chunks runs messages) (count : Nat) :
    Traffic chunks runs (messages.take count) where
  chunks_pos := traffic.chunks_pos
  chunks_le := traffic.chunks_le
  same_chunks := traffic.same_chunks
  long := traffic.long
  times_nodup := traffic.times_nodup
  times_min := traffic.times_min
  accepted := traffic.accepted
  published := fun message hmessage => traffic.published message (List.mem_of_mem_take hmessage)
  once := by
    rw [List.map_take]
    exact traffic.once.sublist (List.take_sublist _ _)

/-- Unless its buffer cannot be allocated, a command publishes one payload for
each of its chunks. -/
theorem payloads_length (traffic : Traffic chunks runs messages) {run : PublishRun}
    (hrun : run ∈ runs) (hfits : run.cmd.fragment_length ≤ isize_max) :
    run.payloads.length = chunks.toNat := by
  have hchunks := traffic.same_chunks run hrun
  have hpos := traffic.chunks_pos
  have hle := traffic.chunks_le
  have hlong := traffic.long run hrun
  have hheader : run.cmd.HasHeader := ⟨by rw [hchunks]; omega, by omega, hfits⟩
  have hlow := PublishRun.le_payloads_length hheader (traffic.accepted run hrun)
  have hhigh := run.payloads_length_le
  rw [hchunks] at hlow hhigh
  simp only [i32_max] at hlow
  omega

theorem payloads_length_le (traffic : Traffic chunks runs messages) {run : PublishRun}
    (hrun : run ∈ runs) : run.payloads.length ≤ chunks.toNat := by
  have hle := run.payloads_length_le
  rwa [traffic.same_chunks run hrun] at hle

/-- The receiver counts every delivery under its publishing time. -/
theorem counted_time_of_mem (traffic : Traffic chunks runs messages) {run : PublishRun}
    (hrun : run ∈ runs) {data : Payload} (hdata : data ∈ run.payloads) :
    counted_time data = some run.tx_time := by
  obtain ⟨_, chunk, _, rfl⟩ := PublishRun.mem_payloads hdata
  exact fragment_counted_time run.cmd (traffic.times_min run hrun) chunk

theorem data_length (traffic : Traffic chunks runs messages) :
    ∀ message ∈ messages, 8 ≤ message.data.length := by
  intro message hmessage
  obtain ⟨run, _, hdata⟩ := traffic.published message hmessage
  obtain ⟨hheader, chunk, _, heq⟩ := PublishRun.mem_payloads hdata
  rw [heq, fragment_length_eq run.now hheader]
  exact hheader.2.1

/-- A delivery is counted under the time of a command exactly when it carries
one of the payloads of that command. -/
theorem counted_time_iff (traffic : Traffic chunks runs messages) {run : PublishRun}
    (hrun : run ∈ runs) {message : Delivery} (hmessage : message ∈ messages) :
    counted_time message.data = some run.tx_time ↔ message.data ∈ run.payloads := by
  constructor
  · intro htime
    obtain ⟨other, hother, hdata⟩ := traffic.published message hmessage
    have hsame := traffic.counted_time_of_mem hother hdata
    rw [htime, Option.some.injEq, Nat.cast_inj] at hsame
    rwa [List.inj_on_of_nodup_map traffic.times_nodup hrun hother hsame]
  · exact traffic.counted_time_of_mem hrun

/-- The occurrences of a publishing time are the deliveries of its command. -/
theorem count_eq_delivered (traffic : Traffic chunks runs messages) {run : PublishRun}
    (hrun : run ∈ runs) :
    (counted_times messages).count run.tx_time = run.delivered messages := by
  rw [counted_times, List.count_filterMap, PublishRun.delivered]
  apply List.countP_congr
  intro message hmessage
  simpa using traffic.counted_time_iff hrun hmessage

/-- Only publishing times occur. -/
theorem exists_run_of_count_pos (traffic : Traffic chunks runs messages) {tx_time : Int}
    (hcount : 0 < (counted_times messages).count tx_time) :
    ∃ run ∈ runs, run.tx_time = tx_time := by
  obtain ⟨message, hmessage, htime⟩ := List.mem_filterMap.mp (List.count_pos_iff.mp hcount)
  obtain ⟨run, hrun, hdata⟩ := traffic.published message hmessage
  rw [traffic.counted_time_of_mem hrun hdata] at htime
  exact ⟨run, hrun, Option.some.inj htime⟩

theorem delivered_eq_filter (run : PublishRun) (messages : List Delivery) :
    run.delivered messages = ((messages.map Delivery.data).filter (· ∈ run.payloads)).length := by
  rw [PublishRun.delivered, List.filter_map, List.length_map, List.countP_eq_length_filter]
  rfl

/-- At most one delivery for each chunk. -/
theorem delivered_le (traffic : Traffic chunks runs messages) {run : PublishRun}
    (hrun : run ∈ runs) : run.delivered messages ≤ chunks.toNat := by
  rw [delivered_eq_filter]
  refine le_trans ?_ (traffic.payloads_length_le hrun)
  apply (List.subperm_of_subset (traffic.once.filter _) ?_).length_le
  intro data hdata
  simpa using (List.mem_filter.mp hdata).2

/-- All fragments of a command are delivered exactly when there is one delivery
for each chunk. -/
theorem allDelivered_iff (traffic : Traffic chunks runs messages) {run : PublishRun}
    (hrun : run ∈ runs) :
    run.AllDelivered messages ↔ run.delivered messages = chunks.toNat := by
  have hsub : (messages.map Delivery.data).filter (· ∈ run.payloads) ⊆ run.payloads := by
    intro data hdata
    simpa using (List.mem_filter.mp hdata).2
  have hsubperm := List.subperm_of_subset (traffic.once.filter (· ∈ run.payloads)) hsub
  have hle := traffic.payloads_length_le hrun
  rw [PublishRun.AllDelivered, traffic.same_chunks run hrun, delivered_eq_filter]
  constructor
  · rintro ⟨hlength, hall⟩
    apply le_antisymm (hsubperm.length_le.trans hle)
    rw [← hlength]
    apply (List.subperm_of_subset (PublishRun.payloads_nodup (traffic.numbered hrun)) ?_).length_le
    intro data hdata
    exact List.mem_filter.mpr ⟨hall data hdata, by simpa using hdata⟩
  · intro hcount
    have hlength : run.payloads.length = chunks.toNat :=
      le_antisymm hle (hcount ▸ hsubperm.length_le)
    refine ⟨hlength, fun data hdata => ?_⟩
    have hperm := hsubperm.perm_of_length_le (by rw [hlength, hcount])
    exact (List.mem_filter.mp (hperm.mem_iff.mpr hdata)).1

/-- A delivery reports a timestamp exactly when it completes that message. -/
theorem reports_iff (traffic : Traffic chunks runs messages) {reports : List (Option Report)}
    (hreports : ∀ k (hk : k < messages.length), (reports[k]?.join).map Report.tx_time =
      (counted_time messages[k].data).filter (fun tx_time =>
        threshold chunks ∣ (counted_times (messages.take (k + 1))).count tx_time))
    {k : Nat} (hk : k < messages.length) (tx_time : Int) :
    (∃ report, reports[k]? = some (some report) ∧ report.tx_time = tx_time) ↔
      ∃ run ∈ runs, run.tx_time = tx_time ∧ run.AllDelivered (messages.take (k + 1)) ∧
        ¬ run.AllDelivered (messages.take k) := by
  have hreported : (∃ report, reports[k]? = some (some report) ∧ report.tx_time = tx_time) ↔
      (reports[k]?.join).map Report.tx_time = some tx_time := by
    simp [Option.join_eq_some_iff]
  have hthreshold : threshold chunks = chunks.toNat := max_eq_left traffic.chunks_pos
  have htake : messages.take (k + 1) = messages.take k ++ [messages[k]] :=
    List.take_append_getElem hk |>.symm
  have hstep (run : PublishRun) : run.delivered (messages.take (k + 1)) =
      run.delivered (messages.take k) + if messages[k].data ∈ run.payloads then 1 else 0 := by
    rw [PublishRun.delivered, htake, List.countP_append]
    simp [PublishRun.delivered, List.countP_singleton]
  rw [hreported, hreports k hk, Option.filter_eq_some_iff, decide_eq_true_eq, hthreshold]
  constructor
  · rintro ⟨htime, hdvd⟩
    obtain ⟨run, hrun, hdata⟩ := traffic.published _ (List.getElem_mem hk)
    have hsame := traffic.counted_time_of_mem hrun hdata
    rw [htime, Option.some.injEq] at hsame
    subst hsame
    rw [(traffic.take (k + 1)).count_eq_delivered hrun] at hdvd
    have hcount := hstep run
    rw [if_pos hdata] at hcount
    have hall := Nat.eq_of_dvd_of_lt_two_mul (by omega) hdvd
      (by have := (traffic.take (k + 1)).delivered_le hrun; have := traffic.chunks_pos; omega)
    refine ⟨run, hrun, rfl, ((traffic.take (k + 1)).allDelivered_iff hrun).mpr hall, ?_⟩
    rw [(traffic.take k).allDelivered_iff hrun]
    omega
  · rintro ⟨run, hrun, rfl, hnow, hbefore⟩
    have hall := ((traffic.take (k + 1)).allDelivered_iff hrun).mp hnow
    rw [(traffic.take k).allDelivered_iff hrun] at hbefore
    have hdata : messages[k].data ∈ run.payloads := by
      by_contra hnot
      have hcount := hstep run
      rw [if_neg hnot] at hcount
      omega
    refine ⟨traffic.counted_time_of_mem hrun hdata, ?_⟩
    rw [(traffic.take (k + 1)).count_eq_delivered hrun, hall]

/-- A publishing time that occurs once for each chunk belongs to a message whose
fragments are all delivered. -/
theorem exists_allDelivered (traffic : Traffic chunks runs messages) {tx_time : Int}
    (hoften : chunks.toNat ≤ (counted_times messages).count tx_time) :
    ∃ run ∈ runs, run.tx_time = tx_time ∧ run.AllDelivered messages := by
  have hpos := traffic.chunks_pos
  have hocc : 0 < (counted_times messages).count tx_time := by omega
  obtain ⟨run, hrun, rfl⟩ := traffic.exists_run_of_count_pos hocc
  rw [traffic.count_eq_delivered hrun] at hoften
  exact ⟨run, hrun, rfl, (traffic.allDelivered_iff hrun).mpr
    (le_antisymm (traffic.delivered_le hrun) hoften)⟩

/-- The map holds the messages of which some fragments, but not all, are delivered. -/
theorem stored_iff (traffic : Traffic chunks runs messages) {msg_seen : CountingMap Int}
    (hseen : CountingMap.Accounts (threshold chunks) msg_seen (counted_times messages))
    (tx_time : Int) (count : Nat) :
    msg_seen.lookup tx_time = some count ↔
      ∃ run ∈ runs, run.tx_time = tx_time ∧ run.delivered messages = count ∧ 0 < count ∧
        ¬ run.AllDelivered messages := by
  have hthreshold : threshold chunks = chunks.toNat := max_eq_left traffic.chunks_pos
  have hentry (run : PublishRun) (hmem : run ∈ runs) :
      msg_seen.lookup run.tx_time = some count ↔ run.delivered messages = count ∧
        0 < count ∧ ¬ run.AllDelivered messages := by
    have hle := traffic.delivered_le hmem
    rw [hseen, hthreshold, traffic.count_eq_delivered hmem, CountingMap.pending_eq_some_iff hle,
      traffic.allDelivered_iff hmem]
    omega
  constructor
  · intro hstored
    have hocc : 0 < (counted_times messages).count tx_time := by
      by_contra hnone
      rw [hseen, Nat.eq_zero_of_not_pos hnone, CountingMap.pending_zero] at hstored
      cases hstored
    obtain ⟨run, hmem, rfl⟩ := traffic.exists_run_of_count_pos hocc
    exact ⟨run, hmem, rfl, (hentry run hmem).mp hstored⟩
  · rintro ⟨run, hmem, rfl, hpartial⟩
    exact (hentry run hmem).mpr hpartial

end Traffic

/-- Fragmentation end to end. The receiver handles every delivery without a
panic; a delivery reports a timestamp exactly when it is the last one of its
message; a message is reported once if all its fragments were delivered and
never otherwise, and nothing else is; and the map is left with the messages of
which some fragments, but not all, were delivered. -/
theorem fragments_reassemble (profile : Profile) {chunks : UInt32} {runs : List PublishRun}
    {messages : List Delivery} (traffic : Traffic chunks runs messages)
    (metrics : GossipSubMetrics) :
    ∃ receiver reports,
      receive_all profile chunks { msg_seen := ∅, custom_metrics := metrics } messages =
        .ok (receiver, reports) ∧
      (∀ run ∈ runs, run.cmd.fragment_length ≤ isize_max →
        run.payloads.length = chunks.toNat ∧ run.payloads.Nodup) ∧
      (∀ k < messages.length, ∀ tx_time,
        (∃ report, reports[k]? = some (some report) ∧ report.tx_time = tx_time) ↔
          ∃ run ∈ runs, run.tx_time = tx_time ∧ run.AllDelivered (messages.take (k + 1)) ∧
            ¬ run.AllDelivered (messages.take k)) ∧
      (∀ run ∈ runs, run.AllDelivered messages → (reported_times reports).count run.tx_time = 1) ∧
      (∀ tx_time, (∀ run ∈ runs, run.tx_time = tx_time → ¬ run.AllDelivered messages) →
        tx_time ∉ reported_times reports) ∧
      (∀ tx_time count, receiver.msg_seen.lookup tx_time = some count ↔
        ∃ run ∈ runs, run.tx_time = tx_time ∧ run.delivered messages = count ∧ 0 < count ∧
          ¬ run.AllDelivered messages) := by
  obtain ⟨receiver, reports, hrun, hseen, hlength, hreports, htotals⟩ := receive_all_spec profile
    chunks { msg_seen := ∅, custom_metrics := metrics } messages traffic.data_length
    (CountingMap.accounts_empty (threshold chunks))
  have hthreshold : threshold chunks = chunks.toNat := max_eq_left traffic.chunks_pos
  have hpos := traffic.chunks_pos
  simp only [List.nil_append, List.count_nil, Nat.zero_div, Nat.zero_add] at hseen hreports htotals
  refine ⟨receiver, reports, hrun, fun run hmem hfits => ⟨traffic.payloads_length hmem hfits,
    PublishRun.payloads_nodup (traffic.numbered hmem)⟩, fun k hk => traffic.reports_iff hreports hk,
    ?_, ?_, ?_⟩
  · intro run hmem hall
    rw [htotals, traffic.count_eq_delivered hmem, (traffic.allDelivered_iff hmem).mp hall,
      hthreshold, Nat.div_self hpos]
  · intro tx_time hmissing hreported
    have hcount := List.count_pos_iff.mpr hreported
    rw [htotals, hthreshold] at hcount
    obtain ⟨run, hmem, htime, hall⟩ := traffic.exists_allDelivered (Nat.div_pos_iff.mp hcount).2
    exact hmissing run hmem htime hall
  · exact traffic.stored_iff hseen

/-- Two messages of two fragments, published one nanosecond apart. -/
def pair_run (index : Fin 2) : PublishRun where
  profile := .release
  cmd := { topic := "test", msg_size := 22, chunks := 2, response_tx := index }
  now := { unix_nano := 1000000 + index, unix_nano_lt := by omega, display := "" }
  outcome := fun _ => .ok ""

/-- Both fragments of the first message around one of the second. -/
def pair_deliveries : List Delivery :=
  [(0, 1), (1, 0), (0, 0)].map fun (index, chunk) =>
    { data := fragment (pair_run index).cmd (pair_run index).now chunk
      now := { unix_nano := 3000000, unix_nano_lt := by decide, display := "" } }

theorem pair_traffic : Traffic 2 [pair_run 0, pair_run 1] pair_deliveries where
  chunks_pos := by decide
  chunks_le := by decide
  same_chunks := by decide
  long := by decide
  times_nodup := by decide
  times_min := by decide
  accepted := fun run hrun _ _ _ => ⟨"", by
    rcases List.mem_pair.mp hrun with rfl | rfl <;> rfl⟩
  published := by decide
  once := by decide

theorem fragments_reassemble_pair :
    ∃ receiver reports,
      receive_all .release 2 { msg_seen := ∅, custom_metrics := .new 4 } pair_deliveries =
        .ok (receiver, reports) ∧
      (reported_times reports).count 1000000 = 1 ∧ 1000001 ∉ reported_times reports := by
  obtain ⟨receiver, reports, hrun, _, _, honce, hnever, _⟩ :=
    fragments_reassemble .release pair_traffic (.new 4)
  refine ⟨receiver, reports, hrun, honce (pair_run 0) (by simp) (by decide), ?_⟩
  apply hnever
  decide

end rust_test_node.main
