import Mathlib.Data.List.Count
import DstTestNode.Go.MessageHandler
import DstTestNode.Rust.Accounting

open rust rust_test_node.main
open go_test_node.main (MsgSeen counted_header message_handler message_handler_spec read_loop
  MessageReport)

namespace nodes

/-- The counted headers of a sequence of payloads. -/
def counted_headers (payloads : List Payload) : List Nat :=
  payloads.filterMap counted_header

/-- Below `2^63` the two nodes read the same number from a header. -/
theorem counted_time_eq_header {data : Payload} (hlen : 8 ≤ data.length)
    (hfits : LittleEndian.value (data.take 8) < 2 ^ 63) :
    counted_time data = (counted_header data).map Nat.cast := by
  have hsigned : LittleEndian.signed (data.take 8) = (LittleEndian.value (data.take 8) : Int) := by
    have hwidth : (data.take 8).length = 8 := by simp [hlen]
    rw [LittleEndian.signed, hwidth]
    exact Int.bmod_eq_of_le_mul_two (by norm_num; omega) (by norm_num; omega)
  rw [counted_time_eq hlen, hsigned, counted_header, Option.filter_some]
  by_cases hmin : 1000000 ≤ LittleEndian.value (data.take 8)
  · have hcast : (1000000 : Int) ≤ LittleEndian.value (data.take 8) := by exact_mod_cast hmin
    simp [hmin, hcast]
  · have hcast : ¬ (1000000 : Int) ≤ LittleEndian.value (data.take 8) := by exact_mod_cast hmin
    simp [hmin, hcast]

/-- The map of the Rust node, which forgets completed headers, and the map of
the Go node, which keeps them, after the same counted headers. -/
structure Related (chunks : UInt32) (headers : List Nat) (receiver : Receiver)
    (msg_seen : MsgSeen) : Prop where
  rust : CountingMap.Accounts (threshold chunks) receiver.msg_seen (headers.map Nat.cast)
  go : MsgSeen.Counts msg_seen headers

/-- Below their limit, the occurrences of a header that complete it are the last one. -/
theorem threshold_dvd_iff {chunks : UInt32} (hchunks : 1 ≤ chunks.toNat) {n : Nat} (hpos : 0 < n)
    (hlimit : n ≤ chunks.toNat) : threshold chunks ∣ n ↔ (chunks.toNat : Int) ≤ n := by
  have hthreshold : threshold chunks = chunks.toNat := max_eq_left hchunks
  rw [hthreshold, Int.ofNat_le]
  refine ⟨fun hdvd => Nat.le_of_dvd hpos hdvd, fun hle => ?_⟩
  rw [Nat.le_antisymm hlimit hle]

/-- One payload keeps the maps related, and both nodes report its header or
neither does. -/
theorem handlers_agree (profile : Profile) {chunks : UInt32} (hchunks : 1 ≤ chunks.toNat)
    {message : rust_test_node.main.Delivery} {other : go_test_node.main.Delivery}
    (hdata : other.data = message.data) (hlen : 8 ≤ message.data.length)
    (hfits : LittleEndian.value (message.data.take 8) < 2 ^ 63) {before : List Nat}
    (hlimit : ∀ sent ∈ counted_header message.data, (before ++ [sent]).count sent ≤ chunks.toNat)
    {receiver : Receiver} {msg_seen : MsgSeen} (hrelated : Related chunks before receiver msg_seen) :
    ∃ receiver' report msg_seen' report',
      create_message_handler profile message chunks receiver = .ok (receiver', report) ∧
      message_handler chunks.toNat other msg_seen = .ok (msg_seen', report') ∧
      Related chunks (before ++ (counted_header message.data).toList) receiver' msg_seen' ∧
      report.map Report.tx_time = report'.map fun report => (report.sent : Int) := by
  obtain ⟨receiver', report, hrust, haccounts, hreport⟩ := create_message_handler_spec profile
    message chunks receiver hlen hrelated.rust
  obtain ⟨msg_seen', report', hgo, hcounts, hreport'⟩ := message_handler_spec chunks.toNat other
    (hdata ▸ hlen) hrelated.go
  rw [hdata] at hcounts hreport'
  rw [counted_time_eq_header hlen hfits] at haccounts hreport
  refine ⟨receiver', report, msg_seen', report', hrust, hgo, ⟨?_, hcounts⟩, ?_⟩
  · cases hheader : counted_header message.data with
    | none => simpa [hheader] using haccounts
    | some sent => simpa [hheader] using haccounts
  · have hcast : (report'.map fun report => (report.sent : Int)) =
        (report'.map MessageReport.sent).map Nat.cast := by simp [Function.comp_def]
    rw [hcast, hreport', hreport]
    cases hheader : counted_header message.data with
    | none => rfl
    | some sent =>
      have hcount : (before.map Nat.cast ++ [(sent : Int)]).count (sent : Int) =
          (before ++ [sent]).count sent := by
        rw [← List.count_map_of_injective (before ++ [sent]) _ (Nat.cast_injective (R := Int)) sent,
          List.map_append, List.map_singleton]
      have hpos : 0 < (before ++ [sent]).count sent := List.count_pos_iff.mpr (by simp)
      have hiff := threshold_dvd_iff hchunks hpos (hlimit sent hheader)
      simp only [Option.map_some, Option.filter_some, hcount, hiff, decide_eq_true_eq]
      split <;> rfl

/-- A sequence of payloads keeps the maps related, with the same headers
reported at the same positions. -/
theorem runs_agree (profile : Profile) {chunks : UInt32} (hchunks : 1 ≤ chunks.toNat)
    {messages : List rust_test_node.main.Delivery} {others : List go_test_node.main.Delivery}
    (hdata : others.map (·.data) = messages.map (·.data))
    (hlen : ∀ message ∈ messages, 8 ≤ message.data.length)
    (hfits : ∀ message ∈ messages, LittleEndian.value (message.data.take 8) < 2 ^ 63)
    {before : List Nat} (hlimit : ∀ sent,
      (before ++ counted_headers (messages.map (·.data))).count sent ≤ chunks.toNat)
    {receiver : Receiver} {msg_seen : MsgSeen} (hrelated : Related chunks before receiver msg_seen) :
    ∃ receiver' reports msg_seen' reports',
      receive_all profile chunks receiver messages = .ok (receiver', reports) ∧
      read_loop chunks.toNat msg_seen others = .ok (msg_seen', reports') ∧
      Related chunks (before ++ counted_headers (messages.map (·.data))) receiver' msg_seen' ∧
      reports.map (·.map Report.tx_time) =
        reports'.map (·.map fun report => (report.sent : Int)) := by
  induction messages generalizing others before receiver msg_seen with
  | nil =>
    rw [List.map_nil, List.map_eq_nil_iff] at hdata
    subst hdata
    exact ⟨receiver, [], msg_seen, [], rfl, rfl, by simpa [counted_headers] using hrelated, rfl⟩
  | cons message messages ih =>
    obtain ⟨other, others, rfl, hhead, htail⟩ := List.map_eq_cons_iff.mp hdata
    obtain ⟨hlenhead, hlentail⟩ := List.forall_mem_cons.mp hlen
    obtain ⟨hfitshead, hfitstail⟩ := List.forall_mem_cons.mp hfits
    have hsplit : before ++ counted_headers ((message :: messages).map (·.data)) =
        before ++ (counted_header message.data).toList ++ counted_headers (messages.map (·.data)) := by
      cases hheader : counted_header message.data <;> simp [counted_headers, hheader]
    have hfirst : ∀ sent ∈ counted_header message.data,
        (before ++ [sent]).count sent ≤ chunks.toNat := by
      intro sent hsent
      apply le_trans _ (hlimit sent)
      rw [hsplit, Option.mem_def.mp hsent, Option.toList_some]
      exact (List.sublist_append_left _ _).count_le sent
    obtain ⟨receiver₁, report, msg_seen₁, report', hrust, hgo, hrelated₁, hreport⟩ :=
      handlers_agree profile hchunks hhead hlenhead hfitshead hfirst hrelated
    obtain ⟨receiver₂, reports, msg_seen₂, reports', hrusts, hgos, hrelated₂, hreports⟩ :=
      ih htail hlentail hfitstail (by rwa [← hsplit]) hrelated₁
    refine ⟨receiver₂, report :: reports, msg_seen₂, report' :: reports', ?_, ?_, ?_, ?_⟩
    · simp only [receive_all, hrust, hrusts, bind, Except.bind]
    · simp only [read_loop, hgo, hgos, bind, Except.bind]
    · rwa [hsplit]
    · rw [List.map_cons, List.map_cons, hreport, hreports]

/-- The counted headers of payloads are limited when their headers are. -/
theorem counted_headers_count_le (payloads : List Payload) (sent : Nat) :
    (counted_headers payloads).count sent ≤
      if 1000000 ≤ sent then
        payloads.countP fun data => LittleEndian.value (data.take 8) = sent
      else 0 := by
  induction payloads with
  | nil => simp [counted_headers]
  | cons data payloads ih =>
    have hcons : (counted_headers (data :: payloads)).count sent =
        (counted_headers payloads).count sent +
          if 1000000 ≤ sent ∧ LittleEndian.value (data.take 8) = sent then 1 else 0 := by
      by_cases hmin : 1000000 ≤ LittleEndian.value (data.take 8)
      · have hheader : counted_header data = some (LittleEndian.value (data.take 8)) := by
          simp [counted_header, Option.filter_some, hmin]
        simp only [counted_headers, List.filterMap_cons, hheader, List.count_cons, beq_iff_eq]
        congr 1
        split_ifs <;> omega
      · have hheader : counted_header data = none := by
          simp [counted_header, Option.filter_some, hmin]
        simp only [counted_headers, List.filterMap_cons, hheader]
        rw [if_neg (by omega), Nat.add_zero]
    rw [hcons, List.countP_cons]
    simp only [decide_eq_true_eq]
    split_ifs at ih ⊢ <;> omega

/-- The reassembler that deletes completed messages and the one that keeps them
report the same headers at the same positions, when no header other than a
warm-up one occurs more often than there are chunks. -/
theorem reassemblers_agree (profile : Profile) (chunks : UInt32) (hchunks : 1 ≤ chunks.toNat)
    (metrics : rust_test_node.metrics.GossipSubMetrics)
    (messages : List rust_test_node.main.Delivery) (others : List go_test_node.main.Delivery)
    (hdata : others.map (·.data) = messages.map (·.data))
    (hlen : ∀ message ∈ messages, 8 ≤ message.data.length)
    (hfits : ∀ message ∈ messages, LittleEndian.value (message.data.take 8) < 2 ^ 63)
    (hlimit : ∀ sent, 1000000 ≤ sent → (messages.map (·.data)).countP
      (fun data => LittleEndian.value (data.take 8) = sent) ≤ chunks.toNat) :
    ∃ receiver reports msg_seen reports',
      receive_all profile chunks ⟨∅, metrics⟩ messages = .ok (receiver, reports) ∧
      read_loop chunks.toNat ∅ others = .ok (msg_seen, reports') ∧
      reports.map (·.map Report.tx_time) =
        reports'.map (·.map fun report => (report.sent : Int)) := by
  have hempty : Related chunks [] ⟨∅, metrics⟩ ∅ :=
    ⟨CountingMap.accounts_empty _, MsgSeen.counts_empty⟩
  have hcounted : ∀ sent, (counted_headers
      (messages.map rust_test_node.main.Delivery.data)).count sent ≤ chunks.toNat := by
    intro sent
    have hle := counted_headers_count_le (messages.map rust_test_node.main.Delivery.data) sent
    split at hle
    · next hmin => exact hle.trans (hlimit sent hmin)
    · exact hle.trans (Nat.zero_le _)
  obtain ⟨receiver, reports, msg_seen, reports', hrust, hgo, _, hreports⟩ := runs_agree profile
    hchunks hdata hlen hfits (by simpa using hcounted) hempty
  exact ⟨receiver, reports, msg_seen, reports', hrust, hgo, hreports⟩

theorem reassemblers_agree_pair :
    ∃ receiver reports msg_seen reports',
      receive_all .release 2 ⟨∅, rust_test_node.metrics.GossipSubMetrics.new 4⟩
        [⟨List.replicate 8 1, ⟨0, by decide, ""⟩⟩, ⟨List.replicate 8 1, ⟨0, by decide, ""⟩⟩] =
          .ok (receiver, reports) ∧
      read_loop 2 ∅ [⟨List.replicate 8 1, 5⟩, ⟨List.replicate 8 1, 5⟩] = .ok (msg_seen, reports') ∧
      reports.map (·.map Report.tx_time) =
        reports'.map (·.map fun report => (report.sent : Int)) :=
  reassemblers_agree .release 2 (by decide) (rust_test_node.metrics.GossipSubMetrics.new 4)
    [⟨List.replicate 8 1, ⟨0, by decide, ""⟩⟩, ⟨List.replicate 8 1, ⟨0, by decide, ""⟩⟩]
    [⟨List.replicate 8 1, 5⟩, ⟨List.replicate 8 1, 5⟩] rfl (by simp) (by decide)
    (fun sent _ => List.countP_le_length)

end nodes
