import Mathlib
import DstTestNode.Shadow.LatencyRows

open awk

namespace shadow.summary_latency

/-- The rows of a message in a file. -/
def message_rows (records : List Text) (value : Text) : List Text :=
  rows_of (records.filter accepted) message value

/-- Every row of the message is counted in a line, once in all and once in the
entry of its hop. -/
structure LosesNoMessage (records : List Text) (line : Line) : Prop where
  received : line.sum_rx_msgs = (message_rows records line.value).length
  spread : ∀ hop : Int, line.spread.value hop =
    (message_rows records line.value).countP fun record =>
      ((latency record / hop_lat : Nat) : Int) = hop
  total : (line.spread.entries.map Sigma.snd).sum = line.sum_rx_msgs

/-- In whatever orders the loops run, each message gets a line that loses no
row, and it is printed in the same way. -/
def HistogramExact (records : List Text) : Prop :=
  ∀ value ∈ (run records).msg_arr, ∃ printed, ∀ orders : Orders,
    orders.Enumerates (run records).lat_arr (run records).msg_arr →
    ∃ summary, end_rule orders (run records) = .ok summary ∧
      (∃ line ∈ summary.lines, line.value = value) ∧
      ∀ line ∈ summary.lines, line.value = value →
        LosesNoMessage records line ∧ line.printed hops = printed

/-- The latencies of one message that share a hop are written in the same way. -/
def OneLatencyPerHop (records : List Text) : Prop :=
  ∀ record ∈ records, ∀ other ∈ records, accepted record = true → accepted other = true →
    message record = message other → latency record / hop_lat = latency other / hop_lat →
    field record 3 = field other 3

theorem int_hop (n : Nat) : int ((n : ℚ) / hop_lat) = ((n / hop_lat : Nat) : Int) := by
  rw [int_eq_floor (by positivity), Rat.floor_natCast_div_natCast]
  rfl

theorem hop_count_eq (records : List Text) (value : Text) (hop : Int) :
    hop_count (records.filter accepted) message (fun record => (latency record : ℚ)) value hop =
      (message_rows records value).countP fun record =>
        ((latency record / hop_lat : Nat) : Int) = hop := by
  simp only [hop_count, int_hop, message_rows]

section

variable {records : List Text} (hrows : LatencyRows records)

include hrows

/-- The END rule prints a line for each message. -/
theorem end_rule_run (hsome : records ≠ []) {orders : Orders}
    (horders : orders.Enumerates (run records).lat_arr (run records).msg_arr) :
    ∃ header, end_rule orders (run records) = .ok
      { header := header
        lines := orders.values.map fun value => report_line (records.filter accepted) message row_key
          (fun record => (latency record : ℚ)) (orders.keys value) ∅ value } := by
  have hlat_arr : (run records).lat_arr = Tally.count row_key (records.filter accepted) := by
    rw [lat_arr_run, filter_counted hrows]
  have hvalues : ∀ value ∈ orders.values, rows_of (records.filter accepted) message value ≠ [] :=
    fun value hvalue => (mem_msg_arr_iff hrows value).mp (horders.values.mem_iff.mp hvalue)
  have hlines := mapM_message_line (subscripts_row_key hrows) ∅
    (fun value => hlat_arr ▸ horders.keys value) hvalues
  have hlength : ((run records).NR : ℚ) ≠ 0 := by
    rw [NR_run]
    exact Nat.cast_ne_zero.mpr (List.length_eq_zero_iff.not.mpr hsome)
  rw [end_rule, hlat_arr, hlines, header, divide, if_neg hlength]
  exact ⟨_, rfl⟩

theorem row_key_eq_iff {record other : Text} (hrecord : record ∈ records) (hother : other ∈ records)
    (haccepted : accepted record = true) (haccepted' : accepted other = true)
    (hmessage : message record = message other) :
    row_key record = row_key other ↔ field record 3 = field other 3 := by
  have hsame : (element (arr record) 4).to_string = (element (arr other) 4).to_string := hmessage
  rw [row_key, row_key, subscript, subscript, hsame]
  constructor
  · intro hkey
    have htext := (List.cons.inj (List.append_cancel_left hkey)).2
    rw [field_eq_input (hrows record hrecord haccepted).1,
      field_eq_input (hrows other hother haccepted').1, htext]
  · intro hfield
    rw [hfield]

/-- The entries of a line when no hop of its message has two latencies. -/
theorem lookup_report_line (hone : OneLatencyPerHop records) {keys : List Text}
    (hkeys : keys.Perm (run records).lat_arr.keys) (value : Text) (hop : Int) :
    let count := hop_count (records.filter accepted) message (fun record => (latency record : ℚ))
      value hop
    (report_line (records.filter accepted) message row_key (fun record => (latency record : ℚ)) keys
      ∅ value).spread.lookup hop = if count = 0 then none else some count := by
  rw [lat_arr_run, filter_counted hrows] at hkeys
  apply lookup_spread_of_unique hkeys (subscripts_row_key hrows)
  intro record hrecord other hother hhop hhop'
  obtain ⟨hrecord, hid⟩ := mem_rows_of.mp hrecord
  obtain ⟨hother, hid'⟩ := mem_rows_of.mp hother
  obtain ⟨hrecord, haccepted⟩ := List.mem_filter.mp hrecord
  obtain ⟨hother, haccepted'⟩ := List.mem_filter.mp hother
  have hmessage := hid.trans hid'.symm
  rw [← hhop', int_hop, int_hop] at hhop
  exact (row_key_eq_iff hrows hrecord hother haccepted haccepted' hmessage).mpr
    (hone record hrecord other hother haccepted haccepted' hmessage (Int.ofNat_inj.mp hhop))

theorem losesNoMessage_report_line (hone : OneLatencyPerHop records) {keys : List Text}
    (hkeys : keys.Perm (run records).lat_arr.keys) (value : Text) :
    LosesNoMessage records (report_line (records.filter accepted) message row_key
      (fun record => (latency record : ℚ)) keys ∅ value) := by
  have hexact : ∀ hop, (report_line (records.filter accepted) message row_key
      (fun record => (latency record : ℚ)) keys ∅ value).spread.value hop =
      hop_count (records.filter accepted) message (fun record => (latency record : ℚ)) value hop := by
    intro hop
    rw [Tally.value, lookup_report_line hrows hone hkeys value hop]
    split_ifs with hzero
    · exact hzero.symm
    · rfl
  exact ⟨rfl, fun hop => (hexact hop).trans (hop_count_eq records value hop), sum_spread hexact⟩

/-- Where a hop of a message has two latencies, its line loses rows. -/
theorem not_losesNoMessage_report_line {record other : Text} (hrecord : record ∈ records)
    (hother : other ∈ records) (haccepted : accepted record = true)
    (haccepted' : accepted other = true) (hmessage : message record = message other)
    (hhop : latency record / hop_lat = latency other / hop_lat)
    (hne : field record 3 ≠ field other 3) {keys : List Text}
    (hkeys : keys.Perm (run records).lat_arr.keys) :
    ¬ LosesNoMessage records (report_line (records.filter accepted) message row_key
      (fun record => (latency record : ℚ)) keys ∅ (message record)) := by
  intro hexact
  have hkey : row_key record ≠ row_key other :=
    (row_key_eq_iff hrows hrecord hother haccepted haccepted' hmessage).not.mpr hne
  rw [lat_arr_run, filter_counted hrows] at hkeys
  obtain ⟨received, hlookup, hless⟩ := lookup_spread_of_collision hkeys (subscripts_row_key hrows)
    (mem_rows_of.mpr ⟨List.mem_filter.mpr ⟨hrecord, haccepted⟩, rfl⟩)
    (mem_rows_of.mpr ⟨List.mem_filter.mpr ⟨hother, haccepted'⟩, hmessage.symm⟩)
    (by rw [int_hop, int_hop, hhop]) hkey ⟨0, 0, ∅⟩
  have hspread := hexact.spread (int ((latency record : ℚ) / hop_lat))
  rw [report_line, Tally.value, hlookup, ← hop_count_eq] at hspread
  exact Nat.ne_of_lt hless hspread

end

/-- A histogram that loses no message has one latency in each hop. -/
theorem HistogramExact.oneLatencyPerHop {records : List Text} (hrows : LatencyRows records)
    (hexact : HistogramExact records) : OneLatencyPerHop records := by
  intro record hrecord other hother haccepted haccepted' hmessage hhop
  by_contra hne
  have hvalue : message record ∈ (run records).msg_arr :=
    (mem_msg_arr_iff hrows _).mpr (List.ne_nil_of_mem
      (mem_rows_of.mpr ⟨List.mem_filter.mpr ⟨hrecord, haccepted⟩, rfl⟩))
  obtain ⟨printed, hprinted⟩ := hexact _ hvalue
  let orders : Orders := ⟨(run records).msg_arr.keys, fun _ => (run records).lat_arr.keys⟩
  have horders : orders.Enumerates (run records).lat_arr (run records).msg_arr :=
    ⟨.refl _, fun _ => .refl _⟩
  obtain ⟨summary, hsummary, ⟨line, hline, hmine⟩, hlines⟩ := hprinted orders horders
  obtain ⟨header, hrun⟩ := end_rule_run hrows (List.ne_nil_of_mem hrecord) horders
  rw [hrun] at hsummary
  cases hsummary
  obtain ⟨value, -, rfl⟩ := List.mem_map.mp hline
  have hloses := (hlines _ hline hmine).1
  cases hmine
  exact not_losesNoMessage_report_line hrows hrecord hother haccepted haccepted' hmessage hhop hne
    (.refl _) hloses

/-- With one latency in each hop, no line loses a row. -/
theorem OneLatencyPerHop.histogramExact {records : List Text} (hrows : LatencyRows records)
    (hone : OneLatencyPerHop records) : HistogramExact records := by
  intro value hvalue
  let count (hop : Int) := hop_count (records.filter accepted) message
    (fun record => (latency record : ℚ)) value hop
  let mine := message_rows records value
  refine ⟨(value, mine.mean fun record => (latency record : ℚ), mine.length,
    (List.range hops).map fun hop =>
      if count ((hop + 1 : Nat) : Int) = 0 then none else some (count ((hop + 1 : Nat) : Int))),
    fun orders horders => ?_⟩
  have hsome : records ≠ [] := by
    rintro rfl
    exact AList.notMem_empty value hvalue
  obtain ⟨header, hrun⟩ := end_rule_run hrows hsome horders
  refine ⟨_, hrun, ?_, ?_⟩
  · exact ⟨_, List.mem_map_of_mem (horders.values.mem_iff.mpr hvalue), rfl⟩
  · intro line hline hmine
    obtain ⟨value, -, rfl⟩ := List.mem_map.mp hline
    cases hmine
    refine ⟨losesNoMessage_report_line hrows hone (horders.keys value) value, ?_⟩
    simp only [Line.printed, lookup_report_line hrows hone (horders.keys value)]
    rfl

/-- The histogram loses no message exactly when no two different latencies of
one message share a hop. -/
theorem histogram_exact_iff {records : List Text} (hrows : LatencyRows records) :
    HistogramExact records ↔ OneLatencyPerHop records :=
  ⟨fun hexact => hexact.oneLatencyPerHop hrows, fun hone => hone.histogramExact hrows⟩

section

open shadow.latency_log (Delivery grep_line peer_name)

/-- In a log, no two deliveries of a message may share a hop unless their
latencies are equal. -/
theorem oneLatencyPerHop_log (deliveries : List Delivery) :
    OneLatencyPerHop (deliveries.map (grep_line peer_name)) ↔
      ∀ first ∈ deliveries, ∀ second ∈ deliveries, first.publish_time = second.publish_time →
        first.latency / hop_lat = second.latency / hop_lat → first.latency = second.latency := by
  have haccepted (delivery : Delivery) : accepted (grep_line peer_name delivery) = true :=
    latency_log.accepted_grep_line (latency_log.any_is_blank_peer_name delivery.host)
  simp only [OneLatencyPerHop, List.forall_mem_map, haccepted, message_grep_line, latency_grep_line,
    field_grep_line, Value.input.injEq, forall_const, String.toList_inj, Nat.repr_inj]

/-- Deliveries of one message after 110 ms and after 230 ms. -/
theorem histogram_exact_two_hops :
    HistogramExact ([⟨1, 1000, 7, 1700000000, 110⟩, ⟨2, 1000, 7, 1700000000, 230⟩].map
      (grep_line peer_name)) := by
  apply (histogram_exact_iff (latencyRows_log _)).mpr
  rw [oneLatencyPerHop_log]
  simp [hop_lat]

/-- Deliveries of one message after 110 ms and after 190 ms: the entry of their
hop counts one of the two. -/
theorem histogram_loses_delivery :
    ¬ HistogramExact ([⟨1, 1000, 7, 1700000000, 110⟩, ⟨2, 1000, 7, 1700000000, 190⟩].map
      (grep_line peer_name)) := by
  intro hexact
  have hone := (oneLatencyPerHop_log _).mp (hexact.oneLatencyPerHop (latencyRows_log _))
  simp [hop_lat] at hone

end

end shadow.summary_latency
