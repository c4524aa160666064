import Mathlib
import DstTestNode.Library.Mean
import DstTestNode.Shadow.Spread

open awk

namespace shadow.summary_latency_large

open shadow.summary_latency (Subscripts hop_lat accepted arr counted message latency LatencyRows
  digits_of_accepted to_number_field filter_counted message_rows rows_of mem_rows_of hop_count
  report_line key_message key_latency mapM_message_line lookup_spread_of_unique sum_spread)

/-- Every accepted row has a latency, which is also its last field. -/
structure LargeRows (records : List Text) : Prop where
  rows : LatencyRows records
  last : ∀ record ∈ records, accepted record = true →
    (last_field record).is_numeric = true ∧ (last_field record).to_number = (latency record : ℚ)

/-- The messages of a file. -/
def messages (records : List Text) : List Text := ((records.filter accepted).map message).dedup

/-- What the report says is right up to the rounding of the average. -/
structure Statistics (records : List Text) (summary : Summary) : Prop where
  lines : (summary.lines.map summary_latency.Line.value).Perm (messages records)
  received : ∀ line ∈ summary.lines, line.sum_rx_msgs = (message_rows records line.value).length
  spread : ∀ line ∈ summary.lines, ∀ hop : Int, line.spread.value hop =
    (message_rows records line.value).countP fun record =>
      ⌊(latency record : ℚ) / hop_lat + 1 / 2⌋ = hop
  total : ∀ line ∈ summary.lines, (line.spread.entries.map Sigma.snd).sum = line.sum_rx_msgs
  average : ∀ line ∈ summary.lines,
    |line.average - (message_rows records line.value).mean fun record => (latency record : ℚ)| ≤
      hop_lat / 2
  delays : (summary.delays.map Prod.fst).Perm (messages records)
  maximum : ∀ delay ∈ summary.delays,
    IsGreatest {x : ℚ | ∃ record ∈ message_rows records delay.1, x = latency record}
      delay.2.to_number
  average_max : summary.average_max = summary.delays.mean fun delay => delay.2.to_number

/-- The hop that a latency is rounded to. -/
def nearest_hop (record : Text) : Nat := ⌊(latency record : ℚ) / hop_lat + 1 / 2⌋₊

/-- The latency that the subscript of a row tells. -/
def rounded (record : Text) : ℚ := ((nearest_hop record * hop_lat : Nat) : ℚ)

/-- The subscript under which a row is counted. -/
def row_key (record : Text) : Text :=
  subscript (element (arr record) 4) (.number (rounded_RxTime record))

theorem lat_arr_main_rule (vars : Vars) (record : Text) :
    (main_rule vars record).lat_arr =
      if counted record then Tally.add vars.lat_arr (row_key record) 1 else vars.lat_arr := by
  unfold main_rule counted
  by_cases haccepted : accepted record = true
  · by_cases harr : arr record = []
    · simp [haccepted, harr]
    · simp only [haccepted, harr, if_true, if_false, ne_eq, not_false_eq_true, decide_true,
        Bool.and_self]
      rfl
  · simp [haccepted]

theorem lat_arr_run (records : List Text) :
    (run records).lat_arr = Tally.count row_key (records.filter counted) := by
  rw [run, Tally.count, List.foldl_filter]
  exact (List.foldl_hom Vars.lat_arr fun vars record => (lat_arr_main_rule vars record).symm).symm

theorem max_msg_latency_main_rule (vars : Vars) (record : Text) :
    (main_rule vars record).max_msg_latency =
      if counted record then raise_max vars.max_msg_latency (message record) (last_field record)
      else vars.max_msg_latency := by
  unfold main_rule counted
  by_cases haccepted : accepted record = true
  · by_cases harr : arr record = []
    · simp [haccepted, harr]
    · simp only [haccepted, harr, if_true, if_false, ne_eq, not_false_eq_true, decide_true,
        Bool.and_self]
      rfl
  · simp [haccepted]

theorem max_msg_latency_run (records : List Text) :
    (run records).max_msg_latency = (records.filter counted).foldl
      (fun table record => raise_max table (message record) (last_field record)) ∅ := by
  rw [run, List.foldl_filter]
  exact (List.foldl_hom Vars.max_msg_latency
    fun vars record => (max_msg_latency_main_rule vars record).symm).symm

theorem nearest_hop_nonneg (record : Text) : (0 : ℚ) ≤ (latency record : ℚ) / hop_lat + 1 / 2 := by
  positivity

theorem rounded_RxTime_eq {record : Text} (haccepted : accepted record = true)
    (hlatency : (field record 3).to_string ≠ []) :
    rounded_RxTime record = ((nearest_hop record * hop_lat : Nat) : Int) := by
  rw [rounded_RxTime, (to_number_field haccepted hlatency).2,
    int_eq_floor (nearest_hop_nonneg record), nearest_hop, Nat.cast_mul,
    Int.natCast_floor_eq_floor (nearest_hop_nonneg record)]

/-- The hop of a rounded latency is the one it was rounded to. -/
theorem int_rounded (record : Text) : int (rounded record / hop_lat) = nearest_hop record := by
  have hlat : (hop_lat : ℚ) ≠ 0 := by simp [hop_lat]
  rw [rounded, Nat.cast_mul, mul_div_cancel_right₀ _ hlat, int_eq_floor (Nat.cast_nonneg _),
    Int.floor_natCast]

/-- Rounding moves a latency by at most half a hop. -/
theorem abs_rounded_sub_le (record : Text) :
    |rounded record - (latency record : ℚ)| ≤ hop_lat / 2 := by
  have hle := Nat.floor_le (nearest_hop_nonneg record)
  have hlt := Nat.lt_floor_add_one ((latency record : ℚ) / hop_lat + 1 / 2)
  have hlat : ((hop_lat : Nat) : ℚ) = 100 := by simp [hop_lat]
  rw [rounded, Nat.cast_mul, nearest_hop, abs_le]
  simp only [hlat] at hle hlt ⊢
  constructor <;> linarith

theorem lookup_raise_max (table : Table Value) (id other : Text) (latency : Value) :
    (raise_max table id latency).lookup other =
      if other = id then
        some (if ((table.lookup id).getD .unset).less latency then latency
          else (table.lookup id).getD .unset)
      else table.lookup other := by
  by_cases hother : other = id
  · rw [if_pos hother, hother]
    exact AList.lookup_insert table
  · rw [if_neg hother]
    exact AList.lookup_insert_ne hother

/-- The latencies of a message. -/
def latencies (rows : List Text) (id : Text) : Set ℚ :=
  {x | ∃ record ∈ rows_of rows message id, x = latency record}

theorem latencies_append (rows : List Text) (record id : Text) :
    latencies (rows ++ [record]) id =
      if message record = id then insert (latency record : ℚ) (latencies rows id)
      else latencies rows id := by
  ext x
  by_cases hid : message record = id
  · simp [latencies, rows_of, hid, or_and_right, exists_or, or_comm]
  · simp [latencies, rows_of, hid]

/-- The table of the maxima, once the rows have been read. -/
theorem max_table {rows : List Text} (hnumbers : ∀ record ∈ rows,
      (last_field record).is_numeric = true ∧ (last_field record).to_number = (latency record : ℚ))
    (id : Text) :
    match (rows.foldl (fun table record => raise_max table (message record) (last_field record))
      ∅).lookup id with
    | none => latencies rows id = ∅
    | some value => value.is_numeric = true ∧ IsGreatest (latencies rows id) value.to_number := by
  induction rows using List.reverseRecOn with
  | nil => simp [latencies, rows_of]
  | append_singleton rows record ih =>
    have hrest := ih fun other hother => hnumbers other (List.mem_append_left _ hother)
    obtain ⟨hnumeric, hnumber⟩ := hnumbers record (by simp)
    rw [List.foldl_append, List.foldl_cons, List.foldl_nil, lookup_raise_max, latencies_append]
    by_cases hid : message record = id
    · rw [if_pos hid.symm, if_pos hid, hid]
      split at hrest
      next hlookup =>
        obtain ⟨hnext, hmax⟩ := greater_numeric (show Value.unset.is_numeric from rfl) hnumeric
        have hzero : max Value.unset.to_number (latency record : ℚ) = latency record :=
          max_eq_right (Nat.cast_nonneg _)
        rw [hlookup, Option.getD_none, hrest]
        refine ⟨hnext, ?_⟩
        rw [hmax, hnumber, hzero, insert_empty_eq]
        exact isGreatest_singleton
      next value hlookup =>
        obtain ⟨hnext, hmax⟩ := greater_numeric hrest.1 hnumeric
        rw [hlookup, Option.getD_some]
        refine ⟨hnext, ?_⟩
        rw [hmax, hnumber, max_comm]
        exact hrest.2.insert _
    · rw [if_neg (Ne.symm hid), if_neg hid]
      exact hrest

theorem latencies_eq_empty {rows : List Text} {id : Text} :
    latencies rows id = ∅ ↔ rows_of rows message id = [] := by
  constructor
  · intro hempty
    apply List.eq_nil_iff_forall_not_mem.mpr
    intro record hrecord
    have hmem : (latency record : ℚ) ∈ latencies rows id := ⟨record, hrecord, rfl⟩
    rw [hempty] at hmem
    exact hmem
  · intro hnil
    simp [latencies, hnil]

section

variable {records : List Text} (hrows : LargeRows records)

include hrows

theorem mem_msg_arr_iff (id : Text) :
    id ∈ (run records).msg_arr ↔ message_rows records id ≠ [] := by
  rw [(agree_run records).msg_arr]
  exact summary_latency.mem_msg_arr_iff hrows.rows id

theorem subscripts_row_key : Subscripts (records.filter accepted) message row_key rounded := by
  intro record hrecord
  obtain ⟨hmem, haccepted⟩ := List.mem_filter.mp hrecord
  obtain ⟨hlatency, hmessage⟩ := hrows.rows record hmem haccepted
  have hnumber : (Value.number (rounded_RxTime record)).to_string =
      (nearest_hop record * hop_lat).repr.toList := by
    rw [rounded_RxTime_eq haccepted hlatency]
    rfl
  have hplain : '\x1c' ∉ (Value.number (rounded_RxTime record)).to_string := by
    rw [hnumber]
    exact Decimal.notMem_repr rfl _
  rw [key_message, key_latency, row_key, split_subscript hmessage hplain, hnumber]
  refine ⟨rfl, ?_⟩
  exact (to_number_digits (Decimal.repr_ne_nil _) fun _ => Decimal.isDigit_of_mem_repr).trans
    (by rw [Decimal.ofDigitChars_repr, rounded])

/-- The rows of a message that are rounded to one hop share their subscript. -/
theorem row_key_eq {record other : Text} (hrecord : record ∈ records.filter accepted)
    (hother : other ∈ records.filter accepted) (hmessage : message record = message other)
    (hhop : int (rounded record / hop_lat) = int (rounded other / hop_lat)) :
    row_key record = row_key other := by
  obtain ⟨hrecord, haccepted⟩ := List.mem_filter.mp hrecord
  obtain ⟨hother, haccepted'⟩ := List.mem_filter.mp hother
  have hsame : (element (arr record) 4).to_string = (element (arr other) 4).to_string := hmessage
  rw [int_rounded, int_rounded] at hhop
  rw [row_key, row_key, rounded_RxTime_eq haccepted (hrows.rows record hrecord haccepted).1,
    rounded_RxTime_eq haccepted' (hrows.rows other hother haccepted').1, Int.ofNat_inj.mp hhop,
    subscript, subscript, hsame]

/-- The entries of a line count the rows of its message, by the hops that their
latencies are rounded to. -/
theorem lookup_report_line {keys : List Text} (hkeys : keys.Perm (run records).lat_arr.keys)
    (value : Text) (hop : Int) :
    let count := hop_count (records.filter accepted) message rounded value hop
    (report_line (records.filter accepted) message row_key rounded keys preset value).spread.lookup
      hop = if count = 0 then preset.lookup hop else some count := by
  rw [lat_arr_run, filter_counted hrows.rows] at hkeys
  apply lookup_spread_of_unique hkeys (subscripts_row_key hrows)
  intro record hrecord other hother hhop hhop'
  obtain ⟨hrecord, hid⟩ := mem_rows_of.mp hrecord
  obtain ⟨hother, hid'⟩ := mem_rows_of.mp hother
  exact row_key_eq hrows hrecord hother (hid.trans hid'.symm) (hhop.trans hhop'.symm)

/-- The maxima that the END rule reads. -/
theorem lookup_max_msg_latency (id : Text) :
    match (run records).max_msg_latency.lookup id with
    | none => message_rows records id = []
    | some value => IsGreatest (latencies (records.filter accepted) id) value.to_number := by
  have hmax := max_table (fun record hrecord =>
    hrows.last record (List.mem_filter.mp hrecord).1 (List.mem_filter.mp hrecord).2) id
  rw [max_msg_latency_run, filter_counted hrows.rows]
  split at hmax
  next => exact latencies_eq_empty.mp hmax
  next => exact hmax.2

theorem mem_max_msg_latency_iff (id : Text) :
    id ∈ (run records).max_msg_latency ↔ message_rows records id ≠ [] := by
  have hmax := lookup_max_msg_latency hrows id
  rw [← AList.lookup_isSome]
  split at hmax
  next hlookup => simp [hlookup, hmax]
  next value hlookup =>
    have hnonempty := hmax.nonempty
    rw [Set.nonempty_iff_ne_empty, ne_eq, latencies_eq_empty] at hnonempty
    simp [hlookup, message_rows, hnonempty]

/-- The maximum that is printed of a message. -/
theorem isGreatest_max_msg_latency {id : Text} (hid : id ∈ (run records).max_msg_latency) :
    IsGreatest (latencies (records.filter accepted) id)
      (((run records).max_msg_latency.lookup id).getD .unset).to_number := by
  have hmax := lookup_max_msg_latency hrows id
  split at hmax
  next => exact absurd hmax ((mem_max_msg_latency_iff hrows id).mp hid)
  next value hlookup =>
    rw [hlookup]
    exact hmax

omit hrows in
theorem mem_messages (id : Text) : id ∈ messages records ↔ message_rows records id ≠ [] := by
  rw [messages, List.mem_dedup, List.mem_map]
  constructor
  · rintro ⟨record, hrecord, hid⟩
    exact List.ne_nil_of_mem (mem_rows_of.mpr ⟨hrecord, hid⟩)
  · intro hne
    obtain ⟨record, hrecord⟩ := List.exists_mem_of_ne_nil _ hne
    exact ⟨record, mem_rows_of.mp hrecord⟩

omit hrows in
/-- A table with an entry for each message lists the messages. -/
theorem keys_perm_messages {V : Type} {table : Table V}
    (hmem : ∀ id, id ∈ table ↔ message_rows records id ≠ []) :
    table.keys.Perm (messages records) :=
  Tally.keys_perm (List.nodup_dedup _) fun id => (hmem id).trans (mem_messages id).symm

/-- What is printed of the line of a message. -/
def printed_line (records : List Text) (value : Text) : Text × ℚ × Nat × List (Option Nat) :=
  let count (hop : Int) := hop_count (records.filter accepted) message rounded value hop
  (value, (message_rows records value).mean rounded, (message_rows records value).length,
    (List.range hops).map fun hop =>
      if count ((hop + 1 : Nat) : Int) = 0 then preset.lookup ((hop + 1 : Nat) : Int)
      else some (count ((hop + 1 : Nat) : Int)))

/-- The END rule prints a line for each message, and its maximum. -/
theorem end_rule_run (hsome : ∃ record ∈ records, accepted record = true) {orders : Orders}
    (horders : orders.Enumerates (run records)) :
    ∃ summary, end_rule orders (run records) = .ok summary ∧
      (summary.lines = orders.values.map fun value => report_line (records.filter accepted) message
        row_key rounded (orders.keys value) preset value) ∧
      (summary.delays = orders.delays.map fun delay_val =>
        (delay_val, ((run records).max_msg_latency.lookup delay_val).getD .unset)) ∧
      summary.average_max = summary.delays.mean fun delay => delay.2.to_number := by
  have hlat_arr : (run records).lat_arr = Tally.count row_key (records.filter accepted) := by
    rw [lat_arr_run, filter_counted hrows.rows]
  have hvalues : ∀ value ∈ orders.values, rows_of (records.filter accepted) message value ≠ [] :=
    fun value hvalue => (mem_msg_arr_iff hrows value).mp (horders.values.mem_iff.mp hvalue)
  have hlines := mapM_message_line (subscripts_row_key hrows) preset
    (fun value => hlat_arr ▸ horders.keys value) hvalues
  obtain ⟨record, hrecord, haccepted⟩ := hsome
  have hlength : ((run records).NR : ℚ) ≠ 0 := by
    rw [(agree_run records).NR, summary_latency.NR_run]
    exact Nat.cast_ne_zero.mpr (List.length_eq_zero_iff.not.mpr (List.ne_nil_of_mem hrecord))
  have hmax : (((run records).max_msg_latency.keys.length : Nat) : ℚ) ≠ 0 := by
    have hmem : message record ∈ (run records).max_msg_latency :=
      (mem_max_msg_latency_iff hrows _).mpr (List.ne_nil_of_mem
        (mem_rows_of.mpr ⟨List.mem_filter.mpr ⟨hrecord, haccepted⟩, rfl⟩))
    exact Nat.cast_ne_zero.mpr (List.length_eq_zero_iff.not.mpr (List.ne_nil_of_mem hmem))
  simp only [end_rule, hlat_arr, hlines, summary_latency.header, divide, if_neg hlength, if_neg hmax,
    bind, Except.bind]
  refine ⟨_, rfl, rfl, rfl, ?_⟩
  rw [List.mean, List.length_map, horders.delays.length_eq]

end

theorem value_preset (hop : Int) : preset.value hop = 0 := by
  rw [Tally.value, preset, Tally.lookup_foldl_insert (fun hop : Nat => ((hop + 1 : Nat) : Int))]
  cases ((List.range 18).filter fun first => ((first + 1 : Nat) : Int) = hop).getLast? <;> rfl

theorem hop_count_rounded (records : List Text) (value : Text) (hop : Int) :
    hop_count (records.filter accepted) message rounded value hop =
      (message_rows records value).countP fun record =>
        ⌊(latency record : ℚ) / hop_lat + 1 / 2⌋ = hop := by
  simp only [hop_count, int_rounded, nearest_hop, message_rows,
    Int.natCast_floor_eq_floor (nearest_hop_nonneg _)]

/-- The entries of a line that a hop without rows leaves alone are zero. -/
theorem value_report_line {records : List Text} (hrows : LargeRows records) {keys : List Text}
    (hkeys : keys.Perm (run records).lat_arr.keys) (value : Text) (hop : Int) :
    (report_line (records.filter accepted) message row_key rounded keys preset value).spread.value
      hop = hop_count (records.filter accepted) message rounded value hop := by
  have hzero := value_preset hop
  rw [Tally.value] at hzero
  rw [Tally.value, lookup_report_line hrows hkeys value hop]
  split_ifs with hcount
  · rw [hzero, hcount]
  · rfl

/-- The statistics of a run, and what is printed of its lines. -/
theorem statistics_run {records : List Text} (hrows : LargeRows records)
    (hsome : ∃ record ∈ records, accepted record = true) {orders : Orders}
    (horders : orders.Enumerates (run records)) :
    ∃ summary, end_rule orders (run records) = .ok summary ∧ Statistics records summary ∧
      ∀ line ∈ summary.lines, line.printed hops = printed_line records line.value := by
  obtain ⟨summary, hsummary, hlines, hdelays, haverage⟩ := end_rule_run hrows hsome horders
  have hvalue : ∀ value ∈ orders.values, message_rows records value ≠ [] :=
    fun value hvalue => (mem_msg_arr_iff hrows value).mp (horders.values.mem_iff.mp hvalue)
  have hline : ∀ line ∈ summary.lines, ∃ value ∈ orders.values,
      line = report_line (records.filter accepted) message row_key rounded (orders.keys value)
        preset value := by
    intro line hline
    rw [hlines] at hline
    obtain ⟨value, hvalue, rfl⟩ := List.mem_map.mp hline
    exact ⟨value, hvalue, rfl⟩
  refine ⟨summary, hsummary, ⟨?_, ?_, ?_, ?_, ?_, ?_, ?_, haverage⟩, ?_⟩
  · rw [hlines, List.map_map]
    exact (List.map_id' orders.values).symm ▸ horders.values.trans (keys_perm_messages
      (mem_msg_arr_iff hrows))
  · intro line hmem
    obtain ⟨value, -, rfl⟩ := hline line hmem
    rfl
  · intro line hmem hop
    obtain ⟨value, -, rfl⟩ := hline line hmem
    rw [value_report_line hrows (horders.keys value), hop_count_rounded]
    rfl
  · intro line hmem
    obtain ⟨value, -, rfl⟩ := hline line hmem
    exact sum_spread fun hop => value_report_line hrows (horders.keys value) value hop
  · intro line hmem
    obtain ⟨value, hvalues, rfl⟩ := hline line hmem
    exact List.abs_mean_sub_le (hvalue value hvalues) fun record _ => abs_rounded_sub_le record
  · rw [hdelays, List.map_map]
    exact (List.map_id' orders.delays).symm ▸ horders.delays.trans (keys_perm_messages
      (mem_max_msg_latency_iff hrows))
  · intro delay hdelay
    rw [hdelays] at hdelay
    obtain ⟨id, hid, rfl⟩ := List.mem_map.mp hdelay
    exact isGreatest_max_msg_latency hrows (horders.delays.mem_iff.mp hid)
  · intro line hmem
    obtain ⟨value, -, rfl⟩ := hline line hmem
    simp only [summary_latency.Line.printed, lookup_report_line hrows (horders.keys value)]
    rfl

theorem message_rows_perm {records others : List Text} (hperm : others.Perm records)
    (value : Text) : (message_rows others value).Perm (message_rows records value) :=
  (hperm.filter accepted).filter fun record => message record = value

open shadow.latency_log (Delivery grep_line peer_name)

end shadow.summary_latency_large
