import Mathlib
import DstTestNode.Library.Decimal
import DstTestNode.Shadow.LatencyLog
import DstTestNode.Shadow.SummaryEnd

open awk

namespace shadow.summary_latency

/-- The message that a row counts for. -/
def message (record : Text) : Text := (element (arr record) 4).to_string

/-- The latency of a row. -/
def latency (record : Text) : Nat := Nat.ofDigitChars 10 (field record 3).to_string 0

/-- Every accepted row has a latency, and its message can be split off a
subscript. -/
def LatencyRows (records : List Text) : Prop :=
  ∀ record ∈ records, accepted record = true →
    (field record 3).to_string ≠ [] ∧ '\x1c' ∉ message record

/-- The rows that the arrays count. -/
def counted (record : Text) : Bool := accepted record && decide (arr record ≠ [])

/-- The subscript under which a row is counted. -/
def row_key (record : Text) : Text := subscript (element (arr record) 4) (field record 3)

theorem NR_main_rule (vars : Vars) (record : Text) : (main_rule vars record).NR = vars.NR + 1 := by
  unfold main_rule
  by_cases haccepted : accepted record = true
  · by_cases harr : arr record = [] <;> simp [haccepted, harr]
  · simp [haccepted]

theorem NR_run (records : List Text) : (run records).NR = records.length := by
  have hfold (vars : Vars) : (records.foldl main_rule vars).NR = vars.NR + records.length := by
    induction records generalizing vars with
    | nil => rfl
    | cons record records ih =>
      rw [List.foldl_cons, ih, NR_main_rule, List.length_cons]
      omega
  rw [run, hfold]
  exact Nat.zero_add _

theorem lat_arr_main_rule (vars : Vars) (record : Text) :
    (main_rule vars record).lat_arr =
      if counted record then Tally.add vars.lat_arr (row_key record) 1 else vars.lat_arr := by
  unfold main_rule counted
  by_cases haccepted : accepted record = true
  · by_cases harr : arr record = []
    · simp [haccepted, harr]
    · simp only [haccepted, harr, if_true, if_false, ne_eq, not_false_eq_true, decide_true,
        Bool.and_self]
      rfl
  · simp [haccepted]

theorem lat_arr_run (records : List Text) :
    (run records).lat_arr = Tally.count row_key (records.filter counted) := by
  rw [run, Tally.count, List.foldl_filter]
  exact (List.foldl_hom Vars.lat_arr fun vars record => (lat_arr_main_rule vars record).symm).symm

section

variable {record : Text} (hlatency : (field record 3).to_string ≠ [])

include hlatency

/-- A third field follows a first one, which can be split. -/
theorem arr_ne_nil : arr record ≠ [] := by
  have hfield : ∃ text ∈ fields record, (fields record)[0]? = some text := by
    cases hfields : fields record with
    | nil => simp [field, element, hfields, Value.to_string] at hlatency
    | cons text texts => exact ⟨text, by simp, by simp⟩
  obtain ⟨text, hmem, hfirst⟩ := hfield
  have hnonempty : text ≠ [] := by
    simpa using (List.mem_filter.mp hmem).2
  have htext : (field record 1).to_string = text := by
    simp [field, element, hfirst, Value.to_string]
  rw [arr, htext, split, if_neg hnonempty]
  exact Regex.split_ne_nil separator text

theorem counted_eq_accepted : counted record = accepted record := by
  simp [counted, arr_ne_nil hlatency]

theorem field_eq_input : field record 3 = .input (field record 3).to_string := by
  unfold field element at *
  split at hlatency
  · rfl
  · exact absurd rfl hlatency

end

theorem digits_of_accepted {record : Text} (haccepted : accepted record = true) :
    ∀ c ∈ (field record 3).to_string, c.isDigit = true := by
  rw [accepted_eq] at haccepted
  exact List.all_eq_true.mp haccepted

/-- An accepted row with a third field has a number there. -/
theorem to_number_field {record : Text} (haccepted : accepted record = true)
    (hlatency : (field record 3).to_string ≠ []) :
    (field record 3).is_numeric = true ∧ (field record 3).to_number = (latency record : ℚ) := by
  have hdigits := digits_of_accepted haccepted
  rw [field_eq_input hlatency]
  exact ⟨is_numeric_digits hlatency hdigits, to_number_digits hlatency hdigits⟩

section

variable {records : List Text} (hrows : LatencyRows records)

include hrows

theorem filter_counted : records.filter counted = records.filter accepted := by
  apply List.filter_congr
  intro record hrecord
  by_cases haccepted : accepted record = true
  · exact counted_eq_accepted (hrows record hrecord haccepted).1
  · simp [counted, haccepted]

theorem mem_msg_arr_iff (id : Text) :
    id ∈ (run records).msg_arr ↔ rows_of (records.filter accepted) message id ≠ [] := by
  rw [mem_msg_arr_run]
  constructor
  · rintro ⟨record, hrecord, haccepted, -, hid⟩
    exact List.ne_nil_of_mem (mem_rows_of.mpr ⟨List.mem_filter.mpr ⟨hrecord, haccepted⟩, hid⟩)
  · intro hne
    obtain ⟨record, hmem⟩ := List.exists_mem_of_ne_nil _ hne
    obtain ⟨hfilter, hid⟩ := mem_rows_of.mp hmem
    obtain ⟨hrecord, haccepted⟩ := List.mem_filter.mp hfilter
    exact ⟨record, hrecord, haccepted, arr_ne_nil (hrows record hrecord haccepted).1, hid⟩

theorem subscripts_row_key : Subscripts (records.filter accepted) message row_key
    fun record => (latency record : ℚ) := by
  intro record hrecord
  obtain ⟨hmem, haccepted⟩ := List.mem_filter.mp hrecord
  obtain ⟨hlatency, hmessage⟩ := hrows record hmem haccepted
  have hdigits := digits_of_accepted haccepted
  have hplain : '\x1c' ∉ (field record 3).to_string := fun hc => by cases hdigits _ hc
  rw [key_message, key_latency, row_key, split_subscript hmessage hplain]
  exact ⟨rfl, to_number_digits hlatency hdigits⟩

end

section

open shadow.latency_log (Delivery grep_line peer_name)

theorem field_grep_line (delivery : Delivery) :
    field (grep_line peer_name delivery) 3 = .input delivery.latency.repr.toList := by
  rw [field, latency_log.fields_grep_line (latency_log.any_is_blank_peer_name delivery.host)]
  rfl

theorem message_grep_line (delivery : Delivery) :
    message (grep_line peer_name delivery) = delivery.publish_time.repr.toList := by
  rw [message, latency_log.arr_peer]
  rfl

theorem latency_grep_line (delivery : Delivery) :
    latency (grep_line peer_name delivery) = delivery.latency := by
  rw [latency, field_grep_line]
  exact Decimal.ofDigitChars_repr delivery.latency

/-- The rows of a log have latencies. -/
theorem latencyRows_log (deliveries : List Delivery) :
    LatencyRows (deliveries.map (grep_line peer_name)) := by
  intro record hrecord _
  obtain ⟨delivery, -, rfl⟩ := List.mem_map.mp hrecord
  rw [field_grep_line, message_grep_line]
  exact ⟨Decimal.repr_ne_nil delivery.latency, Decimal.notMem_repr rfl delivery.publish_time⟩

end

end shadow.summary_latency
