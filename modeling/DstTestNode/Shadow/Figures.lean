import Mathlib
import DstTestNode.Library.Mean
import DstTestNode.Library.Running
import DstTestNode.Shadow.LatencyRows

open awk

namespace shadow.summary_latency

/-- The third field is a number in decimal digits. -/
def wanted (record : Text) : Bool :=
  decide ((field record 3).to_string ≠ []) && (field record 3).to_string.all Char.isDigit

/-- The header that a script prints for a file. -/
def figures (records : List Text) : Except AwkError Header :=
  let vars := run records
  header vars.network_size vars.msg_arr vars.max_nw_lat vars.sum_nw_lat vars.NR

/-- The network latency is that of the latency rows. -/
structure FiguresRight (records : List Text) (header : Header) : Prop where
  numeric : header.max_nw_lat.is_numeric = true
  max : IsGreatest {x : ℚ | ∃ record ∈ records.filter wanted, x = latency record}
    header.max_nw_lat.to_number
  average : header.average = (records.filter wanted).mean fun record => (latency record : ℚ)

/-- The figures are right for a file, and stay so when other rows are added or
removed. -/
def LatencyRowsOnly (figures : List Text → Except AwkError Header) (records : List Text) : Prop :=
  ∀ others : List Text, others.filter wanted = records.filter wanted →
    ∃ header, figures others = .ok header ∧ FiguresRight others header

theorem accepted_of_wanted {record : Text} (hwanted : wanted record = true) :
    accepted record = true := by
  rw [wanted, Bool.and_eq_true] at hwanted
  rw [accepted_eq, hwanted.2]

theorem sum_nw_lat_main_rule (vars : Vars) (record : Text) : (main_rule vars record).sum_nw_lat =
    vars.sum_nw_lat + if accepted record then (last_field record).to_number else 0 := by
  unfold main_rule
  by_cases haccepted : accepted record = true
  · by_cases harr : arr record = [] <;> simp [haccepted, harr]
  · simp [haccepted]

theorem run_append (records : List Text) (record : Text) :
    run (records ++ [record]) = main_rule (run records) record := by
  rw [run, List.foldl_append]
  rfl

/-- The average divides by all rows of a file. -/
theorem figures_ok {records : List Text} (hsome : records ≠ []) :
    ∃ header, figures records = .ok header ∧ header.max_nw_lat = (run records).max_nw_lat ∧
      header.average = (run records).sum_nw_lat / records.length := by
  have hlength : ((records.length : Nat) : ℚ) ≠ 0 :=
    Nat.cast_ne_zero.mpr (List.length_eq_zero_iff.not.mpr hsome)
  simp only [figures, header, NR_run, divide, if_neg hlength, bind, Except.bind]
  exact ⟨_, rfl, rfl, rfl⟩

/-- A file that the figures are right for averages its latency rows. -/
theorem LatencyRowsOnly.average_eq {records others : List Text}
    (hrows : LatencyRowsOnly figures records)
    (hothers : others.filter wanted = records.filter wanted) (hsome : others ≠ []) :
    (run others).sum_nw_lat / others.length =
      (records.filter wanted).mean fun record => (latency record : ℚ) := by
  obtain ⟨header, hheader, hright⟩ := hrows others hothers
  obtain ⟨header', hheader', -, haverage⟩ := figures_ok hsome
  rw [hheader] at hheader'
  cases hheader'
  rw [← haverage, hright.average, hothers]

/-- A row that is not accepted lowers the average unless it is zero, and a row
of one field changes it then. -/
theorem not_latencyRowsOnly (records : List Text) (hwanted : ∃ record ∈ records, wanted record = true) :
    ¬ LatencyRowsOnly figures records := by
  intro hrows
  let rows := records.filter wanted
  have hrows_wanted : rows.filter wanted = records.filter wanted := by simp [rows]
  have hsome : rows ≠ [] := by
    obtain ⟨record, hrecord, hwanted⟩ := hwanted
    exact List.ne_nil_of_mem (List.mem_filter.mpr ⟨hrecord, hwanted⟩)
  have hlength : (0 : ℚ) < rows.length := Nat.cast_pos.mpr (List.length_pos_iff.mpr hsome)
  have happend (row : Text) (hrow : wanted row = false) :
      ((run rows).sum_nw_lat + if accepted row then (last_field row).to_number else 0) /
        (rows.length + 1) = (run rows).sum_nw_lat / rows.length := by
    have hfilter : (rows ++ [row]).filter wanted = records.filter wanted := by
      rw [List.filter_append, hrows_wanted, List.filter_singleton, hrow]
      simp
    have hmean := hrows.average_eq hfilter (by simp)
    rw [← hrows.average_eq hrows_wanted hsome, run_append, sum_nw_lat_main_rule,
      List.length_append] at hmean
    simpa using hmean
  have hrejected := happend "x y z".toList (by decide +kernel)
  have hshort := happend "1".toList (by decide +kernel)
  have haccepted : accepted "x y z".toList = false ∧ accepted "1".toList = true ∧
      (last_field "1".toList).to_number = 1 := by decide +kernel
  rw [haccepted.1] at hrejected
  rw [haccepted.2.1, haccepted.2.2] at hshort
  rw [div_eq_div_iff (by linarith) (by linarith)] at hrejected hshort
  simp only [Bool.false_eq_true, if_false, if_true] at hrejected hshort
  linarith

/-- Every accepted row is wanted, and ends with its latency. -/
def PlainRows (records : List Text) : Prop :=
  ∀ record ∈ records, accepted record = true → wanted record = true ∧
    (last_field record).is_numeric = true ∧ (last_field record).to_number = (latency record : ℚ)

/-- The latencies of a file. -/
def wanted_latencies (records : List Text) : Set ℚ :=
  {x | ∃ record ∈ records.filter wanted, x = latency record}

theorem wanted_latencies_append (records : List Text) (record : Text) :
    wanted_latencies (records ++ [record]) =
      if wanted record then insert (latency record : ℚ) (wanted_latencies records)
      else wanted_latencies records := by
  ext x
  by_cases hwanted : wanted record = true
  · simp [wanted_latencies, hwanted, or_and_right, exists_or, or_comm]
  · simp [wanted_latencies, hwanted]

theorem max_nw_lat_main_rule (vars : Vars) (record : Text) : (main_rule vars record).max_nw_lat =
    if accepted record then
      if vars.max_nw_lat.less (last_field record) then last_field record else vars.max_nw_lat
    else vars.max_nw_lat := by
  unfold main_rule
  by_cases haccepted : accepted record = true
  · by_cases harr : arr record = [] <;> simp [haccepted, harr]
  · simp [haccepted]

/-- The totals of a file whose accepted rows are wanted. -/
theorem PlainRows.totals {records : List Text} (hplain : PlainRows records) :
    (run records).sum_nw_lat =
        ((records.filter wanted).map fun record => (latency record : ℚ)).sum ∧
      (run records).max_nw_lat.is_numeric = true ∧
      IsGreatest (insert 0 (wanted_latencies records)) (run records).max_nw_lat.to_number := by
  induction records using List.reverseRecOn with
  | nil => exact ⟨rfl, rfl, by simp [wanted_latencies, run, begin_rule, Value.to_number]⟩
  | append_singleton records record ih =>
    obtain ⟨hsum, hnumeric, hgreatest⟩ :=
      ih fun other hother => hplain other (List.mem_append_left _ hother)
    rw [run_append, sum_nw_lat_main_rule, max_nw_lat_main_rule, wanted_latencies_append, hsum]
    by_cases haccepted : accepted record = true
    · obtain ⟨hwanted, hlast, hnumber⟩ := hplain record (by simp) haccepted
      obtain ⟨hnext, hmax⟩ := greater_numeric hnumeric hlast
      rw [if_pos haccepted, if_pos haccepted, if_pos hwanted]
      refine ⟨by simp [hwanted, hnumber], hnext, ?_⟩
      rw [hmax, hnumber, max_comm, Set.insert_comm]
      exact hgreatest.insert _
    · have hwanted : ¬ wanted record = true := fun hwanted =>
        haccepted (accepted_of_wanted hwanted)
      rw [if_neg haccepted, if_neg haccepted, if_neg hwanted]
      exact ⟨by simp [hwanted], hnumeric, hgreatest⟩

/-- A mean over more items is the mean only when they are no more or sum to zero. -/
theorem sum_div_eq_mean_iff {records : List Text} (hsome : records.filter wanted ≠ []) :
    ((records.filter wanted).map fun record => (latency record : ℚ)).sum / records.length =
        ((records.filter wanted).mean fun record => (latency record : ℚ)) ↔
      (∀ record ∈ records, wanted record = true) ∨
        ∀ record ∈ records, wanted record = true → latency record = 0 := by
  have hpos := List.length_pos_iff.mpr hsome
  have hrows : ((records.filter wanted).length : ℚ) ≠ 0 := Nat.cast_ne_zero.mpr (by omega)
  have hall : ((records.length : Nat) : ℚ) ≠ 0 := by
    have hle := List.length_filter_le wanted records
    exact Nat.cast_ne_zero.mpr (by omega)
  have hcast : ((records.filter wanted).map fun record => (latency record : ℚ)).sum =
      (((records.filter wanted).map latency).sum : Nat) := by
    rw [Nat.cast_list_sum, List.map_map]
    rfl
  rw [List.mean, div_eq_div_iff hall hrows, mul_eq_mul_left_iff, Nat.cast_inj,
    List.length_filter_eq_length_iff, hcast, Nat.cast_eq_zero, List.sum_eq_zero_iff]
  simp only [List.forall_mem_map, List.mem_filter, and_imp]

/-- The figures of a plain file are right exactly when it has no other rows or
only latencies of zero. -/
theorem PlainRows.figures_right_iff {records : List Text} (hplain : PlainRows records)
    (hwanted : ∃ record ∈ records, wanted record = true) :
    ∃ header, figures records = .ok header ∧ (FiguresRight records header ↔
      (∀ record ∈ records, wanted record = true) ∨
        ∀ record ∈ records, wanted record = true → latency record = 0) := by
  obtain ⟨record, hrecord, hrow⟩ := hwanted
  obtain ⟨header, hheader, hmax, haverage⟩ := figures_ok (List.ne_nil_of_mem hrecord)
  obtain ⟨hsum, hnumeric, hgreatest⟩ := hplain.totals
  have hmem : record ∈ records.filter wanted := List.mem_filter.mpr ⟨hrecord, hrow⟩
  have hiff := sum_div_eq_mean_iff (List.ne_nil_of_mem hmem)
  refine ⟨header, hheader, fun hright => ?_, fun hcondition => ⟨?_, ?_, ?_⟩⟩
  · rw [← hiff, ← hsum, ← haverage]
    exact hright.average
  · rw [hmax]
    exact hnumeric
  · rw [hmax]
    have hsome : (wanted_latencies records).Nonempty := ⟨_, record, hmem, rfl⟩
    refine Running.isGreatest_of_insert_zero hsome ?_ hgreatest
    rintro _ ⟨other, -, rfl⟩
    exact Nat.cast_nonneg _
  · rw [haverage, hsum]
    exact hiff.mpr hcondition

end shadow.summary_latency

namespace shadow.summary_latency_large

open shadow.summary_latency (Header header FiguresRight LatencyRowsOnly PlainRows wanted latency)

/-- The header that summary_latency_large.awk prints for a file. -/
def figures (records : List Text) : Except AwkError Header :=
  let vars := run records
  header vars.network_size vars.msg_arr vars.max_nw_lat vars.sum_nw_lat vars.NR

theorem figures_eq : figures = summary_latency.figures := by
  funext records
  obtain ⟨hsize, hmax, hsum, hmsg, hNR⟩ := agree_run records
  simp only [figures, summary_latency.figures, hsize, hmax, hsum, hmsg, hNR]

/-- No file with a latency row has figures that other rows leave alone. Those of
a file whose accepted rows are latency rows are right exactly when it has no
other row or only latencies of zero. So it suffices for any file that all its
rows are latency rows that end with their latency. -/
theorem figures_never {records : List Text} (hwanted : ∃ record ∈ records, wanted record = true) :
    ¬ LatencyRowsOnly summary_latency.figures records ∧ ¬ LatencyRowsOnly figures records ∧
      (PlainRows records → ∃ header, summary_latency.figures records = .ok header ∧
        figures records = .ok header ∧ (FiguresRight records header ↔
          (∀ record ∈ records, wanted record = true) ∨
            ∀ record ∈ records, wanted record = true → latency record = 0)) := by
  have hnever := summary_latency.not_latencyRowsOnly records hwanted
  rw [figures_eq]
  refine ⟨hnever, hnever, fun hplain => ?_⟩
  obtain ⟨header, hheader, hiff⟩ := hplain.figures_right_iff hwanted
  exact ⟨header, hheader, hheader, hiff⟩

open shadow.latency_log (Delivery grep_line peer_name)

theorem wanted_grep_line (delivery : Delivery) : wanted (grep_line peer_name delivery) = true := by
  have haccepted := latency_log.accepted_grep_line
    (latency_log.any_is_blank_peer_name delivery.host)
  rw [summary_latency.accepted_eq] at haccepted
  rw [wanted, haccepted, summary_latency.field_grep_line, Bool.and_true, decide_eq_true_eq]
  exact Decimal.repr_ne_nil delivery.latency

/-- The log of two deliveries, and of nothing else: its figures are right, but not
those of the same rows among others. -/
theorem figures_never_two :
    let records := [grep_line peer_name ⟨1, 1000, 7, 1700000000, 100⟩,
      grep_line peer_name ⟨2, 1000, 7, 1700000000, 200⟩]
    ¬ LatencyRowsOnly summary_latency.figures records ∧ ¬ LatencyRowsOnly figures records ∧
      ∃ header, summary_latency.figures records = .ok header ∧ figures records = .ok header ∧
        FiguresRight records header := by
  intro records
  have hplain : PlainRows records := by
    unfold PlainRows
    decide +kernel
  have hwanted : ∀ record ∈ records, wanted record = true := by decide +kernel
  obtain ⟨hsmall, hlarge, hfigures⟩ := figures_never ⟨_, List.mem_cons_self, wanted_grep_line _⟩
  obtain ⟨header, hheader, hheader', hiff⟩ := hfigures hplain
  exact ⟨hsmall, hlarge, header, hheader, hheader', hiff.mpr (.inl hwanted)⟩

/-- A delivery after 100 ms and a row about the bandwidth: the average is 50. -/
theorem average_over_bandwidth_row :
    let records := ["pod-1/main.1000.stdout:7:1700000000 milliseconds: 100".toList,
      "pod-1/main.1000.stdout:9:BW in use".toList]
    ∃ header, figures records = .ok header ∧ header.average = 50 ∧ ¬ FiguresRight records header ∧
      ¬ LatencyRowsOnly figures records := by
  intro records
  have hrows : records.filter wanted =
      ["pod-1/main.1000.stdout:7:1700000000 milliseconds: 100".toList] := by decide +kernel
  have hsum : (summary_latency.run records).sum_nw_lat = 100 := by decide +kernel
  have hlatency : latency "pod-1/main.1000.stdout:7:1700000000 milliseconds: 100".toList = 100 := by
    decide +kernel
  obtain ⟨header, hheader, -, haverage⟩ := summary_latency.figures_ok (List.cons_ne_nil _ _)
  have hfifty : header.average = 50 := by
    rw [haverage, hsum]
    norm_num [records]
  have hwrong : ¬ FiguresRight records header := by
    intro hright
    have hmean := hright.average
    rw [hrows, hfifty, List.mean, List.map_singleton, hlatency] at hmean
    norm_num at hmean
  rw [figures_eq]
  refine ⟨header, hheader, hfifty, hwrong, fun honly => ?_⟩
  obtain ⟨other, hother, hright⟩ := honly records rfl
  rw [hheader] at hother
  cases hother
  exact hwrong hright

end shadow.summary_latency_large
