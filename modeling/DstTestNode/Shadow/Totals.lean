import Mathlib
import DstTestNode.Shadow.ShadowLog

open awk

namespace shadow.summary_shadowlog

/-- The rows of the nodes. -/
def node_rows (records : List Text) : List Text := records.filter is_node

/-- What the script reads of a counter in a row. -/
def counter_value (block : Block) (counter : Counter) (record : Text) : ℚ :=
  (element (arr record) (fg_index + flag_size * block.place + counter.offset)).to_number

/-- The value of a column, when it is positive. -/
def positive (column : Nat) (record : Text) : ℚ :=
  if (Value.number 0).less (element (arr record) column) then
    (element (arr record) column).to_number
  else 0

theorem positive_nonneg (column : Nat) (record : Text) : 0 ≤ positive column record := by
  unfold positive
  split_ifs with hless
  · exact to_number_nonneg_of_less hless
  · exact le_refl 0

/-- The totals that are printed are the sums of their columns. -/
structure TotalsExact (records : List Text) (report : Report) : Prop where
  received : report.sum_in = ((node_rows records).map (positive 2)).sum
  transferred : report.sum_out = ((node_rows records).map (positive 3)).sum
  remote_in : ∀ counter, (report.remote_in counter).getD 0 =
    ((node_rows records).map (counter_value .remote_in counter)).sum
  remote_out : ∀ counter, (report.remote_out counter).getD 0 =
    ((node_rows records).map (counter_value .remote_out counter)).sum

theorem run_node_rows (records : List Text) :
    run records = (node_rows records).foldl main_rule begin_rule := by
  rw [run, node_rows, List.foldl_filter]
  congr 1
  funext vars record
  unfold main_rule
  by_cases hnode : is_node record = true <;> simp [hnode]

theorem peerlist_main_rule (vars : Vars) {record : Text} (hnode : is_node record = true) :
    (main_rule vars record).peerlist = vars.peerlist.insert (peer record) 1 := by
  unfold main_rule
  by_cases harr : arr record = [] <;> simp [hnode, harr]

/-- The peers of a log are those of its node rows. -/
theorem mem_peerlist_run (records : List Text) (value : Text) :
    value ∈ (run records).peerlist ↔ ∃ record ∈ node_rows records, peer record = value := by
  have hrule (vars : Vars) (record : Text) : value ∈ (main_rule vars record).peerlist ↔
      (is_node record = true ∧ peer record = value) ∨ value ∈ vars.peerlist := by
    by_cases hnode : is_node record = true
    · simp [hnode, peerlist_main_rule vars hnode, AList.mem_insert, eq_comm (a := value)]
    · simp [hnode, main_rule]
  have hempty : value ∉ begin_rule.peerlist := AList.notMem_empty value
  have hfold := foldl_rule_iff (fun vars => value ∈ vars.peerlist) hrule begin_rule records
  simpa [run, hempty, node_rows, and_assoc] using hfold

section

variable {table : Vars → Tally Text ℚ} {weight : Text → ℚ} (hbegin : table begin_rule = ∅)
  (hstep : ∀ vars record key, is_node record = true → (table (main_rule vars record)).value key =
    (table vars).value key + if key = peer record then weight record else 0)

include hbegin hstep

/-- A table that every node row adds to under its peer. -/
theorem value_run (records : List Text) (key : Text) : (table (run records)).value key =
    ((node_rows records).map fun record => if key = peer record then weight record else 0).sum := by
  have hfold (rows : List Text) (vars : Vars) (hrows : ∀ record ∈ rows, is_node record = true) :
      (table (rows.foldl main_rule vars)).value key = (table vars).value key +
        (rows.map fun record => if key = peer record then weight record else 0).sum := by
    induction rows generalizing vars with
    | nil => simp
    | cons record rows ih =>
      have hrest := ih (main_rule vars record) fun other hother =>
        hrows other (List.mem_cons_of_mem record hother)
      rw [List.foldl_cons, hrest, hstep vars record key (hrows record List.mem_cons_self),
        List.map_cons, List.sum_cons, add_assoc]
  have hnode : ∀ record ∈ node_rows records, is_node record = true :=
    fun record hrecord => (List.mem_filter.mp hrecord).2
  rw [run_node_rows, hfold _ _ hnode, hbegin, Tally.value_empty, zero_add]

/-- Sums of what is not negative are not negative. -/
theorem value_run_nonneg (hweight : ∀ record, 0 ≤ weight record) (records : List Text)
    (key : Text) : 0 ≤ (table (run records)).value key := by
  rw [value_run hbegin hstep]
  apply List.sum_nonneg
  refine List.forall_mem_map.mpr fun record _ => ?_
  split_ifs
  · exact hweight record
  · exact le_refl 0

variable (table) in
/-- The sum over the peers is the sum over the rows. -/
theorem sum_over_peers (records : List Text) {peers : List Text}
    (hpeers : peers.Perm (run records).peerlist.keys) :
    (peers.map (table (run records)).value).sum = ((node_rows records).map weight).sum := by
  have hnodup : peers.Nodup := hpeers.nodup_iff.mpr (run records).peerlist.keys_nodup
  have hmem : ∀ record ∈ node_rows records, peer record ∈ peers := fun record hrecord =>
    hpeers.mem_iff.mpr ((mem_peerlist_run records _).mpr ⟨record, hrecord, rfl⟩)
  have hvalue : (table (run records)).value = fun key =>
      ((node_rows records).map fun record => if key = peer record then weight record else 0).sum :=
    funext fun key => value_run hbegin hstep records key
  rw [hvalue]
  exact Tally.sum_by_key peer weight hnodup (node_rows records) hmem

end

theorem value_add_positive (sum : Tally Text ℚ) (key other : Text) (value : Value) :
    (add_positive sum key value).value other = sum.value other +
      if other = key then if (Value.number 0).less value then value.to_number else 0 else 0 := by
  unfold add_positive
  by_cases hless : (Value.number 0).less value = true
  · simp only [hless, if_true, Tally.value_add]
  · simp [hless]

theorem less_unset : (Value.number 0).less .unset = false :=
  Bool.eq_false_iff.mpr (mt (less_zero_iff rfl).mp (lt_irrefl 0))

theorem element_nil (n : Nat) : element [] n = .unset := rfl

theorem sum_rx_main_rule (vars : Vars) (record key : Text) (hnode : is_node record = true) :
    (main_rule vars record).sum_rx.value key =
      vars.sum_rx.value key + if key = peer record then positive 2 record else 0 := by
  unfold main_rule positive
  by_cases harr : arr record = []
  · simp [hnode, harr, element_nil, less_unset]
  · simp only [hnode, harr, if_true, if_false, value_add_positive]

theorem sum_tx_main_rule (vars : Vars) (record key : Text) (hnode : is_node record = true) :
    (main_rule vars record).sum_tx.value key =
      vars.sum_tx.value key + if key = peer record then positive 3 record else 0 := by
  unfold main_rule positive
  by_cases harr : arr record = []
  · simp [hnode, harr, element_nil, less_unset]
  · simp only [hnode, harr, if_true, if_false, value_add_positive]

theorem counters_main_rule (block : Block) (counter : Counter) (vars : Vars) (record key : Text)
    (hnode : is_node record = true) : ((main_rule vars record).counters block counter).value key =
      (vars.counters block counter).value key +
        if key = peer record then counter_value block counter record else 0 := by
  unfold main_rule counter_value
  by_cases harr : arr record = []
  · simp [hnode, harr, element_nil, Value.to_number]
  · simp only [hnode, harr, if_true, if_false, Tally.value_add]

section

variable (counters : Block → Counter → Tally Text ℚ)

theorem nodup_assignments : ((assignments counters).map Prod.fst).Nodup := by
  simp [assignments]

/-- A variable that is assigned gathers the entries of its array. -/
theorem value_foldl_add_counters {name : String} {table : Tally Text ℚ}
    (hassigned : (name, table) ∈ assignments counters) (peers : List Text)
    (globals : Tally String ℚ) : (peers.foldl (add_counters counters) globals).value name =
      globals.value name + (peers.map table.value).sum := by
  induction peers generalizing globals with
  | nil => simp
  | cons peer peers ih =>
    have hadd := Tally.value_foldl (fun assignment : String × Tally Text ℚ => assignment.1)
      (fun assignment => assignment.2.value peer) (assignments counters) globals name
    have hone := Tally.sum_of_mem (fun assignment : String × Tally Text ℚ => assignment.1)
      (fun assignment => assignment.2.value peer) (nodup_assignments counters) hassigned
    rw [List.foldl_cons, ih, add_counters, hadd, hone, List.map_cons, List.sum_cons, add_assoc]

/-- A variable that is never assigned stays unset. -/
theorem notMem_foldl_add_counters {name : String}
    (hname : ∀ assignment ∈ assignments counters, name ≠ assignment.1) (peers : List Text)
    (globals : Tally String ℚ) (hglobals : name ∉ globals) :
    name ∉ peers.foldl (add_counters counters) globals := by
  induction peers generalizing globals with
  | nil => exact hglobals
  | cons peer peers ih =>
    apply ih
    intro hmem
    rcases (Tally.mem_foldl (fun assignment : String × Tally Text ℚ => assignment.1)
      (fun assignment => assignment.2.value peer) _ globals name).mp hmem with hassigned | hmem
    · obtain ⟨assignment, hassignment, heq⟩ := hassigned
      exact hname assignment hassignment heq
    · exact hglobals hmem

theorem assigned_remote_in (counter : Counter) :
    (remote_in_variable counter, counters .remote_in counter) ∈ assignments counters := by
  cases counter <;> simp [assignments, remote_in_variable]

theorem assigned_remote_out {counter : Counter} (hcounter : counter ≠ .bytes) :
    (remote_out_variable counter, counters .remote_out counter) ∈ assignments counters := by
  cases counter <;> simp [assignments, remote_out_variable] at hcounter ⊢

theorem not_assigned_remote_out : ∀ assignment ∈ assignments counters,
    remote_out_variable .bytes ≠ assignment.1 := by
  simp [assignments, remote_out_variable]

end

/-- The report of a log: every total but one is right, and the one is not set. -/
theorem totals_run {records : List Text} (hnode : node_rows records ≠ []) {orders : Orders}
    (horders : orders.Enumerates (run records)) :
    ∃ report, end_rule orders (run records) = .ok report ∧
      report.sum_in = ((node_rows records).map (positive 2)).sum ∧
      report.sum_out = ((node_rows records).map (positive 3)).sum ∧
      (∀ counter, (report.remote_in counter).getD 0 =
        ((node_rows records).map (counter_value .remote_in counter)).sum) ∧
      (∀ counter, counter ≠ .bytes → (report.remote_out counter).getD 0 =
        ((node_rows records).map (counter_value .remote_out counter)).sum) ∧
      report.remote_out .bytes = none := by
  have hsome : (run records).peerlist.keys ≠ [] := by
    obtain ⟨record, hrecord⟩ := List.exists_mem_of_ne_nil _ hnode
    exact List.ne_nil_of_mem ((mem_peerlist_run records _).mpr ⟨record, hrecord, rfl⟩)
  have hcounters (block : Block) (counter : Counter) :
      (orders.second.map ((run records).counters block counter).value).sum =
        ((node_rows records).map (counter_value block counter)).sum :=
    sum_over_peers (fun vars => vars.counters block counter) rfl
      (counters_main_rule block counter) records horders.second
  obtain ⟨report, hreport, hin, hout, -, -, -, -, -, -, hremote_in, hremote_out⟩ :=
    end_rule_ok hsome orders
  refine ⟨report, hreport, ?_, ?_, fun counter => ?_, fun counter hcounter => ?_, ?_⟩
  · rw [hin]
    exact sum_over_peers _ rfl sum_rx_main_rule records horders.first
  · rw [hout]
    exact sum_over_peers _ rfl sum_tx_main_rule records horders.first
  · have hvalue := value_foldl_add_counters _
      (assigned_remote_in (run records).counters counter) orders.second ∅
    rw [hcounters, Tally.value_empty, zero_add] at hvalue
    rw [hremote_in, ← hvalue]
    rfl
  · have hvalue := value_foldl_add_counters _
      (assigned_remote_out (run records).counters hcounter) orders.second ∅
    rw [hcounters, Tally.value_empty, zero_add] at hvalue
    rw [hremote_out, ← hvalue]
    rfl
  · rw [hremote_out]
    exact AList.lookup_eq_none.mpr (notMem_foldl_add_counters _ (not_assigned_remote_out _)
      orders.second ∅ (AList.notMem_empty _))

/-- The totals are right exactly when the nodes sent no bytes to others: the
line `Remote OUT` prints a variable that is never assigned. -/
theorem totals_exact_iff {records : List Text} (hnode : ∃ record ∈ records, is_node record = true)
    {orders : Orders} (horders : orders.Enumerates (run records)) :
    ∃ report, end_rule orders (run records) = .ok report ∧ report.remote_out .bytes = none ∧
      (TotalsExact records report ↔
        ((node_rows records).map (counter_value .remote_out .bytes)).sum = 0) := by
  obtain ⟨record, hrecord, hnode⟩ := hnode
  obtain ⟨report, hreport, hin, hout, hremote_in, hremote_out, hunset⟩ :=
    totals_run (List.ne_nil_of_mem (List.mem_filter.mpr ⟨hrecord, hnode⟩)) horders
  refine ⟨report, hreport, hunset, fun hexact => ?_, fun hzero => ⟨hin, hout, hremote_in, ?_⟩⟩
  · have hbytes := hexact.remote_out .bytes
    rw [hunset] at hbytes
    exact hbytes.symm
  · intro counter
    by_cases hcounter : counter = .bytes
    · rw [hcounter, hunset, hzero]
      rfl
    · exact hremote_out counter hcounter

/-- A row of one node that sent 900 bytes in three packets. -/
def heartbeat : Text :=
  "00:00:09 [7] 00:01:00 [message] pod-0 ".toList ++
    "[tracker.c:407] [log] [shadow-heartbeat] [node] ".toList ++
    "60,0,900,0,0,0;0,0,0,0,0,0,0,0,0,0,0,0;".toList ++ "0,0,0,0,0,0,0,0,0,0,0,0;".toList ++
    "0,0,0,0,0,0,0,0,0,0,0,0;".toList ++ "3,900,1,60,0,0,2,120,720,0,0,0".toList

theorem is_node_heartbeat : is_node heartbeat = true := by decide +kernel

theorem node_rows_heartbeat : node_rows [heartbeat] = [heartbeat] :=
  List.filter_cons_of_pos is_node_heartbeat

/-- A row of a node that sent nothing. -/
def idle_heartbeat : Text :=
  "00:00:09 [7] 00:01:00 [message] pod-1 ".toList ++
    "[tracker.c:407] [log] [shadow-heartbeat] [node] ".toList ++ "60,0,0,0,0,0".toList

/-- A row of a node that received 500 bytes, and a line of another kind. -/
def receiving_log : List Text :=
  ["00:00:09 [7] 00:01:00 [message] pod-2 ".toList ++
      "[tracker.c:407] [log] [shadow-heartbeat] [node] ".toList ++ "60,500,0,0,0,0".toList,
    "00:00:10 [7] 00:01:00 [message] pod-2 [socket] 1".toList, idle_heartbeat]

/-- A log of two nodes of which none sent anything. -/
theorem totals_exact_iff_heartbeat :
    ∃ report, end_rule (Orders.keys (run receiving_log)) (run receiving_log) = .ok report ∧
      report.sum_in = 500 ∧ report.remote_out .bytes = none ∧ TotalsExact receiving_log report := by
  have hnode : ∃ record ∈ receiving_log, is_node record = true :=
    ⟨idle_heartbeat, by simp [receiving_log], by decide +kernel⟩
  obtain ⟨report, hreport, hunset, hiff⟩ := totals_exact_iff hnode (Orders.keys_enumerates _)
  have hexact := hiff.mpr (by decide +kernel)
  exact ⟨report, hreport, hexact.received.trans (by decide +kernel), hunset, hexact⟩

/-- The bytes it sent are not printed. -/
theorem remote_out_bytes_unset :
    ((node_rows [heartbeat]).map (counter_value .remote_out .bytes)).sum = 900 ∧
      ∀ orders : Orders, orders.Enumerates (run [heartbeat]) →
        ∃ report, end_rule orders (run [heartbeat]) = .ok report ∧
          report.remote_out .bytes = none ∧ ¬ TotalsExact [heartbeat] report := by
  have hbytes : counter_value .remote_out .bytes heartbeat = 900 := by decide +kernel
  have hsum : ((node_rows [heartbeat]).map (counter_value .remote_out .bytes)).sum = 900 := by
    rw [node_rows_heartbeat, List.map_singleton, List.sum_singleton, hbytes]
  refine ⟨hsum, fun orders horders => ?_⟩
  have hnode : node_rows [heartbeat] ≠ [] := by simp [node_rows_heartbeat]
  obtain ⟨report, hreport, -, -, -, -, hunset⟩ := totals_run hnode horders
  refine ⟨report, hreport, hunset, fun hexact => ?_⟩
  have hbytes := hexact.remote_out .bytes
  rw [hunset, hsum] at hbytes
  norm_num at hbytes

end shadow.summary_shadowlog
