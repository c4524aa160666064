import Mathlib
import DstTestNode.Library.Mean
import DstTestNode.Library.Tally
import DstTestNode.Shadow.SummaryLatency

open awk

namespace shadow.summary_latency

/-- What the inner loop of the END rule accumulates for one message. -/
structure Totals where
  sum_rx_msgs : Nat
  latency : ℚ
  spread : Tally Int Nat

/-- `parts[1]` after `split(key, parts, SUBSEP)`. -/
def key_message (key : Text) : Value := element (split key SUBSEP) 1

/-- `parts[2]` as a number. -/
def key_latency (key : Text) : ℚ := (element (split key SUBSEP) 2).to_number

/-- One pass of the inner loop of the END rule, which is the same in both
scripts. -/
def add_key (lat_arr : Table Nat) (value : Text) (totals : Totals) (key : Text) : Totals :=
  if (key_message key).equal (.string value) then
    let received := Tally.value lat_arr key
    { sum_rx_msgs := totals.sum_rx_msgs + received
      latency := totals.latency + received * key_latency key
      spread := totals.spread.insert (int (key_latency key / hop_lat)) received }
  else totals

/-- A line of the report, with the whole array `spread` at that time. -/
structure Line where
  value : Text
  average : ℚ
  sum_rx_msgs : Nat
  spread : Tally Int Nat

/-- The line of one message. The inner loop visits `keys`, and `spread` is
deleted after the line. -/
def message_line (lat_arr : Table Nat) (keys : List Text) (spread : Tally Int Nat) (value : Text) :
    Except AwkError Line := do
  let totals := keys.foldl (add_key lat_arr value) ⟨0, 0, spread⟩
  let average ← divide totals.latency totals.sum_rx_msgs
  .ok ⟨value, average, totals.sum_rx_msgs, totals.spread⟩

/-- What is printed of a line: `spread` from the first hop to the last one that
has a column. An entry that is not set prints as nothing. -/
def Line.printed (hops : Nat) (line : Line) : Text × ℚ × Nat × List (Option Nat) :=
  (line.value, line.average, line.sum_rx_msgs,
    (List.range hops).map fun hop => line.spread.lookup ((hop + 1 : Nat) : Int))

/-- The orders in which the loops visit the subscripts. -/
structure Orders where
  values : List Text
  keys : Text → List Text

/-- The first line of the report. -/
structure Header where
  network_size : Value
  messages : Nat
  max_nw_lat : Value
  average : ℚ

def header (network_size : Value) (msg_arr : Table Nat) (max_nw_lat : Value) (sum_nw_lat : ℚ)
    (NR : Nat) : Except AwkError Header := do
  let average ← divide sum_nw_lat NR
  .ok ⟨network_size, msg_arr.keys.length, max_nw_lat, average⟩

/-- The report of summary_latency.awk. -/
structure Summary where
  header : Header
  lines : List Line

/-- The loops visit each subscript once. -/
structure Orders.Enumerates (orders : Orders) (lat_arr msg_arr : Table Nat) : Prop where
  values : orders.values.Perm msg_arr.keys
  keys : ∀ value, (orders.keys value).Perm lat_arr.keys

/-- The END rule of summary_latency.awk. -/
def end_rule (orders : Orders) (vars : Vars) : Except AwkError Summary := do
  let header ← header vars.network_size vars.msg_arr vars.max_nw_lat vars.sum_nw_lat vars.NR
  let lines ← orders.values.mapM fun value =>
    message_line vars.lat_arr (orders.keys value) ∅ value
  .ok ⟨header, lines⟩

/-- The columns of the report for the hops. -/
def hops : Nat := 7

/-- The subscripts of a message. -/
def of_message (value key : Text) : Bool := (key_message key).equal (.string value)

/-- The sums do not depend on the order of the subscripts; an entry of `spread`
is assigned by the last one. -/
theorem foldl_add_key (lat_arr : Table Nat) (value : Text) (keys : List Text) (totals : Totals) :
    keys.foldl (add_key lat_arr value) totals =
      { sum_rx_msgs := totals.sum_rx_msgs +
          ((keys.filter (of_message value)).map (Tally.value lat_arr)).sum
        latency := totals.latency + ((keys.filter (of_message value)).map fun key =>
          ((Tally.value lat_arr key : Nat) : ℚ) * key_latency key).sum
        spread := (keys.filter (of_message value)).foldl (fun spread key =>
          spread.insert (int (key_latency key / hop_lat)) (Tally.value lat_arr key))
          totals.spread } := by
  induction keys generalizing totals with
  | nil => simp
  | cons key keys ih =>
    rw [List.foldl_cons, ih]
    by_cases hmine : of_message value key = true
    · have hstep : (key_message key).equal (.string value) = true := hmine
      simp only [add_key, hstep, if_true, List.filter_cons_of_pos hmine, List.map_cons,
        List.sum_cons, List.foldl_cons, add_assoc]
    · have hstep : ¬ (key_message key).equal (.string value) = true := hmine
      simp only [add_key, hstep, Bool.false_eq_true, if_false, List.filter_cons_of_neg hmine]

/-- The subscripts of a message that belong to a hop. -/
def of_hop (value : Text) (hop : Int) (key : Text) : Bool :=
  of_message value key && decide (int (key_latency key / hop_lat) = hop)

/-- The last subscript of a hop decides its entry. -/
theorem lookup_spread (lat_arr : Table Nat) (value : Text) (keys : List Text) (totals : Totals)
    (hop : Int) : (keys.foldl (add_key lat_arr value) totals).spread.lookup hop =
      ((keys.filter (of_hop value hop)).getLast?.map (Tally.value lat_arr)).or
        (totals.spread.lookup hop) := by
  rw [foldl_add_key, Tally.lookup_foldl_insert fun key => int (key_latency key / hop_lat),
    List.filter_filter]
  congr 3
  apply List.filter_congr
  intro key _
  rw [of_hop, Bool.and_comm]

section

variable {ι : Type} {rows : List ι} {id key : ι → Text} {delay : ι → ℚ}

/-- The subscripts of the rows tell their messages and their latencies. -/
def Subscripts (rows : List ι) (id key : ι → Text) (delay : ι → ℚ) : Prop :=
  ∀ row ∈ rows, key_message (key row) = .input (id row) ∧ key_latency (key row) = delay row

/-- The rows of a message. -/
def rows_of (rows : List ι) (id : ι → Text) (value : Text) : List ι :=
  rows.filter fun row => id row = value

theorem mem_rows_of {value : Text} {row : ι} :
    row ∈ rows_of rows id value ↔ row ∈ rows ∧ id row = value := by
  simp [rows_of]

/-- The line of a message, by its rows. -/
def report_line (rows : List ι) (id key : ι → Text) (delay : ι → ℚ) (keys : List Text)
    (spread : Tally Int Nat) (value : Text) : Line where
  value := value
  average := (rows_of rows id value).mean delay
  sum_rx_msgs := (rows_of rows id value).length
  spread := (keys.foldl (add_key (Tally.count key rows) value) ⟨0, 0, spread⟩).spread

/-- How many rows of a message belong to a hop. -/
def hop_count (rows : List ι) (id : ι → Text) (delay : ι → ℚ) (value : Text) (hop : Int) : Nat :=
  (rows_of rows id value).countP fun row => int (delay row / hop_lat) = hop

theorem of_message_key (hparts : Subscripts rows id key delay) {row : ι} (hrow : row ∈ rows)
    (value : Text) : of_message value (key row) = decide (id row = value) := by
  rw [of_message, (hparts row hrow).1]
  simp [Value.equal, Value.is_numeric, Value.to_string, beq_eq_decide]

theorem filter_of_message (hparts : Subscripts rows id key delay) (value : Text) :
    rows.filter (fun row => of_message value (key row)) = rows_of rows id value :=
  List.filter_congr fun _ hrow => of_message_key hparts hrow value

section

variable {keys : List Text} (hkeys : keys.Perm (Tally.count key rows).keys)

include hkeys

theorem mem_keys {row : ι} (hrow : row ∈ rows) : key row ∈ keys :=
  hkeys.mem_iff.mpr ((Tally.mem_count key rows _).mpr ⟨row, hrow, rfl⟩)

theorem exists_row {subscript : Text} (hsubscript : subscript ∈ keys) :
    ∃ row ∈ rows, key row = subscript :=
  (Tally.mem_count key rows _).mp (hkeys.mem_iff.mp hsubscript)

theorem nodup_keys : keys.Nodup := hkeys.nodup_iff.mpr (Tally.count key rows).keys_nodup

theorem value_pos {subscript : Text} (hsubscript : subscript ∈ keys) :
    0 < (Tally.count key rows).value subscript := by
  obtain ⟨row, hrow, rfl⟩ := exists_row hkeys hsubscript
  rw [Tally.value_count, List.countP_pos_iff]
  exact ⟨row, hrow, by simp⟩

/-- The line of a message counts its rows, and averages their latencies. -/
theorem message_line_count (hparts : Subscripts rows id key delay) (spread : Tally Int Nat)
    {value : Text} (hvalue : rows_of rows id value ≠ []) :
    message_line (Tally.count key rows) keys spread value =
      .ok (report_line rows id key delay keys spread value) := by
  have hmem : ∀ row ∈ rows, key row ∈ keys := fun row hrow => mem_keys hkeys hrow
  have hcount := Tally.sum_count key (nodup_keys hkeys) hmem (of_message value) fun _ => 1
  have hsum := Tally.sum_count key (nodup_keys hkeys) hmem (of_message value) key_latency
  have hdelay : ((rows_of rows id value).map fun row => key_latency (key row)) =
      (rows_of rows id value).map delay :=
    List.map_congr_left fun row hrow => (hparts row (List.mem_filter.mp hrow).1).2
  have hlength : ((rows_of rows id value).length : ℚ) ≠ 0 :=
    Nat.cast_ne_zero.mpr (List.length_eq_zero_iff.not.mpr hvalue)
  simp only [smul_eq_mul, mul_one, List.map_const', List.sum_replicate, filter_of_message hparts]
    at hcount
  simp only [nsmul_eq_mul, filter_of_message hparts, hdelay] at hsum
  rw [message_line, foldl_add_key]
  simp only [hcount, hsum, zero_add, divide, if_neg hlength, bind, Except.bind]
  rw [report_line, List.mean, foldl_add_key]

/-- The subscripts of a hop have been counted as often as it has rows. -/
theorem sum_of_hop (hparts : Subscripts rows id key delay) (value : Text) (hop : Int) :
    ((keys.filter (of_hop value hop)).map (Tally.count key rows).value).sum =
      hop_count rows id delay value hop := by
  have hmem : ∀ row ∈ rows, key row ∈ keys := fun row hrow => mem_keys hkeys hrow
  have hcount := Tally.sum_count key (nodup_keys hkeys) hmem (of_hop value hop) fun _ => 1
  simp only [smul_eq_mul, mul_one, List.map_const', List.sum_replicate] at hcount
  rw [hcount, hop_count, rows_of, List.countP_filter, List.countP_eq_length_filter]
  congr 1
  apply List.filter_congr
  intro row hrow
  rw [of_hop, of_message_key hparts hrow, (hparts row hrow).2, Bool.and_comm]

theorem exists_row_of_hop (hparts : Subscripts rows id key delay) {value subscript : Text}
    {hop : Int} (hsubscript : subscript ∈ keys.filter (of_hop value hop)) :
    ∃ row ∈ rows_of rows id value, int (delay row / hop_lat) = hop ∧ key row = subscript := by
  obtain ⟨hmem, hhop⟩ := List.mem_filter.mp hsubscript
  obtain ⟨row, hrow, rfl⟩ := exists_row hkeys hmem
  rw [of_hop, of_message_key hparts hrow, (hparts row hrow).2, Bool.and_eq_true,
    decide_eq_true_eq, decide_eq_true_eq] at hhop
  exact ⟨row, List.mem_filter.mpr ⟨hrow, by simpa using hhop.1⟩, hhop.2, rfl⟩

theorem mem_of_hop (hparts : Subscripts rows id key delay) {value : Text} {row : ι}
    (hrow : row ∈ rows_of rows id value) :
    key row ∈ keys.filter (of_hop value (int (delay row / hop_lat))) := by
  obtain ⟨hmem, hid⟩ := List.mem_filter.mp hrow
  refine List.mem_filter.mpr ⟨mem_keys hkeys hmem, ?_⟩
  rw [of_hop, of_message_key hparts hmem, (hparts row hmem).2, hid]
  simp

/-- When the rows of a hop share one subscript, its entry counts them. -/
theorem lookup_spread_of_unique (hparts : Subscripts rows id key delay) {value : Text} {hop : Int}
    (hunique : ∀ row ∈ rows_of rows id value, ∀ other ∈ rows_of rows id value,
      int (delay row / hop_lat) = hop → int (delay other / hop_lat) = hop → key row = key other)
    (totals : Totals) :
    (keys.foldl (add_key (Tally.count key rows) value) totals).spread.lookup hop =
      if hop_count rows id delay value hop = 0 then totals.spread.lookup hop
      else some (hop_count rows id delay value hop) := by
  have hsame : ∀ first ∈ keys.filter (of_hop value hop), ∀ other ∈ keys.filter (of_hop value hop),
      first = other := by
    intro first hfirst other hother
    obtain ⟨row, hrow, hhop, rfl⟩ := exists_row_of_hop hkeys hparts hfirst
    obtain ⟨row', hrow', hhop', rfl⟩ := exists_row_of_hop hkeys hparts hother
    exact hunique row hrow row' hrow' hhop hhop'
  have hnodup := (nodup_keys hkeys).filter (of_hop value hop)
  rw [lookup_spread, ← sum_of_hop hkeys hparts value hop]
  cases hmine : keys.filter (of_hop value hop) with
  | nil => simp
  | cons first others =>
    rw [hmine] at hsame hnodup
    have hothers : others = [] := by
      apply List.eq_nil_iff_forall_not_mem.mpr
      intro other hother
      have heq := hsame first List.mem_cons_self other (List.mem_cons_of_mem first hother)
      exact (List.nodup_cons.mp hnodup).1 (heq ▸ hother)
    have hfirst : first ∈ keys.filter (of_hop value hop) := by simp [hmine]
    have hpos := value_pos hkeys (List.mem_filter.mp hfirst).1
    subst hothers
    simp [Nat.ne_of_gt hpos]

/-- When two rows of a hop have different subscripts, its entry leaves some of
its rows out. -/
theorem lookup_spread_of_collision (hparts : Subscripts rows id key delay) {value : Text}
    {row other : ι} (hrow : row ∈ rows_of rows id value) (hother : other ∈ rows_of rows id value)
    (hhop : int (delay row / hop_lat) = int (delay other / hop_lat)) (hne : key row ≠ key other)
    (totals : Totals) :
    ∃ received, (keys.foldl (add_key (Tally.count key rows) value) totals).spread.lookup
        (int (delay row / hop_lat)) = some received ∧
      received < hop_count rows id delay value (int (delay row / hop_lat)) := by
  let mine := keys.filter (of_hop value (int (delay row / hop_lat)))
  have hfirst : key row ∈ mine := mem_of_hop hkeys hparts hrow
  have hsecond : key other ∈ mine := by
    simpa only [mine, hhop] using mem_of_hop hkeys hparts hother
  obtain ⟨last, hlast⟩ : ∃ last, mine.getLast? = some last :=
    ⟨_, List.getLast?_eq_some_getLast (List.ne_nil_of_mem hfirst)⟩
  refine ⟨(Tally.count key rows).value last, ?_, ?_⟩
  · rw [lookup_spread, hlast]
    rfl
  · obtain ⟨left, hleft, hleft_ne⟩ : ∃ left ∈ mine, left ≠ last := by
      by_cases heq : key row = last
      · exact ⟨key other, hsecond, fun h => hne (heq.trans h.symm)⟩
      · exact ⟨key row, hfirst, heq⟩
    have hperm := List.perm_cons_erase (List.mem_of_getLast? hlast)
    have hrest : left ∈ mine.erase last := (List.mem_erase_of_ne hleft_ne).mpr hleft
    have hpos := value_pos hkeys (List.mem_filter.mp hleft).1
    have hle := List.single_le_sum (l := (mine.erase last).map (Tally.count key rows).value)
      (fun _ _ => Nat.zero_le _) _ (List.mem_map_of_mem hrest)
    have hsum := sum_of_hop hkeys hparts value (int (delay row / hop_lat))
    rw [(hperm.map _).sum_eq, List.map_cons, List.sum_cons] at hsum
    omega

end

/-- The loop over the messages prints a line for each. -/
theorem mapM_message_line (hparts : Subscripts rows id key delay) (spread : Tally Int Nat)
    {keys : Text → List Text} (hkeys : ∀ value, (keys value).Perm (Tally.count key rows).keys)
    {values : List Text} (hvalues : ∀ value ∈ values, rows_of rows id value ≠ []) :
    (values.mapM fun value => message_line (Tally.count key rows) (keys value) spread value) =
      .ok (values.map fun value => report_line rows id key delay (keys value) spread value) := by
  induction values with
  | nil => rfl
  | cons value values ih =>
    have hline := message_line_count (hkeys value) hparts spread (hvalues value List.mem_cons_self)
    have hrest := ih fun other hother => hvalues other (List.mem_cons_of_mem value hother)
    rw [List.mapM_cons, hline, hrest]
    rfl

/-- Exact entries add up to the rows of the message. -/
theorem sum_spread {value : Text} {spread : Tally Int Nat}
    (hexact : ∀ hop, spread.value hop = hop_count rows id delay value hop) :
    (spread.entries.map Sigma.snd).sum = (rows_of rows id value).length := by
  let hop (row : ι) : Int := int (delay row / hop_lat)
  have hmem : ∀ row ∈ rows_of rows id value, hop row ∈ spread.keys := by
    intro row hrow
    have hpos : 0 < spread.value (hop row) := by
      rw [hexact, hop_count, List.countP_pos_iff]
      exact ⟨row, hrow, by simp [hop]⟩
    by_contra hnot
    have hlookup : spread.lookup (hop row) = none := AList.lookup_eq_none.mpr hnot
    simp [Tally.value, hlookup] at hpos
  have hcount := Tally.sum_count hop spread.keys_nodup hmem (fun _ => true) fun _ => 1
  have hvalue : spread.value = (Tally.count hop (rows_of rows id value)).value := by
    funext other
    simp only [hexact, hop_count, Tally.value_count, hop, eq_comm]
  rw [Tally.sum_entries, hvalue]
  simpa using hcount

end

end shadow.summary_latency

namespace shadow.summary_latency_large

open shadow.summary_latency (Header Line header message_line)

/-- The orders in which the loops visit the subscripts. -/
structure Orders where
  values : List Text
  keys : Text → List Text
  delays : List Text

structure Orders.Enumerates (orders : Orders) (vars : Vars) : Prop where
  values : orders.values.Perm vars.msg_arr.keys
  keys : ∀ value, (orders.keys value).Perm vars.lat_arr.keys
  delays : orders.delays.Perm vars.max_msg_latency.keys

/-- The report of summary_latency_large.awk. -/
structure Summary where
  header : Header
  lines : List Line
  delays : List (Text × Value)
  messages : Nat
  average_max : ℚ

/-- The entries of `spread` that are set to zero before the inner loop. -/
def preset : Tally Int Nat :=
  (List.range 18).foldl (fun spread hop => spread.insert ((hop + 1 : Nat) : Int) 0) ∅

/-- The columns of the report for the hops. -/
def hops : Nat := 54

/-- The END rule of summary_latency_large.awk. -/
def end_rule (orders : Orders) (vars : Vars) : Except AwkError Summary := do
  let header ← header vars.network_size vars.msg_arr vars.max_nw_lat vars.sum_nw_lat vars.NR
  let lines ← orders.values.mapM fun value =>
    message_line vars.lat_arr (orders.keys value) preset value
  let delays := orders.delays.map fun delay_val =>
    (delay_val, (vars.max_msg_latency.lookup delay_val).getD .unset)
  let sum_max_delays := (delays.map fun delay => delay.2.to_number).sum
  let average_max ← divide sum_max_delays vars.max_msg_latency.keys.length
  .ok ⟨header, lines, delays, vars.max_msg_latency.keys.length, average_max⟩

end shadow.summary_latency_large
