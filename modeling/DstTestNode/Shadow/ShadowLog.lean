import Mathlib
import DstTestNode.Library.Mean
import DstTestNode.Library.Tally
import DstTestNode.Shadow.Awk

open awk

namespace shadow.summary_shadowlog

def fg_index : Nat := 7

def flag_size : Nat := 12

/-- The blocks of counters in the tenth field. -/
inductive Block where
  | local_in
  | local_out
  | remote_in
  | remote_out
  deriving DecidableEq, Repr

/-- The place of a block among the blocks. -/
def Block.place : Block → Nat
  | local_in => 0
  | local_out => 1
  | remote_in => 2
  | remote_out => 3

/-- The counters of a block that the script adds up. -/
inductive Counter where
  | pkt
  | bytes
  | ctrl_pkt
  | ctrl_hdr_bytes
  | data_pkt
  | data_hdr_bytes
  | data_bytes
  deriving DecidableEq, Repr

/-- What the script adds to `idx`. -/
def Counter.offset : Counter → Nat
  | pkt => 0
  | bytes => 1
  | ctrl_pkt => 2
  | ctrl_hdr_bytes => 3
  | data_pkt => 6
  | data_hdr_bytes => 7
  | data_bytes => 8

/-- `",|;"`. -/
def separator : Regex Char := .alt (.literal [',']) (.literal [';'])

/-- The row filter `$9 == "[node]"`. -/
def is_node (record : Text) : Bool := (field record 9).equal (.string "[node]".toList)

/-- `$5`. -/
def peer (record : Text) : Text := (field record 5).to_string

/-- The array that the script fills with `split($10, arr, ",|;")`. -/
def arr (record : Text) : List Text := split (field record 10).to_string separator

/-- The variables of summary_shadowlog.awk. The array of a counter is named by
its block and its own name. Sums are exact. -/
structure Vars where
  peerlist : Table Nat
  sum_rx : Tally Text ℚ
  sum_tx : Tally Text ℚ
  counters : Block → Counter → Tally Text ℚ

def begin_rule : Vars where
  peerlist := ∅
  sum_rx := ∅
  sum_tx := ∅
  counters _ _ := ∅

/-- `if (value > 0) {sum[key] += value}`. -/
def add_positive (sum : Tally Text ℚ) (key : Text) (value : Value) : Tally Text ℚ :=
  if (Value.number 0).less value then sum.add key value.to_number else sum

/-- The rule that the script applies to every record. -/
def main_rule (vars : Vars) (record : Text) : Vars :=
  if is_node record then
    let peer := peer record
    let vars := { vars with peerlist := vars.peerlist.insert peer 1 }
    let arr := arr record
    if arr = [] then vars
    else
      { vars with
        sum_rx := add_positive vars.sum_rx peer (element arr 2)
        sum_tx := add_positive vars.sum_tx peer (element arr 3)
        counters := fun block counter =>
          let idx := fg_index + flag_size * block.place
          (vars.counters block counter).add peer (element arr (idx + counter.offset)).to_number }
  else vars

/-- The variables once every record of a log has been read. -/
def run (records : List Text) : Vars := records.foldl main_rule begin_rule

/-- The least and the greatest of some values, and their sum. -/
structure Extremes where
  min : ℚ
  max : ℚ
  sum : ℚ

/-- What the first loop does with a value: a least value of zero counts as not
set. -/
def Extremes.note (extremes : Extremes) (value : ℚ) : Extremes where
  min := if value < extremes.min ∨ extremes.min = 0 then value else extremes.min
  max := if value > extremes.max then value else extremes.max
  sum := extremes.sum + value

/-- One pass of the first loop over the peers. -/
def note_peer (vars : Vars) (extremes : Extremes × Extremes) (value : Text) : Extremes × Extremes :=
  (extremes.1.note (vars.sum_rx.value value), extremes.2.note (vars.sum_tx.value value))

/-- The sums of the second loop: the variable that is added to, and the array
whose entry is added. -/
def assignments (counters : Block → Counter → Tally Text ℚ) : List (String × Tally Text ℚ) :=
  [("sum_local_in_pkt", counters .local_in .pkt),
    ("sum_local_in_bytes", counters .local_in .bytes),
    ("sum_local_in_ctrl_pkt", counters .local_in .ctrl_pkt),
    ("sum_local_in_ctrl_hdr_bytes", counters .local_in .ctrl_hdr_bytes),
    ("sum_local_in_data_pkt", counters .local_in .data_pkt),
    ("sum_local_in_data_hdr_bytes", counters .local_in .data_hdr_bytes),
    ("sum_local_in_data_bytes", counters .local_in .data_bytes),
    ("sum_local_out_pkt", counters .local_out .pkt),
    ("sum_local_out_bytes", counters .local_out .bytes),
    ("sum_local_out_ctrl_pkt", counters .local_out .ctrl_pkt),
    ("sum_local_out_ctrl_hdr_bytes", counters .local_out .ctrl_hdr_bytes),
    ("sum_local_out_data_pkt", counters .local_out .data_pkt),
    ("sum_local_out_data_hdr_bytes", counters .local_out .data_hdr_bytes),
    ("sum_local_out_data_bytes", counters .local_out .data_bytes),
    ("sum_remote_in_pkt", counters .remote_in .pkt),
    ("sum_romote_in_bytes", counters .remote_in .bytes),
    ("sum_remote_in_ctrl_pkt", counters .remote_in .ctrl_pkt),
    ("sum_remote_in_ctrl_hdr_bytes", counters .remote_in .ctrl_hdr_bytes),
    ("sum_remote_in_data_pkt", counters .remote_in .data_pkt),
    ("sum_remote_in_data_hdr_bytes", counters .remote_in .data_hdr_bytes),
    ("sum_remote_in_data_bytes", counters .remote_in .data_bytes),
    ("sum_remote_out_pkt", counters .remote_out .pkt),
    ("sum_remote_out_bytes", counters .remote_out .bytes),
    ("sum_remote_out_ctrl_pkt", counters .remote_out .ctrl_pkt),
    ("sum_remote_out_ctrl_hdr_bytes", counters .remote_out .ctrl_hdr_bytes),
    ("sum_remote_out_data_pkt", counters .remote_out .data_pkt),
    ("sum_remote_out_data_hdr_bytes", counters .remote_out .data_hdr_bytes),
    ("sum_remote_out_data_bytes", counters .remote_out .data_bytes)]

/-- One pass of the second loop over the peers. -/
def add_counters (counters : Block → Counter → Tally Text ℚ) (globals : Tally String ℚ)
    (value : Text) : Tally String ℚ :=
  (assignments counters).foldl (fun globals assignment =>
    globals.add assignment.1 (assignment.2.value value)) globals

/-- The variables that the line `Remote IN` prints. -/
def remote_in_variable : Counter → String
  | .pkt => "sum_remote_in_pkt"
  | .bytes => "sum_romote_in_bytes"
  | .ctrl_pkt => "sum_remote_in_ctrl_pkt"
  | .ctrl_hdr_bytes => "sum_remote_in_ctrl_hdr_bytes"
  | .data_pkt => "sum_remote_in_data_pkt"
  | .data_hdr_bytes => "sum_remote_in_data_hdr_bytes"
  | .data_bytes => "sum_remote_in_data_bytes"

/-- The variables that the line `Remote OUT` prints. -/
def remote_out_variable : Counter → String
  | .pkt => "sum_remote_out_pkt"
  | .bytes => "sum_romote_out_bytes"
  | .ctrl_pkt => "sum_remote_out_ctrl_pkt"
  | .ctrl_hdr_bytes => "sum_remote_out_ctrl_hdr_bytes"
  | .data_pkt => "sum_remote_out_data_pkt"
  | .data_hdr_bytes => "sum_remote_out_data_hdr_bytes"
  | .data_bytes => "sum_remote_out_data_bytes"

/-- The figures of the peers. The deviation that is printed is the square root of
the variance. -/
structure Stats where
  min : ℚ
  max : ℚ
  average : ℚ
  variance : ℚ

/-- What the END rule prints. A variable that is not set prints as nothing. -/
structure Report where
  sum_in : ℚ
  sum_out : ℚ
  receives : Stats
  transfers : Stats
  remote_in : Counter → Option ℚ
  remote_out : Counter → Option ℚ

/-- The orders in which the two loops visit the peers. -/
structure Orders where
  first : List Text
  second : List Text

structure Orders.Enumerates (orders : Orders) (vars : Vars) : Prop where
  first : orders.first.Perm vars.peerlist.keys
  second : orders.second.Perm vars.peerlist.keys

/-- Both loops visit the peers as the array lists them. -/
def Orders.keys (vars : Vars) : Orders := ⟨vars.peerlist.keys, vars.peerlist.keys⟩

theorem Orders.keys_enumerates (vars : Vars) : (Orders.keys vars).Enumerates vars :=
  ⟨.refl _, .refl _⟩

/-- The sum of the squared deviations from an average. -/
def sum_sq (sum : Tally Text ℚ) (average : ℚ) (peers : List Text) : ℚ :=
  (peers.map fun value => (sum.value value - average) ^ 2).sum

def end_rule (orders : Orders) (vars : Vars) : Except AwkError Report := do
  let nw_size : ℚ := vars.peerlist.keys.length
  let (inward, outward) := orders.first.foldl (note_peer vars) (⟨0, 0, 0⟩, ⟨0, 0, 0⟩)
  let avg_in ← divide inward.sum nw_size
  let avg_out ← divide outward.sum nw_size
  let globals := orders.second.foldl (add_counters vars.counters) ∅
  let variance_in ← divide (sum_sq vars.sum_rx avg_in orders.second) nw_size
  let variance_out ← divide (sum_sq vars.sum_tx avg_out orders.second) nw_size
  .ok
    { sum_in := inward.sum
      sum_out := outward.sum
      receives := ⟨inward.min, inward.max, avg_in, variance_in⟩
      transfers := ⟨outward.min, outward.max, avg_out, variance_out⟩
      remote_in := fun counter => globals.lookup (remote_in_variable counter)
      remote_out := fun counter => globals.lookup (remote_out_variable counter) }

theorem foldl_note_peer (vars : Vars) (peers : List Text) (extremes : Extremes × Extremes) :
    peers.foldl (note_peer vars) extremes =
      ((peers.map vars.sum_rx.value).foldl Extremes.note extremes.1,
        (peers.map vars.sum_tx.value).foldl Extremes.note extremes.2) := by
  induction peers generalizing extremes with
  | nil => rfl
  | cons peer peers ih => exact ih (note_peer vars extremes peer)

theorem sum_foldl_note (values : List ℚ) (extremes : Extremes) :
    (values.foldl Extremes.note extremes).sum = extremes.sum + values.sum := by
  induction values generalizing extremes with
  | nil => simp
  | cons value values ih => rw [List.foldl_cons, ih, List.sum_cons, ← add_assoc, Extremes.note]

/-- The extremes that the first loop finds. -/
def extremes (values : List ℚ) : Extremes := values.foldl Extremes.note ⟨0, 0, 0⟩

/-- The END rule prints a report as soon as there is a peer. -/
theorem end_rule_ok {vars : Vars} (hsome : vars.peerlist.keys ≠ []) (orders : Orders) :
    let inward := extremes (orders.first.map vars.sum_rx.value)
    let outward := extremes (orders.first.map vars.sum_tx.value)
    let globals := orders.second.foldl (add_counters vars.counters) ∅
    ∃ report, end_rule orders vars = .ok report ∧
      report.sum_in = (orders.first.map vars.sum_rx.value).sum ∧
      report.sum_out = (orders.first.map vars.sum_tx.value).sum ∧
      report.receives.min = inward.min ∧ report.receives.max = inward.max ∧
      report.receives.average = report.sum_in / vars.peerlist.keys.length ∧
      report.transfers.min = outward.min ∧ report.transfers.max = outward.max ∧
      report.transfers.average = report.sum_out / vars.peerlist.keys.length ∧
      (∀ counter, report.remote_in counter = globals.lookup (remote_in_variable counter)) ∧
      ∀ counter, report.remote_out counter = globals.lookup (remote_out_variable counter) := by
  have hlength : ((vars.peerlist.keys.length : Nat) : ℚ) ≠ 0 :=
    Nat.cast_ne_zero.mpr (List.length_eq_zero_iff.not.mpr hsome)
  simp only [end_rule, foldl_note_peer, sum_foldl_note, zero_add, divide, if_neg hlength, bind,
    Except.bind]
  exact ⟨_, rfl, rfl, rfl, rfl, rfl, rfl, rfl, rfl, rfl, fun _ => rfl, fun _ => rfl⟩

end shadow.summary_shadowlog
