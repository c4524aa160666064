import Mathlib
import DstTestNode.Shadow.Awk

open awk

namespace shadow.summary_latency

def hop_lat : Nat := 100

/-- `"peer|/main|:.*:"`. -/
def separator : Regex Char :=
  .alt (.literal "peer".toList) (.alt (.literal "/main".toList)
    (.seq (.literal [':']) (.seq (.star (.symbol fun _ => true)) (.literal [':']))))

/-- The row filter `$3 == clean_int` of both scripts. -/
def accepted (record : Text) : Bool :=
  let clean_int := gsub_non_digits (field record 3)
  (field record 3).equal clean_int

/-- The array that both scripts fill with `split($1, arr, "peer|/main|:.*:")`. -/
def arr (record : Text) : List Text := split (field record 1).to_string separator

/-- The variables of summary_latency.awk. Sums are exact. -/
structure Vars where
  network_size : Value
  max_nw_lat : Value
  sum_nw_lat : ℚ
  lat_arr : Table Nat
  msg_arr : Table Nat
  NR : Nat

def begin_rule : Vars where
  network_size := .number 0
  max_nw_lat := .number 0
  sum_nw_lat := 0
  lat_arr := ∅
  msg_arr := ∅
  NR := 0

/-- The rule that summary_latency.awk applies to every record. -/
def main_rule (vars : Vars) (record : Text) : Vars :=
  let vars := { vars with NR := vars.NR + 1 }
  if accepted record then
    let vars :=
      { vars with
        sum_nw_lat := vars.sum_nw_lat + (last_field record).to_number
        max_nw_lat := if vars.max_nw_lat.less (last_field record) then last_field record
          else vars.max_nw_lat }
    let arr := arr record
    if arr = [] then vars
    else
      { vars with
        lat_arr := increment vars.lat_arr (subscript (element arr 4) (field record 3))
        msg_arr := vars.msg_arr.insert (element arr 4).to_string 1
        network_size := if vars.network_size.less (element arr 2) then element arr 2
          else vars.network_size }
  else vars

/-- The variables once every record of a file has been read. -/
def run (records : List Text) : Vars := records.foldl main_rule begin_rule

/-- A record counts for the message that `arr[4]` names. -/
def CountsFor (record id : Text) : Prop :=
  accepted record = true ∧ arr record ≠ [] ∧ (element (arr record) 4).to_string = id

/-- A row is wanted exactly when its third field has digits only. -/
theorem accepted_eq (record : Text) :
    accepted record = (field record 3).to_string.all Char.isDigit :=
  equal_gsub_non_digits (field record 3)

theorem mem_msg_arr_main_rule (vars : Vars) (record id : Text) :
    id ∈ (main_rule vars record).msg_arr ↔ CountsFor record id ∨ id ∈ vars.msg_arr := by
  unfold main_rule CountsFor
  by_cases haccepted : accepted record = true
  · by_cases harr : arr record = []
    · simp [haccepted, harr]
    · simp [haccepted, harr, AList.mem_insert, eq_comm (a := id)]
  · simp [haccepted]

/-- The messages reported are those that some row counts for. -/
theorem mem_msg_arr_run (records : List Text) (id : Text) :
    id ∈ (run records).msg_arr ↔ ∃ record ∈ records, CountsFor record id := by
  have hempty : id ∉ begin_rule.msg_arr := AList.notMem_empty id
  have hfold := foldl_rule_iff (fun vars => id ∈ vars.msg_arr)
    (fun vars record => mem_msg_arr_main_rule vars record id) begin_rule records
  simpa only [run, hempty, or_false] using hfold

end shadow.summary_latency

namespace shadow.summary_latency_large

open shadow.summary_latency (hop_lat accepted arr CountsFor)

/-- The variables of summary_latency_large.awk. Sums are exact. -/
structure Vars where
  network_size : Value
  max_nw_lat : Value
  sum_nw_lat : ℚ
  max_msg_latency : Table Value
  lat_arr : Table Nat
  msg_arr : Table Nat
  NR : Nat

def begin_rule : Vars where
  network_size := .number 0
  max_nw_lat := .number 0
  sum_nw_lat := 0
  max_msg_latency := ∅
  lat_arr := ∅
  msg_arr := ∅
  NR := 0

/-- The latency of a row, rounded to the nearest multiple of `hop_lat`. -/
def rounded_RxTime (record : Text) : Int :=
  int ((field record 3).to_number / hop_lat + 1 / 2) * hop_lat

/-- The comparison reads `max_msg_latency[id]`, which creates the entry. -/
def raise_max (max_msg_latency : Table Value) (id : Text) (latency : Value) : Table Value :=
  let current := (max_msg_latency.lookup id).getD .unset
  max_msg_latency.insert id (if current.less latency then latency else current)

/-- The rule that summary_latency_large.awk applies to every record. -/
def main_rule (vars : Vars) (record : Text) : Vars :=
  let vars := { vars with NR := vars.NR + 1 }
  if accepted record then
    let vars :=
      { vars with
        sum_nw_lat := vars.sum_nw_lat + (last_field record).to_number
        max_nw_lat := if vars.max_nw_lat.less (last_field record) then last_field record
          else vars.max_nw_lat }
    let arr := arr record
    if arr = [] then vars
    else
      { vars with
        max_msg_latency :=
          raise_max vars.max_msg_latency (element arr 4).to_string (last_field record)
        lat_arr :=
          increment vars.lat_arr (subscript (element arr 4) (.number (rounded_RxTime record)))
        msg_arr := vars.msg_arr.insert (element arr 4).to_string 1
        network_size := if vars.network_size.less (element arr 2) then element arr 2
          else vars.network_size }
  else vars

def run (records : List Text) : Vars := records.foldl main_rule begin_rule

/-- What both scripts compute in the same way. -/
structure Agree (other : summary_latency.Vars) (vars : Vars) : Prop where
  network_size : vars.network_size = other.network_size
  max_nw_lat : vars.max_nw_lat = other.max_nw_lat
  sum_nw_lat : vars.sum_nw_lat = other.sum_nw_lat
  msg_arr : vars.msg_arr = other.msg_arr
  NR : vars.NR = other.NR

theorem agree_main_rule {other : summary_latency.Vars} {vars : Vars} (hagree : Agree other vars)
    (record : Text) : Agree (summary_latency.main_rule other record) (main_rule vars record) := by
  obtain ⟨hsize, hmax, hsum, hmsg, hNR⟩ := hagree
  unfold main_rule summary_latency.main_rule
  by_cases haccepted : accepted record = true
  · by_cases harr : arr record = []
    · simp only [haccepted, harr, if_true]
      constructor <;> simp only [hsize, hmax, hsum, hmsg, hNR]
    · simp only [haccepted, harr, if_true, if_false]
      constructor <;> simp only [hsize, hmax, hsum, hmsg, hNR]
  · simp only [haccepted, Bool.false_eq_true, if_false]
    constructor <;> simp only [hsize, hmax, hsum, hmsg, hNR]

/-- Both scripts have the same totals, and report the same messages. -/
theorem agree_run (records : List Text) : Agree (summary_latency.run records) (run records) := by
  have hfold : ∀ other vars, Agree other vars →
      Agree (records.foldl summary_latency.main_rule other) (records.foldl main_rule vars) := by
    induction records with
    | nil => exact fun _ _ hagree => hagree
    | cons record records ih =>
      exact fun other vars hagree => ih _ _ (agree_main_rule hagree record)
  exact hfold _ _ ⟨rfl, rfl, rfl, rfl, rfl⟩

theorem mem_msg_arr_run (records : List Text) (id : Text) :
    id ∈ (run records).msg_arr ↔ ∃ record ∈ records, CountsFor record id := by
  rw [(agree_run records).msg_arr, summary_latency.mem_msg_arr_run]

end shadow.summary_latency_large
