import DstTestNode.Library.LittleEndian
import DstTestNode.Library.CountingMap
import DstTestNode.Rust.Checked
import DstTestNode.Rust.Metrics

open rust rust_test_node.metrics

namespace rust_test_node.main

abbrev Payload : Type := List UInt8

/-- A reading of `Utc::now()`, which panics before the Unix epoch; the instant
in nanoseconds fits `i64`. The text is the one `Display` gives it. -/
structure Utc where
  unix_nano : Nat
  unix_nano_lt : unix_nano < 2 ^ 63
  display : String

/-- A line `{tx_time} milliseconds: {latency}` of the standard output. -/
structure Report where
  tx_time : Int
  latency : Int
  deriving DecidableEq, Repr

/-- What `create_message_handler` reads and writes besides its arguments: the
fragment counter `MSG_SEEN` and the custom metrics. -/
structure Receiver where
  msg_seen : CountingMap Int
  custom_metrics : GossipSubMetrics

/-- A payload delivered by gossipsub, with the clock reading its handler makes. -/
structure Delivery where
  data : Payload
  now : Utc

def read_i64 (cursor : List UInt8) : Option Int :=
  if 8 ≤ cursor.length then some (LittleEndian.signed (cursor.take 8)) else none

def create_message_handler (profile : Profile) (message : Delivery) (chunks : UInt32)
    (self : Receiver) : Except Panic (Receiver × Option Report) := do
  let cursor ← slice_to message.data 8
  match read_i64 cursor with
  | none => .ok (self, none)
  | some tx_time =>
    if 1000000 ≤ tx_time then
      let count ← u32_add profile ((self.msg_seen.lookup tx_time).getD 0) 1
      if count < chunks.toNat then
        .ok ({ self with msg_seen := self.msg_seen.insert tx_time count }, none)
      else
        let latency ← i64_sub profile message.now.unix_nano tx_time
        .ok ({ msg_seen := self.msg_seen.erase tx_time,
               custom_metrics := self.custom_metrics.inc_received_message },
          some { tx_time := tx_time, latency := latency.tdiv 1000000 })
    else .ok (self, none)

/-- Handle a sequence of deliveries, with the report each of them prints. -/
def receive_all (profile : Profile) (chunks : UInt32) (self : Receiver) :
    List Delivery → Except Panic (Receiver × List (Option Report))
  | [] => .ok (self, [])
  | message :: messages => do
    let (self, report) ← create_message_handler profile message chunks self
    let (self, reports) ← receive_all profile chunks self messages
    .ok (self, report :: reports)

/-- The number of occurrences that completes a timestamp. With no chunks the
first one already does. -/
def threshold (chunks : UInt32) : Nat := max chunks.toNat 1

/-- The timestamp a payload is counted under, if it is not a warm-up one. -/
def counted_time (data : Payload) : Option Int :=
  (read_i64 (data.take 8)).filter fun tx_time => 1000000 ≤ tx_time

/-- The counted timestamps of a sequence of deliveries. -/
def counted_times (messages : List Delivery) : List Int :=
  messages.filterMap fun message => counted_time message.data

/-- The timestamps of the reports that a sequence of deliveries prints. -/
def reported_times (reports : List (Option Report)) : List Int :=
  reports.filterMap fun report => report.map Report.tx_time

/-- Every counted timestamp is a nonnegative 64-bit integer. -/
theorem counted_time_bounds {data : Payload} {tx_time : Int}
    (htime : counted_time data = some tx_time) : 1000000 ≤ tx_time ∧ tx_time < 2 ^ 63 := by
  simp only [counted_time, Option.filter_eq_some_iff, decide_eq_true_eq] at htime
  obtain ⟨hread, hmin⟩ := htime
  refine ⟨hmin, ?_⟩
  unfold read_i64 at hread
  split at hread
  · next hlen =>
    cases hread
    have hbound := Int.bmod_lt (x := LittleEndian.value ((data.take 8).take 8))
      (m := 256 ^ ((data.take 8).take 8).length) (by positivity)
    simp only [LittleEndian.signed]
    have hwidth : ((data.take 8).take 8).length = 8 := by
      simp only [List.length_take] at hlen ⊢
      omega
    rw [hwidth] at hbound ⊢
    norm_num at hbound ⊢
    exact hbound
  · cases hread

theorem threshold_pos (chunks : UInt32) : 0 < threshold chunks := by
  simp [threshold]

theorem threshold_lt (chunks : UInt32) : threshold chunks < 2 ^ 32 := by
  have := chunks.toNat_lt
  simp only [threshold]
  omega

theorem counted_times_append (before after : List Delivery) :
    counted_times (before ++ after) = counted_times before ++ counted_times after :=
  List.filterMap_append

@[simp] theorem counted_times_singleton (message : Delivery) :
    counted_times [message] = (counted_time message.data).toList := by
  cases h : counted_time message.data <;> simp [counted_times, h]

/-- A payload shorter than its header panics before anything is counted. -/
theorem create_message_handler_short (profile : Profile) (message : Delivery) (chunks : UInt32)
    (self : Receiver) (hshort : message.data.length < 8) :
    create_message_handler profile message chunks self = .error .slice_end_index := by
  simp [create_message_handler, slice_to, Nat.not_le.mpr hshort, bind, Except.bind]

/-- The handler counts a received message exactly when it reports one, and
touches no other metric. -/
theorem create_message_handler_received {profile : Profile} {message : Delivery} {chunks : UInt32}
    {self next : Receiver} {report : Option Report}
    (hstep : create_message_handler profile message chunks self = .ok (next, report)) :
    next.custom_metrics =
      if report.isSome then self.custom_metrics.inc_received_message else self.custom_metrics := by
  simp only [create_message_handler, bind, Except.bind] at hstep
  split at hstep
  · cases hstep
  · split at hstep
    · cases hstep
      rfl
    · split at hstep
      · split at hstep
        · cases hstep
        · split at hstep
          · cases hstep
            rfl
          · split at hstep
            · cases hstep
            · cases hstep
              rfl
      · cases hstep
        rfl

/-- On a payload with a header the handler is a step of the counting map: it
never panics while the stored counts stay below the threshold, it counts the
header unless it is a warm-up one, and it reports a completed timestamp. -/
theorem create_message_handler_spec (profile : Profile) (message : Delivery) (chunks : UInt32)
    (self : Receiver) (hlen : 8 ≤ message.data.length) {before : List Int}
    (hseen : CountingMap.Accounts (threshold chunks) self.msg_seen before) :
    ∃ next report, create_message_handler profile message chunks self = .ok (next, report) ∧
      CountingMap.Accounts (threshold chunks) next.msg_seen
        (before ++ (counted_time message.data).toList) ∧
      report.map Report.tx_time = (counted_time message.data).filter (fun tx_time =>
        threshold chunks ∣ (before ++ [tx_time]).count tx_time) := by
  have hread : ∃ tx_time, read_i64 (message.data.take 8) = some tx_time := by
    simp [read_i64, hlen]
  obtain ⟨tx_time, hread⟩ := hread
  simp only [create_message_handler, slice_to_of_le hlen, bind, Except.bind, hread]
  by_cases hmin : 1000000 ≤ tx_time
  · have htime : counted_time message.data = some tx_time := by
      simp [counted_time, hread, hmin]
    have hbounds := counted_time_bounds htime
    have hpos := threshold_pos chunks
    have hstored : (self.msg_seen.lookup tx_time).getD 0 = before.count tx_time % threshold chunks := by
      rw [hseen tx_time, CountingMap.pending_getD]
    have hlt := Nat.mod_lt (before.count tx_time) hpos
    have hmax := threshold_lt chunks
    obtain ⟨hcounts, hanswer⟩ := hseen.count hpos tx_time
    simp only [hmin, if_true, hstored, htime, Option.toList_some, Option.filter_some]
    rw [u32_add_of_lt profile (by omega)]
    simp only [CountingMap.count, hstored] at hcounts hanswer
    by_cases hroom : before.count tx_time % threshold chunks + 1 < threshold chunks
    · have hless : before.count tx_time % threshold chunks + 1 < chunks.toNat := by
        simp only [threshold] at hroom ⊢
        omega
      simp only [hroom, if_true] at hcounts hanswer
      simp only [hless, if_true]
      refine ⟨_, _, rfl, hcounts, ?_⟩
      split at hanswer
      · cases hanswer
      · next hnot => simpa using hnot
    · have hless : ¬ before.count tx_time % threshold chunks + 1 < chunks.toNat := by
        simp only [threshold] at hroom ⊢
        omega
      simp only [hroom, if_false] at hcounts hanswer
      simp only [hless, if_false]
      rw [i64_sub_of_bounds profile (by have := message.now.unix_nano_lt; omega)
        (by have := message.now.unix_nano_lt; omega)]
      refine ⟨_, _, rfl, hcounts, ?_⟩
      split at hanswer
      · next hdvd => simpa using hdvd
      · cases hanswer
  · have htime : counted_time message.data = none := by
      simpa [counted_time, hread] using hmin
    simp only [hmin, if_false, htime]
    exact ⟨self, none, rfl, by simpa using hseen, by simp⟩

/-- The reports of one delivery keep the number of reports of each timestamp
equal to the number of times its occurrences reached the threshold. -/
theorem reported_times_count {chunks : UInt32} {data : Payload} {before : List Int}
    {report : Option Report} (hreport : report.map Report.tx_time =
      (counted_time data).filter (fun tx_time =>
        threshold chunks ∣ (before ++ [tx_time]).count tx_time)) (tx_time : Int) :
    before.count tx_time / threshold chunks + (report.map Report.tx_time).toList.count tx_time =
      (before ++ (counted_time data).toList).count tx_time / threshold chunks := by
  rw [hreport]
  cases counted_time data with
  | none => simp
  | some time =>
    by_cases hsame : time = tx_time
    · subst hsame
      simp only [Option.toList_some, List.count_append, List.count_singleton_self, Nat.succ_div,
        Option.filter_some, decide_eq_true_eq]
      split <;> simp
    · have hother : List.count tx_time [time] = 0 := by simp [hsame]
      simp only [Option.filter_some, Option.toList_some, List.count_append, hother]
      split <;> simp [hsame]

/-- Handling a sequence of payloads with headers never panics. The map then
accounts for all counted timestamps, each delivery reports its timestamp
exactly when the threshold divides the occurrences up to that delivery, and a
timestamp is reported as often as its occurrences reached the threshold. -/
theorem receive_all_spec (profile : Profile) (chunks : UInt32) (self : Receiver)
    (messages : List Delivery)
    (hlen : ∀ message ∈ messages, 8 ≤ message.data.length) {before : List Int}
    (hseen : CountingMap.Accounts (threshold chunks) self.msg_seen before) :
    ∃ next reports, receive_all profile chunks self messages = .ok (next, reports) ∧
      CountingMap.Accounts (threshold chunks) next.msg_seen (before ++ counted_times messages) ∧
      reports.length = messages.length ∧
      (∀ k (hk : k < messages.length), (reports[k]?.join).map Report.tx_time =
        (counted_time messages[k].data).filter (fun tx_time =>
          threshold chunks ∣ (before ++ counted_times (messages.take (k + 1))).count tx_time)) ∧
      ∀ tx_time, before.count tx_time / threshold chunks + (reported_times reports).count tx_time =
        (before ++ counted_times messages).count tx_time / threshold chunks := by
  induction messages generalizing self before with
  | nil =>
    exact ⟨self, [], rfl, by simpa [counted_times] using hseen, rfl, by simp,
      by simp [counted_times, reported_times]⟩
  | cons message messages ih =>
    obtain ⟨mid, report, hstep, hmid, hreport⟩ := create_message_handler_spec profile message
      chunks self (hlen message List.mem_cons_self) hseen
    obtain ⟨next, reports, hrest, hnext, hlength, hreports, htotals⟩ := ih mid
      (fun other hother => hlen other (List.mem_cons_of_mem _ hother)) hmid
    have hsplit (tail : List Delivery) : before ++ counted_times (message :: tail) =
        before ++ (counted_time message.data).toList ++ counted_times tail := by
      rw [← List.singleton_append, counted_times_append, counted_times_singleton, List.append_assoc]
    refine ⟨next, report :: reports, ?_, ?_, by simp [hlength], ?_, ?_⟩
    · simp only [receive_all, hstep, hrest, bind, Except.bind]
    · rwa [hsplit]
    · intro k hk
      cases k with
      | zero =>
        cases htime : counted_time message.data with
        | none => simpa [htime] using hreport
        | some tx_time => simpa [htime, hsplit, counted_times, Option.filter_some] using hreport
      | succ k =>
        rw [List.take_succ_cons, hsplit]
        simpa using hreports k (by simpa using hk)
    · intro tx_time
      have hcons : (reported_times (report :: reports)).count tx_time =
          (report.map Report.tx_time).toList.count tx_time +
            (reported_times reports).count tx_time := by
        cases report <;> simp [reported_times, List.count_cons, Nat.add_comm]
      rw [hcons, hsplit, ← htotals tx_time, ← reported_times_count hreport tx_time, Nat.add_assoc]

end rust_test_node.main
