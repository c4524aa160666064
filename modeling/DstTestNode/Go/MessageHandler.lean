import Mathlib.Data.List.AList
import DstTestNode.Library.LittleEndian

namespace go_test_node.main

/-- The run-time panic of the message reader. -/
inductive ReaderPanic where
  | slice_bounds_out_of_range
  deriving DecidableEq, Repr

/-- A line `{sent} milliseconds: {milliseconds}` of the standard output. -/
structure MessageReport where
  sent : Nat
  milliseconds : Int
  deriving DecidableEq, Repr

/-- A message that the subscription yields, with the clock reading its handler makes. -/
structure Delivery where
  data : List UInt8
  now_nanos : Int

/-- The map `msgSeen` from `uint64` headers to their counts. -/
abbrev MsgSeen : Type := AList fun _ : Nat => Int

/-- `msgSeen[sent]`, which reads zero for a header that is not there. -/
def MsgSeen.get (msg_seen : MsgSeen) (sent : Nat) : Int :=
  (msg_seen.lookup sent).getD 0

/-- `bytes[:stop]`. Go bounds `stop` by the capacity of the slice; received data is
taken to have no spare capacity. -/
def slice_to (bytes : List UInt8) (stop : Nat) : Except ReaderPanic (List UInt8) :=
  if stop ≤ bytes.length then .ok (bytes.take stop) else .error .slice_bounds_out_of_range

/-- The conversion of a `uint64` to an `int64`. -/
def to_int64 (n : Nat) : Int := Int.bmod n (2 ^ 64)

/-- `time.Since`, which saturates at the bounds of a duration. -/
def time_since (now_nanos sent_nanos : Int) : Int :=
  max (-2 ^ 63) (min (2 ^ 63 - 1) (now_nanos - sent_nanos))

def message_handler (chunks : Int) (message : Delivery) (msg_seen : MsgSeen) :
    Except ReaderPanic (MsgSeen × Option MessageReport) := do
  let header ← slice_to message.data 8
  let sent_uint := LittleEndian.value header
  if sent_uint < 1000000 then .ok (msg_seen, none)
  else
    let msg_seen := msg_seen.insert sent_uint (MsgSeen.get msg_seen sent_uint + 1)
    if MsgSeen.get msg_seen sent_uint < chunks then .ok (msg_seen, none)
    else
      let diff := time_since message.now_nanos (to_int64 sent_uint)
      .ok (msg_seen, some { sent := sent_uint, milliseconds := diff.tdiv 1000000 })

/-- The loop of `readLoop` over the messages that the subscription yields, with
the report each of them prints. -/
def read_loop (chunks : Int) (msg_seen : MsgSeen) :
    List Delivery → Except ReaderPanic (MsgSeen × List (Option MessageReport))
  | [] => .ok (msg_seen, [])
  | message :: messages => do
    let (msg_seen, report) ← message_handler chunks message msg_seen
    let (msg_seen, reports) ← read_loop chunks msg_seen messages
    .ok (msg_seen, report :: reports)

/-- The header a payload is counted under, if it is not a warm-up one. -/
def counted_header (data : List UInt8) : Option Nat :=
  (some (LittleEndian.value (data.take 8))).filter fun sent => 1000000 ≤ sent

/-- The map holds the number of occurrences of every counted header. -/
def MsgSeen.Counts (msg_seen : MsgSeen) (headers : List Nat) : Prop :=
  ∀ sent, MsgSeen.get msg_seen sent = headers.count sent

theorem MsgSeen.counts_empty : MsgSeen.Counts ∅ [] := by
  intro sent
  rfl

/-- Counting a header adds one occurrence of it. -/
theorem MsgSeen.Counts.insert {msg_seen : MsgSeen} {headers : List Nat}
    (hcounts : MsgSeen.Counts msg_seen headers) (sent : Nat) :
    MsgSeen.Counts (msg_seen.insert sent (MsgSeen.get msg_seen sent + 1)) (headers ++ [sent]) := by
  intro other
  by_cases hother : other = sent
  · subst hother
    simp [MsgSeen.get, ← hcounts other]
  · have hcount : (headers ++ [sent]).count other = headers.count other := by
      simp [List.count_append, Ne.symm hother]
    rw [hcount, ← hcounts other, MsgSeen.get, AList.lookup_insert_ne hother, MsgSeen.get]

/-- On a payload with a header the handler never panics. It counts the header
unless it is a warm-up one, and reports it from its last fragment on. -/
theorem message_handler_spec (chunks : Int) (message : Delivery) {msg_seen : MsgSeen}
    (hlen : 8 ≤ message.data.length) {before : List Nat} (hcounts : MsgSeen.Counts msg_seen before) :
    ∃ next report, message_handler chunks message msg_seen = .ok (next, report) ∧
      MsgSeen.Counts next (before ++ (counted_header message.data).toList) ∧
      report.map MessageReport.sent = (counted_header message.data).filter (fun sent =>
        chunks ≤ ((before ++ [sent]).count sent : Int)) := by
  simp only [message_handler, slice_to, hlen, if_true, bind, Except.bind, counted_header,
    Option.filter_some]
  by_cases hwarm : LittleEndian.value (message.data.take 8) < 1000000
  · simp only [hwarm, if_true, Nat.not_le.mpr hwarm, decide_false, Bool.false_eq_true, if_false]
    exact ⟨msg_seen, none, rfl, by simpa using hcounts, rfl⟩
  · have hnext := hcounts.insert (LittleEndian.value (message.data.take 8))
    have hmin : 1000000 ≤ LittleEndian.value (message.data.take 8) := Nat.not_lt.mp hwarm
    simp only [hwarm, if_false, hmin, decide_true, if_true, Option.toList_some, Option.filter_some]
    rw [← hnext (LittleEndian.value (message.data.take 8))]
    split
    · next hroom => exact ⟨_, none, rfl, hnext, by simp [Int.not_le.mpr hroom]⟩
    · next hlast => exact ⟨_, _, rfl, hnext, by simp [Int.not_lt.mp hlast]⟩

end go_test_node.main
