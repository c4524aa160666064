import DstTestNode.Library.LittleEndian
import DstTestNode.Nim.GossipsubPublish

open nim
open nim_test_node.gossipsub_queues.main (Payload Defect)

namespace nim_test_node

/-- The `Time` of the standard library. -/
structure Time where
  seconds : Int
  nanosecond : Int
  nanosecond_range : 0 ≤ nanosecond ∧ nanosecond < 1000000000
  deriving DecidableEq

/-- `Duration`, which has the same fields. -/
abbrev Duration : Type := Time

/-- The nanoseconds from the epoch on. -/
def Time.nanoseconds (self : Time) : Int := 1000000000 * self.seconds + self.nanosecond

/-- `initTime`, whose second argument has a range type. -/
def init_time (unix nanosecond : Int) : Except Defect Time :=
  if hrange : 0 ≤ nanosecond ∧ nanosecond < 1000000000 then .ok ⟨unix, nanosecond, hrange⟩
  else .error .range

def from_unix_nanoseconds (ns : Int) : Except Defect Time :=
  init_time (ns.tdiv 1000000000) (ns.tmod 1000000000)

/-- The difference of two times, normalized. -/
def Time.sub (a b : Time) : Duration where
  seconds :=
    if a.nanosecond - b.nanosecond < 0 then a.seconds - b.seconds - 1 else a.seconds - b.seconds
  nanosecond :=
    if a.nanosecond - b.nanosecond < 0 then a.nanosecond - b.nanosecond + 1000000000
    else a.nanosecond - b.nanosecond
  nanosecond_range := by
    have ha := a.nanosecond_range
    have hb := b.nanosecond_range
    split_ifs <;> omega

/-- `inMilliseconds`, which corrects a negative duration for its normal form. -/
def Time.in_milliseconds (self : Duration) : Int :=
  if self.seconds < 0 ∧ 0 < self.nanosecond then
    (self.seconds + 1) * 1000 - (1000000000 - self.nanosecond).tdiv 1000000
  else self.seconds * 1000 + self.nanosecond.tdiv 1000000

/-- `data[start ..< stop]`. -/
def slice (data : Payload) (start stop : Nat) : Except Defect Payload :=
  if stop ≤ data.length then .ok ((data.take stop).drop start) else .error .index

/-- The conversion of a `uint64` to an `int64`, which is checked. -/
def to_int64 (n : Nat) : Except Defect Int :=
  if (n : Int) ≤ int_high then .ok n else .error .range

/-- A message that the handler is called with, and the clock reading it makes. -/
structure Delivery where
  data : Payload
  recv_time : Time

/-- The delay of a message, in milliseconds, rounded to zero. -/
def Delivery.delay_ms (message : Delivery) : Int :=
  (message.recv_time.nanoseconds - LittleEndian.value (message.data.take 8)).tdiv 1000000

/-- What both handlers read first. -/
structure Headers where
  timestamp_ns : Int
  msg_id : Nat
  delay : Duration

def read_headers (message : Delivery) : Except Defect Headers := do
  let header ← slice message.data 0 8
  let timestamp_ns ← to_int64 (LittleEndian.value header)
  let send_time ← from_unix_nanoseconds timestamp_ns
  let header ← slice message.data 8 16
  let msg_id := LittleEndian.value header
  .ok { timestamp_ns := timestamp_ns, msg_id := msg_id, delay := message.recv_time.sub send_time }

/-- The `CountTable` of fragments by message id. -/
abbrev MessagesChunks : Type := AList fun _ : Nat => Int

/-- `table[msg_id]`, which reads zero for an id that is not there. -/
def MessagesChunks.get (table : MessagesChunks) (msg_id : Nat) : Int :=
  (table.lookup msg_id).getD 0

def MessagesChunks.inc (table : MessagesChunks) (msg_id : Nat) : MessagesChunks :=
  table.insert msg_id (table.get msg_id + 1)

/-- A payload with both headers, whose timestamp fits an `int64`. -/
def WellFormed (data : Payload) : Prop :=
  16 ≤ data.length ∧ (LittleEndian.value (data.take 8) : Int) ≤ int_high

instance (data : Payload) : Decidable (WellFormed data) :=
  inferInstanceAs (Decidable (_ ∧ _))

/-- The id a payload is counted under, if it is not a warm-up one. -/
def counted_id (data : Payload) : Option Nat :=
  if LittleEndian.value (data.take 8) < 1000000 then none
  else some (LittleEndian.value ((data.take 16).drop 8))

def counted_ids (messages : List Delivery) : List Nat :=
  messages.filterMap fun message => counted_id message.data

theorem Time.nanoseconds_sub (a b : Time) :
    (a.sub b).nanoseconds = a.nanoseconds - b.nanoseconds := by
  simp only [Time.nanoseconds, Time.sub]
  split_ifs <;> omega

/-- The milliseconds of a duration, rounded to zero. -/
theorem Time.in_milliseconds_eq (self : Duration) :
    self.in_milliseconds = self.nanoseconds.tdiv 1000000 := by
  have hrange := self.nanosecond_range
  simp only [Time.in_milliseconds, Time.nanoseconds]
  split_ifs with hcorrect
  · have hnegative : 1000000000 * self.seconds + self.nanosecond =
        -(1000000000 * (-self.seconds) - self.nanosecond) := by omega
    rw [hnegative, Int.neg_tdiv, Int.tdiv_eq_ediv_of_nonneg (by omega),
      Int.tdiv_eq_ediv_of_nonneg (by omega)]
    omega
  · rw [Int.tdiv_eq_ediv_of_nonneg (by omega)]
    by_cases hseconds : self.seconds < 0
    · have hzero : self.nanosecond = 0 := by omega
      have hnegative : 1000000000 * self.seconds + self.nanosecond =
          -(1000000000 * (-self.seconds)) := by omega
      rw [hnegative, Int.neg_tdiv, Int.tdiv_eq_ediv_of_nonneg (by omega)]
      omega
    · rw [Int.tdiv_eq_ediv_of_nonneg (by omega)]
      omega

theorem nanoseconds_of_from_unix_nanoseconds {ns : Int} (hnonneg : 0 ≤ ns) :
    ∃ time, from_unix_nanoseconds ns = .ok time ∧ time.nanoseconds = ns := by
  have hdiv := Int.tdiv_eq_ediv_of_nonneg (b := 1000000000) hnonneg
  have hmod := Int.tmod_eq_emod_of_nonneg (b := 1000000000) hnonneg
  rw [from_unix_nanoseconds, init_time, dif_pos (by omega)]
  refine ⟨_, rfl, ?_⟩
  simp only [Time.nanoseconds]
  omega

theorem slice_eq_ok {data part : Payload} {start stop : Nat} :
    slice data start stop = .ok part ↔ stop ≤ data.length ∧ (data.take stop).drop start = part := by
  rw [slice]
  split_ifs with hlong <;> simp [hlong]

theorem to_int64_eq_ok {n : Nat} {value : Int} :
    to_int64 n = .ok value ↔ (n : Int) ≤ int_high ∧ (n : Int) = value := by
  rw [to_int64]
  split_ifs with hfits <;> simp [hfits]

theorem read_headers_of {message : Delivery} {header id : Payload} {timestamp_ns : Int}
    (hheader : slice message.data 0 8 = .ok header)
    (htimestamp : to_int64 (LittleEndian.value header) = .ok timestamp_ns) {send_time : Time}
    (hsend : from_unix_nanoseconds timestamp_ns = .ok send_time)
    (hid : slice message.data 8 16 = .ok id) :
    read_headers message = .ok
      { timestamp_ns := timestamp_ns
        msg_id := LittleEndian.value id
        delay := message.recv_time.sub send_time } := by
  simp only [read_headers, hheader, htimestamp, hsend, hid, bind, Except.bind]

/-- The headers of a payload that has both; the delay is the time from the
timestamp to the clock reading. -/
theorem read_headers_eq {message : Delivery} (hformed : WellFormed message.data) :
    ∃ headers, read_headers message = .ok headers ∧
      headers.timestamp_ns = LittleEndian.value (message.data.take 8) ∧
      headers.msg_id = LittleEndian.value ((message.data.take 16).drop 8) ∧
      headers.delay.nanoseconds =
        message.recv_time.nanoseconds - LittleEndian.value (message.data.take 8) := by
  obtain ⟨hlong, hfits⟩ := hformed
  obtain ⟨send_time, hsend, hnanoseconds⟩ := nanoseconds_of_from_unix_nanoseconds
    (Int.natCast_nonneg (LittleEndian.value (message.data.take 8)))
  refine ⟨_, read_headers_of (slice_eq_ok.mpr ⟨by omega, rfl⟩) (to_int64_eq_ok.mpr ⟨hfits, rfl⟩) hsend
    (slice_eq_ok.mpr ⟨hlong, rfl⟩), rfl, rfl, ?_⟩
  rw [Time.nanoseconds_sub, hnanoseconds]

/-- The headers are read exactly when the payload has both. -/
theorem read_headers_ok_iff {message : Delivery} :
    (∃ headers, read_headers message = .ok headers) ↔ WellFormed message.data := by
  refine ⟨?_, fun hformed => ?_⟩
  · rintro ⟨headers, hheaders⟩
    simp only [read_headers, bind_eq_ok, slice_eq_ok, to_int64_eq_ok] at hheaders
    obtain ⟨_, ⟨_, rfl⟩, _, ⟨hfits, _⟩, _, _, _, ⟨hlong, _⟩, _⟩ := hheaders
    exact ⟨hlong, hfits⟩
  · obtain ⟨headers, hheaders, _⟩ := read_headers_eq hformed
    exact ⟨headers, hheaders⟩

/-- The table holds the number of occurrences of every counted id. -/
def MessagesChunks.Counts (table : MessagesChunks) (ids : List Nat) : Prop :=
  ∀ msg_id, table.get msg_id = ids.count msg_id

theorem MessagesChunks.counts_empty : MessagesChunks.Counts ∅ [] := by
  intro msg_id
  rfl

/-- Counting an id adds one occurrence of it. -/
theorem MessagesChunks.Counts.inc {table : MessagesChunks} {ids : List Nat}
    (hcounts : table.Counts ids) (msg_id : Nat) :
    (table.inc msg_id).Counts (ids ++ [msg_id]) := by
  intro other
  by_cases hother : other = msg_id
  · subst hother
    simp [MessagesChunks.inc, MessagesChunks.get, ← hcounts other]
  · have hcount : (ids ++ [msg_id]).count other = ids.count other := by
      simp [List.count_append, Ne.symm hother]
    rw [hcount, ← hcounts other, MessagesChunks.inc, MessagesChunks.get,
      AList.lookup_insert_ne hother, MessagesChunks.get]

end nim_test_node
