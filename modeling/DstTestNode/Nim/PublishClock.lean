import DstTestNode.Library.Rounding
import DstTestNode.Nim.GossipsubFragments

open nim
open Rounding

namespace nim_test_node

namespace Time

/-- `toUnixFloat`, which converts and adds both fields in binary64. -/
def to_unix_float (self : Time) : ℚ :=
  rounded (rounded self.seconds + rounded (rounded self.nanosecond / rounded 1000000000))

/-- `uint64(now.toUnixFloat() * 1_000_000_000.0)`, for a time after the epoch. -/
def now_int (self : Time) : Nat :=
  ⌊rounded (self.to_unix_float * rounded 1000000000)⌋₊

/-- A reading of the clock from the first second on and before `2 ^ digits` seconds. -/
structure Within (now : Time) (digits : Nat) : Prop where
  seconds_min : 1 ≤ now.seconds
  seconds_max : now.seconds < 2 ^ digits

variable {self other : Time} {digits : Nat}

theorem rounded_intCast {n : Int} (hnonneg : 0 ≤ n) (hn : n < 2 ^ 53) : rounded n = n := by
  obtain ⟨k, rfl⟩ := Int.eq_ofNat_of_zero_le hnonneg
  exact_mod_cast rounded_natCast (n := k) (by omega)

theorem rounded_billion : rounded 1000000000 = 1000000000 := by
  exact_mod_cast rounded_natCast (n := 1000000000) (by norm_num)

/-- The part of a second, in binary64. -/
def fraction (self : Time) : ℚ := rounded (self.nanosecond / 1000000000)

theorem to_unix_float_eq (hnonneg : 0 ≤ self.seconds) (hseconds : self.seconds < 2 ^ 53) :
    self.to_unix_float = rounded (self.seconds + self.fraction) := by
  have hrange := self.nanosecond_range
  rw [to_unix_float, rounded_intCast hnonneg hseconds,
    rounded_intCast hrange.1 (by omega), rounded_billion, fraction]

theorem part_bounds (self : Time) :
    (0 : ℚ) ≤ self.nanosecond / 1000000000 ∧
      (self.nanosecond / 1000000000 : ℚ) ≤ 999999999 / 1000000000 := by
  obtain ⟨hlow, hhigh⟩ := self.nanosecond_range
  have hle : self.nanosecond ≤ 999999999 := by omega
  have hlow' : (0 : ℚ) ≤ self.nanosecond := by exact_mod_cast hlow
  have hle' : (self.nanosecond : ℚ) ≤ 999999999 := by exact_mod_cast hle
  constructor <;> linarith

theorem abs_fraction_sub_le (self : Time) :
    |self.fraction - self.nanosecond / 1000000000| ≤ 2 ^ (-54 : Int) := by
  obtain ⟨hlow, hhigh⟩ := self.part_bounds
  have herror := abs_rounded_sub_le_of_lt hlow (k := 0) (by omega) (by rw [zpow_zero]; linarith)
  rwa [zero_sub] at herror

theorem fraction_bounds (self : Time) : 0 ≤ self.fraction ∧ self.fraction < 1 := by
  obtain ⟨hlow, hhigh⟩ := self.part_bounds
  have herror := (abs_le.mp self.abs_fraction_sub_le).2
  have htiny : (2 : ℚ) ^ (-54 : Int) < 1 / 1000000000 := by norm_num
  exact ⟨rounded_nonneg hlow, by linarith⟩

namespace Within

theorem one_le (hwithin : self.Within digits) : (1 : ℚ) ≤ self.seconds := by
  exact_mod_cast hwithin.seconds_min

theorem add_one_le (hwithin : self.Within digits) :
    (self.seconds : ℚ) + 1 ≤ 2 ^ (digits : Int) := by
  have hmax := hwithin.seconds_max
  have hle : self.seconds + 1 ≤ 2 ^ digits := by omega
  rw [zpow_natCast]
  exact_mod_cast hle

theorem seconds_lt (hwithin : self.Within digits) (hdigits : digits ≤ 33) :
    self.seconds < 2 ^ 33 :=
  hwithin.seconds_max.trans_le (pow_le_pow_right₀ (by norm_num) hdigits)

theorem rounded_seconds (hwithin : self.Within digits) (hdigits : digits ≤ 33) {n : Int}
    (hn : n = self.seconds ∨ n = self.seconds + 1) : rounded n = n := by
  have hmin := hwithin.seconds_min
  have hmax := hwithin.seconds_lt hdigits
  exact rounded_intCast (by omega) (by omega)

/-- Both fields are converted without loss, and the last sum is rounded. -/
theorem to_unix_float_eq (hwithin : self.Within digits) (hdigits : digits ≤ 33) :
    self.to_unix_float = rounded (self.seconds + self.fraction) := by
  have hmin := hwithin.seconds_min
  have hmax := hwithin.seconds_lt hdigits
  exact Time.to_unix_float_eq (by omega) (by omega)

theorem to_unix_float_le (hwithin : self.Within digits) (hdigits : digits ≤ 33) :
    self.to_unix_float ≤ self.seconds + 1 := by
  have hseconds := hwithin.one_le
  obtain ⟨hlow, hhigh⟩ := self.fraction_bounds
  have hkept := hwithin.rounded_seconds hdigits (.inr rfl)
  push_cast at hkept
  rw [hwithin.to_unix_float_eq hdigits, ← hkept]
  exact rounded_mono (by linarith) (by linarith)

theorem le_to_unix_float (hwithin : self.Within digits) (hdigits : digits ≤ 33) :
    self.seconds ≤ self.to_unix_float := by
  have hseconds := hwithin.one_le
  obtain ⟨hlow, hhigh⟩ := self.fraction_bounds
  rw [hwithin.to_unix_float_eq hdigits]
  calc (self.seconds : ℚ) = rounded self.seconds :=
        (hwithin.rounded_seconds hdigits (.inl rfl)).symm
    _ ≤ rounded (self.seconds + self.fraction) := rounded_mono (by linarith) (by linarith)

theorem abs_to_unix_float_sub_le (hwithin : self.Within digits) (hdigits : digits ≤ 33) :
    |self.to_unix_float - (self.seconds + self.nanosecond / 1000000000)| ≤
      2 ^ ((digits : Int) - 54) + 2 ^ (-54 : Int) := by
  have hseconds := hwithin.one_le
  have hmax := hwithin.add_one_le
  obtain ⟨hlow, hhigh⟩ := self.fraction_bounds
  have hsum := abs_rounded_sub_le_of_lt (x := self.seconds + self.fraction) (k := digits)
    (by linarith) (by omega) (by linarith)
  rw [hwithin.to_unix_float_eq hdigits]
  calc |rounded (self.seconds + self.fraction) - (self.seconds + self.nanosecond / 1000000000)|
      = |(rounded (self.seconds + self.fraction) - (self.seconds + self.fraction)) +
          (self.fraction - self.nanosecond / 1000000000)| := by
        congr 1
        ring
    _ ≤ _ := (abs_add_le _ _).trans (add_le_add hsum self.abs_fraction_sub_le)

/-- The reading in nanoseconds, before the last conversion. -/
theorem abs_nanos_sub_le (hwithin : self.Within digits) (hdigits : digits ≤ 33) :
    |rounded (self.to_unix_float * 1000000000) - self.nanoseconds| ≤
      2 ^ ((digits : Int) - 24) +
        1000000000 * (2 ^ ((digits : Int) - 54) + 2 ^ (-54 : Int)) := by
  have hseconds := hwithin.one_le
  have hmax := hwithin.add_one_le
  have hlow := hwithin.le_to_unix_float hdigits
  have hhigh := hwithin.to_unix_float_le hdigits
  have herror := hwithin.abs_to_unix_float_sub_le hdigits
  have hproduct := abs_rounded_sub_le_of_lt (x := self.to_unix_float * 1000000000)
    (k := digits + 30) (by linarith) (by omega) (by
      have hpower : (2 : ℚ) ^ (30 : Int) = 1073741824 := by norm_num
      rw [zpow_add₀ (by norm_num), hpower]
      linarith)
  have hscaled : |self.to_unix_float * 1000000000 - self.nanoseconds| =
      1000000000 * |self.to_unix_float - (self.seconds + self.nanosecond / 1000000000)| := by
    rw [← abs_of_pos (show (0 : ℚ) < 1000000000 by norm_num), ← abs_mul, Time.nanoseconds]
    push_cast
    rw [abs_of_pos (show (0 : ℚ) < 1000000000 by norm_num)]
    congr 1
    ring
  rw [show (digits : Int) + 30 - 54 = digits - 24 by omega] at hproduct
  calc |rounded (self.to_unix_float * 1000000000) - self.nanoseconds|
      = |(rounded (self.to_unix_float * 1000000000) - self.to_unix_float * 1000000000) +
          (self.to_unix_float * 1000000000 - self.nanoseconds)| := by
        congr 1
        ring
    _ ≤ _ := (abs_add_le _ _).trans
        (add_le_add hproduct (hscaled.le.trans (by linarith)))

/-- The published time is the clock reading up to a unit, which grows with the time. -/
theorem abs_now_int_sub_le (hwithin : self.Within digits)
    (hdigits : 28 ≤ digits ∧ digits ≤ 33) :
    |(self.now_int : Int) - self.nanoseconds| ≤ 2 ^ (digits - 23) := by
  obtain ⟨hlow, hhigh⟩ := hdigits
  obtain ⟨unit, hunit⟩ : ∃ unit : ℚ, unit = 2 ^ ((digits : Int) - 54) := ⟨_, rfl⟩
  have hlast : (2 : ℚ) ^ ((digits : Int) - 24) = 1073741824 * unit := by
    rw [hunit, show (digits : Int) - 24 = 30 + (digits - 54) by omega, zpow_add₀ (by norm_num)]
    norm_num
  have hbound : (2 : ℚ) ^ (digits - 23) = 2147483648 * unit := by
    rw [hunit, ← zpow_natCast, Nat.cast_sub (by omega),
      show (digits : Int) - (23 : Nat) = 31 + (digits - 54) by omega, zpow_add₀ (by norm_num)]
    norm_num
  have hcoarse : (2 : ℚ) ^ (-26 : Int) ≤ unit := by
    rw [hunit]
    exact two_zpow_mono (by omega)
  have herror := abs_le.mp (hwithin.abs_nanos_sub_le hhigh)
  rw [hlast, ← hunit] at herror
  have hnonneg : 0 ≤ rounded (self.to_unix_float * 1000000000) := by
    have hseconds := hwithin.one_le
    have hsum := hwithin.le_to_unix_float hhigh
    exact rounded_nonneg (by linarith)
  have hfloor := Nat.floor_le hnonneg
  have hnext := Nat.lt_floor_add_one (rounded (self.to_unix_float * 1000000000))
  have hresult : |((self.now_int : Int) : ℚ) - self.nanoseconds| ≤ 2 ^ (digits - 23) := by
    rw [now_int, rounded_billion, hbound, abs_le, Int.cast_natCast]
    norm_num at hcoarse herror
    constructor <;> linarith
  exact_mod_cast hresult

/-- A later reading is not published with an earlier time. -/
theorem now_int_mono (hwithin : self.Within digits) (hother : other.Within digits)
    (hdigits : digits ≤ 33) (hle : self.nanoseconds ≤ other.nanoseconds) :
    self.now_int ≤ other.now_int := by
  have hsums : self.to_unix_float ≤ other.to_unix_float := by
    have hrange := self.nanosecond_range
    have hrange' := other.nanosecond_range
    simp only [Time.nanoseconds] at hle
    rcases lt_or_ge self.seconds other.seconds with hearlier | hsame
    · have hnext : (self.seconds : ℚ) + 1 ≤ other.seconds := by exact_mod_cast hearlier
      exact (hwithin.to_unix_float_le hdigits).trans
        (hnext.trans (hother.le_to_unix_float hdigits))
    · have hseconds : self.seconds = other.seconds := by omega
      have hparts : (self.nanosecond : ℚ) ≤ other.nanosecond := by
        exact_mod_cast (show self.nanosecond ≤ other.nanosecond by omega)
      have hfractions : self.fraction ≤ other.fraction :=
        rounded_mono self.part_bounds.1 (by linarith)
      have hone := hwithin.one_le
      have hfraction := self.fraction_bounds
      rw [hwithin.to_unix_float_eq hdigits, hother.to_unix_float_eq hdigits, ← hseconds]
      exact rounded_mono (by linarith) (by linarith)
  have hone := hwithin.one_le
  have hlow := hwithin.le_to_unix_float hdigits
  rw [now_int, now_int, rounded_billion]
  exact Nat.floor_mono (rounded_mono (by linarith) (by linarith))

end Within

/-- The milliseconds from one time to another, rounded down, up to the error of the
time that is published for the first one. -/
structure Delay (digits : Nat) (sent recv : Time) (milliseconds : Int) : Prop where
  nonneg : 0 ≤ milliseconds
  lower : 1000000 * milliseconds ≤ recv.nanoseconds - sent.nanoseconds + 2 ^ (digits - 23)
  upper : recv.nanoseconds - sent.nanoseconds < 1000000 * (milliseconds + 1) + 2 ^ (digits - 23)

theorem Within.delay {sent recv : Time} (hwithin : sent.Within digits)
    (hdigits : 28 ≤ digits ∧ digits ≤ 33) (hle : sent.nanoseconds ≤ recv.nanoseconds) :
    Delay digits sent recv ((recv.nanoseconds - sent.now_int).tdiv 1000000) := by
  obtain ⟨hlow, hhigh⟩ := abs_le.mp (hwithin.abs_now_int_sub_le hdigits)
  have hunit : (2 : Int) ^ (digits - 23) ≤ 2 ^ 10 :=
    pow_le_pow_right₀ (by norm_num) (by omega)
  rcases lt_or_ge (recv.nanoseconds - sent.now_int) 0 with hbefore | hafter
  · have hzero : (recv.nanoseconds - sent.now_int).tdiv 1000000 = 0 := by
      rw [← neg_neg (recv.nanoseconds - sent.now_int : Int), Int.neg_tdiv,
        Int.tdiv_eq_zero_of_lt (by omega) (by omega), neg_zero]
    rw [hzero]
    exact ⟨by omega, by omega, by omega⟩
  · rw [Int.tdiv_eq_ediv_of_nonneg hafter]
    exact ⟨by omega, by omega, by omega⟩

end Time

namespace gossipsub_queues.main

/-- A call that reads the clock at a time, and takes its id from `rand(high(int64))`. -/
structure PublishCall.At (call : PublishCall) (digits : Nat) (now : Time) : Prop where
  within : now.Within digits
  now_int : call.now_int = now.now_int
  id_max : (call.msg_id : Int) ≤ int_high

variable {digits : Nat} {call : PublishCall} {now : Time}

theorem PublishCall.At.timely (hat : call.At digits now) (hdigits : 28 ≤ digits ∧ digits ≤ 33) :
    call.Timely := by
  obtain ⟨hlow, hhigh⟩ := abs_le.mp (hat.within.abs_now_int_sub_le hdigits)
  have hunit : (2 : Int) ^ (digits - 23) ≤ 2 ^ 10 :=
    pow_le_pow_right₀ (by norm_num) (by omega)
  have hmin := hat.within.seconds_min
  have hmax := hat.within.seconds_lt hdigits.2
  have hrange := now.nanosecond_range
  simp only [Time.nanoseconds] at hlow hhigh
  refine ⟨?_, ?_, hat.id_max⟩ <;> rw [hat.now_int]
  · omega
  · simp only [int_high]
    omega

theorem PublishCall.At.abs_now_int_sub_le (hat : call.At digits now)
    (hdigits : 28 ≤ digits ∧ digits ≤ 33) :
    |(call.now_int : Int) - now.nanoseconds| ≤ 2 ^ (digits - 23) := by
  rw [hat.now_int]
  exact hat.within.abs_now_int_sub_le hdigits

/-- Readings more than two units apart are told apart by the times that are published. -/
theorem published_apart (hdigits : 28 ≤ digits ∧ digits ≤ 33)
    {published : List (PublishCall × Time)}
    (hclock : ∀ sent ∈ published, sent.1.At digits sent.2)
    (hapart : (published.map fun sent => sent.2.nanoseconds).Pairwise (· + 2 ^ (digits - 22) < ·)) :
    (published.map fun sent => sent.1.now_int).Pairwise (· < ·) := by
  rw [List.pairwise_map] at hapart ⊢
  apply hapart.imp_of_mem
  intro sent other hsent hother hlater
  have hsent := abs_le.mp ((hclock sent hsent).abs_now_int_sub_le hdigits)
  have hother := abs_le.mp ((hclock other hother).abs_now_int_sub_le hdigits)
  have hunits : (2 : Int) ^ (digits - 22) = 2 * 2 ^ (digits - 23) := by
    rw [show digits - 22 = digits - 23 + 1 by omega, pow_succ, mul_comm]
  omega

/-- The times that calls publish. A time is the clock reading of its call up to a unit,
which is 256 nanoseconds until 2038 and 1024 nanoseconds until 2242; it is neither taken
for a warm-up nor too large; the order of the readings is kept, and readings more
than two units apart are told apart. -/
theorem publish_clock (hdigits : 28 ≤ digits ∧ digits ≤ 33)
    {published : List (PublishCall × Time)}
    (hclock : ∀ sent ∈ published, sent.1.At digits sent.2) :
    (∀ sent ∈ published, sent.1.Timely ∧
      |(sent.1.now_int : Int) - sent.2.nanoseconds| ≤ 2 ^ (digits - 23)) ∧
    ((published.map fun sent => sent.2.nanoseconds).Pairwise (· ≤ ·) →
      (published.map fun sent => sent.1.now_int).Pairwise (· ≤ ·)) ∧
    ((published.map fun sent => sent.2.nanoseconds).Pairwise (· + 2 ^ (digits - 22) < ·) →
      (published.map fun sent => sent.1.now_int).Pairwise (· < ·)) := by
  refine ⟨fun sent hsent => ⟨(hclock sent hsent).timely hdigits,
    (hclock sent hsent).abs_now_int_sub_le hdigits⟩, fun hordered => ?_,
    published_apart hdigits hclock⟩
  rw [List.pairwise_map] at hordered ⊢
  apply hordered.imp_of_mem
  intro sent other hsent hother hle
  rw [(hclock sent hsent).now_int, (hclock other hother).now_int]
  exact (hclock sent hsent).within.now_int_mono (hclock other hother).within hdigits.2 hle

/-- Readings of the clock, a microsecond apart. -/
def clock_reading (index : Nat) : Time where
  seconds := 1700000000
  nanosecond := (1000 * index + 123456789) % 1000000000
  nanosecond_range := by omega

def clocked_call (index : Nat) : PublishCall :=
  { pair_call index with now_int := (clock_reading index).now_int }

theorem clocked_call_at {index : Nat} (hindex : index < 2) :
    (clocked_call index).At 31 (clock_reading index) where
  within := ⟨by simp only [clock_reading]; omega, by simp only [clock_reading]; omega⟩
  now_int := rfl
  id_max := by
    simp only [clocked_call, pair_call, int_high]
    omega

theorem publish_clock_two :
    |((clock_reading 0).now_int : Int) - 1700000000123456789| ≤ 256 ∧
      (clock_reading 0).now_int < (clock_reading 1).now_int := by
  have hclock : ∀ sent ∈ [(clocked_call 0, clock_reading 0), (clocked_call 1, clock_reading 1)],
      sent.1.At 31 sent.2 := by
    intro sent hsent
    rcases List.mem_pair.mp hsent with rfl | rfl <;> exact clocked_call_at (by omega)
  obtain ⟨herrors, _, hapart⟩ := publish_clock (show 28 ≤ 31 ∧ 31 ≤ 33 by omega) hclock
  have hlater := hapart (by decide)
  exact ⟨(herrors _ List.mem_cons_self).2, by simpa [clocked_call] using hlater⟩

end gossipsub_queues.main

end nim_test_node
