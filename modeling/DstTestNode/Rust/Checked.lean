import Mathlib.Data.Nat.Basic
import Mathlib.Tactic.NormNum

namespace rust

/-- The panics the modelled code can raise. -/
inductive Panic where
  | divide_by_zero
  | capacity_overflow
  | slice_end_index
  | arithmetic_overflow
  deriving DecidableEq, Repr

/-- The build of a node: arithmetic overflow panics in a debug build and wraps
in a release build. -/
inductive Profile where
  | debug
  | release
  deriving DecidableEq, Repr

/-- The result of an operation that overflows, with its wrapped value. -/
def Profile.overflow {N : Type} (profile : Profile) (wrapped : N) : Except Panic N :=
  match profile with
  | .debug => .error .arithmetic_overflow
  | .release => .ok wrapped

/-- `isize::MAX`, the largest number of bytes one allocation may have. -/
def isize_max : Nat := 2 ^ 63 - 1

def i32_max : Nat := 2 ^ 31 - 1

def usize_div (dividend divisor : Nat) : Except Panic Nat :=
  if divisor = 0 then .error .divide_by_zero else .ok (dividend / divisor)

/-- `vec![0u8; length]`. Running out of memory on at most `isize::MAX` bytes, which
aborts the process, is outside the model. -/
def vec_zeroed (length : Nat) : Except Panic (List UInt8) :=
  if length ≤ isize_max then .ok (List.replicate length 0) else .error .capacity_overflow

/-- `bytes[..stop]`. -/
def slice_to (bytes : List UInt8) (stop : Nat) : Except Panic (List UInt8) :=
  if stop ≤ bytes.length then .ok (bytes.take stop) else .error .slice_end_index

/-- `slice[..stop]`. -/
def slice_upto {T : Type} (slice : List T) (stop : Nat) : Except Panic (List T) :=
  if stop ≤ slice.length then .ok (slice.take stop) else .error .slice_end_index

def usize_mul (profile : Profile) (left right : Nat) : Except Panic Nat :=
  if 2 ^ 64 ≤ left * right then profile.overflow ((left * right) % 2 ^ 64) else .ok (left * right)

def u32_add (profile : Profile) (left right : Nat) : Except Panic Nat :=
  if 2 ^ 32 ≤ left + right then profile.overflow ((left + right) % 2 ^ 32) else .ok (left + right)

def i32_add (profile : Profile) (left right : Int) : Except Panic Int :=
  if left + right < -2 ^ 31 ∨ 2 ^ 31 ≤ left + right then
    profile.overflow ((left + right).bmod (2 ^ 32))
  else .ok (left + right)

def i64_sub (profile : Profile) (left right : Int) : Except Panic Int :=
  if left - right < -2 ^ 63 ∨ 2 ^ 63 ≤ left - right then
    profile.overflow ((left - right).bmod (2 ^ 64))
  else .ok (left - right)

@[simp] theorem usize_div_of_pos {dividend divisor : Nat} (hpos : 0 < divisor) :
    usize_div dividend divisor = .ok (dividend / divisor) := if_neg (by omega)

@[simp] theorem vec_zeroed_of_le {length : Nat} (hfits : length ≤ isize_max) :
    vec_zeroed length = .ok (List.replicate length 0) := if_pos hfits

@[simp] theorem slice_to_of_le {bytes : List UInt8} {stop : Nat} (hfits : stop ≤ bytes.length) :
    slice_to bytes stop = .ok (bytes.take stop) := if_pos hfits

@[simp] theorem u32_add_of_lt (profile : Profile) {left right : Nat}
    (hfits : left + right < 2 ^ 32) : u32_add profile left right = .ok (left + right) :=
  if_neg (Nat.not_le.mpr hfits)

/-- A sum may wrap, but it never exceeds the true one. -/
theorem u32_add_le {profile : Profile} {left right sum : Nat}
    (hsum : u32_add profile left right = .ok sum) : sum ≤ left + right := by
  unfold u32_add at hsum
  split at hsum
  · cases profile with
    | debug => cases hsum
    | release =>
      cases hsum
      exact Nat.mod_le _ _
  · cases hsum
    exact le_refl _

/-- A counter below its maximum counts on, in either build. -/
theorem i32_add_one (profile : Profile) {count : Nat} (hroom : count < i32_max) :
    i32_add profile count 1 = .ok ((count + 1 : Nat) : Int) := by
  simp only [i32_max] at hroom
  rw [i32_add, if_neg (by omega), Int.natCast_add, Int.natCast_one]

theorem i32_add_max : i32_add .debug i32_max 1 = .error .arithmetic_overflow := by
  decide

@[simp] theorem i64_sub_of_bounds (profile : Profile) {left right : Int}
    (hlow : -2 ^ 63 ≤ left - right) (hhigh : left - right < 2 ^ 63) :
    i64_sub profile left right = .ok (left - right) := if_neg (by omega)

/-- A sum that does not panic is the wrapped one. -/
theorem i32_add_ok {profile : Profile} {left right sum : Int}
    (hsum : i32_add profile left right = .ok sum) : sum = (left + right).bmod (2 ^ 32) := by
  unfold i32_add at hsum
  split at hsum
  · cases profile with
    | debug => cases hsum
    | release =>
      cases hsum
      rfl
  · cases hsum
    rw [Int.bmod_eq_of_le_mul_two (by omega) (by omega)]

/-- Addition never panics in a release build. -/
theorem i32_add_release (left right : Int) : ∃ sum, i32_add .release left right = .ok sum := by
  simp only [i32_add, Profile.overflow]
  split
  · exact ⟨_, rfl⟩
  · exact ⟨_, rfl⟩

end rust
