import Mathlib.Data.Nat.Basic
import Mathlib.Tactic.Ring

namespace LittleEndian

/-- The low `width` bytes of a natural number, least significant byte first. -/
def bytes : Nat → Nat → List UInt8
  | 0, _ => []
  | width + 1, value => UInt8.ofNat value :: bytes width (value / 256)

/-- Numbers below 256 are told apart by their byte. -/
theorem byte_inj {first second : Nat} (hfirst : first < 256) (hsecond : second < 256) :
    UInt8.ofNat first = UInt8.ofNat second ↔ first = second := by
  constructor
  · intro heq
    have hnat := congrArg UInt8.toNat heq
    rwa [UInt8.toNat_ofNat', UInt8.toNat_ofNat', Nat.mod_eq_of_lt hfirst,
      Nat.mod_eq_of_lt hsecond] at hnat
  · rintro rfl
    rfl

/-- The natural number spelled by a byte string, least significant byte first. -/
def value : List UInt8 → Nat
  | [] => 0
  | byte :: rest => byte.toNat + 256 * value rest

@[simp] theorem bytes_length (width n : Nat) : (bytes width n).length = width := by
  induction width generalizing n with
  | zero => rfl
  | succ width ih => simp [bytes, ih]

/-- Encoding and reading back keeps exactly the encoded bytes of a number. -/
theorem value_bytes (width n : Nat) : value (bytes width n) = n % 256 ^ width := by
  induction width generalizing n with
  | zero => simp [bytes, value, Nat.mod_one]
  | succ width ih =>
    have hbyte : (UInt8.ofNat n).toNat = n % 256 := UInt8.toNat_ofNat'
    rw [bytes, value, ih, hbyte, Nat.pow_succ', Nat.mod_mul]

/-- The signed reading of a `width`-byte string in two's complement. -/
def signed (bs : List UInt8) : Int :=
  Int.bmod (value bs) (256 ^ bs.length)

/-- The two's complement encoding of an integer on `width` bytes. -/
def signedBytes (width : Nat) (n : Int) : List UInt8 :=
  bytes width (n % (256 ^ width : Nat)).toNat

@[simp] theorem signedBytes_length (width : Nat) (n : Int) :
    (signedBytes width n).length = width := bytes_length _ _

/-- Signed encoding round-trips to the representative of its residue class. -/
theorem signed_signedBytes (width : Nat) (n : Int) :
    signed (signedBytes width n) = Int.bmod n (256 ^ width : Nat) := by
  have hpos : (0 : Int) < (256 ^ width : Nat) := by exact_mod_cast Nat.pow_pos (by decide)
  have hnonneg := Int.emod_nonneg n (ne_of_gt hpos)
  have hlt := Int.emod_lt_of_pos n hpos
  have hvalue : (n % (256 ^ width : Nat)).toNat % 256 ^ width = (n % (256 ^ width : Nat)).toNat :=
    Nat.mod_eq_of_lt (by omega)
  rw [signed, signedBytes_length, signedBytes, value_bytes, hvalue, Int.toNat_of_nonneg hnonneg,
    Int.emod_bmod]

/-- A nonnegative integer below half the range survives the signed round trip. -/
theorem signed_signedBytes_of_nonneg {width : Nat} {n : Int} (hnonneg : 0 ≤ n)
    (hlt : 2 * n < (256 ^ width : Nat)) : signed (signedBytes width n) = n := by
  rw [signed_signedBytes]
  exact Int.bmod_eq_of_le_mul_two (by omega) (by omega)

end LittleEndian
