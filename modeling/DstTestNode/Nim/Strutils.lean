import Mathlib
import DstTestNode.Library.Decimal
import DstTestNode.Library.Segments

namespace nim

/-- The exceptions and defects that the modelled code can raise. -/
inductive NimError where
  | value_error
  | overflow_defect
  deriving DecidableEq, Repr

/-- `low(int)`. -/
def int_low : Int := -9223372036854775808

/-- `high(int)`. -/
def int_high : Int := 9223372036854775807

/-- The digits of an integer literal after its first one, with the value so
far. Underscores are ignored. -/
def parse_digits : List Char → Nat → Option Nat
  | [], value => some value
  | c :: cs, value =>
    if c = '_' then parse_digits cs value
    else if c.isDigit then parse_digits cs (10 * value + (c.toNat - '0'.toNat))
    else none

/-- An unsigned literal, which starts with a digit. -/
def parse_magnitude : List Char → Option Nat
  | [] => none
  | c :: cs => if c.isDigit then parse_digits (c :: cs) 0 else none

/-- The sign of a literal and what follows it. -/
def parse_sign : List Char → Int × List Char
  | '-' :: digits => (-1, digits)
  | '+' :: digits => (1, digits)
  | digits => (1, digits)

/-- `strutils.parseInt`. -/
def parse_int (s : String) : Except NimError Int :=
  let (sign, digits) := parse_sign s.toList
  match parse_magnitude digits with
  | none => .error .value_error
  | some magnitude =>
    if int_low ≤ sign * magnitude ∧ sign * magnitude ≤ int_high then .ok (sign * magnitude)
    else .error .value_error

/-- Addition of two `int` values, which is checked. -/
def int_add (left right : Int) : Except NimError Int :=
  if int_low ≤ left + right ∧ left + right ≤ int_high then .ok (left + right)
  else .error .overflow_defect

/-- Multiplication of two `int` values, which is checked. -/
def int_mul (left right : Int) : Except NimError Int :=
  if int_low ≤ left * right ∧ left * right ≤ int_high then .ok (left * right)
  else .error .overflow_defect

/-- A run of digits, each possibly followed by underscores, and what follows it. -/
def digit_run (cs : List Char) : List Char × List Char :=
  if cs.head?.any Char.isDigit then
    ((cs.takeWhile fun c => c.isDigit || c = '_').filter (· ≠ '_'),
      cs.dropWhile fun c => c.isDigit || c = '_')
  else ([], cs)

/-- The exponent of a float literal, which may be missing. -/
def parse_exponent : List Char → Option Int
  | [] => some 0
  | c :: cs =>
    if c = 'e' ∨ c = 'E' then
      let (sign, digits) := parse_sign cs
      (parse_magnitude digits).map fun magnitude => sign * magnitude
    else none

/-- A float literal without its sign: digits around an optional point, of which
there is at least one, and an exponent. -/
def parse_decimal (cs : List Char) : Option Float := do
  let (whole, cs) := digit_run cs
  let (fraction, cs) := match cs with
    | '.' :: cs => digit_run cs
    | cs => ([], cs)
  let exponent ← parse_exponent cs
  let power := exponent - fraction.length
  if whole ++ fraction = [] then none
  else
    some (Float.ofScientific (Nat.ofDigitChars 10 (whole ++ fraction) 0) (power < 0) power.natAbs)

/-- `strutils.parseFloat`. -/
def parse_float (s : String) : Except NimError Float :=
  let (sign, cs) := parse_sign s.toList
  let magnitude :=
    if cs.map Char.toLower = ['n', 'a', 'n'] then some (0.0 / 0.0)
    else if cs.map Char.toLower = ['i', 'n', 'f'] then some (1.0 / 0.0)
    else parse_decimal cs
  match magnitude with
  | none => .error .value_error
  | some magnitude => .ok (if sign < 0 then -magnitude else magnitude)

/-- `strutils.split` at a character. -/
def split (s : String) (sep : Char) : List String :=
  (s.toList.splitOn sep).map String.ofList

/-- `parts[^1]` of a split, which is never empty. -/
def last_part (s : String) (sep : Char) : String :=
  (split s sep).getLastD ""

/-- `strutils.Whitespace`. -/
def whitespace : List Char := [' ', '\t', '\x0b', '\r', '\n', '\x0c']

def strip_chars (cs : List Char) : List Char :=
  (cs.dropWhile (· ∈ whitespace)).rdropWhile (· ∈ whitespace)

/-- `strutils.strip`. -/
def strip (s : String) : String := String.ofList (strip_chars s.toList)

def to_lower_ascii (s : String) : String := String.ofList (s.toList.map Char.toLower)

/-- The loop of `cmpIgnoreCase`. -/
def cmp_chars : List Char → List Char → Int
  | a :: as, b :: bs =>
    let difference : Int := (a.toLower.toNat : Int) - b.toLower.toNat
    if difference ≠ 0 then difference else cmp_chars as bs
  | as, bs => (as.length : Int) - bs.length

def cmp_ignore_case (a b : String) : Int := cmp_chars a.toList b.toList

/-- `nimIdentNormalize`: the first character is kept as it is. -/
def nim_ident_normalize (s : String) : String :=
  match s.toList with
  | [] => ""
  | c :: cs => String.ofList (c :: (cs.filter fun c => c ≠ '_').map Char.toLower)

/-- `strutils.parseEnum` for an enumeration with the given names. -/
def parse_enum {Enum : Type} (names : List (String × Enum)) (s : String) : Except NimError Enum :=
  match names.find? fun name => nim_ident_normalize name.1 = nim_ident_normalize s with
  | some name => .ok name.2
  | none => .error .value_error

/-- The environment of a process. -/
abbrev Environment : Type := AList fun _ : String => String

def get_env (environment : Environment) (key default : String) : String :=
  (environment.lookup key).getD default

def exists_env (environment : Environment) (key : String) : Bool :=
  (environment.lookup key).isSome

theorem bind_eq_ok {ε α β : Type} {x : Except ε α} {f : α → Except ε β} {b : β} :
    (x >>= f) = .ok b ↔ ∃ a, x = .ok a ∧ f a = .ok b := by
  cases x with
  | error e => simp [bind, Except.bind]
  | ok a => simp [bind, Except.bind]

@[simp] theorem get_env_insert_of_ne (environment : Environment) {key key' : String}
    (hkey : key ≠ key') (value default : String) :
    get_env (environment.insert key' value) key default = get_env environment key default := by
  rw [get_env, AList.lookup_insert_ne hkey, get_env]

@[simp] theorem get_env_insert (environment : Environment) (key value default : String) :
    get_env (environment.insert key value) key default = value := by
  rw [get_env, AList.lookup_insert, Option.getD_some]

@[simp] theorem exists_env_insert_of_ne (environment : Environment) {key key' : String}
    (hkey : key ≠ key') (value : String) :
    exists_env (environment.insert key' value) key = exists_env environment key := by
  rw [exists_env, AList.lookup_insert_ne hkey, exists_env]

theorem parse_digits_of_digits {cs : List Char} (hdigits : ∀ c ∈ cs, c.isDigit) (value : Nat) :
    parse_digits cs value = some (Nat.ofDigitChars 10 cs value) := by
  induction cs generalizing value with
  | nil => rfl
  | cons c cs ih =>
    obtain ⟨hdigit, hrest⟩ := List.forall_mem_cons.mp hdigits
    have hnot : c ≠ '_' := by
      rintro rfl
      exact absurd hdigit (by decide)
    rw [parse_digits, if_neg hnot, if_pos hdigit, ih hrest, Nat.ofDigitChars_cons]

theorem parse_sign_of_digit {c : Char} (hdigit : c.isDigit) (cs : List Char) :
    parse_sign (c :: cs) = (1, c :: cs) := by
  unfold parse_sign
  split
  · next heq =>
    cases heq
    exact absurd hdigit (by decide)
  · next heq =>
    cases heq
    exact absurd hdigit (by decide)
  · rfl

/-- A decimal number reads back, if it fits an `int`. -/
theorem parse_int_repr {n : Nat} (hfits : n < 2 ^ 63) : parse_int n.repr = .ok n := by
  have hdigits : ∀ c ∈ n.repr.toList, c.isDigit := fun _ hc => Decimal.isDigit_of_mem_repr hc
  have hparsed := parse_digits_of_digits hdigits 0
  rw [Decimal.ofDigitChars_repr] at hparsed
  rw [parse_int]
  cases hchars : n.repr.toList with
  | nil => exact absurd hchars (Decimal.repr_ne_nil n)
  | cons c cs =>
    rw [hchars] at hdigits hparsed
    have hdigit := hdigits c List.mem_cons_self
    simp only [parse_sign_of_digit hdigit, parse_magnitude, if_pos hdigit, hparsed, one_mul]
    exact if_pos (by simp only [int_low, int_high]; omega)

theorem strip_chars_strip_chars (cs : List Char) :
    strip_chars (strip_chars cs) = strip_chars cs := by
  have hbegins : strip_chars cs <+: cs.dropWhile (· ∈ whitespace) := List.rdropWhile_prefix _ _
  have hfirst : (strip_chars cs).dropWhile (· ∈ whitespace) = strip_chars cs := by
    refine List.dropWhile_eq_self_iff.mpr fun hlength => ?_
    rw [hbegins.getElem hlength]
    exact List.dropWhile_get_zero_not _ _ (hlength.trans_le hbegins.length_le)
  conv_lhs => rw [strip_chars, hfirst]
  exact List.rdropWhile_idempotent _ _

/-- Nothing is left to strip. -/
theorem strip_strip (s : String) : strip (strip s) = strip s := by
  simp only [strip, String.toList_ofList, strip_chars_strip_chars]

/-- Parts without the separator, joined by it, are split again. -/
theorem split_intercalate {sep : Char} {parts : List String} (hparts : parts ≠ [])
    (hseps : ∀ part ∈ parts, sep ∉ part.toList) :
    split ((String.singleton sep).intercalate parts) sep = parts := by
  rw [split, String.toList_intercalate, String.toList_singleton, List.splitOn_intercalate sep
    (by simpa using hseps) (by simpa using hparts), List.map_map]
  simp

/-- The last part of a dash-separated text that ends in a number. -/
theorem last_part_number (stem : String) (n : Nat) :
    last_part (stem ++ "-" ++ n.repr) '-' = n.repr := by
  have hdash : '-' ∉ n.repr.toList := Decimal.notMem_repr rfl n
  have hchars : (stem ++ "-" ++ n.repr).toList = stem.toList ++ '-' :: n.repr.toList := by simp
  rw [last_part, split, hchars, Segments.splitOn_append_last _ hdash, List.map_append,
    List.map_singleton, String.ofList_toList, List.getLastD_concat]

end nim
