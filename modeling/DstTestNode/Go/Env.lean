import DstTestNode.Library.Decimal
import Mathlib.Logic.Basic
import Mathlib.Algebra.Ring.Int.Defs
import Mathlib.Algebra.Ring.Nat

namespace go_test_node.main

/-- The panics of `getHostname`. -/
inductive HostnamePanic where
  | hostname (err : String)
  | index_out_of_range
  | parsing_id
  deriving DecidableEq, Repr

/-- `strconv.Atoi`. -/
def atoi (s : String) : Option Int :=
  let (sign, digits) : Int × List Char := match s.toList with
    | '-' :: digits => (-1, digits)
    | '+' :: digits => (1, digits)
    | digits => (1, digits)
  if digits = [] ∨ ¬ digits.all Char.isDigit then none
  else
    let value := sign * Nat.ofDigitChars 10 digits 0
    if -2 ^ 63 ≤ value ∧ value < 2 ^ 63 then some value else none

/-- `getHostname` with what `os.Hostname` returns. -/
def get_hostname (os_hostname : Except String String) : Except HostnamePanic (String × Int) :=
  match os_hostname with
  | .error err => .error (.hostname err)
  | .ok hostname =>
    match ((hostname.toList.splitOn '-').map String.ofList)[1]? with
    | none => .error .index_out_of_range
    | some part =>
      match atoi part with
      | none => .error .parsing_id
      | some my_id => .ok (hostname, my_id)

/-- A text without a sign is read when it is a numeral of the type. -/
theorem atoi_eq_some {digits : List Char} (hplus : '+' ∉ digits) (hminus : '-' ∉ digits)
    {value : Nat} : atoi (String.ofList digits) = some (value : Int) ↔
      Decimal.Numeral digits value ∧ value < 2 ^ 63 := by
  have hsplit : (match (String.ofList digits).toList with
      | '-' :: digits => ((-1 : Int), digits)
      | '+' :: digits => (1, digits)
      | digits => (1, digits)) = (1, digits) := by
    rw [String.toList_ofList]
    split
    · simp at hminus
    · simp at hplus
    · rfl
  rw [atoi]
  simp only [hsplit, Int.one_mul]
  constructor
  · intro hparsed
    split_ifs at hparsed with hbad hfits
    obtain ⟨hsome, hall⟩ := not_or.mp hbad
    have hvalue := Int.ofNat_inj.mp (Option.some.inj hparsed)
    exact ⟨⟨hsome, List.all_eq_true.mp (not_not.mp hall), hvalue⟩, by omega⟩
  · rintro ⟨⟨hsome, hall, rfl⟩, hfits⟩
    rw [if_neg (not_or.mpr ⟨hsome, not_not.mpr (List.all_eq_true.mpr hall)⟩),
      if_pos (by omega)]

/-- The id of a node is the number in the second part of its hostname. -/
theorem get_hostname_eq_ok {hostname : String} {part : List Char}
    (hpart : (hostname.toList.splitOn '-')[1]? = some part) (my_id : Int) :
    get_hostname (.ok hostname) = .ok (hostname, my_id) ↔
      atoi (String.ofList part) = some my_id := by
  have hsecond : ((hostname.toList.splitOn '-').map String.ofList)[1]? =
      some (String.ofList part) := by
    rw [List.getElem?_map, hpart, Option.map_some]
  simp only [get_hostname, hsecond]
  cases atoi (String.ofList part) with
  | none => simp
  | some other => simp

end go_test_node.main
