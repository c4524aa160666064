import Mathlib
import DstTestNode.Library.Regex

namespace awk

abbrev Text : Type := List Char

def is_blank (c : Char) : Bool := c == ' ' || c == '\t' || c == '\n'

def scan_sign : Text → Int × Text
  | '-' :: cs => (-1, cs)
  | '+' :: cs => (1, cs)
  | cs => (1, cs)

/-- The exponent at the start of a text, and what follows it. -/
def scan_exponent (text : Text) : Int × Text :=
  match text with
  | [] => (0, [])
  | c :: cs =>
    let (sign, digits) := scan_sign cs
    if (c = 'e' ∨ c = 'E') ∧ digits.takeWhile Char.isDigit ≠ [] then
      (sign * Nat.ofDigitChars 10 (digits.takeWhile Char.isDigit) 0, digits.dropWhile Char.isDigit)
    else (0, text)

def scan_fraction : Text → Text × Text
  | '.' :: cs => (cs.takeWhile Char.isDigit, cs.dropWhile Char.isDigit)
  | cs => ([], cs)

/-- The decimal number at the start of a text, and what follows it. -/
def scan_number (text : Text) : Option (ℚ × Text) :=
  let (sign, unsigned) := scan_sign (text.dropWhile is_blank)
  let whole := unsigned.takeWhile Char.isDigit
  let (fraction, scaled) := scan_fraction (unsigned.dropWhile Char.isDigit)
  let (exponent, rest) := scan_exponent scaled
  if whole ++ fraction = [] then none
  else some (sign * Nat.ofDigitChars 10 (whole ++ fraction) 0 *
    (10 : ℚ) ^ (exponent - fraction.length), rest)

/-- The value of a variable. Text that was read compares as a number when it
looks like one; the numbers that the scripts store are integers. Numbers are
exact rationals here: the rounding of awk's doubles and of its output format is
outside the model. -/
inductive Value where
  | unset
  | number (n : Int)
  | string (text : Text)
  | input (text : Text)
  deriving DecidableEq, Repr

namespace Value

def to_string : Value → Text
  | unset => []
  | number n => n.repr.toList
  | string text => text
  | input text => text

def to_number : Value → ℚ
  | unset => 0
  | number n => n
  | string text => ((scan_number text).map Prod.fst).getD 0
  | input text => ((scan_number text).map Prod.fst).getD 0

def is_numeric : Value → Bool
  | unset => true
  | number _ => true
  | string _ => false
  | input text => (scan_number text).any fun scanned => scanned.2.all is_blank

/-- `a == b`. -/
def equal (a b : Value) : Bool :=
  if a.is_numeric && b.is_numeric then a.to_number == b.to_number
  else a.to_string == b.to_string

/-- `a < b`. -/
def less (a b : Value) : Bool :=
  if a.is_numeric && b.is_numeric then decide (a.to_number < b.to_number)
  else decide (a.to_string < b.to_string)

end Value

/-- `int(q)`. -/
def int (q : ℚ) : Int := q.num.tdiv q.den

/-- The fields of a record, separated by blanks. -/
def fields (record : Text) : List Text := (record.splitOnP is_blank).filter fun text => text ≠ []

/-- The n-th element of a list of texts, counted from one. -/
def element (texts : List Text) (n : Nat) : Value :=
  match texts[n - 1]? with
  | some text => .input text
  | none => .unset

/-- `$n`. -/
def field (record : Text) (n : Nat) : Value := element (fields record) n

/-- `$NF`, the whole record when it has no field. -/
def last_field (record : Text) : Value := .input ((fields record).getLast?.getD record)

/-- `gsub(/[^0-9]/, "", target)`: a target without another character is not
assigned to. -/
def gsub_non_digits (target : Value) : Value :=
  if target.to_string.all Char.isDigit then target
  else .string (target.to_string.filter Char.isDigit)

/-- `split(text, arr, separator)`. -/
def split (text : Text) (separator : Regex Char) : List Text :=
  if text = [] then [] else separator.split text

/-- An array from texts to values. -/
abbrev Table (V : Type) : Type := AList fun _ : Text => V

/-- The subscript of `arr[a, b]`. -/
def subscript (a b : Value) : Text := a.to_string ++ '\x1c' :: b.to_string

/-- The expression of the separator between the parts of a subscript. -/
def SUBSEP : Regex Char := .literal ['\x1c']

/-- `arr[key]++`. -/
def increment (arr : Table Nat) (key : Text) : Table Nat :=
  arr.insert key ((arr.lookup key).getD 0 + 1)

inductive AwkError where
  | division_by_zero
  deriving DecidableEq, Repr

/-- `a / b`. -/
def divide (a b : ℚ) : Except AwkError ℚ :=
  if b = 0 then .error .division_by_zero else .ok (a / b)

@[simp] theorem equal_self (value : Value) : value.equal value = true := by
  simp [Value.equal]

/-- Deleting what is not a digit leaves a value equal exactly when it is made
of digits. -/
theorem equal_gsub_non_digits (value : Value) :
    value.equal (gsub_non_digits value) = value.to_string.all Char.isDigit := by
  unfold gsub_non_digits
  by_cases hdigits : value.to_string.all Char.isDigit = true
  · rw [if_pos hdigits, equal_self, hdigits]
  · have hne : value.to_string ≠ value.to_string.filter Char.isDigit := by
      intro heq
      exact hdigits (List.all_eq_true.mpr (List.filter_eq_self.mp heq.symm))
    have hvalue (text : Text) : (Value.string text).is_numeric = false := rfl
    have htext (text : Text) : (Value.string text).to_string = text := rfl
    rw [Bool.not_eq_true] at hdigits
    simp only [hdigits, Value.equal, hvalue, htext, Bool.and_false, Bool.false_eq_true, if_false,
      beq_eq_false_iff_ne.mpr hne]

theorem is_blank_of_isDigit {c : Char} (hc : c.isDigit = true) : is_blank c = false := by
  cases hblank : is_blank c with
  | false => rfl
  | true =>
    simp only [is_blank, Bool.or_eq_true, beq_iff_eq] at hblank
    rcases hblank with (rfl | rfl) | rfl <;> cases hc

/-- The fields of a record are its words when single blanks separate them. -/
theorem fields_append {word : Text} (hnonempty : word ≠ []) (hword : word.any is_blank = false)
    (rest : Text) : fields (word ++ ' ' :: rest) = word :: fields rest := by
  have hsplit : (word ++ ' ' :: rest).splitOnP is_blank = word :: rest.splitOnP is_blank :=
    List.splitOnP_append_cons_of_forall_mem (by simpa using hword) ' ' rfl rest
  simp [fields, hsplit, hnonempty]

theorem fields_word {word : Text} (hnonempty : word ≠ []) (hword : word.any is_blank = false) :
    fields word = [word] := by
  have hsplit : word.splitOnP is_blank = [word] :=
    List.splitOnP_eq_singleton (by simpa using hword)
  simp [fields, hsplit, hnonempty]

/-- A text of digits is a number. -/
theorem scan_number_digits {digits : Text} (hnonempty : digits ≠ [])
    (hdigits : ∀ c ∈ digits, c.isDigit = true) :
    scan_number digits = some ((Nat.ofDigitChars 10 digits 0 : ℚ), []) := by
  cases digits with
  | nil => exact absurd rfl hnonempty
  | cons c cs =>
    have hc := hdigits c List.mem_cons_self
    have hblank : (c :: cs).dropWhile is_blank = c :: cs := by
      rw [List.dropWhile_cons_of_neg (by simp [is_blank_of_isDigit hc])]
    have hsign : scan_sign (c :: cs) = (1, c :: cs) := by
      unfold scan_sign
      split
      next heq =>
        cases heq
        cases hc
      next heq =>
        cases heq
        cases hc
      next => rfl
    have hwhole : (c :: cs).takeWhile Char.isDigit = c :: cs := List.takeWhile_eq_self_iff.mpr hdigits
    have hrest : (c :: cs).dropWhile Char.isDigit = [] := List.dropWhile_eq_nil_iff.mpr hdigits
    simp [scan_number, hblank, hsign, hwhole, hrest, scan_fraction, scan_exponent]

theorem is_numeric_digits {digits : Text} (hnonempty : digits ≠ [])
    (hdigits : ∀ c ∈ digits, c.isDigit = true) : (Value.input digits).is_numeric = true := by
  simp [Value.is_numeric, scan_number_digits hnonempty hdigits]

theorem to_number_digits {digits : Text} (hnonempty : digits ≠ [])
    (hdigits : ∀ c ∈ digits, c.isDigit = true) :
    (Value.input digits).to_number = (Nat.ofDigitChars 10 digits 0 : ℚ) := by
  simp [Value.to_number, scan_number_digits hnonempty hdigits]

/-- The greater of two numbers. -/
theorem greater_numeric {current next : Value} (hcurrent : current.is_numeric = true)
    (hnext : next.is_numeric = true) :
    (if current.less next then next else current).is_numeric = true ∧
      (if current.less next then next else current).to_number =
        max current.to_number next.to_number := by
  simp only [Value.less, hcurrent, hnext, Bool.and_self, if_true, decide_eq_true_eq]
  split_ifs with hless
  · exact ⟨hnext, (max_eq_right hless.le).symm⟩
  · exact ⟨hcurrent, (max_eq_left (not_lt.mp hless)).symm⟩

theorem scan_sign_nonneg {text : Text} (hsign : text.head? ≠ some '-') : (scan_sign text).1 = 1 := by
  unfold scan_sign
  split
  next => exact absurd rfl hsign
  next => rfl
  next => rfl

/-- A text that sorts after a zero has no minus sign. -/
theorem scan_number_nonneg {text : Text} (hless : ['0'] < text) :
    0 ≤ ((scan_number text).map Prod.fst).getD 0 := by
  cases text with
  | nil => cases hless
  | cons c cs =>
    have hle : '0' ≤ c := by
      rcases List.cons_lt_cons_iff.mp hless with hlt | ⟨rfl, -⟩
      · exact hlt.le
      · exact le_refl _
    have hblank : is_blank c = false := by
      cases hblank : is_blank c with
      | false => rfl
      | true =>
        simp only [is_blank, Bool.or_eq_true, beq_iff_eq] at hblank
        rcases hblank with (rfl | rfl) | rfl <;> exact absurd hle (by decide)
    have hdrop : (c :: cs).dropWhile is_blank = c :: cs :=
      List.dropWhile_cons_of_neg (by simp [hblank])
    have hsign : (scan_sign (c :: cs)).1 = 1 := by
      apply scan_sign_nonneg
      rintro ⟨⟩
      exact absurd hle (by decide)
    unfold scan_number
    rw [hdrop]
    simp only [hsign]
    split_ifs
    · simp
    · simp only [Option.map_some, Option.getD_some]
      positivity

theorem less_zero_iff {value : Value} (hnumeric : value.is_numeric = true) :
    (Value.number 0).less value = true ↔ 0 < value.to_number := by
  have hzero : (Value.number 0).is_numeric = true ∧ (Value.number 0).to_number = 0 :=
    ⟨rfl, Int.cast_zero⟩
  simp only [Value.less, hzero, hnumeric, Bool.and_self, if_true, decide_eq_true_eq]

/-- What compares as greater than zero is not a negative number. -/
theorem to_number_nonneg_of_less {value : Value} (hless : (Value.number 0).less value = true) :
    0 ≤ value.to_number := by
  by_cases hnumeric : value.is_numeric = true
  · exact ((less_zero_iff hnumeric).mp hless).le
  · simp only [Value.less, hnumeric, Bool.and_false, Bool.false_eq_true, if_false,
      decide_eq_true_eq] at hless
    cases value with
    | unset => exact absurd rfl hnumeric
    | number n => exact absurd rfl hnumeric
    | string text => exact scan_number_nonneg hless
    | input text => exact scan_number_nonneg hless

theorem int_eq_floor {q : ℚ} (hq : 0 ≤ q) : int q = ⌊q⌋ := by
  rw [int, Rat.floor_def', Int.tdiv_eq_ediv_of_nonneg (Rat.num_nonneg.mpr hq)]

theorem quiet_SUBSEP {text : Text} (htext : '\x1c' ∉ text) (rest : Text) :
    SUBSEP.Quiet rest text := by
  induction text with
  | nil => trivial
  | cons c cs ih =>
    refine ⟨fun word _ hword => ?_, ih fun hmem => htext (List.mem_cons_of_mem c hmem)⟩
    obtain ⟨rfl, -⟩ := List.cons.inj (Regex.mem_language_literal.mp hword)
    exact htext List.mem_cons_self

/-- Splitting a subscript recovers its parts when they do not contain the
separator. -/
theorem split_subscript {a b : Value} (ha : '\x1c' ∉ a.to_string) (hb : '\x1c' ∉ b.to_string) :
    split (subscript a b) SUBSEP = [a.to_string, b.to_string] := by
  have hlongest : SUBSEP.longest (['\x1c'] ++ b.to_string) = some ['\x1c'].length := by
    apply Regex.longest_append (Regex.mem_language_literal.mpr rfl)
    intro more _ hmore hmem
    exact hmore (List.append_right_eq_self.mp (Regex.mem_language_literal.mp hmem))
  have hnonempty : subscript a b ≠ [] := by simp [subscript]
  rw [split, if_neg hnonempty]
  exact (Regex.split_separator (quiet_SUBSEP ha _) (by simp) hlongest).trans
    (congrArg (a.to_string :: ·) (Regex.split_quiet (quiet_SUBSEP hb _)))

/-- What one record can only establish holds after a run exactly when some
record establishes it or it held before. -/
theorem foldl_rule_iff {σ : Type} {rule : σ → Text → σ} (Holds : σ → Prop)
    {Sets : Text → Prop}
    (hrule : ∀ vars record, Holds (rule vars record) ↔ Sets record ∨ Holds vars)
    (vars : σ) (records : List Text) :
    Holds (records.foldl rule vars) ↔ (∃ record ∈ records, Sets record) ∨ Holds vars := by
  induction records generalizing vars with
  | nil => simp
  | cons record records ih =>
    rw [List.foldl_cons, ih, hrule, List.exists_mem_cons_iff, ← or_assoc,
      or_comm (b := Sets record)]

end awk
