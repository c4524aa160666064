import Mathlib.Data.List.TakeWhile

namespace Json

/-- A decoded JSON text. Numbers are kept as they are written. -/
inductive Value where
  | null
  | bool (truth : Bool)
  | number (lexeme : List Char)
  | string (text : List Char)
  | array (items : List Value)
  | object (members : List (List Char × Value))

def is_space (c : Char) : Bool :=
  c = ' ' || c = '\t' || c = '\n' || c = '\r'

/-- A text from its first character that is not white space. -/
def skip (text : List Char) : List Char :=
  text.dropWhile is_space

def hex_digit (c : Char) : Option Nat :=
  if '0' ≤ c ∧ c ≤ '9' then some (c.toNat - '0'.toNat)
  else if 'a' ≤ c ∧ c ≤ 'f' then some (c.toNat - 'a'.toNat + 10)
  else if 'A' ≤ c ∧ c ≤ 'F' then some (c.toNat - 'A'.toNat + 10)
  else none

/-- The UTF-16 code unit of four hexadecimal digits. -/
def code_unit (a b c d : Char) : Option Nat := do
  let a ← hex_digit a
  let b ← hex_digit b
  let c ← hex_digit c
  let d ← hex_digit d
  return ((a * 16 + b) * 16 + c) * 16 + d

/-- The character of an escape of two characters. -/
def escaped (c : Char) : Option Char :=
  if c = '"' ∨ c = '\\' ∨ c = '/' then some c
  else if c = 'b' then some (Char.ofNat 8)
  else if c = 'f' then some (Char.ofNat 12)
  else if c = 'n' then some '\n'
  else if c = 'r' then some '\r'
  else if c = 't' then some '\t'
  else none

/-- The rest of a string after its opening quote: its characters and code units,
and the text after its closing quote. -/
def scan : List Char → Option (List Nat × List Char)
  | [] => none
  | c :: rest =>
    if c = '"' then some ([], rest)
    else if c = '\\' then
      match rest with
      | [] => none
      | e :: rest =>
        if e = 'u' then
          match rest with
          | a :: b :: c :: d :: rest =>
            match code_unit a b c d, scan rest with
            | some unit, some (codes, rest) => some (unit :: codes, rest)
            | _, _ => none
          | _ => none
        else
          match escaped e, scan rest with
          | some c, some (codes, rest) => some (c.toNat :: codes, rest)
          | _, _ => none
    else if c.toNat < 32 then none
    else
      match scan rest with
      | some (codes, rest) => some (c.toNat :: codes, rest)
      | none => none

def high_surrogate (code : Nat) : Bool := 0xD800 ≤ code && code < 0xDC00

def low_surrogate (code : Nat) : Bool := 0xDC00 ≤ code && code < 0xE000

/-- A code by itself, where half of a pair stands for no character. -/
def single (code : Nat) : Char :=
  if high_surrogate code || low_surrogate code then Char.ofNat 0xFFFD else Char.ofNat code

/-- The characters of some codes, with the pairs of surrogates put together. -/
def decode : List Nat → List Char
  | [] => []
  | [code] => [single code]
  | high :: low :: codes =>
    if high_surrogate high && low_surrogate low then
      Char.ofNat (0x10000 + (high - 0xD800) * 1024 + (low - 0xDC00)) :: decode codes
    else single high :: decode (low :: codes)

def parse_string (text : List Char) : Option (List Char × List Char) :=
  (scan text).map fun scanned => (decode scanned.1, scanned.2)

/-- One or more digits. -/
def parse_digits (text : List Char) : Option (List Char × List Char) :=
  let digits := text.takeWhile Char.isDigit
  if digits = [] then none else some (digits, text.dropWhile Char.isDigit)

/-- The integer part of a number, which has no leading zero. -/
def parse_integer (text : List Char) : Option (List Char × List Char) :=
  match text with
  | '0' :: rest => some (['0'], rest)
  | text => parse_digits text

def parse_fraction (text : List Char) : Option (List Char × List Char) :=
  match text with
  | '.' :: rest => (parse_digits rest).map fun digits => ('.' :: digits.1, digits.2)
  | text => some ([], text)

def parse_sign (text : List Char) : List Char × List Char :=
  match text with
  | '+' :: rest => (['+'], rest)
  | '-' :: rest => (['-'], rest)
  | text => ([], text)

def parse_exponent (text : List Char) : Option (List Char × List Char) :=
  match text with
  | e :: rest =>
    if e = 'e' ∨ e = 'E' then
      let (sign, rest) := parse_sign rest
      (parse_digits rest).map fun digits => (e :: sign ++ digits.1, digits.2)
    else some ([], text)
  | [] => some ([], [])

def parse_number (text : List Char) : Option (List Char × List Char) := do
  let (minus, text) := match text with
    | '-' :: rest => (['-'], rest)
    | text => ([], text)
  let (integer, text) ← parse_integer text
  let (fraction, text) ← parse_fraction text
  let (exponent, text) ← parse_exponent text
  return (minus ++ integer ++ fraction ++ exponent, text)

/-- A reader of a value at the head of a text. -/
abbrev Reader : Type := List Char → Option (Value × List Char)

/-- The members of an object, from the first key on. -/
def parse_members (value : Reader) :
    Nat → List Char → Option (List (List Char × Value) × List Char)
  | 0, _ => none
  | fuel + 1, text =>
    match skip text with
    | '"' :: text => do
      let (key, text) ← parse_string text
      match skip text with
      | ':' :: text => do
        let (item, text) ← value text
        match skip text with
        | ',' :: text => do
          let (members, text) ← parse_members value fuel text
          return ((key, item) :: members, text)
        | '}' :: text => return ([(key, item)], text)
        | _ => none
      | _ => none
    | _ => none

/-- The items of an array, from the first one on. -/
def parse_items (value : Reader) : Nat → List Char → Option (List Value × List Char)
  | 0, _ => none
  | fuel + 1, text => do
    let (item, text) ← value text
    match skip text with
    | ',' :: text => do
      let (items, text) ← parse_items value fuel text
      return (item :: items, text)
    | ']' :: text => return ([item], text)
    | _ => none

def parse_value : Nat → Reader
  | 0, _ => none
  | fuel + 1, text =>
    match skip text with
    | '{' :: text =>
      match skip text with
      | '}' :: text => some (.object [], text)
      | text => (parse_members (parse_value fuel) fuel text).map fun read =>
        (.object read.1, read.2)
    | '[' :: text =>
      match skip text with
      | ']' :: text => some (.array [], text)
      | text => (parse_items (parse_value fuel) fuel text).map fun read => (.array read.1, read.2)
    | '"' :: text => (parse_string text).map fun read => (.string read.1, read.2)
    | 'n' :: 'u' :: 'l' :: 'l' :: text => some (.null, text)
    | 't' :: 'r' :: 'u' :: 'e' :: text => some (.bool true, text)
    | 'f' :: 'a' :: 'l' :: 's' :: 'e' :: text => some (.bool false, text)
    | text => (parse_number text).map fun read => (.number read.1, read.2)

/-- The value of a whole text, whose values are no more deeply nested, and whose
objects and arrays no longer, than the fuel. -/
def parse (fuel : Nat) (text : List Char) : Option Value :=
  match parse_value fuel text with
  | some (value, rest) => if skip rest = [] then some value else none
  | none => none

/-- A well-formed text and what it decodes to. -/
def Decodes (text : List Char) (value : Value) : Prop :=
  ∃ fuel, parse fuel text = some value

/-- The value of a key of an object, where the last one counts. -/
def member (key : List Char) (members : List (List Char × Value)) : Option Value :=
  members.reverse.lookup key

/-- A character that stands for itself in a string. -/
def plain (c : Char) : Bool :=
  c ≠ '"' && c ≠ '\\' && 32 ≤ c.toNat

theorem plain_iff {c : Char} : plain c = true ↔ c ≠ '"' ∧ c ≠ '\\' ∧ 32 ≤ c.toNat := by
  simp [plain, and_assoc]

theorem plain_of_hex_digit {c : Char} {digit : Nat} (hdigit : hex_digit c = some digit) :
    plain c = true := by
  rw [hex_digit] at hdigit
  have hbounds : 48 ≤ c.toNat ∧ c.toNat ≤ 57 ∨ 97 ≤ c.toNat ∧ c.toNat ≤ 102 ∨
      65 ≤ c.toNat ∧ c.toNat ≤ 70 := by
    split_ifs at hdigit with hdecimal hlower hupper
    · exact .inl hdecimal
    · exact .inr (.inl hlower)
    · exact .inr (.inr hupper)
  refine plain_iff.mpr ⟨?_, ?_, by omega⟩
  · rintro rfl
    simp at hbounds
  · rintro rfl
    simp at hbounds

theorem plain_of_code_unit {a b c d : Char} {unit : Nat} (hunit : code_unit a b c d = some unit) :
    plain a = true ∧ plain b = true ∧ plain c = true ∧ plain d = true := by
  simp only [code_unit, Option.bind_eq_bind, Option.bind_eq_some_iff] at hunit
  obtain ⟨_, ha, _, hb, _, hc, _, hd, _⟩ := hunit
  exact ⟨plain_of_hex_digit ha, plain_of_hex_digit hb, plain_of_hex_digit hc,
    plain_of_hex_digit hd⟩

theorem le_toNat_of_escaped {c meant : Char} (hescaped : escaped c = some meant) :
    32 ≤ c.toNat := by
  rw [escaped] at hescaped
  split_ifs at hescaped with h1 h2 h3 h4 h5 h6
  · rcases h1 with rfl | rfl | rfl <;> simp
  all_goals
    subst c
    simp

/-- Up to its closing quote a string has no control character, and its quotes
and backslashes are more than it has characters to spare. -/
theorem scan_split {text rest : List Char} {codes : List Nat}
    (hscan : scan text = some (codes, rest)) :
    ∃ read, text = read ++ '"' :: rest ∧
      2 * codes.length + read.count '"' + read.count '\\' ≤ 2 * read.length ∧
      ∀ c ∈ read, 32 ≤ c.toNat := by
  fun_induction scan text generalizing codes rest with
  | case1 | case3 | case5 | case6 | case8 | case9 | case11 => cases hscan
  | case2 text =>
    cases hscan
    exact ⟨[], rfl, Nat.le_refl _, by simp⟩
  | case4 a b c d text unit more after hmore hunit _ ih =>
    cases hscan
    obtain ⟨read, rfl, hcount, hread⟩ := ih hmore
    obtain ⟨ha, hb, hc, hd⟩ := plain_of_code_unit hunit
    rw [plain_iff] at ha hb hc hd
    refine ⟨'\\' :: 'u' :: a :: b :: c :: d :: read, rfl, ?_, ?_⟩
    · simp [ha, hb, hc, hd]
      omega
    · simp only [List.forall_mem_cons]
      exact ⟨by simp, by simp, ha.2.2, hb.2.2, hc.2.2, hd.2.2, hread⟩
  | case7 c text hc meant more after hmore hmeant _ ih =>
    cases hscan
    obtain ⟨read, rfl, hcount, hread⟩ := ih hmore
    refine ⟨'\\' :: c :: read, rfl, ?_, ?_⟩
    · simp only [List.count_cons, List.length_cons, beq_iff_eq]
      split_ifs with h1 h2 h3 <;> simp_all <;> omega
    · simp only [List.forall_mem_cons]
      exact ⟨by simp, le_toNat_of_escaped hmeant, hread⟩
  | case10 c text hquote hbackslash hcontrol more after hmore ih =>
    cases hscan
    obtain ⟨read, rfl, hcount, hread⟩ := ih hmore
    refine ⟨c :: read, rfl, ?_, ?_⟩
    · simp [hquote, hbackslash]
      omega
    · simp only [List.forall_mem_cons]
      exact ⟨Nat.le_of_not_lt hcontrol, hread⟩

theorem scan_cons_plain {c : Char} (hplain : plain c = true) (rest : List Char) :
    scan (c :: rest) = (scan rest).map fun read => (c.toNat :: read.1, read.2) := by
  obtain ⟨hquote, hbackslash, hcontrol⟩ := plain_iff.mp hplain
  rw [scan.eq_def]
  simp only [hquote, hbackslash, Nat.not_lt.mpr hcontrol, if_false]
  cases scan rest <;> rfl

theorem scan_escaped_quote (rest : List Char) :
    scan ('\\' :: '"' :: rest) = (scan rest).map fun read => ('"'.toNat :: read.1, read.2) := by
  have hquote : ¬ '\\' = '"' := by simp
  have hunit : ¬ '"' = 'u' := by simp
  have hmeant : escaped '"' = some '"' := rfl
  rw [scan.eq_def]
  simp only [hquote, hunit, hmeant, if_false, if_true]
  cases scan rest <;> rfl

theorem scan_quote (rest : List Char) : scan ('"' :: rest) = some ([], rest) := by
  rw [scan.eq_def]
  rfl

/-- Plain characters up to a quote are a string. -/
theorem scan_plain {text : List Char} (hplain : ∀ c ∈ text, plain c = true) (rest : List Char) :
    scan (text ++ '"' :: rest) = some (text.map Char.toNat, rest) := by
  induction text with
  | nil => exact scan_quote rest
  | cons c text ih =>
    obtain ⟨hc, htext⟩ := List.forall_mem_cons.mp hplain
    rw [List.cons_append, scan_cons_plain hc, ih htext]
    rfl

theorem not_surrogate (c : Char) :
    high_surrogate c.toNat = false ∧ low_surrogate c.toNat = false := by
  have hvalid : c.toNat < 0xD800 ∨ 0xDFFF < c.toNat ∧ c.toNat < 0x110000 := c.valid
  simp only [high_surrogate, low_surrogate, Bool.and_eq_false_iff, decide_eq_false_iff_not]
  omega

theorem single_toNat (c : Char) : single c.toNat = c := by
  obtain ⟨hhigh, hlow⟩ := not_surrogate c
  simp [single, hhigh, hlow]

theorem decode_map_toNat (text : List Char) : decode (text.map Char.toNat) = text := by
  induction text with
  | nil => rfl
  | cons c text ih =>
    cases text with
    | nil => simp [decode, single_toNat]
    | cons next text =>
      simp only [List.map_cons, decode, (not_surrogate c).1, Bool.false_and, single_toNat]
      simpa using ih

theorem length_decode_le (codes : List Nat) : (decode codes).length ≤ codes.length := by
  fun_induction decode codes with
  | case1 | case2 => simp
  | case3 high low codes _ ih => simp only [List.length_cons]; omega
  | case4 high low codes _ ih => simp only [List.length_cons] at ih ⊢; omega

theorem parse_string_plain {text : List Char} (hplain : ∀ c ∈ text, plain c = true)
    (rest : List Char) : parse_string (text ++ '"' :: rest) = some (text, rest) := by
  rw [parse_string, scan_plain hplain, Option.map_some, decode_map_toNat]

theorem skip_cons {c : Char} (hc : is_space c = false) (text : List Char) :
    skip (c :: text) = c :: text := by
  rw [skip, List.dropWhile_cons_of_neg (by simp [hc])]

theorem exists_skip (text : List Char) :
    ∃ spaces, text = spaces ++ skip text ∧ ∀ c ∈ spaces, is_space c = true :=
  ⟨text.takeWhile is_space, List.takeWhile_append_dropWhile.symm,
    fun _ hc => List.mem_takeWhile_imp hc⟩

/-- The text of a member whose value is a string, up to the end of its value. -/
def string_member (key text : List Char) : List Char :=
  '"' :: key ++ '"' :: ':' :: '"' :: text

/-- The text of an object with a string as its first member and another one as
its second, up to the end of the second string. -/
def string_members (key first second text : List Char) : List Char :=
  '{' :: string_member key (first ++ '"' :: ',' :: string_member second text)

theorem parse_eq_some {fuel : Nat} {text : List Char} {value : Value} :
    parse fuel text = some value ↔
      ∃ rest, parse_value fuel text = some (value, rest) ∧ skip rest = [] := by
  rw [parse]
  cases parse_value fuel text with
  | none => simp
  | some read =>
    obtain ⟨found, rest⟩ := read
    simp [and_assoc, and_comm]

theorem parse_value_string (fuel : Nat) (text : List Char) :
    parse_value (fuel + 1) ('"' :: text) =
      (parse_string text).map fun read => (.string read.1, read.2) := by
  rw [parse_value, skip_cons rfl]
  rfl

theorem parse_members_string {key : List Char} (hkey : ∀ c ∈ key, plain c = true)
    (depth fuel : Nat) (text : List Char) :
    parse_members (parse_value (depth + 1)) (fuel + 1) (string_member key text) =
      (parse_string text).bind fun read =>
        match skip read.2 with
        | ',' :: text => (parse_members (parse_value (depth + 1)) fuel text).map fun members =>
          ((key, .string read.1) :: members.1, members.2)
        | '}' :: text => some ([(key, .string read.1)], text)
        | _ => none := by
  have hquote : is_space '"' = false := rfl
  have hcolon : is_space ':' = false := rfl
  rw [parse_members, string_member, List.cons_append, skip_cons hquote]
  simp only [parse_string_plain hkey, Option.bind_eq_bind, Option.bind_some, skip_cons hcolon,
    parse_value_string]
  cases parse_string text with
  | none => rfl
  | some read =>
    simp only [Option.map_some, Option.bind_some]
    split
    · next more _ => cases parse_members (parse_value (depth + 1)) fuel more <;> rfl
    · rfl
    · rfl

/-- A list of members begins with a quoted key. -/
theorem exists_key {value : Reader} {fuel : Nat} {text : List Char}
    {read : List (List Char × Value) × List Char}
    (hread : parse_members value fuel text = some read) :
    ∃ rest key, skip text = '"' :: rest ∧ parse_string rest = some key := by
  cases fuel with
  | zero => cases hread
  | succ fuel =>
    rw [parse_members] at hread
    split at hread
    · next rest hrest =>
      obtain ⟨key, hkey, _⟩ := Option.bind_eq_some_iff.mp hread
      exact ⟨rest, key, hrest, hkey⟩
    · cases hread

section StringMembers

variable {key first second : List Char}

theorem parse_value_members (key first second text : List Char) (fuel : Nat) :
    parse_value (fuel + 1) (string_members key first second text) =
      (parse_members (parse_value fuel) fuel
        (string_member key (first ++ '"' :: ',' :: string_member second text))).map fun read =>
          (.object read.1, read.2) := by
  have hbrace : is_space '{' = false := rfl
  have hquote : is_space '"' = false := rfl
  have hhead : skip (string_member key (first ++ '"' :: ',' :: string_member second text)) =
      string_member key (first ++ '"' :: ',' :: string_member second text) := skip_cons hquote _
  rw [parse_value, string_members, skip_cons hbrace]
  simp only [hhead]
  rfl

theorem parse_value_string_members (hkey : ∀ c ∈ key, plain c = true)
    (hfirst : ∀ c ∈ first, plain c = true) (hsecond : ∀ c ∈ second, plain c = true)
    (fuel : Nat) (text : List Char) :
    parse_value (fuel + 3) (string_members key first second text) =
      (parse_string text).bind fun read =>
        match skip read.2 with
        | ',' :: text => (parse_members (parse_value (fuel + 2)) fuel text).map fun members =>
          (.object ((key, .string first) :: (second, .string read.1) :: members.1), members.2)
        | '}' :: text =>
          some (.object [(key, .string first), (second, .string read.1)], text)
        | _ => none := by
  have hcomma : is_space ',' = false := rfl
  rw [parse_value_members, parse_members_string hkey (fuel + 1) (fuel + 1),
    parse_string_plain hfirst]
  simp only [Option.bind_some, skip_cons hcomma]
  rw [parse_members_string hsecond (fuel + 1) fuel]
  cases parse_string text with
  | none => rfl
  | some read =>
    simp only [Option.bind_some]
    split
    · next more _ => cases parse_members (parse_value (fuel + 2)) fuel more <;> rfl
    · rfl
    · rfl

/-- An object is read when its second string is followed by its end. -/
theorem decodes_string_members (hkey : ∀ c ∈ key, plain c = true)
    (hfirst : ∀ c ∈ first, plain c = true) (hsecond : ∀ c ∈ second, plain c = true)
    {text meant : List Char} (hread : parse_string text = some (meant, ['}'])) :
    Decodes (string_members key first second text)
      (.object [(key, .string first), (second, .string meant)]) := by
  refine ⟨3, parse_eq_some.mpr ⟨[], ?_, rfl⟩⟩
  rw [parse_value_string_members hkey hfirst hsecond 0, hread]
  rfl

/-- What follows the second string of an object that is read. -/
theorem Decodes.string_members (hkey : ∀ c ∈ key, plain c = true)
    (hfirst : ∀ c ∈ first, plain c = true) (hsecond : ∀ c ∈ second, plain c = true)
    {text : List Char} {value : Value}
    (hdecodes : Decodes (Json.string_members key first second text) value) :
    ∃ meant rest, parse_string text = some (meant, rest) ∧
      ((∃ after, skip rest = '}' :: after ∧ skip after = [] ∧
          value = .object [(key, .string first), (second, .string meant)]) ∨
        ∃ more inner other, skip rest = ',' :: more ∧ skip more = '"' :: inner ∧
          parse_string inner = some other) := by
  obtain ⟨fuel, hparse⟩ := hdecodes
  obtain ⟨after, hvalue, hend⟩ := parse_eq_some.mp hparse
  have hcomma : is_space ',' = false := rfl
  match fuel with
  | 0 => cases hvalue
  | 1 => simp [parse_value_members, parse_members] at hvalue
  | 2 =>
    rw [parse_value_members, parse_members_string hkey 0 0, parse_string_plain hfirst] at hvalue
    simp [skip_cons hcomma, parse_members] at hvalue
  | fuel + 3 =>
    rw [parse_value_string_members hkey hfirst hsecond] at hvalue
    obtain ⟨⟨meant, rest⟩, hstring, hrest⟩ := Option.bind_eq_some_iff.mp hvalue
    refine ⟨meant, rest, hstring, ?_⟩
    split at hrest
    · next more hmore =>
      obtain ⟨members, hmembers, _⟩ := Option.map_eq_some_iff.mp hrest
      obtain ⟨inner, other, hinner, hother⟩ := exists_key hmembers
      exact .inr ⟨more, inner, other, hmore, hinner, hother⟩
    · next more hmore =>
      cases hrest
      exact .inl ⟨after, hmore, hend, rfl⟩
    · cases hrest

/-- A string without a closing quote is not well formed. -/
theorem not_decodes_of_not_mem (hkey : ∀ c ∈ key, plain c = true)
    (hfirst : ∀ c ∈ first, plain c = true) (hsecond : ∀ c ∈ second, plain c = true)
    {text : List Char} (hquote : '"' ∉ text) (value : Value) :
    ¬ Decodes (Json.string_members key first second text) value := by
  intro hdecodes
  obtain ⟨meant, rest, hstring, _⟩ := hdecodes.string_members hkey hfirst hsecond
  obtain ⟨⟨codes, _⟩, hscan, _⟩ := Option.map_eq_some_iff.mp hstring
  obtain ⟨read, rfl, _⟩ := scan_split hscan
  simp at hquote

end StringMembers

end Json
