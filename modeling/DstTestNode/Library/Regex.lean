import Mathlib.Computability.Language

/-- A regular expression whose letters are sets of symbols. -/
inductive Regex (α : Type*) where
  | never
  | epsilon
  | symbol (letter : α → Bool)
  | alt (r s : Regex α)
  | seq (r s : Regex α)
  | star (r : Regex α)

namespace Regex

open Computability

variable {α : Type*}

/-- The words that match. -/
def language : Regex α → Language α
  | never => 0
  | epsilon => 1
  | symbol letter => {word : List α | ∃ c, letter c = true ∧ word = [c]}
  | alt r s => r.language + s.language
  | seq r s => r.language * s.language
  | star r => r.language∗

/-- The expression of one fixed word. -/
def literal [DecidableEq α] : List α → Regex α
  | [] => epsilon
  | c :: cs => seq (symbol fun d => d == c) (literal cs)

def nullable : Regex α → Bool
  | never => false
  | epsilon => true
  | symbol _ => false
  | alt r s => r.nullable || s.nullable
  | seq r s => r.nullable && s.nullable
  | star _ => true

/-- The expression of what follows a first symbol. -/
def deriv (c : α) : Regex α → Regex α
  | never => never
  | epsilon => never
  | symbol letter => if letter c then epsilon else never
  | alt r s => alt (r.deriv c) (s.deriv c)
  | seq r s =>
    if r.nullable then alt (seq (r.deriv c) s) (s.deriv c) else seq (r.deriv c) s
  | star r => seq (r.deriv c) (star r)

/-- The length of the longest prefix that matches. -/
def longest : Regex α → List α → Option Nat
  | r, [] => if r.nullable then some 0 else none
  | r, c :: cs =>
    match (r.deriv c).longest cs with
    | some n => some (n + 1)
    | none => if r.nullable then some 0 else none

/-- The pieces between the leftmost longest nonempty matches, where `field` is
what the current piece holds and `skip` symbols belong to the current match. -/
def pieces (r : Regex α) : Nat → List α → List α → List (List α)
  | _, field, [] => [field]
  | skip + 1, field, _ :: cs => r.pieces skip field cs
  | 0, field, c :: cs =>
    match r.longest (c :: cs) with
    | some (n + 1) => field :: r.pieces n [] cs
    | _ => r.pieces 0 (field ++ [c]) cs

def split (r : Regex α) (text : List α) : List (List α) := r.pieces 0 [] text

/-- No match starts inside a text that is followed by `rest`. -/
def Quiet (r : Regex α) (rest : List α) : List α → Prop
  | [] => True
  | c :: cs => (∀ word, word <+: cs ++ rest → c :: word ∉ r.language) ∧ r.Quiet rest cs

@[simp] theorem mem_language_never {word : List α} : ¬ word ∈ (never : Regex α).language := id

@[simp] theorem mem_language_epsilon {word : List α} :
    word ∈ (epsilon : Regex α).language ↔ word = [] := Iff.rfl

@[simp] theorem mem_language_symbol {letter : α → Bool} {word : List α} :
    word ∈ (symbol letter).language ↔ ∃ c, letter c = true ∧ word = [c] := Iff.rfl

@[simp] theorem mem_language_alt {r s : Regex α} {word : List α} :
    word ∈ (alt r s).language ↔ word ∈ r.language ∨ word ∈ s.language := Iff.rfl

@[simp] theorem mem_language_seq {r s : Regex α} {word : List α} :
    word ∈ (seq r s).language ↔ ∃ u ∈ r.language, ∃ v ∈ s.language, u ++ v = word := Iff.rfl

@[simp] theorem mem_language_literal [DecidableEq α] {w word : List α} :
    word ∈ (literal w).language ↔ word = w := by
  induction w generalizing word with
  | nil => exact Iff.rfl
  | cons c cs ih =>
    simp only [literal, mem_language_seq, mem_language_symbol, beq_iff_eq, ih]
    constructor
    · rintro ⟨_, ⟨d, rfl, rfl⟩, v, rfl, rfl⟩
      rfl
    · rintro rfl
      exact ⟨[c], ⟨c, rfl, rfl⟩, cs, rfl, rfl⟩

/-- The star of all symbols matches every word. -/
theorem mem_language_star_all (word : List α) :
    word ∈ (star (symbol fun _ : α => true)).language := by
  refine Language.mem_kstar.mpr ⟨word.map fun c => [c], ?_, ?_⟩
  · rw [← List.flatMap_def, List.flatMap_singleton']
  · intro piece hpiece
    obtain ⟨c, -, rfl⟩ := List.mem_map.mp hpiece
    exact ⟨c, rfl, rfl⟩

theorem nullable_iff (r : Regex α) : r.nullable = true ↔ [] ∈ r.language := by
  induction r with
  | never => simp [nullable, language]
  | epsilon => simp [nullable, language]
  | symbol letter => simp [nullable]
  | alt r s ihr ihs => simp [nullable, ihr, ihs]
  | seq r s ihr ihs => simp [nullable, ihr, ihs]
  | star r ih => simp [nullable, language, Language.nil_mem_kstar]

/-- A word of a star that is not empty starts with a word of the body. -/
theorem cons_mem_kstar {l : Language α} {c : α} {word : List α} :
    c :: word ∈ l∗ ↔ ∃ u, c :: u ∈ l ∧ ∃ v ∈ l∗, u ++ v = word := by
  constructor
  · intro hword
    obtain ⟨parts, hparts, hmem⟩ := Language.mem_kstar_iff_exists_nonempty.mp hword
    cases parts with
    | nil => simp at hparts
    | cons part parts =>
      obtain ⟨hpart, hnonempty⟩ := hmem part (by simp)
      cases part with
      | nil => simp at hnonempty
      | cons d u =>
        simp only [List.flatten_cons, List.cons_append, List.cons.injEq] at hparts
        obtain ⟨rfl, rfl⟩ := hparts
        refine ⟨u, hpart, parts.flatten, Language.join_mem_kstar ?_, rfl⟩
        exact fun y hy => (hmem y (List.mem_cons_of_mem _ hy)).1
  · rintro ⟨u, hu, v, hv, rfl⟩
    obtain ⟨parts, rfl, hmem⟩ := Language.mem_kstar.mp hv
    refine Language.mem_kstar.mpr ⟨(c :: u) :: parts, by simp, ?_⟩
    intro y hy
    rcases List.mem_cons.mp hy with rfl | hy
    · exact hu
    · exact hmem y hy

theorem mem_language_deriv (r : Regex α) (c : α) (word : List α) :
    word ∈ (r.deriv c).language ↔ c :: word ∈ r.language := by
  induction r generalizing word with
  | never => simp [deriv, language]
  | epsilon => simp [deriv, language]
  | symbol letter =>
    by_cases hletter : letter c = true
    · simp [deriv, hletter, mem_language_epsilon]
    · simp [deriv, hletter, mem_language_never]
  | alt r s ihr ihs => simp only [deriv, mem_language_alt, ihr, ihs]
  | seq r s ihr ihs =>
    have hfirst : word ∈ (seq (r.deriv c) s).language ↔
        ∃ u, c :: u ∈ r.language ∧ ∃ v ∈ s.language, u ++ v = word := by
      simp only [mem_language_seq, ihr]
    have hword : c :: word ∈ (seq r s).language ↔
        word ∈ (seq (r.deriv c) s).language ∨ ([] ∈ r.language ∧ c :: word ∈ s.language) := by
      rw [hfirst, mem_language_seq]
      constructor
      · rintro ⟨u, hu, v, hv, heq⟩
        cases u with
        | nil =>
          subst heq
          exact .inr ⟨hu, hv⟩
        | cons d u =>
          simp only [List.cons_append, List.cons.injEq] at heq
          obtain ⟨rfl, heq⟩ := heq
          exact .inl ⟨u, hu, v, hv, heq⟩
      · rintro (⟨u, hu, v, hv, rfl⟩ | ⟨hnil, hs⟩)
        · exact ⟨c :: u, hu, v, hv, rfl⟩
        · exact ⟨[], hnil, c :: word, hs, rfl⟩
    rw [hword, ← nullable_iff]
    by_cases hnullable : r.nullable = true
    · simp only [deriv, hnullable, if_true, mem_language_alt, ihs, true_and]
    · simp only [deriv, hnullable, Bool.false_eq_true, if_false, false_and, or_false]
  | star r ih =>
    simp only [deriv, mem_language_seq, ih]
    exact cons_mem_kstar.symm

theorem longest_eq_none {r : Regex α} {text : List α}
    (hnone : ∀ word, word <+: text → word ∉ r.language) : r.longest text = none := by
  have hnil : ¬ r.nullable = true := by
    rw [nullable_iff]
    exact hnone [] List.nil_prefix
  induction text generalizing r with
  | nil => simp only [longest, if_neg hnil]
  | cons c cs ih =>
    have hderiv : ∀ word, word <+: cs → word ∉ (r.deriv c).language := by
      intro word hbegins
      rw [mem_language_deriv]
      exact hnone (c :: word) ((List.prefix_cons_inj c).mpr hbegins)
    have hnext : ¬ (r.deriv c).nullable = true := by
      rw [nullable_iff]
      exact hderiv [] List.nil_prefix
    simp only [longest, ih hderiv hnext, if_neg hnil]

/-- Where no nonempty prefix matches, only the empty one can. -/
theorem longest_of_quiet {r : Regex α} {text : List α}
    (hquiet : ∀ word, word <+: text → word ≠ [] → word ∉ r.language) :
    r.longest text = if r.nullable then some 0 else none := by
  cases text with
  | nil => rfl
  | cons c cs =>
    have hnone : (r.deriv c).longest cs = none := by
      apply longest_eq_none
      intro word hbegins
      rw [mem_language_deriv]
      exact hquiet (c :: word) ((List.prefix_cons_inj c).mpr hbegins) (by simp)
    simp only [longest, hnone]

/-- A word that matches and that no further symbols extend to a match is the
longest one. -/
theorem longest_append {r : Regex α} {word rest : List α} (hword : word ∈ r.language)
    (hlongest : ∀ more, more <+: rest → more ≠ [] → word ++ more ∉ r.language) :
    r.longest (word ++ rest) = some word.length := by
  induction word generalizing r with
  | nil =>
    rw [List.nil_append, longest_of_quiet hlongest, if_pos ((nullable_iff r).mpr hword)]
    rfl
  | cons c cs ih =>
    have hnext : (r.deriv c).longest (cs ++ rest) = some cs.length := by
      apply ih ((mem_language_deriv r c cs).mpr hword)
      intro more hbegins hmore
      rw [mem_language_deriv]
      exact hlongest more hbegins hmore
    simp only [List.cons_append, longest, hnext, List.length_cons]

theorem quiet_append (r : Regex α) (rest text more : List α) :
    r.Quiet rest (text ++ more) ↔ r.Quiet (more ++ rest) text ∧ r.Quiet rest more := by
  induction text with
  | nil => simp [Quiet]
  | cons c cs ih => simp only [List.cons_append, Quiet, ih, List.append_assoc, and_assoc]

/-- A quiet text goes to the current piece as it is. -/
theorem pieces_quiet {r : Regex α} {rest text : List α} (hquiet : r.Quiet rest text)
    (field : List α) : r.pieces 0 field (text ++ rest) = r.pieces 0 (field ++ text) rest := by
  induction text generalizing field with
  | nil => simp
  | cons c cs ih =>
    have hlongest : r.longest (c :: (cs ++ rest)) = if r.nullable then some 0 else none := by
      apply longest_of_quiet
      intro word hbegins hword
      cases word with
      | nil => exact absurd rfl hword
      | cons d word =>
        obtain ⟨rfl, htail⟩ := List.cons_prefix_cons.mp hbegins
        exact hquiet.1 word htail
    have hstep : r.pieces 0 field (c :: (cs ++ rest)) =
        r.pieces 0 (field ++ [c]) (cs ++ rest) := by
      rw [pieces, hlongest]
      by_cases hnullable : r.nullable = true
      · rw [if_pos hnullable]
      · rw [if_neg hnullable]
    rw [List.cons_append, hstep, ih hquiet.2]
    simp

theorem pieces_skip (r : Regex α) (field word rest : List α) :
    r.pieces word.length field (word ++ rest) = r.pieces 0 field rest := by
  induction word with
  | nil => rfl
  | cons c cs ih => simpa only [List.length_cons, List.cons_append, pieces] using ih

theorem pieces_ne_nil (r : Regex α) (skip : Nat) (field text : List α) :
    r.pieces skip field text ≠ [] := by
  fun_induction pieces r skip field text <;> simp_all

theorem split_ne_nil (r : Regex α) (text : List α) : r.split text ≠ [] :=
  pieces_ne_nil r 0 [] text

/-- A text in which no match starts is one piece. -/
theorem split_quiet {r : Regex α} {text : List α} (hquiet : r.Quiet [] text) :
    r.split text = [text] := by
  have hpieces := pieces_quiet hquiet []
  simpa [split, pieces] using hpieces

/-- The piece before a separator, and what is split after it. -/
theorem split_separator {r : Regex α} {text separator rest : List α}
    (hquiet : r.Quiet (separator ++ rest) text) (hnonempty : separator ≠ [])
    (hlongest : r.longest (separator ++ rest) = some separator.length) :
    r.split (text ++ (separator ++ rest)) = text :: r.split rest := by
  rw [split, pieces_quiet hquiet, List.nil_append]
  cases separator with
  | nil => exact absurd rfl hnonempty
  | cons c cs =>
    rw [List.cons_append, List.length_cons] at hlongest
    rw [List.cons_append, pieces, hlongest]
    exact congrArg (text :: ·) (pieces_skip r [] cs rest)

end Regex
