import Mathlib.Data.List.Basic

namespace Segments

variable {α : Type*} [BEq α] [LawfulBEq α] {sep : α} {text segment : List α}

/-- A segment has characters of the text, and no separator. -/
theorem mem_of_mem_segment (hsegment : segment ∈ text.splitOn sep) {c : α} (hc : c ∈ segment) :
    c ∈ text ∧ c ≠ sep := by
  induction text generalizing segment with
  | nil =>
    rw [List.splitOn_nil, List.mem_singleton] at hsegment
    rw [hsegment] at hc
    cases hc
  | cons first text ih =>
    rw [List.splitOn_cons_eq_if_modifyHead] at hsegment
    by_cases hsep : (first == sep) = true
    · rw [if_pos hsep] at hsegment
      rcases List.mem_cons.mp hsegment with rfl | hrest
      · cases hc
      · exact (ih hrest hc).imp_left (List.mem_cons_of_mem first)
    · rw [if_neg hsep] at hsegment
      obtain ⟨head, tail, hsplit⟩ := List.exists_cons_of_ne_nil (List.splitOn_ne_nil sep text)
      rw [hsplit, List.modifyHead_cons] at hsegment
      rcases List.mem_cons.mp hsegment with rfl | hrest
      · rcases List.mem_cons.mp hc with rfl | hhead
        · exact ⟨List.mem_cons_self, fun hsame => hsep (beq_iff_eq.mpr hsame)⟩
        · have hmem : head ∈ text.splitOn sep := hsplit ▸ List.mem_cons_self
          exact (ih hmem hhead).imp_left (List.mem_cons_of_mem first)
      · have hmem : segment ∈ text.splitOn sep := hsplit ▸ List.mem_cons_of_mem head hrest
        exact (ih hmem hc).imp_left (List.mem_cons_of_mem first)

/-- A last segment added to a text is its last one. -/
theorem splitOn_append_last (stem : List α) (hlast : sep ∉ segment) :
    (stem ++ sep :: segment).splitOn sep = stem.splitOn sep ++ [segment] := by
  rw [List.splitOn_append_cons_self, List.splitOn_eq_singleton hlast]

/-- What is before the last separator, and after it, can be told from the text. -/
theorem append_last_inj {stem stem' segment' : List α} (hlast : sep ∉ segment)
    (hlast' : sep ∉ segment') :
    stem ++ sep :: segment = stem' ++ sep :: segment' ↔ stem = stem' ∧ segment = segment' := by
  refine ⟨fun hsame => ?_, ?_⟩
  · have hsplit := congrArg (List.splitOn sep) hsame
    rw [splitOn_append_last stem hlast, splitOn_append_last stem' hlast'] at hsplit
    obtain ⟨hstem, hsegment⟩ := List.append_inj' hsplit rfl
    refine ⟨?_, List.singleton_inj.mp hsegment⟩
    simpa only [List.intercalate_splitOn] using congrArg (List.intercalate [sep]) hstem
  · rintro ⟨rfl, rfl⟩
    rfl

/-- A text with a separator has a second segment. -/
theorem one_lt_length_splitOn (hsep : sep ∈ text) : 1 < (text.splitOn sep).length := by
  obtain ⟨before, after, rfl⟩ := List.append_of_mem hsep
  have hbefore := List.length_pos_iff.mpr (List.splitOn_ne_nil sep before)
  have hafter := List.length_pos_iff.mpr (List.splitOn_ne_nil sep after)
  rw [List.splitOn_append_cons_self, List.length_append]
  omega

end Segments
