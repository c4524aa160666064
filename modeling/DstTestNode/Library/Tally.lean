import Mathlib.Data.List.AList
import Mathlib.Algebra.BigOperators.Group.List.Basic
import Mathlib.Algebra.Ring.Nat

/-- A map whose entries are running totals. A key without an entry has total zero. -/
abbrev Tally (K M : Type*) : Type _ := AList fun _ : K => M

namespace Tally

variable {K M : Type*} [DecidableEq K]

/-- The total of a key. -/
def value [Zero M] (tally : Tally K M) (key : K) : M := (tally.lookup key).getD 0

/-- Add a weight to the total of a key. -/
def add [Zero M] [Add M] (tally : Tally K M) (key : K) (weight : M) : Tally K M :=
  tally.insert key (tally.value key + weight)

omit [DecidableEq K] in
/-- A map is known by its lookups, up to the order of its entries. -/
theorem keys_perm {V : Type*} {table : AList fun _ : K => V} {keys : List K} (hkeys : keys.Nodup)
    (hmem : ∀ key, key ∈ table ↔ key ∈ keys) : table.keys.Perm keys :=
  (List.perm_ext_iff_of_nodup table.keys_nodup hkeys).mpr hmem

/-- How many entries have a property, by the lookups. -/
theorem countP_entries {V : Type*} {table : AList fun _ : K => V} {keys : List K}
    (hkeys : keys.Nodup) (hmem : ∀ key, key ∈ table ↔ key ∈ keys) (property : V → Bool) :
    (table.entries.countP fun entry => property entry.2) =
      keys.countP fun key => (table.lookup key).any property := by
  have hentries : (table.entries.countP fun entry => property entry.2) =
      table.entries.countP fun entry => (table.lookup entry.1).any property := by
    apply List.countP_congr
    intro entry hentry
    have hlookup : table.lookup entry.1 = some entry.2 := AList.mem_lookup_iff.mpr hentry
    rw [hlookup]
    rfl
  rw [hentries, ← (keys_perm hkeys hmem).countP_eq, AList.keys, List.keys, List.countP_map]
  rfl

/-- An entry that is assigned in a loop keeps the last value. -/
theorem lookup_foldl_insert {V ι : Type*} (key : ι → K) (entry : ι → V) (items : List ι)
    (table : AList fun _ : K => V) (other : K) :
    (items.foldl (fun table item => table.insert (key item) (entry item)) table).lookup other =
      ((items.filter fun item => key item = other).getLast?.map entry).or (table.lookup other) := by
  induction items generalizing table with
  | nil => simp
  | cons item items ih =>
    rw [List.foldl_cons, ih]
    by_cases hkey : key item = other
    · subst hkey
      rw [AList.lookup_insert, List.filter_cons_of_pos (by simp), List.getLast?_cons]
      cases (items.filter fun later => key later = key item).getLast? <;> simp
    · rw [AList.lookup_insert_ne (Ne.symm hkey), List.filter_cons_of_neg (by simpa using hkey)]

section

variable [AddCommMonoid M]

@[simp] theorem value_empty (key : K) : (∅ : Tally K M).value key = 0 := by
  simp [value]

theorem value_add (tally : Tally K M) (key : K) (weight : M) (other : K) :
    (tally.add key weight).value other =
      tally.value other + if other = key then weight else 0 := by
  by_cases hother : other = key
  · subst hother
    simp [value, add]
  · simp [value, add, hother, AList.lookup_insert_ne hother]

theorem mem_add (tally : Tally K M) (key : K) (weight : M) (other : K) :
    other ∈ tally.add key weight ↔ other = key ∨ other ∈ tally := by
  simp [add]

variable {ι : Type*} (key : ι → K) (weight : ι → M)

/-- The total of a key is the sum of the weights that were added to it. -/
theorem value_foldl (items : List ι) (tally : Tally K M) (other : K) :
    (items.foldl (fun tally item => tally.add (key item) (weight item)) tally).value other =
      tally.value other + (items.map fun item => if other = key item then weight item else 0).sum := by
  induction items generalizing tally with
  | nil => simp
  | cons item items ih =>
    rw [List.foldl_cons, ih, value_add, List.map_cons, List.sum_cons, add_assoc]

theorem mem_foldl (items : List ι) (tally : Tally K M) (other : K) :
    other ∈ items.foldl (fun tally item => tally.add (key item) (weight item)) tally ↔
      (∃ item ∈ items, other = key item) ∨ other ∈ tally := by
  induction items generalizing tally with
  | nil => simp
  | cons item items ih =>
    rw [List.foldl_cons, ih, mem_add, List.exists_mem_cons_iff, or_left_comm, or_assoc]

omit key weight in
theorem sum_indicator {keys : List K} (hkeys : keys.Nodup) {key : K} (hkey : key ∈ keys)
    (weight : M) : (keys.map fun other => if other = key then weight else 0).sum = weight := by
  induction keys with
  | nil => cases hkey
  | cons first keys ih =>
    obtain ⟨hfirst, hrest⟩ := List.nodup_cons.mp hkeys
    by_cases heq : first = key
    · subst heq
      have hzero : ∀ other ∈ keys, (if other = first then weight else 0) = 0 := by
        intro other hother
        rw [if_neg]
        rintro rfl
        exact hfirst hother
      rw [List.map_cons, List.sum_cons, if_pos rfl, List.map_congr_left hzero]
      simp
    · have hmem : key ∈ keys := (List.mem_cons.mp hkey).resolve_left (Ne.symm heq)
      rw [List.map_cons, List.sum_cons, if_neg heq, zero_add, ih hrest hmem]

/-- The weight of an item, picked out by its key. -/
theorem sum_of_mem {items : List ι} (hkeys : (items.map key).Nodup) {item : ι}
    (hitem : item ∈ items) :
    (items.map fun other => if key item = key other then weight other else 0).sum = weight item := by
  induction items with
  | nil => cases hitem
  | cons first items ih =>
    obtain ⟨hfirst, hrest⟩ := List.nodup_cons.mp hkeys
    rcases List.mem_cons.mp hitem with rfl | hitem
    · have hzero : ∀ other ∈ items, (if key item = key other then weight other else 0) = 0 := by
        intro other hother
        rw [if_neg]
        intro heq
        exact hfirst (heq ▸ List.mem_map_of_mem hother)
      rw [List.map_cons, List.sum_cons, if_pos rfl, List.map_congr_left hzero]
      simp
    · have hne : key item ≠ key first := by
        intro heq
        exact hfirst (heq ▸ List.mem_map_of_mem hitem)
      rw [List.map_cons, List.sum_cons, if_neg hne, zero_add, ih hrest hitem]

/-- The sums of the weights by key add up to the sum of all weights. -/
theorem sum_by_key {keys : List K} (hkeys : keys.Nodup) (items : List ι)
    (hmem : ∀ item ∈ items, key item ∈ keys) :
    (keys.map fun other => (items.map fun item => if other = key item then weight item else 0).sum).sum =
      (items.map weight).sum := by
  induction items with
  | nil => simp
  | cons item items ih =>
    have hone := sum_indicator hkeys (hmem item List.mem_cons_self) (weight item)
    simp only [List.map_cons, List.sum_cons, List.sum_map_add, hone]
    rw [ih fun other hother => hmem other (List.mem_cons_of_mem item hother)]

end

/-- The sum of all totals, by the keys. -/
theorem sum_entries [AddCommMonoid M] (tally : Tally K M) :
    (tally.entries.map Sigma.snd).sum = (tally.keys.map tally.value).sum := by
  rw [AList.keys, List.keys, List.map_map]
  congr 1
  apply List.map_congr_left
  intro entry hentry
  have hlookup : tally.lookup entry.1 = some entry.2 := AList.mem_lookup_iff.mpr hentry
  simp [value, hlookup]

/-- The table of how many items have each key. -/
def count {ι : Type*} (key : ι → K) (items : List ι) : Tally K Nat :=
  items.foldl (fun tally item => tally.add (key item) 1) ∅

section

variable {ι : Type*} (key : ι → K)

theorem value_count (items : List ι) (other : K) :
    (count key items).value other = items.countP fun item => other = key item := by
  rw [count, value_foldl key fun _ => 1, value_empty, Nat.zero_add]
  induction items with
  | nil => rfl
  | cons item items ih => simp [List.countP_cons, ih, Nat.add_comm]

theorem mem_count (items : List ι) (other : K) :
    other ∈ count key items ↔ ∃ item ∈ items, key item = other := by
  rw [count, mem_foldl key fun _ => 1]
  simp [AList.notMem_empty, eq_comm]

/-- What the keys contribute, each as often as it was counted, is what the items
contribute. -/
theorem sum_count {N : Type*} [AddCommMonoid N] {keys : List K} (hkeys : keys.Nodup)
    {items : List ι} (hmem : ∀ item ∈ items, key item ∈ keys) (p : K → Bool) (f : K → N) :
    ((keys.filter p).map fun other => (count key items).value other • f other).sum =
      ((items.filter fun item => p (key item)).map fun item => f (key item)).sum := by
  simp only [value_count]
  induction items with
  | nil => simp
  | cons item items ih =>
    have hrest := ih fun other hother => hmem other (List.mem_cons_of_mem item hother)
    have hone : ((keys.filter p).map fun other => if other = key item then f (key item) else 0).sum =
        if p (key item) then f (key item) else 0 := by
      by_cases hp : p (key item) = true
      · have hfirst := hmem item List.mem_cons_self
        rw [if_pos hp, sum_indicator (hkeys.filter p) (List.mem_filter.mpr ⟨hfirst, hp⟩)]
      · rw [if_neg hp]
        apply List.sum_eq_zero
        intro weight hweight
        obtain ⟨other, hother, rfl⟩ := List.mem_map.mp hweight
        rw [if_neg]
        rintro rfl
        exact hp (List.mem_filter.mp hother).2
    have hstep (other : K) : ((item :: items).countP fun item => other = key item) • f other =
        (items.countP fun item => other = key item) • f other +
          if other = key item then f (key item) else 0 := by
      rw [List.countP_cons, add_nsmul]
      by_cases hother : other = key item
      · simp only [hother, decide_true, if_true, one_nsmul]
      · simp only [hother, decide_false, Bool.false_eq_true, if_false, zero_nsmul]
    simp only [hstep, List.sum_map_add, hone, hrest]
    by_cases hp : p (key item) = true
    · simp [hp, add_comm]
    · simp [hp]

end

end Tally
