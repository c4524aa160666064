import Mathlib.Data.List.Count
import Mathlib.Data.List.Nodup
import Mathlib.Data.List.Perm.Subperm
import Mathlib.Order.Nat

/-- Messages that are cut into a number of different pieces and told apart by
their keys, and pieces of them that arrive, each at most once. -/
structure Reassembly {Message Piece Key : Type*} (pieces : Message → List Piece)
    (key : Message → Key) (key_of : Piece → Option Key) (chunks : Nat) (messages : List Message)
    (arrived : List Piece) : Prop where
  chunks_pos : 0 < chunks
  length : ∀ message ∈ messages, (pieces message).length = chunks
  nodup : ∀ message ∈ messages, (pieces message).Nodup
  keyed : ∀ message ∈ messages, ∀ piece ∈ pieces message, key_of piece = some (key message)
  keys_nodup : (messages.map key).Nodup
  published : ∀ piece ∈ arrived, ∃ message ∈ messages, piece ∈ pieces message
  once : arrived.Nodup

namespace Reassembly

variable {Message Piece Key : Type*} {pieces : Message → List Piece} {key : Message → Key}
  {key_of : Piece → Option Key} {chunks : Nat} {messages : List Message} {arrived : List Piece}

/-- All the pieces of a message have arrived. -/
def Complete (pieces : Message → List Piece) (arrived : List Piece) (message : Message) : Prop :=
  ∀ piece ∈ pieces message, piece ∈ arrived

instance [DecidableEq Piece] (message : Message) : Decidable (Complete pieces arrived message) :=
  inferInstanceAs (Decidable (∀ piece ∈ pieces message, piece ∈ arrived))

/-- The last piece of a message to arrive is the one at position `k`. -/
def CompletedAt (pieces : Message → List Piece) (arrived : List Piece) (k : Nat)
    (message : Message) : Prop :=
  Complete pieces (arrived.take (k + 1)) message ∧ ¬ Complete pieces (arrived.take k) message

instance [DecidableEq Piece] (k : Nat) (message : Message) :
    Decidable (CompletedAt pieces arrived k message) :=
  inferInstanceAs (Decidable (_ ∧ ¬ _))

/-- Any initial part of the arrivals is one of the same messages. -/
theorem take (self : Reassembly pieces key key_of chunks messages arrived) (count : Nat) :
    Reassembly pieces key key_of chunks messages (arrived.take count) :=
  { self with
    published := fun piece hpiece => self.published piece (List.mem_of_mem_take hpiece)
    once := self.once.sublist (List.take_sublist _ _) }

/-- A piece that arrives carries the key of a message exactly when it is one of
its pieces. -/
theorem key_of_eq_iff (self : Reassembly pieces key key_of chunks messages arrived)
    {message : Message} (hmessage : message ∈ messages) {piece : Piece} (hpiece : piece ∈ arrived) :
    key_of piece = some (key message) ↔ piece ∈ pieces message := by
  constructor
  · intro hkey
    obtain ⟨other, hother, hin⟩ := self.published piece hpiece
    rw [self.keyed other hother piece hin] at hkey
    rwa [List.inj_on_of_nodup_map self.keys_nodup hmessage hother (Option.some.inj hkey).symm]
  · exact self.keyed message hmessage piece

/-- Every piece that arrives has the key of some message. -/
theorem exists_message (self : Reassembly pieces key key_of chunks messages arrived)
    {piece : Piece} (hpiece : piece ∈ arrived) {found : Key} (hkey : key_of piece = some found) :
    ∃ message ∈ messages, key message = found ∧ piece ∈ pieces message := by
  obtain ⟨message, hmessage, hin⟩ := self.published piece hpiece
  rw [self.keyed message hmessage piece hin] at hkey
  exact ⟨message, hmessage, Option.some.inj hkey, hin⟩

section

variable [DecidableEq Key]

/-- The key of an arrival occurs among the arrivals up to it. -/
theorem count_take_pos {k : Nat} (hk : k < arrived.length) {found : Key}
    (hkey : key_of arrived[k] = some found) :
    0 < ((arrived.take (k + 1)).filterMap key_of).count found := by
  have hmem : arrived[k] ∈ arrived.take (k + 1) := by
    rw [← List.take_append_getElem hk]
    exact List.mem_append_right _ (List.mem_singleton_self _)
  exact List.count_pos_iff.mpr (List.mem_filterMap.mpr ⟨_, hmem, hkey⟩)

variable [DecidableEq Piece]

omit [DecidableEq Key] in
theorem filter_subperm (self : Reassembly pieces key key_of chunks messages arrived)
    (message : Message) :
    (arrived.filter (· ∈ pieces message)).Subperm (pieces message) := by
  apply List.subperm_of_subset (self.once.filter _)
  intro piece hpiece
  simpa using (List.mem_filter.mp hpiece).2

/-- The key of a message occurs as often as its pieces arrive. -/
theorem count_key (self : Reassembly pieces key key_of chunks messages arrived)
    {message : Message} (hmessage : message ∈ messages) :
    (arrived.filterMap key_of).count (key message) = arrived.countP (· ∈ pieces message) := by
  rw [List.count_filterMap]
  apply List.countP_congr
  intro piece hpiece
  simpa using self.key_of_eq_iff hmessage hpiece

theorem count_key_le (self : Reassembly pieces key key_of chunks messages arrived)
    {message : Message} (hmessage : message ∈ messages) :
    (arrived.filterMap key_of).count (key message) ≤ chunks := by
  rw [self.count_key hmessage, List.countP_eq_length_filter, ← self.length message hmessage]
  exact (self.filter_subperm message).length_le

/-- No key occurs more often than there are chunks. -/
theorem count_le (self : Reassembly pieces key key_of chunks messages arrived) (found : Key) :
    (arrived.filterMap key_of).count found ≤ chunks := by
  by_cases hcount : 0 < (arrived.filterMap key_of).count found
  · obtain ⟨piece, hpiece, hkey⟩ := List.mem_filterMap.mp (List.count_pos_iff.mp hcount)
    obtain ⟨message, hmessage, rfl, _⟩ := self.exists_message hpiece hkey
    exact self.count_key_le hmessage
  · omega

/-- A message is complete exactly when its key occurs once for each chunk. -/
theorem complete_iff (self : Reassembly pieces key key_of chunks messages arrived)
    {message : Message} (hmessage : message ∈ messages) :
    Complete pieces arrived message ↔ (arrived.filterMap key_of).count (key message) = chunks := by
  rw [self.count_key hmessage, List.countP_eq_length_filter]
  have hsubperm := self.filter_subperm message
  have hlength := self.length message hmessage
  constructor
  · intro hcomplete
    apply le_antisymm (hlength ▸ hsubperm.length_le)
    rw [← hlength]
    apply (List.subperm_of_subset (self.nodup message hmessage) ?_).length_le
    intro piece hpiece
    exact List.mem_filter.mpr ⟨hcomplete piece hpiece, by simpa using hpiece⟩
  · intro hcount piece hpiece
    have hperm := hsubperm.perm_of_length_le (by omega)
    exact (List.mem_filter.mp (hperm.mem_iff.mpr hpiece)).1

/-- The key that occurs once for each chunk is the key of a complete message. -/
theorem exists_complete (self : Reassembly pieces key key_of chunks messages arrived) {found : Key}
    (hoften : chunks ≤ (arrived.filterMap key_of).count found) :
    ∃ message ∈ messages, key message = found ∧ Complete pieces arrived message := by
  have hpos := self.chunks_pos
  have hcount : 0 < (arrived.filterMap key_of).count found := by omega
  obtain ⟨piece, hpiece, hkey⟩ := List.mem_filterMap.mp (List.count_pos_iff.mp hcount)
  obtain ⟨message, hmessage, rfl, _⟩ := self.exists_message hpiece hkey
  refine ⟨message, hmessage, rfl, (self.complete_iff hmessage).mpr ?_⟩
  exact le_antisymm (self.count_key_le hmessage) hoften

/-- An arrival brings its key up to the number of chunks exactly when it is the
last one of its message. -/
theorem completes_iff (self : Reassembly pieces key key_of chunks messages arrived) {k : Nat}
    (hk : k < arrived.length) (found : Key) :
    (key_of arrived[k] = some found ∧
        chunks ≤ ((arrived.take (k + 1)).filterMap key_of).count found) ↔
      ∃ message ∈ messages, key message = found ∧ CompletedAt pieces arrived k message := by
  have htake : arrived.take (k + 1) = arrived.take k ++ [arrived[k]] :=
    (List.take_append_getElem hk).symm
  have hstep : ((arrived.take (k + 1)).filterMap key_of).count found =
      ((arrived.take k).filterMap key_of).count found +
        if key_of arrived[k] = some found then 1 else 0 := by
    rw [htake, List.filterMap_append, List.count_append]
    cases hkey : key_of arrived[k] with
    | none => simp [hkey]
    | some other => simp [hkey, List.count_singleton]
  constructor
  · rintro ⟨hkey, hoften⟩
    rw [if_pos hkey] at hstep
    obtain ⟨message, hmessage, rfl, hcomplete⟩ := (self.take (k + 1)).exists_complete hoften
    refine ⟨message, hmessage, rfl, hcomplete, ?_⟩
    have hle := (self.take (k + 1)).count_key_le hmessage
    rw [(self.take k).complete_iff hmessage]
    omega
  · rintro ⟨message, hmessage, rfl, hnow, hbefore⟩
    rw [(self.take (k + 1)).complete_iff hmessage] at hnow
    rw [(self.take k).complete_iff hmessage] at hbefore
    refine ⟨?_, hnow.ge⟩
    by_contra hother
    rw [if_neg hother] at hstep
    omega

theorem completedAt_unique (self : Reassembly pieces key key_of chunks messages arrived) {k : Nat}
    (hk : k < arrived.length) {message other : Message} (hmessage : message ∈ messages)
    (hother : other ∈ messages) (hcompleted : CompletedAt pieces arrived k message)
    (hcompleted' : CompletedAt pieces arrived k other) : message = other := by
  have hkey := ((self.completes_iff hk _).mpr ⟨message, hmessage, rfl, hcompleted⟩).1
  have hkey' := ((self.completes_iff hk _).mpr ⟨other, hother, rfl, hcompleted'⟩).1
  exact List.inj_on_of_nodup_map self.keys_nodup hmessage hother
    (Option.some.inj (hkey.symm.trans hkey'))

/-- A receiver that reports a key from its last piece on reports the messages,
each with its last piece. -/
theorem reports_at (self : Reassembly pieces key key_of chunks messages arrived) {Report : Type*}
    (header : Report → Key) {reports : List (Option Report)}
    (hlength : reports.length = arrived.length) {k : Nat} (hk : k < arrived.length)
    (hreports : (reports[k]?.join).map header = (key_of arrived[k]).filter fun found =>
      chunks ≤ ((arrived.take (k + 1)).filterMap key_of).count found) :
    (∃ message ∈ messages, CompletedAt pieces arrived k message ∧
      ∃ report, reports[k]? = some (some report) ∧ header report = key message) ∨
    ((∀ message ∈ messages, ¬ CompletedAt pieces arrived k message) ∧ reports[k]? = some none) := by
  have hsome : reports[k]? = some reports[k] := List.getElem?_eq_getElem (hlength ▸ hk)
  rw [hsome, Option.join_some] at hreports
  rw [hsome]
  cases hreport : reports[k] with
  | some report =>
    rw [hreport, Option.map_some, eq_comm, Option.filter_eq_some_iff, decide_eq_true_eq] at hreports
    obtain ⟨message, hmessage, hkey, hcompleted⟩ := (self.completes_iff hk _).mp hreports
    exact .inl ⟨message, hmessage, hcompleted, report, rfl, hkey.symm⟩
  | none =>
    rw [hreport, Option.map_none, eq_comm, Option.filter_eq_none_iff] at hreports
    refine .inr ⟨fun message hmessage hcompleted => ?_, rfl⟩
    obtain ⟨hkey, hoften⟩ := (self.completes_iff hk _).mpr ⟨message, hmessage, rfl, hcompleted⟩
    exact hreports _ hkey (by simpa using hoften)

end

end Reassembly
