import Mathlib.Data.List.Nodup
import DstTestNode.Go.Publish

namespace go_test_node.main

/-- Every serialised payload carries its own number, and no two are equal. -/
def CarriesNumbers (self : Publisher) : Prop :=
  (∀ (k : Nat) payload, self.wire[k]? = some payload → payload[10]? = some (UInt8.ofNat k)) ∧
    self.wire.Nodup

/-- The writer serialises a message before the loop overwrites it. -/
def BeforeOverwrite (self : Publisher) : PublishEvent → Prop
  | .serialise => self.iterations = self.wire.length + 1
  | .iterate _ => True

instance (msg_size chunks now_nanos : Int) (self : Publisher) (event : PublishEvent) :
    Decidable ((publish_new_message msg_size chunks now_nanos).enabled self event) :=
  match event with
  | .iterate _ => inferInstanceAs (Decidable (_ ∧ _))
  | .serialise => inferInstanceAs (Decidable (self.queue ≠ []))

instance (self : Publisher) (event : PublishEvent) : Decidable (BeforeOverwrite self event) :=
  match event with
  | .iterate _ => .isTrue trivial
  | .serialise => inferInstanceAs (Decidable (_ = _))

/-- What every interleaving keeps: one array is behind all queued slices, and
it holds the number of the last iteration. -/
structure Shared (chunks : Int) (publisher : Publisher) : Prop where
  long : publisher.result = none → 10 < (publisher.memory publisher.payload).length
  last : 0 < publisher.iterations → (publisher.memory publisher.payload)[10]? =
    some (UInt8.ofNat (publisher.iterations - 1))
  queued : ∀ slice ∈ publisher.queue, slice = publisher.payload
  count : publisher.wire.length + publisher.queue.length ≤ publisher.iterations
  bound : publisher.iterations ≤ chunks.toNat

/-- Payloads with pairwise distinct numbers are pairwise distinct. -/
theorem nodup_of_numbers {wire : List Payload} (hlength : wire.length ≤ 256)
    (hnumbers : ∀ (k : Nat) payload, wire[k]? = some payload →
      payload[10]? = some (UInt8.ofNat k)) : wire.Nodup := by
  rw [List.nodup_iff_getElem?_ne_getElem?]
  intro first second hlt hsecond heq
  have hpayload := List.getElem?_eq_getElem hsecond
  have hbyte := hnumbers first _ (heq.trans hpayload)
  rw [hnumbers second _ hpayload, Option.some.injEq,
    LittleEndian.byte_inj (by omega) (by omega)] at hbyte
  omega

namespace Shared

variable {chunks : Int} {self : Publisher}

theorem start {msg_size now_nanos : Int} (hsize : 3 ≤ msg_size.tdiv chunks) :
    Shared chunks (.start (new_payload msg_size chunks now_nanos)) := by
  refine ⟨?_, by simp [Publisher.start], by simp [Publisher.start], by simp [Publisher.start],
    by simp [Publisher.start]⟩
  cases hpayload : new_payload msg_size chunks now_nanos with
  | error panic => simp [Publisher.start]
  | ok payload =>
    obtain ⟨hlength, _⟩ := length_new_payload hpayload
    intro _
    simp only [Publisher.start, Except.toOption, Option.getD_some]
    omega

theorem iterate (hself : Shared chunks self) {err : Option String}
    (hready : self.ready chunks (.iterate err)) :
    Shared chunks (self.iterate err) ∧ (self.iterate err).wire = self.wire := by
  obtain ⟨hrunning, hmore⟩ := hready
  have hlong := hself.long hrunning
  have hcount := hself.count
  have hstore : ((self.memory self.payload).set 10 (UInt8.ofNat self.iterations))[10]? =
      some (UInt8.ofNat self.iterations) := by
    simp [hlong]
  simp only [Publisher.iterate, set_byte_of_lt hlong]
  cases err with
  | some err =>
    exact ⟨⟨by simp, by simpa using hstore, hself.queued, by simpa using by omega,
      by simpa using by omega⟩, rfl⟩
  | none =>
    refine ⟨⟨by simpa using fun _ => hlong, by simpa using hstore, ?_, ?_,
      by simpa using by omega⟩, rfl⟩
    · intro slice hslice
      rcases List.mem_append.mp hslice with hold | hnew
      · exact hself.queued slice hold
      · exact List.mem_singleton.mp hnew
    · simp only [List.length_append, List.length_singleton]
      omega

/-- The writer puts on the wire what the array holds now. -/
theorem serialise (hself : Shared chunks self) (hready : self.ready chunks .serialise) :
    Shared chunks self.serialise ∧ self.wire.length < self.iterations ∧
      ∃ payload, self.serialise.wire = self.wire ++ [payload] ∧
        payload[10]? = some (UInt8.ofNat (self.iterations - 1)) := by
  cases hqueue : self.queue with
  | nil => exact absurd hqueue hready
  | cons slice queue =>
    have hcount := hself.count
    rw [hqueue, List.length_cons] at hcount
    have hslice := hself.queued slice (by simp [hqueue])
    simp only [Publisher.serialise, hqueue]
    refine ⟨⟨hself.long, hself.last, fun other hother => ?_, ?_, hself.bound⟩, by omega, _, rfl, ?_⟩
    · exact hself.queued other (by simp [hqueue, hother])
    · simp only [List.length_append, List.length_singleton]
      omega
    · rw [hslice]
      exact hself.last (by omega)

end Shared

/-- The payloads on the wire carry their own numbers in an interleaving exactly
when the writer always serialises a message before the loop overwrites it. -/
theorem carries_numbers_iff (msg_size chunks now_nanos : Int) (hchunks : chunks ≤ 256)
    (hsize : 3 ≤ msg_size.tdiv chunks) (events : List PublishEvent)
    (hlegal : (publish_new_message msg_size chunks now_nanos).Legal events) :
    (publish_new_message msg_size chunks now_nanos).Always CarriesNumbers events ↔
      (publish_new_message msg_size chunks now_nanos).Meets BeforeOverwrite events := by
  apply Machine.always_iff_meets _ (fun self => Shared chunks self ∧
    ∀ (k : Nat) payload, self.wire[k]? = some payload → payload[10]? = some (UInt8.ofNat k))
  · exact ⟨Shared.start hsize, by simp [publish_new_message, Publisher.start]⟩
  · rintro self ⟨hself, hnumbers⟩
    have hcount := hself.count
    have hbound := hself.bound
    exact ⟨hnumbers, nodup_of_numbers (by omega) hnumbers⟩
  · rintro self event ⟨hself, hnumbers⟩ hready hcondition
    cases event with
    | iterate err =>
      obtain ⟨hnext, hwire⟩ := hself.iterate hready
      exact ⟨hnext, fun k payload hpayload => hnumbers k payload (hwire ▸ hpayload)⟩
    | serialise =>
      obtain ⟨hnext, _, last, hwire, hlast⟩ := hself.serialise hready
      refine ⟨hnext, fun k payload hpayload => ?_⟩
      have hpayload : (self.wire ++ [last])[k]? = some payload := hwire ▸ hpayload
      rw [List.getElem?_append] at hpayload
      split at hpayload
      · exact hnumbers k payload hpayload
      · next hlong =>
        have hk : k = self.wire.length := by
          by_contra hne
          rw [List.getElem?_eq_none (by simp; omega)] at hpayload
          cases hpayload
        subst hk
        have hiterations : self.iterations = self.wire.length + 1 := hcondition
        simp only [Nat.sub_self, List.getElem?_cons_zero, Option.some.injEq] at hpayload
        rw [← hpayload, hlast, hiterations, Nat.add_sub_cancel]
  · rintro self event ⟨hself, _⟩ hready hnot ⟨hnumbers, _⟩
    cases event with
    | iterate err => exact hnot trivial
    | serialise =>
      obtain ⟨_, hlt, last, hwire, hlast⟩ := hself.serialise hready
      have hbound := hself.bound
      have hbyte := hnumbers self.wire.length last (by
        show self.serialise.wire[self.wire.length]? = some last
        simp [hwire])
      rw [hlast, Option.some.injEq, LittleEndian.byte_inj (by omega) (by omega)] at hbyte
      exact hnot (show self.iterations = self.wire.length + 1 by omega)
  · exact hlegal

/-- Two fragments of three bytes, each serialised at once. -/
theorem carries_numbers_idle_writer :
    (publish_new_message 6 2 1000000).Always CarriesNumbers
      [.iterate none, .serialise, .iterate none, .serialise] :=
  (carries_numbers_iff 6 2 1000000 (by decide) (by decide) _ (by decide)).mpr (by decide)

/-- A writer that is one iteration late sends the second fragment twice. -/
theorem late_writer_duplicates :
    (publish_new_message 6 2 1000000).Legal
        [.iterate none, .iterate none, .serialise, .serialise] ∧
      ¬ (publish_new_message 6 2 1000000).Always CarriesNumbers
        [.iterate none, .iterate none, .serialise, .serialise] := by
  refine ⟨by decide, fun halways => ?_⟩
  have hnodup := halways.last.2
  revert hnodup
  decide

end go_test_node.main
