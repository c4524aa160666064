import DstTestNode.Rust.Fragments
import Mathlib

open rust

namespace rust_test_node.main

/-- A publish command with the clock reading its publisher makes. -/
abbrev TimedCommand : Type := PublishCommand × Utc

/-- Runs that carry out the given commands, in any build and with any outcomes. -/
def RunsOf (commands : List TimedCommand) (runs : List PublishRun) : Prop :=
  runs.map (fun run => (run.cmd, run.now)) = commands

/-- Whatever the publish calls return, all payloads handed over are distinct,
and so are their message ids under a hash that is injective on them. -/
def FragmentsDistinct (hash : Payload → UInt64) (commands : List TimedCommand) : Prop :=
  ∀ runs, RunsOf commands runs →
    (runs.flatMap PublishRun.payloads).Nodup ∧
      (Set.InjOn hash {data | data ∈ runs.flatMap PublishRun.payloads} →
        ((runs.flatMap PublishRun.payloads).map (msg_id_provider hash)).Nodup)

/-- A command whose fragments all carry their own number. -/
def PublishCommand.Numbered (cmd : PublishCommand) : Prop :=
  cmd.chunks.toNat = 1 ∨ (cmd.chunks.toNat ≤ 256 ∧ 10 < cmd.fragment_length)

theorem msg_id_provider_injOn {hash : Payload → UInt64} {payloads : Set Payload}
    (hhash : Set.InjOn hash payloads) : Set.InjOn (msg_id_provider hash) payloads := by
  intro first hfirst second hsecond heq
  apply hhash hfirst hsecond
  exact UInt64.toNat_inj.mp (Nat.repr_inj.mp heq)

/-- Below 256 fragments, in buffers that reach the fragment number, different
fragments have different payloads. -/
theorem fragment_injOn {cmd : PublishCommand} (now : Utc) (hheader : cmd.HasHeader)
    (hlong : 10 < cmd.fragment_length) {first second : Nat} (hfirst : first < 256)
    (hsecond : second < 256) (heq : fragment cmd now first = fragment cmd now second) :
    first = second := by
  have hbyte := congrArg (fun data : Payload => data[10]?) heq
  simp only [fragment_number now hheader hlong, Option.some.injEq] at hbyte
  exact (LittleEndian.byte_inj hfirst hsecond).mp hbyte

theorem PublishRun.payloads_nodup {self : PublishRun} (hnumbered : self.cmd.Numbered) :
    self.payloads.Nodup := by
  by_cases hheader : self.cmd.HasHeader
  · apply self.payloads_isPrefix.sublist.nodup
    apply List.Nodup.map_on ?_ List.nodup_range
    intro first hfirst second hsecond heq
    rw [List.mem_range] at hfirst hsecond
    rcases hnumbered with hone | ⟨hfew, hlong⟩
    · omega
    · exact fragment_injOn self.now hheader hlong (by omega) (by omega) heq
  · rw [self.payloads_eq_nil hheader]
    exact List.nodup_nil

/-- Fragments published at different times differ in their header. -/
theorem PublishRun.payloads_disjoint {first second : PublishRun}
    (htime : first.now.unix_nano ≠ second.now.unix_nano) :
    first.payloads.Disjoint second.payloads := by
  intro data hfirst hsecond
  obtain ⟨_, chunk, _, hdata⟩ := PublishRun.mem_payloads hfirst
  obtain ⟨_, other, _, hother⟩ := PublishRun.mem_payloads hsecond
  have htimes := fragment_time first.cmd first.now chunk
  rw [← hdata, hother, fragment_time, Option.some.injEq, Nat.cast_inj] at htimes
  exact htime htimes.symm

/-- A command with two equal fragment numbers, or with more than one fragment
and no room for the number, hands over the same payload twice. -/
theorem PublishRun.payloads_not_nodup {self : PublishRun} (hchunks : 1 ≤ self.cmd.chunks.toNat)
    (hlen : 8 ≤ self.cmd.fragment_length) (haccepted : self.Accepted)
    (hnumbered : ¬ self.cmd.Numbered) : ¬ self.payloads.Nodup := by
  simp only [PublishCommand.Numbered, not_or, not_and] at hnumbered
  obtain ⟨hmany, hnumber⟩ := hnumbered
  have hfits : self.cmd.fragment_length ≤ isize_max := by
    have hsize := self.cmd.msg_size.toNat_lt
    have hhalf : self.cmd.msg_size.toNat / self.cmd.chunks.toNat ≤ self.cmd.msg_size.toNat / 2 :=
      Nat.div_le_div_left (by omega) (by omega)
    simp only [PublishCommand.fragment_length, isize_max]
    omega
  have hheader : self.cmd.HasHeader := ⟨hchunks, hlen, hfits⟩
  have hcount := le_payloads_length hheader haccepted
  have hvalue (k : Nat) (hk : k < self.payloads.length) :
      self.payloads[k] = fragment self.cmd self.now k := by
    have hget := self.payloads_isPrefix.getElem hk
    simpa using hget
  have hrepeat : ∃ second, 0 < second ∧ second < min self.cmd.chunks.toNat (i32_max + 1) ∧
      fragment self.cmd self.now 0 = fragment self.cmd self.now second := by
    by_cases hfew : self.cmd.chunks.toNat ≤ 256
    · have hshort := Nat.le_of_not_lt (hnumber hfew)
      refine ⟨1, by omega, ?_, fragment_eq_of_short self.now hheader hshort 0 1⟩
      simp only [i32_max]
      omega
    · refine ⟨256, by omega, ?_, fragment_eq_of_byte_eq self.cmd self.now (by decide)⟩
      simp only [i32_max]
      omega
  obtain ⟨second, hpos, hsecond, heq⟩ := hrepeat
  intro hnodup
  have hfirst : 0 < self.payloads.length := by omega
  have hlast : second < self.payloads.length := by omega
  have hsame : self.payloads[0] = self.payloads[second] := by rw [hvalue, hvalue, heq]
  have hindex := hnodup.getElem_inj_iff.mp hsame
  omega

/-- Over commands with pairwise distinct times that do not panic, all payloads
and message ids are distinct exactly when every command numbers its fragments:
one fragment, or at most 256 in buffers longer than ten bytes. -/
theorem published_fragments_distinct_iff (hash : Payload → UInt64) (commands : List TimedCommand)
    (hchunks : ∀ command ∈ commands, 1 ≤ command.1.chunks.toNat)
    (hlen : ∀ command ∈ commands, 8 ≤ command.1.fragment_length)
    (htimes : (commands.map fun command => command.2.unix_nano).Nodup) :
    FragmentsDistinct hash commands ↔ ∀ command ∈ commands, command.1.Numbered := by
  constructor
  · intro hdistinct command hcommand
    by_contra hnumbered
    let accept : TimedCommand → PublishRun := fun command =>
      { profile := .debug, cmd := command.1, now := command.2, outcome := fun _ => .ok "" }
    have hruns : RunsOf commands (commands.map accept) := by
      rw [RunsOf, List.map_map]
      exact List.map_id commands
    obtain ⟨hnodup, _⟩ := hdistinct _ hruns
    have hone := (List.nodup_flatMap.mp hnodup).1 (accept command) (List.mem_map_of_mem hcommand)
    exact PublishRun.payloads_not_nodup (hchunks command hcommand) (hlen command hcommand)
      (fun _ _ _ => ⟨"", rfl⟩) hnumbered hone
  · intro hnumbered runs hruns
    have hnodup : (runs.flatMap PublishRun.payloads).Nodup := by
      refine List.nodup_flatMap.mpr ⟨fun run hrun => ?_, ?_⟩
      · apply PublishRun.payloads_nodup
        exact hnumbered (run.cmd, run.now) (hruns ▸ List.mem_map_of_mem hrun)
      · rw [← hruns, List.map_map] at htimes
        exact (List.pairwise_map.mp htimes).imp PublishRun.payloads_disjoint
    exact ⟨hnodup, fun hhash => hnodup.map_on fun _ hfirst _ hsecond =>
      msg_id_provider_injOn hhash hfirst hsecond⟩

/-- Two numbered messages: one of two fragments, one of a single fragment too
short for its number. -/
theorem published_fragments_distinct_two :
    FragmentsDistinct (fun data => UInt64.ofNat (LittleEndian.value data))
      [(⟨"test", 22, 2, 0⟩, ⟨1000000, by decide, "first"⟩),
        (⟨"test", 8, 1, 1⟩, ⟨1000001, by decide, "second"⟩)] :=
  (published_fragments_distinct_iff _ _ (by decide) (by decide) (by decide)).mpr
    (by simp [PublishCommand.Numbered, PublishCommand.fragment_length])

/-- A message of twenty bytes in two fragments leaves no room for the number:
both fragments are the same payload, whatever the hash. -/
theorem twenty_bytes_in_two_fragments_collide :
    1 ≤ (⟨"test", 20, 2, 0⟩ : PublishCommand).chunks.toNat ∧
      8 ≤ (⟨"test", 20, 2, 0⟩ : PublishCommand).fragment_length ∧
      ∀ hash, ¬ FragmentsDistinct hash
        [(⟨"test", 20, 2, 0⟩, ⟨1000000, by decide, "now"⟩)] := by
  refine ⟨by decide, by decide, fun hash hdistinct => ?_⟩
  obtain ⟨hnodup, _⟩ := hdistinct
    [⟨.release, ⟨"test", 20, 2, 0⟩, ⟨1000000, by decide, "now"⟩, fun _ => .ok ""⟩] rfl
  revert hnodup
  decide

end rust_test_node.main
