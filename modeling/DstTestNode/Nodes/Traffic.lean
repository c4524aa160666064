import DstTestNode.Nodes.Verdicts

open rust rust_test_node.main
open go_test_node.metrics (Counters)

namespace nodes

/-- The three nodes serve the same request with as many fragments. -/
structure SameRequest (rust : PublishRun) (go : GoCall) (nim : NimCall) : Prop where
  go_msg_size : go.msg_size = rust.cmd.msg_size.toNat
  nim_msg_size : nim.msg_size = rust.cmd.msg_size.toNat
  go_chunks : go.chunks = rust.cmd.chunks.toNat
  nim_chunks : nim.chunks = rust.cmd.chunks.toNat

/-- The lengths of the payloads that each node hands to gossipsub. -/
def rust_lengths (run : PublishRun) : List Nat :=
  run.payloads.map List.length

def go_lengths (call : GoCall) : List Nat :=
  (call.publish_new_message Counters.new).payloads.map List.length

def nim_lengths (call : NimCall) : List Nat :=
  (nim_test_node.gossipsub_queues.main.publish_new_message ⟨0, 0⟩ call).payloads.map List.length

/-- The payloads of a message have its size up to the rounding of the division. -/
def FillsMessage (msg_size chunks : Nat) (lengths : List Nat) : Prop :=
  lengths.sum ≤ msg_size ∧ msg_size < lengths.sum + chunks

/-- The three nodes hand over as many fragments of the same lengths, which
together have the size of the message. -/
structure SameTraffic (rust : PublishRun) (go : GoCall) (nim : NimCall) : Prop where
  go_lengths : nodes.go_lengths go = rust_lengths rust
  nim_lengths : nodes.nim_lengths nim = rust_lengths rust
  fills : FillsMessage rust.cmd.msg_size.toNat rust.cmd.chunks.toNat (rust_lengths rust)

/-- A payload of the Rust node is one fragment of the message. -/
theorem rust_length_of_mem {rust : PublishRun} {length : Nat}
    (hlength : length ∈ rust_lengths rust) : length = rust.cmd.fragment_length := by
  obtain ⟨data, hdata, rfl⟩ := List.mem_map.mp hlength
  obtain ⟨hheader, chunk, _, rfl⟩ := PublishRun.mem_payloads hdata
  exact fragment_length_eq rust.now hheader chunk

/-- A payload of the Go node is eight bytes longer. -/
theorem go_length_of_mem {rust : PublishRun} {go : GoCall} {nim : NimCall}
    (hsame : SameRequest rust go nim) {length : Nat} (hlength : length ∈ go_lengths go) :
    length = 8 + rust.cmd.fragment_length := by
  obtain ⟨data, hdata, rfl⟩ := List.mem_map.mp hlength
  have hdata' := go_test_node.main.PublishCall.length_of_mem_payloads hdata
  rw [hsame.go_msg_size, hsame.go_chunks, ← Int.ofNat_tdiv] at hdata'
  simp only [PublishCommand.fragment_length]
  omega

/-- The Rust and Nim nodes do hand over the same traffic, which fills the
message, when nothing stops the loop of the Rust node. -/
theorem rust_nim_same_traffic {rust : PublishRun} {go : GoCall} {nim : NimCall}
    (hsame : SameRequest rust go nim)
    (hrust : rust.cmd.Publishable rust.profile rust.outcome) (haccepted : rust.Accepted)
    (hnim : nim.Publishable) :
    nim_lengths nim = rust_lengths rust ∧
      FillsMessage rust.cmd.msg_size.toNat rust.cmd.chunks.toNat (rust_lengths rust) := by
  have hrust_lengths : rust_lengths rust =
      List.replicate rust.cmd.chunks.toNat rust.cmd.fragment_length := by
    rw [rust_lengths, PublishRun.payloads_eq_of_publishable hrust haccepted, List.map_map]
    simp [Function.comp_def, fragment_length_eq rust.now hrust.1]
  have hchunks : nim.chunks.toNat = rust.cmd.chunks.toNat := by
    rw [hsame.nim_chunks, Int.toNat_natCast]
  have hbuffer : nim.buffer.length = rust.cmd.fragment_length := by
    have hlong := hnim.2.1
    have hlength := nim.length_buffer (by omega)
    rw [hsame.nim_msg_size, hsame.nim_chunks, ← Int.ofNat_tdiv] at hlength
    simp only [PublishCommand.fragment_length]
    omega
  have hnim_lengths : nim_lengths nim =
      List.replicate rust.cmd.chunks.toNat rust.cmd.fragment_length := by
    rw [nim_lengths, nim_test_node.gossipsub_queues.main.PublishCall.publish_new_message_eq hnim]
    simp [Function.comp_def, hchunks, hbuffer]
  refine ⟨hnim_lengths.trans hrust_lengths.symm, ?_⟩
  have hround := Nat.lt_mul_div_succ rust.cmd.msg_size.toNat hrust.1.1
  rw [hrust_lengths, FillsMessage, List.sum_replicate, smul_eq_mul, PublishCommand.fragment_length]
  exact ⟨Nat.mul_div_le _ _, by rwa [Nat.mul_succ] at hround⟩

/-- Whatever the outcomes, the traffic of the three nodes is never the same: the
Go node puts the header in front of the fragment, the others into it. -/
theorem traffic_never_same (rust : PublishRun) (go : GoCall) (nim : NimCall)
    (hsame : SameRequest rust go nim) (hlong : 17 ≤ rust.cmd.fragment_length) :
    ¬ SameTraffic rust go nim := by
  intro htraffic
  have hchunks : rust.cmd.chunks.toNat ≤ rust.cmd.msg_size.toNat := by
    by_contra hfew
    rw [PublishCommand.fragment_length, Nat.div_eq_of_lt (by omega)] at hlong
    omega
  cases hlengths : rust_lengths rust with
  | nil =>
    have hfills := htraffic.fills.2
    rw [hlengths, List.sum_nil] at hfills
    omega
  | cons length lengths =>
    have hmem : length ∈ rust_lengths rust := by simp [hlengths]
    have hmem' : length ∈ go_lengths go := by simp [htraffic.go_lengths, hlengths]
    have hrust := rust_length_of_mem hmem
    have hgo := go_length_of_mem hsame hmem'
    omega

theorem pair_sameRequest (accepted : Nat → Bool) :
    SameRequest (rust_pair accepted) (go_pair accepted) (nim_pair accepted) where
  go_msg_size := rfl
  nim_msg_size := rfl
  go_chunks := rfl
  nim_chunks := rfl

theorem traffic_never_same_rejected :
    ¬ SameTraffic (rust_pair fun _ => false) (go_pair fun _ => false) (nim_pair fun _ => false) :=
  traffic_never_same (rust_pair fun _ => false) (go_pair fun _ => false) (nim_pair fun _ => false)
    (pair_sameRequest _) (by decide)

/-- Two accepted fragments of a message of 40 bytes are 20 bytes each in the
Rust and Nim nodes, and 28 bytes each in the Go node. -/
theorem go_fragments_longer :
    SameRequest (rust_pair fun _ => true) (go_pair fun _ => true) (nim_pair fun _ => true) ∧
      rust_lengths (rust_pair fun _ => true) = [20, 20] ∧
      nim_lengths (nim_pair fun _ => true) = [20, 20] ∧
      go_lengths (go_pair fun _ => true) = [28, 28] ∧
      ¬ SameTraffic (rust_pair fun _ => true) (go_pair fun _ => true) (nim_pair fun _ => true) := by
  have hrust : rust_lengths (rust_pair fun _ => true) = [20, 20] := rfl
  have hgo : go_lengths (go_pair fun _ => true) = [28, 28] := rfl
  refine ⟨pair_sameRequest _, hrust, rfl, hgo, fun htraffic => ?_⟩
  have hlengths := htraffic.go_lengths
  rw [hgo, hrust] at hlengths
  exact absurd hlengths (by decide)

end nodes
