import DstTestNode.Go.PublishCall
import DstTestNode.Nim.GossipsubPublish
import DstTestNode.Rust.PublishCounter

open rust rust_test_node.main
open go_test_node.metrics (Counters)
open nim_test_node.gossipsub_queues.main (PublishMetrics)

namespace nodes

abbrev GoCall : Type := go_test_node.main.PublishCall

abbrev NimCall : Type := nim_test_node.gossipsub_queues.main.PublishCall

/-- The client of a command of the Rust node is answered with success. -/
def rust_succeeds (run : PublishRun) : Prop :=
  ∃ verdict, run.Answers verdict ∧ (publish_reply verdict).2 = 200

theorem rust_succeeds_iff {rust : PublishRun}
    (hrust : rust.cmd.Publishable rust.profile rust.outcome) :
    rust_succeeds rust ↔ rust.Accepted ∧ rust.cmd.chunks.toNat ≤ i32_max := by
  rw [← publish_new_message_success_iff rust hrust]
  constructor
  · rintro ⟨verdict, hanswers, hstatus⟩
    cases verdict with
    | ok msg => exact ⟨msg, hanswers⟩
    | error e => simp [publish_reply] at hstatus
  · rintro ⟨msg, hanswers⟩
    exact ⟨.ok msg, hanswers, rfl⟩

/-- The three nodes publish as many fragments, with the same ones accepted. -/
structure SamePattern (rust : PublishRun) (go : GoCall) (nim : NimCall) : Prop where
  go_chunks : go.chunks = rust.cmd.chunks.toNat
  nim_chunks : nim.chunks = rust.cmd.chunks.toNat
  go_outcome : ∀ k < rust.cmd.chunks.toNat, go.outcome k = none ↔ ∃ id, rust.outcome k = .ok id
  nim_outcome : ∀ k < rust.cmd.chunks.toNat, 0 < nim.outcome k ↔ ∃ id, rust.outcome k = .ok id

/-- Each node answers success exactly when every fragment was accepted, so their
verdicts agree on the same pattern of outcomes, and the Nim node counts a
failure exactly when that is its verdict. -/
structure VerdictsExact (rust : PublishRun) (go : GoCall) (nim : NimCall) : Prop where
  rust_exact : rust_succeeds rust ↔ rust.Accepted
  go_exact : ∀ topics version publish_time counters, go.topic ∈ topics →
    (go.Succeeds topics version publish_time counters ↔ go.Accepted)
  nim_exact : ∀ version publish_time metrics,
    nim.Succeeds version publish_time metrics ↔ nim.Accepted
  agree : SamePattern rust go nim → ∀ topics version publish_time counters metrics,
    go.topic ∈ topics →
      (rust_succeeds rust ↔ go.Succeeds topics version publish_time counters) ∧
        (rust_succeeds rust ↔ nim.Succeeds version publish_time metrics)
  failures : ∀ version publish_time metrics,
    (nim.handle version publish_time metrics).2.1.dst_testnode_publish_failures_total =
        metrics.dst_testnode_publish_failures_total + 1 ↔
      ¬ nim.Succeeds version publish_time metrics

/-- The same pattern of outcomes accepts the message in all three nodes or in none. -/
theorem SamePattern.accepted {rust : PublishRun} {go : GoCall} {nim : NimCall}
    (hsame : SamePattern rust go nim) :
    (rust.Accepted ↔ go.Accepted) ∧ (rust.Accepted ↔ nim.Accepted) := by
  have hgo : go.chunks.toNat = rust.cmd.chunks.toNat := by rw [hsame.go_chunks, Int.toNat_natCast]
  have hnim : nim.chunks.toNat = rust.cmd.chunks.toNat := by
    rw [hsame.nim_chunks, Int.toNat_natCast]
  refine ⟨⟨fun haccepted k _ hhigh => ?_, fun haccepted k hlow hhigh => ?_⟩,
    ⟨fun haccepted k hhigh => ?_, fun haccepted k hlow hhigh => ?_⟩⟩
  · rw [hgo, Nat.zero_add] at hhigh
    exact (hsame.go_outcome k hhigh).mpr (haccepted k (Nat.zero_le k) (by omega))
  · rw [Nat.zero_add] at hhigh
    exact (hsame.go_outcome k hhigh).mp (haccepted k hlow (by omega))
  · rw [hnim] at hhigh
    exact (hsame.nim_outcome k hhigh).mpr (haccepted k (Nat.zero_le k) (by omega))
  · rw [Nat.zero_add] at hhigh
    exact (hsame.nim_outcome k hhigh).mp (haccepted k (by omega))

/-- A message of two fragments of 20 bytes in each node, with given ones accepted. -/
def rust_pair (accepted : Nat → Bool) : PublishRun where
  profile := .release
  cmd := { topic := "test", msg_size := 40, chunks := 2, response_tx := 0 }
  now := one_second
  outcome k := if accepted k then .ok "id" else .error "Duplicate"

def go_pair (accepted : Nat → Bool) : GoCall where
  topic := "test"
  msg_size := 40
  chunks := 2
  now_nanos := 1000000000
  outcome k := if accepted k then none else some "validation failed"

def nim_pair (accepted : Nat → Bool) : NimCall where
  topic := "test"
  msg_size := 40
  chunks := 2
  now_int := 1000000000
  msg_id := 1
  outcome k := if accepted k then 6 else 0

theorem rust_pair_answers (accepted : Nat → Bool) : ∃ verdict, (rust_pair accepted).Answers verdict := by
  have hheader : (rust_pair fun _ => true).cmd.HasHeader := by decide
  apply (publish_new_message_answers_iff _ _ _ _).mpr
  refine ⟨hheader, ?_⟩
  rintro ⟨hdebug, _⟩
  cases hdebug

theorem go_pair_returns (accepted : Nat → Bool) :
    ∃ err, ((go_pair accepted).publish_new_message Counters.new).result = .ok err := by
  have hchunks : 0 < (go_pair accepted).chunks := by norm_num [go_pair]
  apply (go_test_node.main.PublishCall.publish_new_message_returns_iff hchunks _).mpr
  have hlength : (go_pair accepted).msg_size.tdiv (go_pair accepted).chunks = 20 := rfl
  refine ⟨hchunks, ?_, ?_⟩
  · norm_num [hlength]
  · norm_num [hlength, go_test_node.main.max_alloc]

theorem nim_pair_returns (accepted : Nat → Bool) :
    ∃ res, (nim_test_node.gossipsub_queues.main.publish_new_message ⟨0, 0⟩
      (nim_pair accepted)).result = .ok res := by
  have hchunks : 0 < (nim_pair accepted).chunks := by norm_num [nim_pair]
  apply (nim_test_node.gossipsub_queues.main.PublishCall.publish_new_message_returns_iff
    hchunks _).mpr
  have hlength : (nim_pair accepted).msg_size.tdiv (nim_pair accepted).chunks = 20 := rfl
  refine ⟨hchunks, ?_, ?_⟩
  · norm_num [hlength]
  · norm_num [hlength, nim.int_high]

theorem pair_samePattern (accepted : Nat → Bool) :
    SamePattern (rust_pair accepted) (go_pair accepted) (nim_pair accepted) where
  go_chunks := rfl
  nim_chunks := rfl
  go_outcome k _ := by cases haccepted : accepted k <;> simp [go_pair, rust_pair, haccepted]
  nim_outcome k _ := by cases haccepted : accepted k <;> simp [nim_pair, rust_pair, haccepted]

/-- The verdicts are exact exactly when the Rust counter of accepted fragments
does not wrap around, and the last fragment of the Nim node, the only one its
verdict depends on, is not accepted after another one failed. -/
theorem verdicts_exact_iff (rust : PublishRun) (go : GoCall) (nim : NimCall)
    (hrust : ∃ verdict, rust.Answers verdict)
    (hgo : 0 < go.chunks ∧ ∃ err, (go.publish_new_message Counters.new).result = .ok err)
    (hnim : 0 < nim.chunks ∧ ∃ res, (nim_test_node.gossipsub_queues.main.publish_new_message
      ⟨0, 0⟩ nim).result = .ok res) :
    VerdictsExact rust go nim ↔
      (rust.Accepted → rust.cmd.chunks.toNat ≤ i32_max) ∧ (nim.LastAccepted → nim.Accepted) := by
  have hrust' := (publish_new_message_answers_iff _ _ _ _).mp hrust
  have hgo' := (go_test_node.main.PublishCall.publish_new_message_returns_iff hgo.1 _).mp hgo.2
  have hnim' := (nim_test_node.gossipsub_queues.main.PublishCall.publish_new_message_returns_iff
    hnim.1 _).mp hnim.2
  have hlast : nim.Accepted → nim.LastAccepted :=
    fun haccepted => haccepted _ (by have := hnim.1; omega)
  constructor
  · intro hexact
    refine ⟨fun haccepted => ?_, fun hlastaccepted => ?_⟩
    · exact ((rust_succeeds_iff hrust').mp (hexact.rust_exact.mpr haccepted)).2
    · exact (hexact.nim_exact 0 "" ⟨0, 0⟩).mp ((nim.succeeds_iff hnim' 0 "" ⟨0, 0⟩).mpr hlastaccepted)
  · rintro ⟨hcounter, hpattern⟩
    have hrust_exact : rust_succeeds rust ↔ rust.Accepted :=
      (rust_succeeds_iff hrust').trans ⟨And.left, fun haccepted => ⟨haccepted, hcounter haccepted⟩⟩
    have hgo_exact : ∀ topics version publish_time counters, go.topic ∈ topics →
        (go.Succeeds topics version publish_time counters ↔ go.Accepted) :=
      fun topics version publish_time counters htopic =>
        go.succeeds_iff hgo' htopic version publish_time counters
    have hnim_exact : ∀ version publish_time metrics,
        nim.Succeeds version publish_time metrics ↔ nim.Accepted :=
      fun version publish_time metrics =>
        (nim.succeeds_iff hnim' version publish_time metrics).trans ⟨hpattern, hlast⟩
    refine ⟨hrust_exact, hgo_exact, hnim_exact, ?_, nim.failures_handle hnim'⟩
    intro hsame topics version publish_time counters metrics htopic
    rw [hrust_exact, hgo_exact _ _ _ _ htopic, hnim_exact]
    exact hsame.accepted

theorem verdicts_exact_accepted :
    VerdictsExact (rust_pair fun _ => true) (go_pair fun _ => true) (nim_pair fun _ => true) :=
  (verdicts_exact_iff (rust_pair fun _ => true) (go_pair fun _ => true) (nim_pair fun _ => true)
    (rust_pair_answers _) ⟨by norm_num [go_pair], go_pair_returns _⟩
    ⟨by norm_num [nim_pair], nim_pair_returns _⟩).mpr
    ⟨fun _ => by decide, fun _ _ _ => by norm_num [nim_pair]⟩

/-- Only the second of two fragments is accepted: the Nim node answers success
and counts no failure, the other two answer with an error. -/
theorem first_fragment_failure_hidden :
    ((∃ verdict, (rust_pair fun k => k == 1).Answers verdict) ∧
      (∃ err, ((go_pair fun k => k == 1).publish_new_message Counters.new).result = .ok err) ∧
      (∃ res, (nim_test_node.gossipsub_queues.main.publish_new_message ⟨0, 0⟩
        (nim_pair fun k => k == 1)).result = .ok res) ∧
      SamePattern (rust_pair fun k => k == 1) (go_pair fun k => k == 1) (nim_pair fun k => k == 1)) ∧
    ¬ VerdictsExact (rust_pair fun k => k == 1) (go_pair fun k => k == 1)
      (nim_pair fun k => k == 1) := by
  refine ⟨⟨rust_pair_answers _, go_pair_returns _, nim_pair_returns _, pair_samePattern _⟩, ?_⟩
  intro hexact
  have hsucceeds : (nim_pair fun k => k == 1).Succeeds 0 "" ⟨0, 0⟩ := ⟨_, rfl, rfl⟩
  have haccepted := (hexact.nim_exact 0 "" ⟨0, 0⟩).mp hsucceeds 0 (by decide)
  revert haccepted
  decide

end nodes
