import DstTestNode.Go.Dial
import DstTestNode.Nim.Dial
import DstTestNode.Rust.Dial

open rust

namespace nodes

variable {Addr ID : Type}

/-- The Nim loop always stops at its target. -/
theorem nim_dials_stop (target : Nat) (succeeds : Addr → Bool) (candidates : List Addr) :
    StopsAtTarget target succeeds candidates
      (nim_test_node.gossipsub_queues.main.dial_addrs target succeeds ⟨0, []⟩ candidates) := by
  rw [nim_test_node.gossipsub_queues.main.dial_addrs_eq]
  simpa using stopsAtTarget_attempts

/-- The dial loops of the three nodes stop at the target, and dial the same
candidates. -/
def LoopsStop (profile : Profile) (target : Nat) (id_from_private_key : Addr → Option ID)
    (succeeds : Addr → Bool) (candidates : List Addr) : Prop :=
  let go := go_test_node.main.dial_peers target id_from_private_key (fun _ => succeeds) ⟨0, []⟩
    candidates
  let nim := nim_test_node.gossipsub_queues.main.dial_addrs target succeeds ⟨0, []⟩ candidates
  ∃ rust, rust_test_node.main.dial_addrs profile target succeeds ⟨0, []⟩ candidates = .ok rust ∧
    StopsAtTarget target succeeds candidates rust ∧ StopsAtTarget target succeeds candidates go ∧
    StopsAtTarget target succeeds candidates nim ∧ rust.dialed = nim.dialed ∧
    go.dialed = nim.dialed

/-- The loops stop at the target exactly when it is not reached before the last
candidate: otherwise the Rust and the Go node dial at least one candidate more. -/
theorem loops_stop_iff (profile : Profile) {target : Nat} (htarget : target < 2 ^ 32)
    {id_from_private_key : Addr → Option ID}
    (hid : ∀ addr, (id_from_private_key addr).isSome = true) (succeeds : Addr → Bool)
    (candidates : List Addr) :
    LoopsStop profile target id_from_private_key succeeds candidates ↔
      candidates = [] ∨ candidates.dropLast.countP succeeds < target := by
  rw [← Attempts.noneAfter_iff]
  constructor
  · rintro ⟨rust, hrust, hstops, -⟩
    exact rust_test_node.main.noneAfter_of_dial_addrs htarget hrust hstops.none_after
  · intro hnone
    have hall := stopsAtTarget_all.mpr (Attempts.noneAfter_iff.mp hnone)
    have hgo := go_test_node.main.dial_peers_eq hid target succeeds ⟨0, []⟩ candidates
    have hnim := nim_test_node.gossipsub_queues.main.dial_addrs_eq target succeeds ⟨0, []⟩ candidates
    rw [Attempts.attempts_eq_of_noneAfter (Nat.le_succ target) hnone] at hgo
    rw [Attempts.attempts_eq_of_noneAfter (Nat.le_refl target) hnone] at hnim
    simp only [Nat.zero_add, List.nil_append] at hgo hnim
    refine ⟨_, rust_test_node.main.dial_addrs_all profile htarget hnone, hall, ?_⟩
    simp only [hgo, hnim]
    exact ⟨hall, hall, trivial, trivial⟩

/-- A target of two, and three candidates of which the first cannot be reached. -/
theorem loops_stop_iff_three :
    LoopsStop .release 2 (fun addr : Nat => some addr) (fun addr => decide (0 < addr)) [0, 1, 2] :=
  (loops_stop_iff .release (by norm_num) (fun _ => rfl) _ _).mpr (.inr (by decide))

/-- A target of one, and three candidates that all can be reached: the Rust and
the Go node dial two of them. -/
theorem one_dial_too_many :
    rust_test_node.main.dial_addrs .release 1 (fun _ => true) ⟨0, []⟩ [0, 1, 2] =
        .ok ⟨2, [0, 1]⟩ ∧
      go_test_node.main.dial_peers 1 some (fun _ _ => true) ⟨0, []⟩ [0, 1, 2] = ⟨2, [0, 1]⟩ ∧
      nim_test_node.gossipsub_queues.main.dial_addrs 1 (fun _ => true) ⟨0, []⟩ [0, 1, 2] =
        ⟨1, [0]⟩ ∧
      ¬ LoopsStop .release 1 (fun addr : Nat => some addr) (fun _ => true) [0, 1, 2] := by
  refine ⟨rfl, rfl, rfl, ?_⟩
  rintro ⟨rust, hrust, hstops, -⟩
  cases hrust
  have hconnected := hstops.connected
  simp at hconnected

end nodes
