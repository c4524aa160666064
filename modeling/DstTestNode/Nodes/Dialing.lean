import DstTestNode.Library.Attempts

namespace nodes

/-- What a dial loop has done: the connections it counts, and the addresses it
dialed, in order. -/
structure Dialing (Addr : Type) where
  connected : Nat
  dialed : List Addr

/-- An address that a name resolves to. -/
structure IpAddr where
  text : String
  is_ipv4 : Bool
  deriving DecidableEq, Repr

/-- A dial loop tries the candidates in order, dials none after the target is
reached, and ends with as many connections as there can be. -/
structure StopsAtTarget {Addr : Type} (target : Nat) (succeeds : Addr → Bool)
    (candidates : List Addr) (dialing : Dialing Addr) : Prop where
  in_order : dialing.dialed <+: candidates
  none_after : NoneAfter target succeeds dialing.dialed
  connected : dialing.connected = min target (candidates.countP succeeds)

variable {Addr : Type} {target : Nat} {succeeds : Addr → Bool} {candidates : List Addr}

/-- The attempts up to a target stop there. -/
theorem stopsAtTarget_attempts : StopsAtTarget target succeeds candidates
    ⟨(attempts target succeeds 0 candidates).countP succeeds,
      attempts target succeeds 0 candidates⟩ where
  in_order := Attempts.attempts_begins 0 candidates
  none_after := fun k hk => by simpa using Attempts.noneAfter_attempts 0 candidates k hk
  connected := Attempts.countP_attempts 0 candidates

/-- Once every candidate is dialed, the loop has stopped at the target exactly
when it was not reached before the last candidate. -/
theorem stopsAtTarget_all : StopsAtTarget target succeeds candidates
      ⟨candidates.countP succeeds, candidates⟩ ↔
    candidates = [] ∨ candidates.dropLast.countP succeeds < target := by
  rw [← Attempts.noneAfter_iff]
  constructor
  · exact fun hstops => hstops.none_after
  · intro hnone
    exact ⟨List.prefix_refl _, hnone, (Nat.min_eq_right (Attempts.countP_le_of_noneAfter hnone)).symm⟩

end nodes
