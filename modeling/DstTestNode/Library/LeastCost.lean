import Mathlib.Algebra.Order.Monoid.Defs
import Mathlib.Order.Bounds.Defs

/-- The cost of a path in a weighted graph, which is given by the weight of
every edge. A path may visit a vertex any number of times. -/
inductive PathCost {V M : Type*} [AddZero M] (weight : V → V → Option M) : V → V → M → Prop
  | nil (v : V) : PathCost weight v v 0
  | cons {u v target : V} {edge rest : M} (hedge : weight u v = some edge)
      (hrest : PathCost weight v target rest) : PathCost weight u target (edge + rest)

namespace PathCost

variable {V M : Type*} [AddCommMonoid M] {weight : V → V → Option M}

theorem single {u v : V} {edge : M} (hedge : weight u v = some edge) :
    PathCost weight u v edge := by
  have hpath : PathCost weight u v (edge + 0) := cons hedge (nil v)
  rwa [add_zero] at hpath

variable [PartialOrder M] [IsOrderedAddMonoid M]

/-- A potential that no edge decreases by more than its weight decreases along
a path by no more than the cost of the path. -/
theorem potential_le {potential : V → M}
    (hpotential : ∀ u v edge, weight u v = some edge → potential u ≤ edge + potential v)
    {u target : V} {cost : M} (hpath : PathCost weight u target cost) :
    potential u ≤ cost + potential target := by
  induction hpath with
  | nil v => rw [zero_add]
  | cons hedge _ ih =>
    rw [add_assoc]
    exact (hpotential _ _ _ hedge).trans (add_le_add_right ih _)

/-- An edge is a path of least cost if some potential falls by its weight from
its source to zero at its target. -/
theorem isLeast_of_potential (potential : V → M)
    (hpotential : ∀ u v edge, weight u v = some edge → potential u ≤ edge + potential v)
    {u v : V} {edge : M} (hedge : weight u v = some edge) (hsource : potential u = edge)
    (htarget : potential v = 0) : IsLeast {cost | PathCost weight u v cost} edge := by
  refine ⟨single hedge, fun cost hpath => ?_⟩
  have hle := potential_le hpotential hpath
  rwa [hsource, htarget, add_zero] at hle

end PathCost
