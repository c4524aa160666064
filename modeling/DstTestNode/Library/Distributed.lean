import Mathlib.Algebra.BigOperators.Group.Finset.Piecewise

/-- A finite set of nodes, each with a state of its own. An event happens at
one node and changes the state of that node only. -/
structure Distributed (Node State Event : Type*) where
  node : Event → Node
  next : State → Event → State

namespace Distributed

variable {Node State Event : Type*} [DecidableEq Node] (system : Distributed Node State Event)

def step (states : Node → State) (event : Event) : Node → State :=
  Function.update states (system.node event) (system.next (states (system.node event)) event)

def run (states : Node → State) (events : List Event) : Node → State :=
  events.foldl system.step states

@[simp] theorem run_nil (states : Node → State) : system.run states [] = states := rfl

@[simp] theorem run_cons (states : Node → State) (event : Event) (events : List Event) :
    system.run states (event :: events) = system.run (system.step states event) events := rfl

/-- What no event changes in its node is unchanged in every node. -/
theorem run_frame {View : Type*} (view : State → View)
    (hnext : ∀ state event, view (system.next state event) = view state)
    (states : Node → State) (events : List Event) (node : Node) :
    view (system.run states events node) = view (states node) := by
  induction events generalizing states with
  | nil => rfl
  | cons event events ih =>
    rw [run_cons, ih, step]
    by_cases hnode : node = system.node event
    · subst hnode
      rw [Function.update_self, hnext]
    · rw [Function.update_of_ne hnode]

section Sums

variable [Fintype Node] {M : Type*} [AddCommMonoid M]

/-- An event adds its weight to the sum of a measure over all nodes. -/
theorem sum_step (measure : State → M) {weight : Event → M}
    (hnext : ∀ state event, measure (system.next state event) = measure state + weight event)
    (states : Node → State) (event : Event) :
    ∑ node, measure (system.step states event node) = ∑ node, measure (states node) + weight event := by
  have hmeasure : (fun node => measure (system.step states event node)) =
      Function.update (fun node => measure (states node)) (system.node event)
        (measure (states (system.node event)) + weight event) := by
    funext node
    by_cases hnode : node = system.node event
    · subst hnode
      simp [step, hnext]
    · simp [step, hnode]
  rw [hmeasure, Finset.sum_update_of_mem (Finset.mem_univ _),
    ← Finset.add_sum_erase _ _ (Finset.mem_univ (system.node event)), Finset.sdiff_singleton_eq_erase,
    add_right_comm]

/-- A run adds the weights of its events to the sum of a measure over all nodes. -/
theorem sum_run (measure : State → M) {weight : Event → M}
    (hnext : ∀ state event, measure (system.next state event) = measure state + weight event)
    (states : Node → State) (events : List Event) :
    ∑ node, measure (system.run states events node) =
      ∑ node, measure (states node) + (events.map weight).sum := by
  induction events generalizing states with
  | nil => simp
  | cons event events ih =>
    rw [run_cons, ih, system.sum_step measure hnext, List.map_cons, List.sum_cons, add_assoc]

/-- When only some events carry an item, a run adds the amounts of their items. -/
theorem sum_run_items {Item : Type*} (measure : State → M) (item : Event → Option Item)
    {amount : Item → M} (hnext : ∀ state event,
      measure (system.next state event) = measure state + ((item event).map amount).getD 0)
    (states : Node → State) (events : List Event) :
    ∑ node, measure (system.run states events node) =
      ∑ node, measure (states node) + ((events.filterMap item).map amount).sum := by
  rw [system.sum_run measure hnext]
  congr 1
  induction events with
  | nil => rfl
  | cons event events ih =>
    cases hitem : item event with
    | none => simpa [hitem] using ih
    | some carried => simpa [hitem] using congrArg (amount carried + ·) ih

end Sums

end Distributed
