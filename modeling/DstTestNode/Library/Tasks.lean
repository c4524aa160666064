import DstTestNode.Library.Machine
import Mathlib.Algebra.BigOperators.Group.List.Basic
import Mathlib.Tactic.Abel

/-- Tasks over a shared state. An arrival starts some tasks, and afterwards every
task takes its own steps. -/
structure Tasks (Shared Task Arrival Step : Type*) where
  initial : Shared
  admits : Shared → Arrival → Prop
  arrive : Shared → Arrival → Shared × List Task
  enabled : Shared → Task → Step → Prop
  step : Shared → Task → Step → Shared × Task

namespace Tasks

variable {Shared Task Arrival Step : Type*}

/-- The shared state and the tasks, numbered in the order of their start. -/
structure State (Shared Task : Type*) where
  shared : Shared
  tasks : List Task

inductive Event (Arrival Step : Type*) where
  | arrive (arrival : Arrival)
  | step (number : Nat) (step : Step)
  deriving DecidableEq, Repr

/-- The arrival of an event, unless it is a step. -/
def Event.arrival : Event Arrival Step → Option Arrival
  | arrive arrival => some arrival
  | step _ _ => none

/-- An event is a step of the task with a number. -/
def Event.IsStepOf (number : Nat) : Event Arrival Step → Bool
  | arrive _ => false
  | step other _ => other = number

variable (system : Tasks Shared Task Arrival Step)

def ready (state : State Shared Task) : Event Arrival Step → Prop
  | .arrive arrival => system.admits state.shared arrival
  | .step number step => ∃ task, state.tasks[number]? = some task ∧
      system.enabled state.shared task step

def next (state : State Shared Task) : Event Arrival Step → State Shared Task
  | .arrive arrival =>
    let (shared, tasks) := system.arrive state.shared arrival
    ⟨shared, state.tasks ++ tasks⟩
  | .step number step =>
    match state.tasks[number]? with
    | none => state
    | some task =>
      let (shared, task) := system.step state.shared task step
      ⟨shared, state.tasks.set number task⟩

/-- All interleavings of arrivals and of the steps of the tasks. -/
def interleaved : Machine (State Shared Task) (Event Arrival Step) where
  initial := ⟨system.initial, []⟩
  enabled := system.ready
  next := system.next

instance [∀ shared arrival, Decidable (system.admits shared arrival)]
    [∀ shared task step, Decidable (system.enabled shared task step)]
    (state : State Shared Task) (event : Event Arrival Step) :
    Decidable (system.interleaved.enabled state event) :=
  match event with
  | .arrive arrival => inferInstanceAs (Decidable (system.admits state.shared arrival))
  | .step number step =>
    match htask : state.tasks[number]? with
    | none => .isFalse fun ⟨_, hsome, _⟩ => by simp [htask] at hsome
    | some task => decidable_of_iff (system.enabled state.shared task step)
        ⟨fun henabled => ⟨task, htask, henabled⟩, fun ⟨other, hsome, henabled⟩ => by
          rw [htask] at hsome
          cases hsome
          exact henabled⟩

variable {system}

theorem next_step {state : State Shared Task} {number : Nat} {task : Task}
    (htask : state.tasks[number]? = some task) (step : Step) :
    system.next state (.step number step) =
      ⟨(system.step state.shared task step).1,
        state.tasks.set number (system.step state.shared task step).2⟩ := by
  simp only [next, htask]

/-- What an enabled event does: it adds tasks, or replaces one by what its step
makes of it. -/
theorem next_cases {state : State Shared Task} {event : Event Arrival Step}
    (hready : system.ready state event) :
    (∃ arrival, event = .arrive arrival ∧ system.admits state.shared arrival ∧
      system.next state event = ⟨(system.arrive state.shared arrival).1,
        state.tasks ++ (system.arrive state.shared arrival).2⟩) ∨
    ∃ number step task, event = .step number step ∧ state.tasks[number]? = some task ∧
      system.enabled state.shared task step ∧
      system.next state event = ⟨(system.step state.shared task step).1,
        state.tasks.set number (system.step state.shared task step).2⟩ := by
  cases event with
  | arrive arrival => exact .inl ⟨arrival, rfl, hready, rfl⟩
  | step number step =>
    obtain ⟨task, htask, henabled⟩ := hready
    exact .inr ⟨number, step, task, rfl, htask, henabled, next_step htask step⟩

/-- A property of the shared state that no arrival and no step breaks. -/
theorem shared_invariant (holds : Shared → Prop) (hinitial : holds system.initial)
    (harrive : ∀ shared arrival, system.admits shared arrival → holds shared →
      holds (system.arrive shared arrival).1)
    (hstep : ∀ shared task step, system.enabled shared task step → holds shared →
      holds (system.step shared task step).1)
    {events : List (Event Arrival Step)} (hlegal : system.interleaved.Legal events) :
    holds (system.interleaved.after events).shared := by
  refine system.interleaved.invariant (fun state => holds state.shared) hinitial ?_ hlegal
  intro state event hholds hready
  change holds (system.next state event).shared
  rcases next_cases hready with ⟨arrival, rfl, hadmits, hnext⟩ |
    ⟨number, step, task, rfl, _, henabled, hnext⟩
  · rw [hnext]
    exact harrive _ _ hadmits hholds
  · rw [hnext]
    exact hstep _ _ _ henabled hholds

/-- A property of the shared state and one task that arrivals establish, and that
neither the steps of a task nor those of the others break, holds of all tasks. -/
theorem forall_tasks (holds : Shared → Task → Prop)
    (hstarted : ∀ shared arrival, system.admits shared arrival →
      ∀ task ∈ (system.arrive shared arrival).2, holds (system.arrive shared arrival).1 task)
    (hothers : ∀ shared arrival task, system.admits shared arrival → holds shared task →
      holds (system.arrive shared arrival).1 task)
    (hstep : ∀ shared task step, system.enabled shared task step → holds shared task →
      holds (system.step shared task step).1 (system.step shared task step).2)
    (hother : ∀ shared task step other, system.enabled shared task step → holds shared task →
      holds shared other → holds (system.step shared task step).1 other)
    {events : List (Event Arrival Step)} (hlegal : system.interleaved.Legal events) :
    ∀ task ∈ (system.interleaved.after events).tasks,
      holds (system.interleaved.after events).shared task := by
  refine system.interleaved.invariant (fun state => ∀ task ∈ state.tasks, holds state.shared task)
    (by simp [interleaved]) ?_ hlegal
  intro state event hall hready
  rcases next_cases hready with ⟨arrival, rfl, hadmits, hnext⟩ |
    ⟨number, step, task, rfl, htask, henabled, hnext⟩
  · intro task hmem
    change task ∈ (system.next state _).tasks at hmem
    change holds (system.next state _).shared task
    rw [hnext] at hmem ⊢
    rcases List.mem_append.mp hmem with hold | hnew
    · exact hothers _ _ _ hadmits (hall task hold)
    · exact hstarted _ _ hadmits task hnew
  · have hholds := hall task (List.mem_of_getElem? htask)
    intro other hmem
    change other ∈ (system.next state _).tasks at hmem
    change holds (system.next state _).shared other
    rw [hnext] at hmem ⊢
    rcases List.mem_or_eq_of_mem_set hmem with hold | rfl
    · exact hother _ _ _ _ henabled hholds (hall other hold)
    · exact hstep _ _ _ henabled hholds

/-- An invariant of single tasks, whatever the shared state. -/
theorem forall_tasks_of_local (holds : Task → Prop)
    (hstarted : ∀ shared arrival, system.admits shared arrival →
      ∀ task ∈ (system.arrive shared arrival).2, holds task)
    (hstep : ∀ shared task step, system.enabled shared task step → holds task →
      holds (system.step shared task step).2)
    {events : List (Event Arrival Step)} (hlegal : system.interleaved.Legal events) :
    ∀ task ∈ (system.interleaved.after events).tasks, holds task :=
  forall_tasks (fun _ => holds) hstarted (fun _ _ _ _ hholds => hholds) hstep
    (fun _ _ _ _ _ _ hholds => hholds) hlegal

/-- What the tasks contribute together is what the shared state has gained, when
every arrival and every step keep the balance. -/
theorem sum_tasks {M : Type*} [AddCommMonoid M] (account : Shared → M) (share : Task → M)
    (harrive : ∀ shared arrival, system.admits shared arrival →
      account (system.arrive shared arrival).1 =
        account shared + ((system.arrive shared arrival).2.map share).sum)
    (hstep : ∀ shared task step, system.enabled shared task step → ∃ gain,
      account (system.step shared task step).1 = account shared + gain ∧
      share (system.step shared task step).2 = share task + gain)
    {events : List (Event Arrival Step)} (hlegal : system.interleaved.Legal events) :
    account (system.interleaved.after events).shared =
      account system.initial + ((system.interleaved.after events).tasks.map share).sum := by
  refine system.interleaved.invariant (fun state =>
    account state.shared = account system.initial + (state.tasks.map share).sum)
    (by simp [interleaved]) ?_ hlegal
  intro state event hbalance hready
  change account (system.next state event).shared =
    account system.initial + ((system.next state event).tasks.map share).sum
  rcases next_cases hready with ⟨arrival, rfl, hadmits, hnext⟩ |
    ⟨number, step, task, rfl, htask, henabled, hnext⟩
  · rw [hnext, harrive _ _ hadmits, hbalance, List.map_append, List.sum_append, add_assoc]
  · obtain ⟨gain, haccount, hshare⟩ := hstep _ _ _ henabled
    obtain ⟨hnumber, rfl⟩ := List.getElem?_eq_some_iff.mp htask
    have hbefore : (state.tasks.map share).sum = (state.tasks.take number |>.map share).sum +
        (share state.tasks[number] + (state.tasks.drop (number + 1) |>.map share).sum) := by
      conv_lhs => rw [← List.take_append_drop number state.tasks,
        List.drop_eq_getElem_cons hnumber]
      rw [List.map_append, List.sum_append, List.map_cons, List.sum_cons]
    rw [hnext, haccount, hbalance, hbefore, List.set_eq_take_append_cons_drop, if_pos hnumber,
      List.map_append, List.sum_append, List.map_cons, List.sum_cons, hshare]
    abel

/-- A measure of the tasks that each of their own steps lowers bounds the number of
steps of every task. -/
theorem countP_isStepOf_add_le (measure : Task → Nat) (limit : Nat)
    (hstarted : ∀ shared arrival, system.admits shared arrival →
      ∀ task ∈ (system.arrive shared arrival).2, measure task ≤ limit)
    (hstep : ∀ shared task step, system.enabled shared task step →
      measure (system.step shared task step).2 < measure task)
    {events : List (Event Arrival Step)} (hlegal : system.interleaved.Legal events) (number : Nat) :
    events.countP (Event.IsStepOf number) +
      ((system.interleaved.after events).tasks[number]?.map measure).getD limit ≤ limit := by
  induction events using List.reverseRecOn with
  | nil => simp [interleaved]
  | append_singleton events event ih =>
    obtain ⟨hbefore, hready⟩ := (system.interleaved.meets_snoc _ _ event).mp hlegal
    have hsofar := ih hbefore
    rw [Machine.after_snoc, List.countP_append, List.countP_singleton]
    change _ + ((system.next (system.interleaved.after events) event).tasks[number]?.map
      measure).getD limit ≤ limit
    rcases next_cases hready with ⟨arrival, rfl, hadmits, hnext⟩ |
      ⟨other, step, task, rfl, htask, henabled, hnext⟩
    · rw [hnext, Event.IsStepOf, if_neg Bool.false_ne_true, List.getElem?_append]
      split_ifs with hold
      · exact hsofar
      · rw [List.getElem?_eq_none (by omega), Option.map_none, Option.getD_none] at hsofar
        cases hnew : (system.arrive (system.interleaved.after events).shared arrival).2[number -
            (system.interleaved.after events).tasks.length]? with
        | none => simpa using hsofar
        | some task =>
          have hlimit := hstarted _ _ hadmits task (List.mem_of_getElem? hnew)
          rw [Option.map_some, Option.getD_some]
          omega
    · have hlower := hstep _ _ _ henabled
      rw [hnext, Event.IsStepOf, List.getElem?_set]
      by_cases hsame : other = number
      · subst hsame
        rw [htask, Option.map_some, Option.getD_some] at hsofar
        have hnumber := (List.getElem?_eq_some_iff.mp htask).1
        rw [if_pos (decide_eq_true rfl), if_pos rfl, if_pos hnumber, Option.map_some,
          Option.getD_some]
        omega
      · rw [if_neg (by simpa using hsame), if_neg hsame]
        exact hsofar

variable (system) in
/-- Steps keep the labels of the tasks, so that they are those of the arrivals. -/
theorem map_tasks {Label : Type*} (label : Task → Label) (starts : Arrival → List Label)
    (harrive : ∀ shared arrival, (system.arrive shared arrival).2.map label = starts arrival)
    (hstep : ∀ shared task step, label (system.step shared task step).2 = label task)
    (events : List (Event Arrival Step)) :
    (system.interleaved.after events).tasks.map label =
      (events.filterMap Event.arrival).flatMap starts := by
  induction events using List.reverseRecOn with
  | nil => rfl
  | append_singleton events event ih =>
    rw [Machine.after_snoc, List.filterMap_append, List.flatMap_append, ← ih]
    change (system.next (system.interleaved.after events) event).tasks.map label = _
    cases event with
    | arrive arrival => simp [next, Event.arrival, harrive]
    | step number step =>
      cases htask : (system.interleaved.after events).tasks[number]? with
      | none => simp [next, Event.arrival, htask]
      | some task =>
        rw [next_step htask, List.map_set, hstep]
        have hsame : ((system.interleaved.after events).tasks.map label)[number]? =
            some (label task) := by rw [List.getElem?_map, htask, Option.map_some]
        obtain ⟨hnumber, hlabel⟩ := List.getElem?_eq_some_iff.mp hsame
        rw [← hlabel, List.set_getElem_self]
        simp [Event.arrival]

end Tasks
