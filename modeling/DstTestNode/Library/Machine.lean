import Mathlib.Data.List.Induction

/-- A transition system: every event is enabled or not in a state, and an
enabled event determines the next state. -/
structure Machine (State Event : Type*) where
  initial : State
  enabled : State → Event → Prop
  next : State → Event → State

namespace Machine

variable {State Event : Type*} (machine : Machine State Event)

/-- The state reached from the initial one by a sequence of events. -/
def after (events : List Event) : State :=
  events.foldl machine.next machine.initial

/-- A condition on states and events holds at every event of a sequence. -/
def Meets (condition : State → Event → Prop) (events : List Event) : Prop :=
  ∀ before event, before ++ [event] <+: events → condition (machine.after before) event

/-- A sequence of events that are all enabled when they happen. -/
def Legal (events : List Event) : Prop :=
  machine.Meets machine.enabled events

/-- A property of states holds in every state that a sequence goes through. -/
def Always (property : State → Prop) (events : List Event) : Prop :=
  ∀ before, before <+: events → property (machine.after before)

/-- A property holds in every state that a sequence goes through, and however
events of one kind go on from there. -/
def Robustly (kind : Event → Prop) (property : State → Prop) (events : List Event) : Prop :=
  ∀ before more, before <+: events → (∀ event ∈ more, kind event) →
    machine.Legal (before ++ more) → machine.Always property (before ++ more)

@[simp] theorem after_nil : machine.after [] = machine.initial := rfl

@[simp] theorem after_snoc (events : List Event) (event : Event) :
    machine.after (events ++ [event]) = machine.next (machine.after events) event := by
  simp [after]

theorem meets_nil (condition : State → Event → Prop) : machine.Meets condition [] := by
  intro before event hpre
  simp at hpre

theorem meets_snoc (condition : State → Event → Prop) (events : List Event) (event : Event) :
    machine.Meets condition (events ++ [event]) ↔
      machine.Meets condition events ∧ condition (machine.after events) event := by
  constructor
  · intro hmeets
    refine ⟨fun before other hpre => ?_, hmeets events event (List.prefix_refl _)⟩
    exact hmeets before other (hpre.trans (List.prefix_append events [event]))
  · rintro ⟨hmeets, hlast⟩ before other hpre
    rcases List.prefix_concat_iff.mp hpre with heq | hshort
    · obtain ⟨hbefore, hother⟩ := List.append_inj' heq rfl
      cases hother
      rwa [hbefore]
    · exact hmeets before other hshort

/-- The same condition, checked event by event from a given state. -/
def MeetsFrom (condition : State → Event → Prop) : State → List Event → Prop
  | _, [] => True
  | state, event :: events =>
    condition state event ∧ MeetsFrom condition (machine.next state event) events

instance decidableMeetsFrom (condition : State → Event → Prop)
    [∀ state event, Decidable (condition state event)] (state : State) (events : List Event) :
    Decidable (machine.MeetsFrom condition state events) :=
  match events with
  | [] => .isTrue trivial
  | event :: events =>
    have := decidableMeetsFrom condition (machine.next state event) events
    inferInstanceAs (Decidable (_ ∧ _))

theorem meets_iff_from (condition : State → Event → Prop) (events : List Event) :
    machine.Meets condition events ↔ machine.MeetsFrom condition machine.initial events := by
  suffices hfrom : ∀ state, (∀ before event, before ++ [event] <+: events →
      condition (before.foldl machine.next state) event) ↔
        machine.MeetsFrom condition state events from hfrom machine.initial
  induction events with
  | nil => simp [MeetsFrom]
  | cons first events ih =>
    intro state
    rw [MeetsFrom, ← ih]
    constructor
    · intro hmeets
      refine ⟨hmeets [] first (by simp), fun before event hpre => ?_⟩
      exact hmeets (first :: before) event (by simpa using hpre)
    · rintro ⟨hfirst, hrest⟩ before event hpre
      cases before with
      | nil =>
        obtain ⟨hsame, _⟩ := List.cons_prefix_cons.mp hpre
        subst hsame
        exact hfirst
      | cons other before =>
        obtain ⟨hsame, htail⟩ := List.cons_prefix_cons.mp hpre
        subst hsame
        exact hrest before event htail

instance (condition : State → Event → Prop) [∀ state event, Decidable (condition state event)]
    (events : List Event) : Decidable (machine.Meets condition events) :=
  decidable_of_iff' _ (machine.meets_iff_from condition events)

instance [∀ state event, Decidable (machine.enabled state event)] (events : List Event) :
    Decidable (machine.Legal events) :=
  inferInstanceAs (Decidable (machine.Meets machine.enabled events))

theorem after_append (events more : List Event) :
    machine.after (events ++ more) = more.foldl machine.next (machine.after events) := by
  simp [after]

/-- A condition is met along two sequences, one after the other. -/
theorem meets_append (condition : State → Event → Prop) (events more : List Event) :
    machine.Meets condition (events ++ more) ↔
      machine.Meets condition events ∧
        machine.MeetsFrom condition (machine.after events) more := by
  induction more generalizing events with
  | nil => simp [MeetsFrom]
  | cons event more ih =>
    have hone : events ++ event :: more = events ++ [event] ++ more := by simp
    rw [hone, ih, meets_snoc, after_snoc, MeetsFrom, and_assoc]

theorem always_nil (property : State → Prop) :
    machine.Always property [] ↔ property machine.initial := by
  simp [Always]

theorem always_snoc (property : State → Prop) (events : List Event) (event : Event) :
    machine.Always property (events ++ [event]) ↔
      machine.Always property events ∧ property (machine.after (events ++ [event])) := by
  constructor
  · intro halways
    refine ⟨fun before hpre => ?_, halways _ (List.prefix_refl _)⟩
    exact halways before (hpre.trans (List.prefix_append events [event]))
  · rintro ⟨halways, hlast⟩ before hpre
    rcases List.prefix_concat_iff.mp hpre with heq | hshort
    · rwa [heq]
    · exact halways before hshort

theorem Always.last {machine : Machine State Event} {property : State → Prop}
    {events : List Event} (halways : machine.Always property events) :
    property (machine.after events) :=
  halways events (List.prefix_refl _)

/-- An inductive invariant holds after every legal sequence of events. -/
theorem invariant (inv : State → Prop) (hinitial : inv machine.initial)
    (hnext : ∀ state event, inv state → machine.enabled state event →
      inv (machine.next state event))
    {events : List Event} (hlegal : machine.Legal events) : inv (machine.after events) := by
  induction events using List.reverseRecOn with
  | nil => exact hinitial
  | append_singleton events event ih =>
    obtain ⟨hbefore, henabled⟩ := (machine.meets_snoc _ events event).mp hlegal
    rw [after_snoc]
    exact hnext _ _ (ih hbefore) henabled

theorem Legal.of_append {machine : Machine State Event} {events more : List Event}
    (hlegal : machine.Legal (events ++ more)) : machine.Legal events :=
  fun before event hpre => hlegal before event (hpre.trans (List.prefix_append events more))

/-- What legal events leave as it is after some events stays so to the end. -/
theorem invariant_from (inv : State → Prop) {events more : List Event}
    (hlegal : machine.Legal (events ++ more)) (hinv : inv (machine.after events))
    (hnext : ∀ before, machine.Legal before → ∀ event, inv (machine.after before) →
      machine.enabled (machine.after before) event →
      inv (machine.next (machine.after before) event)) :
    inv (machine.after (events ++ more)) := by
  induction more using List.reverseRecOn with
  | nil => simpa using hinv
  | append_singleton more event ih =>
    rw [← List.append_assoc] at hlegal ⊢
    obtain ⟨hbefore, henabled⟩ := (machine.meets_snoc _ _ event).mp hlegal
    rw [after_snoc]
    exact hnext _ hbefore event (ih hbefore) henabled

/-- A measure that the events of one kind lower and the others do not raise,
while a property holds, bounds how many events of that kind happen before the
property is lost. -/
theorem countP_le_measure (kind : Event → Bool) (measure : State → Nat) (property : State → Prop)
    (hlower : ∀ before, machine.Legal before → ∀ event, property (machine.after before) →
      machine.enabled (machine.after before) event →
      property (machine.next (machine.after before) event) →
      measure (machine.next (machine.after before) event) + (if kind event then 1 else 0) ≤
        measure (machine.after before))
    {events more : List Event} (hlegal : machine.Legal (events ++ more))
    (hproperty : ∀ before, before <+: more → property (machine.after (events ++ before))) :
    measure (machine.after (events ++ more)) + more.countP kind ≤
      measure (machine.after events) := by
  induction more using List.reverseRecOn with
  | nil => simp
  | append_singleton more event ih =>
    have hlast := hproperty _ (List.prefix_refl _)
    have hbegins : more <+: more ++ [event] := List.prefix_append _ _
    have hsofar := hproperty _ hbegins
    rw [← List.append_assoc] at hlegal hlast ⊢
    obtain ⟨hbefore, henabled⟩ := (machine.meets_snoc _ _ event).mp hlegal
    have hrest := ih hbefore fun before hpre => hproperty before (hpre.trans hbegins)
    rw [after_snoc] at hlast ⊢
    have hstep := hlower _ hbefore event hsofar henabled hlast
    rw [List.countP_append, List.countP_singleton]
    omega

/-- A machine that does what another one does when part of its state and of its
events is forgotten goes through states of the other one. -/
theorem after_map {State' Event' : Type*} (machine : Machine State Event)
    (abstract : Machine State' Event') (state : State → State') (event : Event → Event')
    (hinitial : state machine.initial = abstract.initial)
    (henabled : ∀ s e, machine.enabled s e → abstract.enabled (state s) (event e))
    (hnext : ∀ s e, state (machine.next s e) = abstract.next (state s) (event e))
    {events : List Event} (hlegal : machine.Legal events) :
    abstract.Legal (events.map event) ∧
      state (machine.after events) = abstract.after (events.map event) := by
  induction events using List.reverseRecOn with
  | nil => exact ⟨abstract.meets_nil _, hinitial⟩
  | append_singleton events last ih =>
    obtain ⟨hbefore, hlast⟩ := (machine.meets_snoc _ events last).mp hlegal
    obtain ⟨hmapped, hstate⟩ := ih hbefore
    rw [List.map_append, List.map_singleton, after_snoc, after_snoc, hnext, hstate]
    refine ⟨(abstract.meets_snoc _ _ _).mpr ⟨hmapped, ?_⟩, rfl⟩
    rw [← hstate]
    exact henabled _ _ hlast

/-- A machine whose events are those of another one, or leave the part of the
state alone that the other one has, goes through states of the other one. -/
theorem after_filterMap {State' Event' : Type*} (machine : Machine State Event)
    (abstract : Machine State' Event') (state : State → State') (event : Event → Option Event')
    (hinitial : state machine.initial = abstract.initial)
    (henabled : ∀ s e, machine.enabled s e → ∀ e' ∈ event e, abstract.enabled (state s) e')
    (hnext : ∀ s e, state (machine.next s e) = (event e).elim (state s) (abstract.next (state s)))
    {events : List Event} (hlegal : machine.Legal events) :
    abstract.Legal (events.filterMap event) ∧
      state (machine.after events) = abstract.after (events.filterMap event) := by
  induction events using List.reverseRecOn with
  | nil => exact ⟨abstract.meets_nil _, hinitial⟩
  | append_singleton events last ih =>
    obtain ⟨hbefore, hlast⟩ := (machine.meets_snoc _ events last).mp hlegal
    obtain ⟨hmapped, hstate⟩ := ih hbefore
    rw [List.filterMap_append, after_snoc, hnext]
    cases hevent : event last with
    | none =>
      rw [List.filterMap_cons_none hevent, List.filterMap_nil, List.append_nil]
      exact ⟨hmapped, hstate⟩
    | some step =>
      rw [List.filterMap_cons_some hevent, List.filterMap_nil, after_snoc, ← hstate]
      refine ⟨(abstract.meets_snoc _ _ _).mpr ⟨hmapped, ?_⟩, rfl⟩
      rw [← hstate]
      exact henabled _ _ hlast step hevent

/-- Where some event always raises a count or lowers a rank, the count grows
without bound. -/
theorem exists_legal_of_progress (good : State → Prop) (count rank : State → Nat)
    (hinitial : good machine.initial)
    (hprogress : ∀ events, machine.Legal events → good (machine.after events) →
      ∃ event, machine.enabled (machine.after events) event ∧
        good (machine.next (machine.after events) event) ∧
        (count (machine.after events) < count (machine.next (machine.after events) event) ∨
          count (machine.next (machine.after events) event) = count (machine.after events) ∧
            rank (machine.next (machine.after events) event) < rank (machine.after events)))
    (goal : Nat) : ∃ events, machine.Legal events ∧ good (machine.after events) ∧
      goal ≤ count (machine.after events) := by
  have hmore : ∀ fuel events, machine.Legal events → good (machine.after events) →
      rank (machine.after events) ≤ fuel → ∃ longer, machine.Legal longer ∧
        good (machine.after longer) ∧ count (machine.after events) < count (machine.after longer) := by
    intro fuel
    induction fuel with
    | zero =>
      intro events hlegal hgood hrank
      obtain ⟨event, henabled, hnext, hraised | ⟨_, hlower⟩⟩ := hprogress events hlegal hgood
      · refine ⟨events ++ [event], (machine.meets_snoc _ _ _).mpr ⟨hlegal, henabled⟩, ?_⟩
        rw [after_snoc]
        exact ⟨hnext, hraised⟩
      · omega
    | succ fuel ih =>
      intro events hlegal hgood hrank
      obtain ⟨event, henabled, hnext, hraised | ⟨hsame, hlower⟩⟩ := hprogress events hlegal hgood
      · refine ⟨events ++ [event], (machine.meets_snoc _ _ _).mpr ⟨hlegal, henabled⟩, ?_⟩
        rw [after_snoc]
        exact ⟨hnext, hraised⟩
      · have hlonger : machine.Legal (events ++ [event]) :=
          (machine.meets_snoc _ _ _).mpr ⟨hlegal, henabled⟩
        rw [← hsame, ← after_snoc]
        rw [← after_snoc] at hnext hlower
        exact ih _ hlonger hnext (by omega)
  induction goal with
  | zero => exact ⟨[], machine.meets_nil _, hinitial, Nat.zero_le _⟩
  | succ goal ih =>
    obtain ⟨events, hlegal, hgood, hcount⟩ := ih
    obtain ⟨longer, hlonger, hgood, hgrown⟩ := hmore _ events hlegal hgood (Nat.le_refl _)
    exact ⟨longer, hlonger, hgood, by omega⟩

/-- An invariant that the events meeting a condition carry holds after every
legal sequence of such events. -/
theorem invariant_of_meets (inv : State → Prop) {condition : State → Event → Prop}
    (hinitial : inv machine.initial)
    (hnext : ∀ state event, inv state → machine.enabled state event → condition state event →
      inv (machine.next state event))
    {events : List Event} (hlegal : machine.Legal events) (hmeets : machine.Meets condition events) :
    inv (machine.after events) := by
  induction events using List.reverseRecOn with
  | nil => exact hinitial
  | append_singleton events event ih =>
    obtain ⟨hbefore, henabled⟩ := (machine.meets_snoc _ events event).mp hlegal
    obtain ⟨hmeets, hcondition⟩ := (machine.meets_snoc _ events event).mp hmeets
    rw [after_snoc]
    exact hnext _ _ (ih hbefore hmeets) henabled hcondition

theorem Meets.of_prefix {machine : Machine State Event} {condition : State → Event → Prop}
    {events before : List Event} (hmeets : machine.Meets condition events)
    (hpre : before <+: events) : machine.Meets condition before :=
  fun _ _ hother => hmeets _ _ (hother.trans hpre)

/-- A property that an inductive strengthening carries through the events
meeting a condition, and that every other event breaks, holds along a legal
sequence exactly when all its events meet the condition. -/
theorem always_iff_meets (strong : State → Prop) {property : State → Prop}
    {condition : State → Event → Prop}
    (hinitial : strong machine.initial) (hstrong : ∀ state, strong state → property state)
    (hgood : ∀ state event, strong state → machine.enabled state event →
      condition state event → strong (machine.next state event))
    (hbad : ∀ state event, strong state → machine.enabled state event →
      ¬ condition state event → ¬ property (machine.next state event))
    {events : List Event} (hlegal : machine.Legal events) :
    machine.Always property events ↔ machine.Meets condition events := by
  induction events using List.reverseRecOn with
  | nil => simp [always_nil, hstrong _ hinitial, meets_nil]
  | append_singleton events event ih =>
    obtain ⟨hbefore, henabled⟩ := (machine.meets_snoc _ events event).mp hlegal
    have hreach := machine.invariant_of_meets strong hinitial hgood hlegal
    constructor
    · intro halways
      obtain ⟨halways, hlast⟩ := (machine.always_snoc _ events event).mp halways
      have hmeets := (ih hbefore).mp halways
      refine (machine.meets_snoc _ events event).mpr ⟨hmeets, ?_⟩
      by_contra hnot
      rw [after_snoc] at hlast
      have hstate := machine.invariant_of_meets strong hinitial hgood hbefore hmeets
      exact hbad _ _ hstate henabled hnot hlast
    · intro hmeets
      refine (machine.always_snoc _ events event).mpr ⟨?_, hstrong _ (hreach hmeets)⟩
      exact (ih hbefore).mpr ((machine.meets_snoc _ events event).mp hmeets).1

/-- A sequence that meets a condition still does after more events that always
meet it. -/
theorem Meets.append_later {machine : Machine State Event} {condition : State → Event → Prop}
    {kind : Event → Prop} (hlater : ∀ state event, kind event → condition state event)
    {events more : List Event} (hmeets : machine.Meets condition events)
    (hmore : ∀ event ∈ more, kind event) : machine.Meets condition (events ++ more) := by
  induction more using List.reverseRecOn with
  | nil => simpa using hmeets
  | append_singleton more event ih =>
    rw [← List.append_assoc, meets_snoc]
    refine ⟨ih fun other hother => hmore other (List.mem_append_left _ hother), ?_⟩
    exact hlater _ event (hmore event (by simp))

/-- A property that an inductive strengthening carries through the events
meeting a condition, and that events of one kind, which all meet it, break after
any other event, holds robustly along a legal sequence exactly when all its
events meet the condition. -/
theorem robustly_iff_meets (kind : Event → Prop) (strong : State → Prop) {property : State → Prop}
    {condition : State → Event → Prop}
    (hinitial : strong machine.initial) (hstrong : ∀ state, strong state → property state)
    (hgood : ∀ state event, strong state → machine.enabled state event →
      condition state event → strong (machine.next state event))
    (hlater : ∀ state event, kind event → condition state event)
    (hbad : ∀ state event, strong state → machine.enabled state event →
      ¬ condition state event → ∃ more, (∀ event ∈ more, kind event) ∧
        machine.MeetsFrom machine.enabled (machine.next state event) more ∧
        ¬ property (more.foldl machine.next (machine.next state event)))
    {events : List Event} (hlegal : machine.Legal events) :
    machine.Robustly kind property events ↔ machine.Meets condition events := by
  constructor
  · intro hrobustly
    induction events using List.reverseRecOn with
    | nil => exact machine.meets_nil _
    | append_singleton events event ih =>
      obtain ⟨hbefore, henabled⟩ := (machine.meets_snoc _ events event).mp hlegal
      have hmeets := ih hbefore fun before more hpre =>
        hrobustly before more (hpre.trans (List.prefix_append events [event]))
      refine (machine.meets_snoc _ events event).mpr ⟨hmeets, ?_⟩
      by_contra hnot
      have hstate := machine.invariant_of_meets strong hinitial hgood hbefore hmeets
      obtain ⟨more, hkind, hmore, hbroken⟩ := hbad _ _ hstate henabled hnot
      rw [← after_snoc] at hmore hbroken
      have hlonger := (machine.meets_append _ _ more).mpr ⟨hlegal, hmore⟩
      have halways := hrobustly _ more (List.prefix_refl _) hkind hlonger
      exact hbroken (machine.after_append _ more ▸ halways.last)
  · intro hmeets before more hpre hkind hlonger shorter hshorter
    have hall := (hmeets.of_prefix hpre).append_later hlater hkind
    exact hstrong _ (machine.invariant_of_meets strong hinitial hgood
      (hlonger.of_prefix hshorter) (hall.of_prefix hshorter))

end Machine
