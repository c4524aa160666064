import DstTestNode.Library.Tasks
import DstTestNode.Nim.ConnmanagerEnv

open nim
open nim_test_node.connmanager.env

namespace nim_test_node.connmanager.main

variable {MultiAddress PeerId PrivateKey : Type}

/-- What `resolveAndConnect` does: a connect within its ten seconds, or a sleep. -/
inductive ConnectAction (MultiAddress : Type) where
  | connect (addr : MultiAddress)
  | sleep (seconds : Nat)
  deriving DecidableEq, Repr

/-- What an attempt meets: what the address resolves to, and what the switch says to a
connect. -/
structure Attempt (MultiAddress PeerId : Type) where
  addrs : Except String (List MultiAddress)
  connect : MultiAddress → Except String PeerId

namespace Attempt

/-- The address that is connected to, if there is one. -/
def target (address : String) (self : Attempt MultiAddress PeerId) :
    Except String MultiAddress := do
  let addrs ← self.addrs
  match addrs with
  | [] => .error ("no addresses resolved for " ++ address)
  | addr :: _ => .ok addr

/-- The body of the `try`. -/
def outcome (address : String) (self : Attempt MultiAddress PeerId) : Except String PeerId := do
  let addr ← self.target address
  self.connect addr

/-- The connect of an attempt, which one that resolves nothing does not make. -/
def connects (address : String) (self : Attempt MultiAddress PeerId) :
    List (ConnectAction MultiAddress) :=
  (self.target address).toOption.toList.map .connect

end Attempt

/-- The last attempt of `resolveAndConnect`. -/
def last_attempt : Nat := 10

def next_backoff (backoff : Nat) : Nat := min (backoff * 2) 30

/-- The loop over the attempts, with what it does and the peer it connects to. -/
def connect_loop (address : String) (attempts : Nat → Attempt MultiAddress PeerId) (backoff : Nat) :
    List Nat → List (ConnectAction MultiAddress) × Option PeerId
  | [] => ([], none)
  | attempt :: rest =>
    match (attempts attempt).outcome address with
    | .ok peer_id => ((attempts attempt).connects address, some peer_id)
    | .error _ =>
      let (actions, peer_id) := connect_loop address attempts (next_backoff backoff) rest
      ((attempts attempt).connects address ++ .sleep backoff :: actions, peer_id)

def resolve_and_connect (address : String) (attempts : Nat → Attempt MultiAddress PeerId) :
    List (ConnectAction MultiAddress) × Option PeerId :=
  connect_loop address attempts 1 (List.range' 1 last_attempt)

/-- Where a call of `resolveAndConnect` is. -/
inductive Phase (PeerId : Type) where
  | trying (attempt backoff : Nat)
  | sleeping (attempt backoff : Nat)
  | ended (peer_id : Option PeerId)

/-- A call of `resolveAndConnect` that was started with `asyncSpawn`, with what it has
done so far. -/
structure Connecting (MultiAddress PeerId : Type) where
  address : String
  attempts : Nat → Attempt MultiAddress PeerId
  phase : Phase PeerId
  actions : List (ConnectAction MultiAddress)

namespace Connecting

def start (address : String) (attempts : Nat → Attempt MultiAddress PeerId) :
    Connecting MultiAddress PeerId :=
  ⟨address, attempts, .trying 1 1, []⟩

def Ended (self : Connecting MultiAddress PeerId) : Prop :=
  ∃ peer_id, self.phase = .ended peer_id

instance (call : Connecting MultiAddress PeerId) : Decidable call.Ended :=
  match hphase : call.phase with
  | .ended peer_id => .isTrue ⟨peer_id, hphase⟩
  | .trying _ _ | .sleeping _ _ =>
    .isFalse fun ⟨_, hended⟩ => by
      rw [hphase] at hended
      cases hended

/-- An attempt up to the beginning of its sleep, or the end of a sleep. -/
def advance (self : Connecting MultiAddress PeerId) : Connecting MultiAddress PeerId :=
  match self.phase with
  | .trying attempt backoff =>
    let connects := (self.attempts attempt).connects self.address
    match (self.attempts attempt).outcome self.address with
    | .ok peer_id =>
      { self with phase := .ended (some peer_id), actions := self.actions ++ connects }
    | .error _ =>
      { self with
        phase := .sleeping attempt backoff
        actions := self.actions ++ (connects ++ [.sleep backoff]) }
  | .sleeping attempt backoff =>
    if attempt < last_attempt then
      { self with phase := .trying (attempt + 1) (next_backoff backoff) }
    else { self with phase := .ended none }
  | .ended _ => self

/-- What is left of a call. -/
def left (self : Connecting MultiAddress PeerId) :
    List (ConnectAction MultiAddress) × Option PeerId :=
  match self.phase with
  | .trying attempt backoff =>
    connect_loop self.address self.attempts backoff
      (List.range' attempt (last_attempt + 1 - attempt))
  | .sleeping attempt backoff =>
    connect_loop self.address self.attempts (next_backoff backoff)
      (List.range' (attempt + 1) (last_attempt - attempt))
  | .ended peer_id => ([], peer_id)

/-- What a call comes to when the rest of it runs on its own. -/
def comes_to (self : Connecting MultiAddress PeerId) :
    List (ConnectAction MultiAddress) × Option PeerId :=
  (self.actions ++ self.left.1, self.left.2)

end Connecting

/-- A pass through the loop of `ReconnectAggressive`: the connections that the switch
counts, and what the calls that are started meet, by hub and attempt. -/
structure Round (MultiAddress PeerId : Type) where
  connected : Nat
  attempts : Nat → Nat → Attempt MultiAddress PeerId

/-- The hubs that a pass starts to connect to: all of them as soon as one is lost. -/
def Round.hubs (self : Round MultiAddress PeerId) (cfg : PeerConfig PrivateKey) : List String :=
  if self.connected < cfg.hub_addrs.length then cfg.hub_addrs else []

def Round.spawned (self : Round MultiAddress PeerId) (cfg : PeerConfig PrivateKey) :
    List (Connecting MultiAddress PeerId) :=
  (self.hubs cfg).zipIdx.map fun hub => .start hub.1 (self.attempts hub.2)

/-- A peer that reconnects aggressively. Its calls of `resolveAndConnect` run beside
the loop. -/
def reconnect_aggressive (cfg : PeerConfig PrivateKey) :
    Tasks Unit (Connecting MultiAddress PeerId) (Round MultiAddress PeerId) Unit where
  initial := ()
  admits := fun _ _ => True
  arrive := fun _ round => ((), round.spawned cfg)
  enabled := fun _ call _ => ¬ call.Ended
  step := fun _ call _ => ((), call.advance)

instance (cfg : PeerConfig PrivateKey) (shared : Unit) (round : Round MultiAddress PeerId) :
    Decidable ((reconnect_aggressive cfg).admits shared round) :=
  inferInstanceAs (Decidable True)

instance (cfg : PeerConfig PrivateKey) (shared : Unit) (call : Connecting MultiAddress PeerId)
    (step : Unit) : Decidable ((reconnect_aggressive cfg).enabled shared call step) :=
  inferInstanceAs (Decidable ¬ call.Ended)

variable {address : String} {attempts : Nat → Attempt MultiAddress PeerId}

theorem comes_to_advance {self : Connecting MultiAddress PeerId}
    (hphase : ∀ attempt backoff, self.phase = .trying attempt backoff → attempt ≤ last_attempt) :
    self.advance.comes_to = self.comes_to := by
  obtain ⟨address, attempts, phase, actions⟩ := self
  cases phase with
  | trying attempt backoff =>
    have hattempt := hphase attempt backoff rfl
    have hleft : last_attempt + 1 - attempt = last_attempt - attempt + 1 := by omega
    simp only [Connecting.advance, Connecting.comes_to, Connecting.left, hleft, List.range'_succ,
      connect_loop]
    cases (attempts attempt).outcome address with
    | ok peer_id => simp
    | error msg => simp
  | sleeping attempt backoff =>
    simp only [Connecting.advance, Connecting.comes_to, Connecting.left]
    split_ifs with hmore
    · simp only [Nat.add_sub_add_right]
    · rw [Nat.sub_eq_zero_of_le (Nat.not_lt.mp hmore)]
      rfl
  | ended peer_id => rfl

/-- The lengths of the sleeps among some actions. -/
def sleeps (actions : List (ConnectAction MultiAddress)) : List Nat :=
  actions.filterMap fun action =>
    match action with
    | .connect _ => none
    | .sleep seconds => some seconds

/-- The addresses that some actions connect to. -/
def connects (actions : List (ConnectAction MultiAddress)) : List MultiAddress :=
  actions.filterMap fun action =>
    match action with
    | .connect addr => some addr
    | .sleep _ => none

/-- The sleep after an attempt, counted from zero. -/
def backoff_after (k : Nat) : Nat := min (2 ^ k) 30

theorem next_backoff_after (k : Nat) : next_backoff (backoff_after k) = backoff_after (k + 1) := by
  rw [next_backoff, backoff_after, backoff_after, Nat.pow_succ]
  omega

theorem Attempt.sleeps_connects (address : String) (self : Attempt MultiAddress PeerId) :
    sleeps (self.connects address) = [] := by
  rw [Attempt.connects]
  cases (self.target address).toOption <;> rfl

theorem Attempt.length_connects_le (address : String) (self : Attempt MultiAddress PeerId) :
    (main.connects (self.connects address)).length ≤ 1 := by
  rw [Attempt.connects]
  cases (self.target address).toOption <;> simp [main.connects]

/-- How many attempts fail before the first one that connects. -/
structure Failures (address : String) (attempts : Nat → Attempt MultiAddress PeerId)
    (first left failures : Nat) (result : Option PeerId) : Prop where
  le : failures ≤ left
  failed : ∀ j < failures, ∃ msg, (attempts (first + j)).outcome address = .error msg
  given_up : result = none → failures = left
  connected : ∀ peer_id, result = some peer_id →
    failures < left ∧ (attempts (first + failures)).outcome address = .ok peer_id

/-- The loop sleeps after every failure, and stops at the first connection. -/
theorem connect_loop_spec (address : String) (attempts : Nat → Attempt MultiAddress PeerId)
    (k left : Nat) :
    ∃ failures, Failures address attempts (k + 1) left failures
        (connect_loop address attempts (backoff_after k) (List.range' (k + 1) left)).2 ∧
      sleeps (connect_loop address attempts (backoff_after k) (List.range' (k + 1) left)).1 =
        (List.range' k failures).map backoff_after ∧
      (connects (connect_loop address attempts (backoff_after k)
        (List.range' (k + 1) left)).1).length ≤ left := by
  induction left generalizing k with
  | zero =>
    refine ⟨0, ⟨Nat.le_refl 0, by simp, fun _ => rfl, fun peer_id hsome => ?_⟩, rfl, Nat.le_refl 0⟩
    cases hsome
  | succ left ih =>
    have hfirst := (attempts (k + 1)).length_connects_le address
    rw [List.range'_succ, connect_loop]
    cases houtcome : (attempts (k + 1)).outcome address with
    | ok peer_id =>
      refine ⟨0, ⟨Nat.zero_le _, by simp, (by simp), fun other hsome => ?_⟩,
        Attempt.sleeps_connects address _, by simp only; omega⟩
      cases hsome
      exact ⟨Nat.zero_lt_succ left, houtcome⟩
    | error msg =>
      obtain ⟨failures, hfailures, hsleeps, hconnects⟩ := ih (k + 1)
      rw [next_backoff_after]
      refine ⟨failures + 1, ⟨by have := hfailures.le; omega, fun j hj => ?_, fun hnone => ?_,
        fun peer_id hsome => ?_⟩, ?_, ?_⟩
      · cases j with
        | zero => exact ⟨msg, houtcome⟩
        | succ j =>
          obtain ⟨other, hother⟩ := hfailures.failed j (by omega)
          exact ⟨other, by rw [← hother]; congr 2; omega⟩
      · rw [hfailures.given_up hnone]
      · obtain ⟨hlt, hconnected⟩ := hfailures.connected peer_id hsome
        exact ⟨by omega, by rw [← hconnected]; congr 2; omega⟩
      · simp only [sleeps, List.filterMap_append, List.filterMap_cons] at hsleeps ⊢
        rw [hsleeps, List.range'_succ, List.map_cons]
        exact congrArg (· ++ _) (Attempt.sleeps_connects address _)
      · simp only [connects, List.filterMap_append, List.filterMap_cons, List.length_append]
          at hconnects hfirst ⊢
        omega

/-- A call alone makes at most ten attempts and sleeps at most 181 seconds, which is
what it sleeps when it gives up. -/
theorem resolve_and_connect_spec (address : String)
    (attempts : Nat → Attempt MultiAddress PeerId) :
    (connects (resolve_and_connect address attempts).1).length ≤ last_attempt ∧
    (sleeps (resolve_and_connect address attempts).1).sum ≤ 181 ∧
    ((resolve_and_connect address attempts).2 = none →
      (∀ j < last_attempt, ∃ msg, (attempts (1 + j)).outcome address = .error msg) ∧
        (sleeps (resolve_and_connect address attempts).1).sum = 181) := by
  obtain ⟨failures, hfailures, hsleeps, hconnects⟩ :=
    connect_loop_spec address attempts 0 last_attempt
  have hbounded : ∀ failures ≤ last_attempt,
      ((List.range' 0 failures).map backoff_after).sum ≤ 181 := by decide
  change (sleeps (resolve_and_connect address attempts).1) = _ at hsleeps
  rw [hsleeps]
  refine ⟨hconnects, hbounded failures hfailures.le, fun hnone => ?_⟩
  have hall := hfailures.given_up hnone
  subst hall
  exact ⟨hfailures.failed, by decide⟩

/-- What holds of a started call, whatever its loop and the other calls do. -/
structure Connecting.Sound (call : Connecting MultiAddress PeerId) : Prop where
  attempt_le : ∀ attempt backoff, call.phase = .trying attempt backoff → attempt ≤ last_attempt
  comes_to : call.comes_to = resolve_and_connect call.address call.attempts

theorem Connecting.sound_start (address : String)
    (attempts : Nat → Attempt MultiAddress PeerId) : (Connecting.start address attempts).Sound where
  attempt_le := by
    rintro attempt backoff hphase
    cases hphase
    decide
  comes_to := rfl

theorem Connecting.advance_data (self : Connecting MultiAddress PeerId) :
    self.advance.address = self.address ∧ self.advance.attempts = self.attempts := by
  obtain ⟨address, attempts, phase, actions⟩ := self
  cases phase with
  | trying attempt backoff =>
    simp only [Connecting.advance]
    cases (attempts attempt).outcome address <;> exact ⟨rfl, rfl⟩
  | sleeping attempt backoff =>
    simp only [Connecting.advance]
    split_ifs <;> exact ⟨rfl, rfl⟩
  | ended peer_id => exact ⟨rfl, rfl⟩

theorem Connecting.Sound.advance {call : Connecting MultiAddress PeerId} (hsound : call.Sound) :
    call.advance.Sound where
  attempt_le := by
    obtain ⟨address, attempts, phase, actions⟩ := call
    cases phase with
    | trying attempt backoff =>
      simp only [Connecting.advance]
      cases (attempts attempt).outcome address <;> simp
    | sleeping attempt backoff =>
      simp only [Connecting.advance]
      split_ifs with hmore
      · intro other backoff hphase
        cases hphase
        exact hmore
      · simp
    | ended peer_id => exact hsound.attempt_le
  comes_to := by
    rw [comes_to_advance hsound.attempt_le, hsound.comes_to, call.advance_data.1,
      call.advance_data.2]

/-- The steps that a call can still take. -/
def Connecting.steps_left (self : Connecting MultiAddress PeerId) : Nat :=
  match self.phase with
  | .trying attempt _ => 2 * (last_attempt - attempt) + 2
  | .sleeping attempt _ => 2 * (last_attempt - attempt) + 1
  | .ended _ => 0

theorem Connecting.steps_left_advance {self : Connecting MultiAddress PeerId}
    (hrunning : ¬ self.Ended) : self.advance.steps_left < self.steps_left := by
  obtain ⟨address, attempts, phase, actions⟩ := self
  cases phase with
  | trying attempt backoff =>
    simp only [Connecting.advance]
    cases (attempts attempt).outcome address <;> simp [Connecting.steps_left]
  | sleeping attempt backoff =>
    simp only [Connecting.advance]
    split_ifs with hmore
    · simp only [Connecting.steps_left]
      omega
    · simp [Connecting.steps_left]
  | ended peer_id => exact absurd ⟨peer_id, rfl⟩ hrunning

/-- All hubs are started in every pass that misses a connection. -/
theorem length_hubs (cfg : PeerConfig PrivateKey) (rounds : List (Round MultiAddress PeerId)) :
    (rounds.flatMap (Round.hubs · cfg)).length = cfg.hub_addrs.length *
      rounds.countP fun round => round.connected < cfg.hub_addrs.length := by
  induction rounds with
  | nil => rfl
  | cons round rounds ih =>
    rw [List.flatMap_cons, List.length_append, ih, List.countP_cons, Round.hubs, Nat.mul_add]
    by_cases hmissing : round.connected < cfg.hub_addrs.length
    · simp only [hmissing, if_true, decide_true, Nat.mul_one, Nat.add_comm]
    · simp [hmissing]

open Tasks (Event)

variable {cfg : PeerConfig PrivateKey} {events : List (Event (Round MultiAddress PeerId) Unit)}

/-- Aggressive reconnection, over every run. A pass that misses a connection starts
one call for every hub, the connected ones included, and every other pass none; each
call does what it does alone, with at most ten connects, and gives up only after ten
failures and 181 seconds of sleep; so all calls together make at most ten connects for
each hub and each pass that missed a connection. -/
theorem reconnects (hlegal : (reconnect_aggressive cfg).interleaved.Legal events) :
    let calls := ((reconnect_aggressive cfg).interleaved.after events).tasks
    let rounds := events.filterMap Event.arrival
    calls.map Connecting.address = rounds.flatMap (Round.hubs · cfg) ∧
    (∀ call ∈ calls, call.actions <+: (resolve_and_connect call.address call.attempts).1 ∧
      (∀ peer_id, call.phase = .ended peer_id →
        (call.actions, peer_id) = resolve_and_connect call.address call.attempts) ∧
      (call.phase = .ended none → (sleeps call.actions).sum = 181 ∧
        ∀ j < last_attempt, ∃ msg, (call.attempts (1 + j)).outcome call.address = .error msg)) ∧
    (∀ number, events.countP (Event.IsStepOf number) ≤ 20) ∧
    (calls.map fun call => (connects call.actions).length).sum ≤
      last_attempt * (cfg.hub_addrs.length *
        rounds.countP fun round => round.connected < cfg.hub_addrs.length) := by
  intro calls rounds
  have hsound : ∀ call ∈ calls, call.Sound := by
    refine Tasks.forall_tasks_of_local Connecting.Sound ?_ ?_ hlegal
    · intro _ round _ call hcall
      obtain ⟨hub, _, rfl⟩ := List.mem_map.mp hcall
      exact Connecting.sound_start hub.1 (round.attempts hub.2)
    · intro _ call _ _ hcall
      exact hcall.advance
  have hbegins : ∀ call ∈ calls,
      call.actions <+: (resolve_and_connect call.address call.attempts).1 := by
    intro call hcall
    rw [← (hsound call hcall).comes_to]
    exact List.prefix_append _ _
  have hended {call : Connecting MultiAddress PeerId} (hcall : call ∈ calls)
      {peer_id : Option PeerId} (hphase : call.phase = .ended peer_id) :
      (call.actions, peer_id) = resolve_and_connect call.address call.attempts := by
    rw [← (hsound call hcall).comes_to, Connecting.comes_to, Connecting.left, hphase,
      List.append_nil]
  have haddresses : calls.map Connecting.address = rounds.flatMap (Round.hubs · cfg) :=
    Tasks.map_tasks (reconnect_aggressive cfg) Connecting.address (Round.hubs · cfg)
      (fun _ round => by
        change ((round.hubs cfg).zipIdx.map _).map Connecting.address = round.hubs cfg
        rw [List.map_map]
        exact List.zipIdx_map_fst 0 _)
      (fun _ call _ => call.advance_data.1) events
  refine ⟨haddresses, fun call hcall => ⟨hbegins call hcall, fun peer_id => hended hcall,
    fun hphase => ?_⟩, fun number => ?_, ?_⟩
  · obtain ⟨-, -, hgiven⟩ := resolve_and_connect_spec call.address call.attempts
    rw [← hended hcall hphase] at hgiven
    exact (hgiven rfl).symm
  · have hsteps := Tasks.countP_isStepOf_add_le Connecting.steps_left 20
      (fun _ round _ call hcall => by
        obtain ⟨hub, _, rfl⟩ := List.mem_map.mp hcall
        exact Nat.le_refl 20)
      (fun _ call _ hrunning => Connecting.steps_left_advance hrunning) hlegal number
    omega
  · have hconnects : ∀ count ∈ calls.map fun call => (connects call.actions).length,
        count ≤ last_attempt := by
      intro count hcount
      obtain ⟨call, hcall, rfl⟩ := List.mem_map.mp hcount
      exact ((hbegins call hcall).filterMap _).length_le.trans
        (resolve_and_connect_spec call.address call.attempts).1
    have hlength : calls.length = cfg.hub_addrs.length *
        rounds.countP fun round => round.connected < cfg.hub_addrs.length := by
      rw [← List.length_map Connecting.address, haddresses, length_hubs]
    have hsum := List.sum_le_card_nsmul _ _ hconnects
    rw [List.length_map, hlength, smul_eq_mul] at hsum
    rw [mul_comm last_attempt]
    exact hsum

/-- A peer of two hubs. -/
def two_hubs_peer : PeerConfig String where
  hub_addrs := ["hub-0:5000", "hub-1:5000"]
  dial_out := true
  reconnect := .reconnect_aggressive
  reconnect_interval_s := 55
  private_key := none

/-- The second hub answers late. -/
def late_hub (hub attempt : Nat) : Attempt String String where
  addrs := .ok ["/ip4/10.0.0.1/tcp/5000"]
  connect := fun _ => if hub = 1 ∧ attempt = 1 then .error "Timeout exceeded!" else .ok "hub"

/-- The second pass still misses the second hub, and starts both again. -/
def late_run : List (Event (Round String String) Unit) :=
  [.arrive ⟨0, late_hub⟩, .step 0 (), .step 1 (), .arrive ⟨1, late_hub⟩, .step 1 (), .step 2 (),
    .step 1 (), .arrive ⟨2, late_hub⟩]

theorem reconnects_late :
    (((reconnect_aggressive two_hubs_peer).interleaved.after late_run).tasks.map
        Connecting.address).count "hub-0:5000" = 2 := by
  have hlegal : (reconnect_aggressive two_hubs_peer).interleaved.Legal late_run := by decide
  rw [(reconnects hlegal).1]
  decide

end nim_test_node.connmanager.main
