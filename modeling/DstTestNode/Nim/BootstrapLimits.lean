import DstTestNode.Nim.Bootstraps
import Mathlib.Algebra.Ring.Nat

open Attempts

namespace nim_test_node

variable {PeerId Address : Type}

/-- The peer id of the first successful attempt at a candidate. -/
def first_success (outcome : Nat → Except String PeerId) : Option PeerId :=
  connect_attempts.findSome? fun attempt => (outcome attempt).toOption

/-- A candidate that can be connected, with its peer id. -/
def bootstrap_of (outcome : Nat → Nat → Except String PeerId) (candidate : Address × Nat) :
    Option (PeerId × List Address) :=
  (first_success (outcome candidate.2)).map fun peer_id => (peer_id, [candidate.1])

/-- The attempts at a candidate, up to the first that succeeds. -/
def attempts_made (outcome : Nat → Except String PeerId) (attempted : List Nat) : List Nat :=
  attempts 1 (fun attempt => (outcome attempt).isOk) 0 attempted

/-- The actions of an attempt: a dial, and a sleep if it fails. -/
def attempt_actions (outcome : Nat → Except String PeerId) (position attempt : Nat) :
    List BootstrapAction :=
  if (outcome attempt).isOk then [.dial position attempt]
  else [.dial position attempt, .sleep position (min (2 ^ (attempt - 1)) max_backoff)]

/-- What a candidate is dialed, and the sleeps between its dials. -/
def candidate_actions (outcome : Nat → Nat → Except String PeerId) (candidate : Address × Nat) :
    List BootstrapAction :=
  (attempts_made (outcome candidate.2) connect_attempts).flatMap
    (attempt_actions (outcome candidate.2) candidate.2)

namespace BootstrapAction

def position : BootstrapAction → Nat
  | dial position _ => position
  | sleep position _ => position

/-- The dials among some actions, by position and attempt. -/
def dials (actions : List BootstrapAction) : List (Nat × Nat) :=
  actions.filterMap fun action =>
    match action with
    | dial position attempt => some (position, attempt)
    | sleep _ _ => none

/-- The lengths of the sleeps among some actions, in seconds. -/
def sleeps (actions : List BootstrapAction) : List Nat :=
  actions.filterMap fun action =>
    match action with
    | dial _ _ => none
    | sleep _ seconds => some seconds

/-- The actions for one candidate. -/
def at_position (position : Nat) (actions : List BootstrapAction) : List BootstrapAction :=
  actions.filter fun action => action.position = position

end BootstrapAction

open BootstrapAction

theorem attempts_made_cons (outcome : Nat → Except String PeerId) (attempt : Nat)
    (attempted : List Nat) : attempts_made outcome (attempt :: attempted) =
      attempt :: if (outcome attempt).isOk then [] else attempts_made outcome attempted := by
  rw [attempts_made, attempts, if_neg (Nat.not_succ_le_zero 0)]
  cases hok : (outcome attempt).isOk with
  | true => cases attempted <;> simp [attempts]
  | false => simp [attempts_made]

namespace Bootstrapping

variable (addr : Address) (position : Nat) (outcome : Nat → Except String PeerId)

theorem connect_bootstraps (backoff : Nat) (self : Bootstrapping PeerId Address)
    (attempted : List Nat) : (self.connect addr position outcome backoff attempted).bootstraps =
      self.bootstraps ++ ((attempted.findSome? fun attempt => (outcome attempt).toOption).map
        fun peer_id => (peer_id, [addr])).toList := by
  induction attempted generalizing self backoff with
  | nil => simp [connect]
  | cons attempt attempted ih =>
    rw [connect, List.findSome?_cons]
    cases houtcome : outcome attempt with
    | ok peer_id => simp [connected, Except.toOption]
    | error msg => simp [ih, failed, Except.toOption]

theorem double_backoff (k : Nat) :
    min (min (2 ^ k) max_backoff * 2) max_backoff = min (2 ^ (k + 1)) max_backoff := by
  rw [Nat.pow_succ]
  omega

/-- The backoff doubles with each failed attempt. -/
theorem connect_actions (self : Bootstrapping PeerId Address) (k left : Nat) :
    (self.connect addr position outcome (min (2 ^ k) max_backoff)
        (List.range' (k + 1) left)).actions =
      self.actions ++ (attempts_made outcome (List.range' (k + 1) left)).flatMap
        (attempt_actions outcome position) := by
  induction left generalizing self k with
  | zero => simp [connect, attempts_made, attempts]
  | succ left ih =>
    rw [List.range'_succ, connect, attempts_made_cons, List.flatMap_cons, attempt_actions]
    cases houtcome : outcome (k + 1) with
    | ok peer_id => simp [connected, Except.isOk, Except.toBool]
    | error msg =>
      simp only [double_backoff, ih, failed, Except.isOk, Except.toBool, Nat.add_sub_cancel,
        Bool.false_eq_true, if_false, List.append_assoc]

end Bootstrapping

variable {outcome : Nat → Nat → Except String PeerId}

namespace kad_dht.helpers

theorem connect_addrs_bootstraps (self : Bootstrapping PeerId Address)
    (candidates : List (Address × Nat)) :
    (connect_addrs outcome self candidates).bootstraps =
      self.bootstraps ++ candidates.filterMap (bootstrap_of outcome) := by
  induction candidates generalizing self with
  | nil => simp [connect_addrs]
  | cons candidate candidates ih =>
    obtain ⟨addr, position⟩ := candidate
    rw [connect_addrs, ih, Bootstrapping.connect_bootstraps, List.append_assoc,
      List.filterMap_cons, bootstrap_of]
    congr 1
    change ((first_success (outcome position)).map _).toList ++ _ = _
    cases first_success (outcome position) with
    | none => rfl
    | some peer_id => rfl

theorem connect_addrs_actions (self : Bootstrapping PeerId Address)
    (candidates : List (Address × Nat)) :
    (connect_addrs outcome self candidates).actions =
      self.actions ++ candidates.flatMap (candidate_actions outcome) := by
  induction candidates generalizing self with
  | nil => simp [connect_addrs]
  | cons candidate candidates ih =>
    obtain ⟨addr, position⟩ := candidate
    have hactions := Bootstrapping.connect_actions addr position (outcome position) self 0 10
    rw [Nat.pow_zero, Nat.zero_add] at hactions
    rw [connect_addrs, ih, List.flatMap_cons, ← List.append_assoc]
    exact congrArg (· ++ _) hactions

end kad_dht.helpers

namespace service_discovery.helpers

/-- The loop of this node is the one of the kad-dht node over the candidates
that it gets to before it has enough connections. -/
theorem connect_addrs_eq {max_connections : Int} (hmax : 1 ≤ max_connections)
    (self : Bootstrapping PeerId Address) (candidates : List (Address × Nat)) :
    connect_addrs max_connections outcome self candidates =
      kad_dht.helpers.connect_addrs outcome self
        (attempts max_connections.toNat (fun candidate => (bootstrap_of outcome candidate).isSome)
          self.bootstraps.length candidates) := by
  induction candidates generalizing self with
  | nil => rfl
  | cons candidate candidates ih =>
    obtain ⟨addr, position⟩ := candidate
    rw [connect_addrs, attempts]
    by_cases hreached : max_connections.toNat ≤ self.bootstraps.length
    · rw [if_pos hreached, if_pos (by omega), kad_dht.helpers.connect_addrs]
    · rw [if_neg hreached, if_neg (by omega), kad_dht.helpers.connect_addrs, ih,
        Bootstrapping.connect_bootstraps, List.length_append]
      congr 2
      change _ + ((first_success (outcome position)).map _).toList.length = _
      rw [bootstrap_of]
      cases first_success (outcome position) with
      | none => rfl
      | some peer_id => rfl

end service_discovery.helpers

namespace regression.kad_utils

theorem connect_of (addr : Address) (position : Nat) (outcome : Nat → Except String PeerId)
    (backoff : Nat) (self : Bootstrapping PeerId Address) (attempted : List Nat) :
    connect addr position (fun attempt => .of (outcome attempt)) backoff self attempted =
      .ok (self.connect addr position outcome backoff attempted) := by
  induction attempted generalizing self backoff with
  | nil => rfl
  | cons attempt attempted ih =>
    rw [connect, Bootstrapping.connect]
    cases outcome attempt with
    | ok peer_id => rfl
    | error msg => exact ih _ _

/-- As long as no dial is cancelled, the loop of this node is the one of the
kad-dht node. -/
theorem connect_addrs_of (self : Bootstrapping PeerId Address)
    (candidates : List (Address × Nat)) :
    connect_addrs (fun position attempt => .of (outcome position attempt)) self candidates =
      .ok (kad_dht.helpers.connect_addrs outcome self candidates) := by
  induction candidates generalizing self with
  | nil => rfl
  | cons candidate candidates ih =>
    obtain ⟨addr, position⟩ := candidate
    rw [connect_addrs, connect_of, kad_dht.helpers.connect_addrs]
    exact ih _

end regression.kad_utils

/-- The candidates that are tried in turn until there are enough connections. -/
def candidates_tried (max_connections : Int) (outcome : Nat → Nat → Except String PeerId)
    (addrs : List Address) : List (Address × Nat) :=
  attempts max_connections.toNat (fun candidate => (bootstrap_of outcome candidate).isSome) 0
    addrs.zipIdx

/-- The positions of the candidates that are tried are distinct. -/
theorem pairwise_candidates_tried (max_connections : Int) (addrs : List Address) :
    (candidates_tried max_connections outcome addrs).Pairwise fun first second =>
      first.2 ≠ second.2 := by
  have hall : (addrs.zipIdx.map Prod.snd).Nodup := by
    rw [List.zipIdx_map_snd]
    exact List.nodup_range'
  exact (List.pairwise_map.mp hall).sublist (attempts_begins 0 addrs.zipIdx).sublist

/-- The dials of a candidate are its attempts. -/
theorem dials_candidate_actions (candidate : Address × Nat) :
    dials (candidate_actions outcome candidate) =
      (attempts_made (outcome candidate.2) connect_attempts).map fun attempt =>
        (candidate.2, attempt) := by
  rw [candidate_actions]
  induction attempts_made (outcome candidate.2) connect_attempts with
  | nil => rfl
  | cons attempt attempted ih =>
    rw [List.flatMap_cons, dials, List.filterMap_append, List.map_cons, ← ih, attempt_actions]
    split_ifs <;> rfl

theorem sleeps_attempts_made (outcome : Nat → Except String PeerId) (position k left : Nat) :
    sleeps ((attempts_made outcome (List.range' (k + 1) left)).flatMap
        (attempt_actions outcome position)) =
      (List.range' k ((attempts_made outcome (List.range' (k + 1) left)).countP
        fun attempt => !(outcome attempt).isOk)).map fun k => min (2 ^ k) max_backoff := by
  induction left generalizing k with
  | zero => rfl
  | succ left ih =>
    rw [List.range'_succ, attempts_made_cons, List.flatMap_cons, sleeps, List.filterMap_append,
      List.countP_cons, attempt_actions]
    cases hok : (outcome (k + 1)).isOk with
    | true => simp
    | false =>
      simp only [Bool.false_eq_true, if_false, Bool.not_false, if_true, Nat.add_sub_cancel,
        List.range'_succ, List.map_cons]
      exact congrArg (min (2 ^ k) max_backoff :: ·) (ih (k + 1))

theorem sleeps_candidate_actions (candidate : Address × Nat) :
    sleeps (candidate_actions outcome candidate) =
      (List.range ((dials (candidate_actions outcome candidate)).countP
        fun dial => !(outcome dial.1 dial.2).isOk)).map fun k => min (2 ^ k) max_backoff := by
  rw [dials_candidate_actions, List.countP_map, List.range_eq_range']
  exact sleeps_attempts_made (outcome candidate.2) candidate.2 0 10

theorem at_position_candidate_actions (position : Nat) (candidate : Address × Nat) :
    at_position position (candidate_actions outcome candidate) =
      if candidate.2 = position then candidate_actions outcome candidate else [] := by
  have hposition : ∀ action ∈ candidate_actions outcome candidate,
      action.position = candidate.2 := by
    intro action haction
    obtain ⟨attempt, _, hmade⟩ := List.mem_flatMap.mp haction
    rw [attempt_actions] at hmade
    split_ifs at hmade with hok
    · rw [List.mem_singleton.mp hmade, BootstrapAction.position]
    · rcases List.mem_pair.mp hmade with rfl | rfl <;> rfl
  by_cases hsame : candidate.2 = position
  · rw [if_pos hsame, at_position, List.filter_eq_self]
    intro action haction
    simpa [hposition action haction] using hsame
  · rw [if_neg hsame, at_position, List.filter_eq_nil_iff]
    intro action haction
    simpa [hposition action haction] using hsame

/-- The actions at a position are those for one candidate. -/
theorem at_position_flatMap (position : Nat) {candidates : List (Address × Nat)}
    (hdistinct : candidates.Pairwise fun first second => first.2 ≠ second.2) :
    at_position position (candidates.flatMap (candidate_actions outcome)) = [] ∨
      ∃ candidate ∈ candidates,
        at_position position (candidates.flatMap (candidate_actions outcome)) =
          candidate_actions outcome candidate := by
  induction candidates with
  | nil => exact .inl rfl
  | cons candidate candidates ih =>
    obtain ⟨hfirst, hrest⟩ := List.pairwise_cons.mp hdistinct
    have hsplit : at_position position ((candidate :: candidates).flatMap
        (candidate_actions outcome)) =
        at_position position (candidate_actions outcome candidate) ++
          at_position position (candidates.flatMap (candidate_actions outcome)) := by
      rw [List.flatMap_cons, at_position, List.filter_append]
      rfl
    rw [hsplit, at_position_candidate_actions]
    by_cases hsame : candidate.2 = position
    · have hnone : at_position position (candidates.flatMap (candidate_actions outcome)) = [] := by
        rw [at_position, List.filter_flatMap, List.flatMap_eq_nil_iff]
        intro other hother
        have hat : at_position position (candidate_actions outcome other) = _ :=
          at_position_candidate_actions position other
        rwa [if_neg (hsame ▸ (hfirst other hother).symm)] at hat
      refine .inr ⟨candidate, List.mem_cons_self, ?_⟩
      rw [if_pos hsame, hnone, List.append_nil]
    · rw [if_neg hsame, List.nil_append]
      refine (ih hrest).imp_right fun ⟨other, hother, hactions⟩ => ?_
      exact ⟨other, List.mem_cons_of_mem _ hother, hactions⟩

theorem dials_flatMap (candidates : List (Address × Nat)) :
    dials (candidates.flatMap (candidate_actions outcome)) =
      candidates.flatMap fun candidate =>
        (attempts_made (outcome candidate.2) connect_attempts).map fun attempt =>
          (candidate.2, attempt) := by
  rw [dials, List.filterMap_flatMap]
  exact congrArg candidates.flatMap (funext dials_candidate_actions)

theorem any_attempts_made (outcome : Nat → Except String PeerId) (attempted : List Nat) :
    ((attempts_made outcome attempted).any fun attempt => (outcome attempt).isOk) =
      (attempted.findSome? fun attempt => (outcome attempt).toOption).isSome := by
  induction attempted with
  | nil => rfl
  | cons attempt attempted ih =>
    rw [attempts_made_cons, List.any_cons, List.findSome?_cons]
    cases houtcome : outcome attempt with
    | ok peer_id => rfl
    | error msg => simpa [Except.isOk, Except.toBool, Except.toOption] using ih

/-- Of two dials of one candidate the earlier one has failed. -/
theorem pairwise_dials {candidates : List (Address × Nat)}
    (hdistinct : candidates.Pairwise fun first second => first.2 ≠ second.2) :
    (dials (candidates.flatMap (candidate_actions outcome))).Pairwise fun earlier later =>
      earlier.1 = later.1 → (outcome earlier.1 earlier.2).isOk = false := by
  rw [dials_flatMap, List.pairwise_flatMap]
  refine ⟨fun candidate _ => ?_, hdistinct.imp fun hpositions => ?_⟩
  · have hlast : (attempts_made (outcome candidate.2) connect_attempts).Pairwise
        fun attempt _ => (outcome candidate.2 attempt).isOk = false :=
      pairwise_attempts connect_attempts
    refine List.pairwise_map.mpr (hlast.imp ?_)
    intro earlier later hfailed _
    exact hfailed
  · intro earlier hearlier later hlater hsame
    obtain ⟨_, _, rfl⟩ := List.mem_map.mp hearlier
    obtain ⟨_, _, rfl⟩ := List.mem_map.mp hlater
    exact absurd hsame hpositions

/-- No dial is made once there are enough connections. -/
theorem noneAfter_dials {max_connections : Int} (addrs : List Address) :
    NoneAfter max_connections.toNat (fun dial => (outcome dial.1 dial.2).isOk)
      (dials ((candidates_tried max_connections outcome addrs).flatMap
        (candidate_actions outcome))) := by
  intro k hk
  rw [dials_flatMap] at hk ⊢
  rw [← Nat.zero_add (List.countP _ _)]
  refine noneAfter_flatMap (fun candidate => ?_) (fun candidate => ?_) 0 addrs.zipIdx k hk
  · exact List.pairwise_map.mpr (pairwise_attempts connect_attempts)
  · rw [List.any_map, bootstrap_of, Option.isSome_map]
    exact (any_attempts_made (outcome candidate.2) connect_attempts).symm

theorem length_dials_le {candidates : List (Address × Nat)}
    (hdistinct : candidates.Pairwise fun first second => first.2 ≠ second.2) (position : Nat) :
    (dials (at_position position (candidates.flatMap (candidate_actions outcome)))).length ≤
      10 := by
  rcases at_position_flatMap position hdistinct with hnone | ⟨candidate, _, hactions⟩
  · rw [hnone]
    exact Nat.zero_le _
  · rw [hactions, dials_candidate_actions, List.length_map]
    exact (attempts_begins 0 connect_attempts).length_le

theorem sleeps_flatMap {candidates : List (Address × Nat)}
    (hdistinct : candidates.Pairwise fun first second => first.2 ≠ second.2) (position : Nat) :
    sleeps (at_position position (candidates.flatMap (candidate_actions outcome))) =
      (List.range ((dials (at_position position
        (candidates.flatMap (candidate_actions outcome)))).countP
          fun dial => !(outcome dial.1 dial.2).isOk)).map fun k => min (2 ^ k) max_backoff := by
  rcases at_position_flatMap position hdistinct with hnone | ⟨candidate, _, hactions⟩
  · rw [hnone]
    rfl
  · rw [hactions]
    exact sleeps_candidate_actions candidate

/-- A candidate without a success among its attempts. -/
theorem first_success_eq_none {outcome : Nat → Except String PeerId} :
    first_success outcome = none ↔
      ∀ attempt, 1 ≤ attempt → attempt ≤ 10 → (outcome attempt).isOk = false := by
  rw [first_success, List.findSome?_eq_none_iff]
  constructor
  · intro hnone attempt hfirst hlast
    have hthis := hnone attempt (List.mem_range'_1.mpr (by omega))
    cases houtcome : outcome attempt with
    | ok peer_id => simp [houtcome, Except.toOption] at hthis
    | error msg => rfl
  · intro hfailed attempt hattempt
    have hbounds := List.mem_range'_1.mp hattempt
    have hthis := hfailed attempt (by omega) (by omega)
    cases houtcome : outcome attempt with
    | ok peer_id => simp [houtcome, Except.isOk, Except.toBool] at hthis
    | error msg => rfl

/-- The bootstraps found are the first of those that can be connected. -/
theorem bootstraps_found (max_connections : Int) (addrs : List Address) :
    (kad_dht.helpers.connect_addrs outcome .start
        (candidates_tried max_connections outcome addrs)).bootstraps =
      (addrs.zipIdx.filterMap (bootstrap_of outcome)).take max_connections.toNat := by
  rw [kad_dht.helpers.connect_addrs_bootstraps]
  exact filterMap_attempts (bootstrap_of outcome) (fun _ => rfl) 0 addrs.zipIdx

/-- No bootstrap is found when all attempts at all candidates fail. -/
theorem bootstraps_eq_nil {max_connections : Int} (hmax : 1 ≤ max_connections)
    (addrs : List Address) :
    (addrs.zipIdx.filterMap (bootstrap_of outcome)).take max_connections.toNat = [] ↔
      ∀ position < addrs.length, ∀ attempt, 1 ≤ attempt → attempt ≤ 10 →
        (outcome position attempt).isOk = false := by
  have hpositive : max_connections.toNat ≠ 0 := by omega
  simp only [List.take_eq_nil_iff, hpositive, false_or, List.filterMap_eq_nil_iff, bootstrap_of,
    Option.map_eq_none_iff, first_success_eq_none]
  constructor
  · intro hnone position hposition
    exact hnone (addrs[position], position) (by simp [List.mem_zipIdx_iff_getElem?, hposition])
  · rintro hfailed ⟨addr, position⟩ hcandidate
    have hposition := List.mem_zipIdx_iff_getElem?.mp hcandidate
    exact hfailed position (List.getElem?_eq_some_iff.mp hposition).1

variable (outcome)

theorem service_discovery.helpers.connect_to_bootstraps_eq {max_connections : Int}
    (hmax : 1 ≤ max_connections) (service : String) (addrs : List Address) :
    connect_to_bootstraps service max_connections (.ok addrs) outcome =
      let run := kad_dht.helpers.connect_addrs outcome .start
        (candidates_tried max_connections outcome addrs)
      if run.bootstraps.length = 0 then
        (.error ("Could not connect to any bootstrap resolved from '" ++ service ++
          "' (candidates=" ++ toString addrs.length ++ "). Last error: " ++ run.last_err),
          run.actions)
      else (.ok run.bootstraps, run.actions) := by
  have hpositive : ¬ max_connections ≤ 0 := by omega
  simp only [connect_to_bootstraps, if_neg hpositive, connect_addrs_eq hmax]
  rfl

/-- Where it may connect all candidates, the node does what the kad-dht node does. -/
theorem kad_dht_connect_to_bootstraps_eq {max_connections : Int} (hmax : 1 ≤ max_connections)
    (service : String) {addrs : List Address} (hall : addrs.length ≤ max_connections) :
    kad_dht.helpers.connect_to_bootstraps service (.ok addrs) outcome =
      service_discovery.helpers.connect_to_bootstraps service max_connections (.ok addrs)
        outcome := by
  have htried : candidates_tried max_connections outcome addrs = addrs.zipIdx :=
    attempts_eq_of_length_le (by rw [List.length_zipIdx]; omega)
  rw [service_discovery.helpers.connect_to_bootstraps_eq outcome hmax, htried]
  rfl

/-- The regression node finds the same bootstraps as the kad-dht node. -/
theorem regression_connect_to_bootstrap_eq (service : String) {addrs : List Address}
    (hsome : addrs ≠ []) {resolve : Nat → Except String (List Address)}
    (hresolve : regression.kad_utils.resolve_addrs resolve [] (List.range' 1 20) = addrs) :
    ∃ result, regression.kad_utils.connect_to_bootstrap service resolve
        (fun position attempt => .of (outcome position attempt)) =
      .ok (result, (kad_dht.helpers.connect_to_bootstraps service (.ok addrs) outcome).2) ∧
        result.toOption =
          (kad_dht.helpers.connect_to_bootstraps service (.ok addrs) outcome).1.toOption := by
  have hlength : addrs.length ≠ 0 := List.length_eq_zero_iff.not.mpr hsome
  rw [regression.kad_utils.connect_to_bootstrap, hresolve, if_neg hlength,
    regression.kad_utils.connect_addrs_of]
  simp only [kad_dht.helpers.connect_to_bootstraps]
  by_cases hnone : (kad_dht.helpers.connect_addrs outcome .start addrs.zipIdx).bootstraps.length = 0
  · simp only [bind, Except.bind, pure, Except.pure, hnone, if_true]
    exact ⟨_, rfl, rfl⟩
  · simp only [bind, Except.bind, pure, Except.pure, hnone, if_false]
    exact ⟨_, rfl, rfl⟩

/-- The service-discovery node connects, in the order of the addresses, the
first candidates that answer one of ten attempts, and fails when none does. It
dials the candidates in turn until it has enough, each one at attempts 1 to 10
up to the first that succeeds, and sleeps after each attempt that fails: at most
ten dials at each, none after one that succeeds and none once it has enough,
with sleeps that double up to 30 s. Where it may connect all, the other two
nodes find the same bootstraps. -/
theorem bootstraps_within_limits (service : String) (addrs : List Address)
    (max_connections : Int) (hmax : 1 ≤ max_connections)
    (outcome : Nat → Nat → Except String PeerId) :
    let run := service_discovery.helpers.connect_to_bootstraps service max_connections
      (.ok addrs) outcome
    (∀ bootstraps, run.1 = .ok bootstraps → bootstraps =
        (addrs.zipIdx.filterMap (bootstrap_of outcome)).take max_connections.toNat) ∧
      ((∃ error, run.1 = .error error) ↔
        ∀ position < addrs.length, ∀ attempt, 1 ≤ attempt → attempt ≤ 10 →
          (outcome position attempt).isOk = false) ∧
      run.2 = (candidates_tried max_connections outcome addrs).flatMap
        (candidate_actions outcome) ∧
      (∀ position, (dials (at_position position run.2)).length ≤ 10) ∧
      ((dials run.2).Pairwise fun earlier later =>
        earlier.1 = later.1 → (outcome earlier.1 earlier.2).isOk = false) ∧
      NoneAfter max_connections.toNat (fun dial => (outcome dial.1 dial.2).isOk) (dials run.2) ∧
      (∀ position, sleeps (at_position position run.2) =
        (List.range ((dials (at_position position run.2)).countP
          fun dial => !(outcome dial.1 dial.2).isOk)).map fun k => min (2 ^ k) 30) ∧
      (addrs ≠ [] → addrs.length ≤ max_connections →
        kad_dht.helpers.connect_to_bootstraps service (.ok addrs) outcome = run ∧
        ∀ resolve, regression.kad_utils.resolve_addrs resolve [] (List.range' 1 20) = addrs →
          ∃ result, regression.kad_utils.connect_to_bootstrap service resolve
              (fun position attempt => .of (outcome position attempt)) =
            .ok (result, run.2) ∧ result.toOption = run.1.toOption) := by
  intro run
  have hdistinct : (candidates_tried max_connections outcome addrs).Pairwise _ :=
    pairwise_candidates_tried max_connections addrs
  have hrun := service_discovery.helpers.connect_to_bootstraps_eq outcome hmax service addrs
  change run = _ at hrun
  have hfound : (kad_dht.helpers.connect_addrs outcome .start
      (candidates_tried max_connections outcome addrs)).bootstraps = _ :=
    bootstraps_found max_connections addrs
  have hactions : run.2 =
      (candidates_tried max_connections outcome addrs).flatMap (candidate_actions outcome) := by
    rw [hrun]
    simp only [apply_ite Prod.snd, ite_self, kad_dht.helpers.connect_addrs_actions]
    rfl
  simp only [hfound, List.length_eq_zero_iff] at hrun
  rw [← bootstraps_eq_nil hmax addrs]
  refine ⟨fun bootstraps hok => ?_, ?_, hactions, ?_, ?_, ?_, ?_, fun hsome hall => ?_⟩
  · rw [hrun] at hok
    split_ifs at hok with hnone
    exact (Except.ok.inj hok).symm
  · rw [hrun]
    split_ifs with hnone
    · exact iff_of_true ⟨_, rfl⟩ hnone
    · exact iff_of_false (by simp) hnone
  · rw [hactions]
    exact length_dials_le hdistinct
  · rw [hactions]
    exact pairwise_dials hdistinct
  · rw [hactions]
    exact noneAfter_dials addrs
  · rw [hactions]
    exact sleeps_flatMap hdistinct
  · have hkad := kad_dht_connect_to_bootstraps_eq outcome hmax service hall
    refine ⟨hkad, fun resolve hresolve => ?_⟩
    have hregression := regression_connect_to_bootstrap_eq outcome service hsome hresolve
    rwa [hkad] at hregression

/-- A first candidate that never answers, a second one that answers its second
attempt, and a third one that answers at once. -/
def three_outcomes (position attempt : Nat) : Except String Nat :=
  if position = 0 ∨ position = 1 ∧ attempt = 1 then .error "Timeout exceeded!"
  else .ok (position + 6)

theorem bootstraps_within_limits_three :
    let run := service_discovery.helpers.connect_to_bootstraps "bootstrap" 2
      (.ok ["10.0.0.1", "10.0.0.2", "10.0.0.3"]) three_outcomes
    run.1 = .ok [(7, ["10.0.0.2"]), (8, ["10.0.0.3"])] ∧
      run.2 = [.dial 0 1, .sleep 0 1, .dial 0 2, .sleep 0 2, .dial 0 3, .sleep 0 4,
        .dial 0 4, .sleep 0 8, .dial 0 5, .sleep 0 16, .dial 0 6, .sleep 0 30,
        .dial 0 7, .sleep 0 30, .dial 0 8, .sleep 0 30, .dial 0 9, .sleep 0 30,
        .dial 0 10, .sleep 0 30, .dial 1 1, .sleep 1 1, .dial 1 2, .dial 2 1] := by
  obtain ⟨_, _, hactions, _⟩ := bootstraps_within_limits "bootstrap"
    ["10.0.0.1", "10.0.0.2", "10.0.0.3"] 2 (by omega) three_outcomes
  exact ⟨rfl, hactions.trans (by decide)⟩

end nim_test_node
