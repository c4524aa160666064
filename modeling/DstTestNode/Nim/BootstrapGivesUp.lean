import DstTestNode.Nim.BootstrapWindows

open Backoff
open nim

namespace nim_test_node

variable {PeerId : Type}

/-- What holds of the dials of some addresses from a time on, whatever they come to: they
take at most 281 seconds for each address, the bootstraps are answers to dials and no
more than enough, and without any the node has waited 181 seconds for each address. -/
structure DialsBounded (dial : String → Nat → Call String PeerId) (addrs : List String)
    (enough resolved : Nat) (found : Nat × Except String (List (PeerId × List String))) : Prop where
  after : resolved ≤ found.1
  in_time : found.1 ≤ resolved + addrs.length * 281000
  some_found : ∀ bootstraps, found.2 = .ok bootstraps → bootstraps ≠ []
  enough : ∀ bootstraps, found.2 = .ok bootstraps → bootstraps.length ≤ enough
  in_order : ∀ bootstraps, found.2 = .ok bootstraps →
    (bootstraps.map Prod.snd).Sublist (addrs.map fun addr => [addr])
  answered : ∀ bootstraps, found.2 = .ok bootstraps → ∀ bootstrap ∈ bootstraps,
    ∃ addr begun, bootstrap.2 = [addr] ∧ resolved ≤ begun ∧ begun ≤ found.1 ∧
      (dial_call dial addr begun).result = .ok bootstrap.1
  patient : ∀ error, found.2 = .error error → resolved + addrs.length * 181000 ≤ found.1

theorem sum_connect_pauses : connect_pauses.sum = 181000 := by
  simp [connect_pauses, connect_pause, max_backoff, List.range'_succ]

theorem length_connect_pauses : connect_pauses.length = 10 := rfl

section

variable {dial : String → Nat → Call String PeerId} {addrs : List String} {enough resolved : Nat}
  {run : TimedBootstrapping PeerId String}

/-- A run over candidates is bounded, whatever the text of its error. -/
theorem dialsBounded_run (henough : addrs ≠ [] → enough ≠ 0)
    (hrun : run.now = (each (dial_call dial) connect_pauses enough resolved addrs).1 ∧
      run.node.bootstraps =
        [] ++ (each (dial_call dial) connect_pauses enough resolved addrs).2.map bootstrap_found)
    (error : String) : DialsBounded dial addrs enough resolved
      (if run.node.bootstraps.length = 0 then (run.now, .error error)
        else (run.now, .ok run.node.bootstraps)) := by
  obtain ⟨hnow, hbootstraps⟩ := hrun
  rw [List.nil_append] at hbootstraps
  have hafter : resolved ≤ run.now := hnow ▸ le_each enough resolved addrs
  have htime : (each (dial_call dial) connect_pauses enough resolved addrs).1 ≤
      resolved + addrs.length * (connect_pauses.length * 10000 + connect_pauses.sum) :=
    each_le dial_call_time_le enough resolved addrs
  rw [← hnow, sum_connect_pauses, length_connect_pauses] at htime
  by_cases hnone : run.node.bootstraps.length = 0
  · rw [if_pos hnone]
    have hempty : (each (dial_call dial) connect_pauses enough resolved addrs).2 = [] := by
      simpa [hbootstraps] using hnone
    have hpatient := le_of_each_eq_nil henough hempty
    rw [← hnow, sum_connect_pauses] at hpatient
    have hno : ∀ bootstraps : List (PeerId × List String),
        (Except.error error : Except String _) ≠ .ok bootstraps := fun _ hsome => by cases hsome
    exact
      { after := hafter
        in_time := htime
        some_found := fun _ hsome => absurd hsome (hno _)
        enough := fun _ hsome => absurd hsome (hno _)
        in_order := fun _ hsome => absurd hsome (hno _)
        answered := fun _ hsome => absurd hsome (hno _)
        patient := fun _ _ => hpatient }
  · rw [if_neg hnone]
    refine ⟨hafter, htime, fun bootstraps hsome => ?_, fun bootstraps hsome => ?_,
      fun bootstraps hsome => ?_, fun bootstraps hsome bootstrap hmem => ?_,
      fun error hsome => ?_⟩ <;> cases hsome
    · exact fun hnil => hnone (by rw [hnil]; rfl)
    · rw [hbootstraps, List.length_map]
      exact length_each_le enough resolved addrs
    · have hsublist : ((each (dial_call dial) connect_pauses enough resolved addrs).2.map
          Prod.fst).Sublist addrs := each_sublist enough resolved addrs
      have hlists := hsublist.map fun addr => [addr]
      rw [hbootstraps, List.map_map]
      rwa [List.map_map] at hlists
    · rw [hbootstraps] at hmem
      obtain ⟨⟨addr, peer_id⟩, hfound, rfl⟩ := List.mem_map.mp hmem
      obtain ⟨-, begun, hfrom, hto, hresult⟩ := mem_each hfound
      exact ⟨addr, begun, rfl, hfrom, hnow ▸ hto, hresult⟩

end

section

variable {lookup : String → Nat → Call String (List TransportAddress)}
  {dial : String → Nat → Call String PeerId} {muxer service : String}
  {shuffle : List String → List String} {fuel now : Nat}

theorem kad_dht.helpers.dialsBounded {my_port : UInt16} {resolved : Nat} {addrs : List String}
    (hresolved : kad_dht.helpers.resolve_address lookup muxer (target_address service my_port) fuel
      now = (resolved, some addrs)) :
    ∃ found, kad_dht.helpers.timed_connect_to_bootstraps muxer service my_port lookup dial shuffle
        fuel now = some found ∧
      DialsBounded dial (shuffle addrs) (shuffle addrs).length resolved found := by
  have hrun := kad_dht.helpers.timed_connect_addrs_eq
    (⟨.start, resolved⟩ : TimedBootstrapping PeerId String) dial
    (show (shuffle addrs).zipIdx.length ≤ (shuffle addrs).length from List.length_zipIdx.le)
  rw [List.zipIdx_map_fst] at hrun
  simp only [kad_dht.helpers.timed_connect_to_bootstraps, hresolved, ← apply_ite some]
  exact ⟨_, rfl, dialsBounded_run (fun hne => mt List.length_eq_zero_iff.mp hne) hrun _⟩

/-- Nothing is returned while the service is not resolved. -/
theorem kad_dht.helpers.resolved_of_found {my_port : UInt16}
    {found : Nat × Except String (List (PeerId × List String))}
    (hfound : kad_dht.helpers.timed_connect_to_bootstraps muxer service my_port lookup dial shuffle
      fuel now = some found) :
    ∃ resolved addrs, kad_dht.helpers.resolve_address lookup muxer (target_address service my_port)
      fuel now = (resolved, some addrs) := by
  rw [kad_dht.helpers.timed_connect_to_bootstraps] at hfound
  split at hfound
  · cases hfound
  · next resolved addrs hresolved => exact ⟨resolved, addrs, hresolved⟩

theorem service_discovery.helpers.dialsBounded {default_port : UInt16} {max_connections : Nat}
    (hmax : max_connections ≠ 0) {resolved : Nat} {addrs : List String}
    (hresolved : service_discovery.helpers.resolve_address lookup muxer
      (target_address service default_port) fuel now = (resolved, some addrs)) :
    ∃ found, service_discovery.helpers.timed_connect_to_bootstraps muxer service default_port
        max_connections lookup dial shuffle fuel now = some found ∧
      DialsBounded dial (shuffle addrs) max_connections resolved found := by
  have hrun := service_discovery.helpers.timed_connect_addrs_eq max_connections
    (⟨.start, resolved⟩ : TimedBootstrapping PeerId String) dial (shuffle addrs).zipIdx
  rw [List.zipIdx_map_fst] at hrun
  have hpositive : ¬ (max_connections : Int) ≤ 0 := by omega
  simp only [service_discovery.helpers.timed_connect_to_bootstraps, if_neg hpositive, hresolved,
    ← apply_ite some]
  exact ⟨_, rfl, dialsBounded_run (fun _ => hmax) hrun _⟩

theorem service_discovery.helpers.resolved_of_found {default_port : UInt16} {max_connections : Nat}
    (hmax : max_connections ≠ 0) {found : Nat × Except String (List (PeerId × List String))}
    (hfound : service_discovery.helpers.timed_connect_to_bootstraps muxer service default_port
      max_connections lookup dial shuffle fuel now = some found) :
    ∃ resolved addrs, service_discovery.helpers.resolve_address lookup muxer
      (target_address service default_port) fuel now = (resolved, some addrs) := by
  rw [service_discovery.helpers.timed_connect_to_bootstraps, if_neg (by omega)] at hfound
  split at hfound
  · cases hfound
  · next resolved addrs hresolved => exact ⟨resolved, addrs, hresolved⟩

/-- The attempts to resolve the service are five seconds apart. -/
theorem regression.kad_utils.timed_resolve_addrs_times {resolve : Nat → Call String (List String)}
    {limit : Nat} (hlimit : ∀ begun, (resolve begun).time ≤ limit) (now : Nat)
    (attempts : List Nat) :
    let ended := regression.kad_utils.timed_resolve_addrs resolve now [] attempts
    now ≤ ended.1 ∧ ended.1 ≤ now + attempts.length * (5000 + limit) ∧
      (ended.2 = [] → now + attempts.length * 5000 ≤ ended.1) := by
  induction attempts generalizing now with
  | nil => simp [regression.kad_utils.timed_resolve_addrs]
  | cons attempt attempts ih =>
    have htime := hlimit now
    obtain ⟨hafter, hbefore, hempty⟩ := ih (now + (resolve now).time + 5000)
    have hlater : ∀ ended : Nat × List String, ended =
        regression.kad_utils.timed_resolve_addrs resolve (now + (resolve now).time + 5000) []
          attempts →
        now ≤ ended.1 ∧ ended.1 ≤ now + (attempts.length + 1) * (5000 + limit) ∧
          (ended.2 = [] → now + (attempts.length + 1) * 5000 ≤ ended.1) := by
      intro ended hended
      rw [← hended] at hafter hbefore hempty
      rw [Nat.succ_mul, Nat.succ_mul]
      refine ⟨by omega, by omega, fun hnil => ?_⟩
      have hlast := hempty hnil
      clear * - hlast
      omega
    rw [List.length_cons, regression.kad_utils.timed_resolve_addrs]
    cases hresult : (resolve now).result with
    | error msg => exact hlater _ rfl
    | ok addrs =>
      dsimp only
      split_ifs with hsome
      · rw [Nat.succ_mul]
        refine ⟨Nat.le_add_right _ _, ?_, fun hnil => ?_⟩
        · dsimp only
          omega
        · dsimp only at hnil
          simp [hnil] at hsome
      · obtain rfl : addrs = [] := by simpa using hsome
        exact hlater _ rfl

/-- How `connectToBootstrap` ends, when its lookups take at most some time: it has no
address after 20 lookups, or the times of its dials are bounded. -/
structure ResolveBounded (lookup : String → Nat → Call String (List TransportAddress))
    (dial : String → Nat → Call String PeerId) (muxer service : String) (limit now resolved : Nat)
    (addrs : List String) : Prop where
  resolve : regression.kad_utils.timed_resolve_addrs
    (regression.kad_utils.resolve_bootstrap_addrs lookup muxer service) now [] (List.range' 1 20) =
      (resolved, addrs)
  after : now ≤ resolved
  in_time : resolved ≤ now + 20 * (5000 + limit)
  unresolved : addrs = [] → now + 20 * 5000 ≤ resolved ∧
    regression.kad_utils.timed_connect_to_bootstrap muxer service lookup dial now =
      (resolved, .error ("Could not resolve bootstrap service: " ++ service))
  dials : addrs ≠ [] → DialsBounded dial addrs addrs.length resolved
    (regression.kad_utils.timed_connect_to_bootstrap muxer service lookup dial now)

theorem regression.kad_utils.resolveBounded {limit : Nat}
    (hlimit : ∀ t_address begun, (lookup t_address begun).time ≤ limit) :
    ∃ resolved addrs, ResolveBounded lookup dial muxer service limit now resolved addrs := by
  have htimes := regression.kad_utils.timed_resolve_addrs_times
    (show ∀ begun, (regression.kad_utils.resolve_bootstrap_addrs lookup muxer service begun).time ≤
      limit from hlimit _) now (List.range' 1 20)
  cases hresolve : regression.kad_utils.timed_resolve_addrs
    (regression.kad_utils.resolve_bootstrap_addrs lookup muxer service) now []
    (List.range' 1 20) with
  | mk resolved addrs =>
    simp only [hresolve, List.length_range'] at htimes
    obtain ⟨hafter, hbefore, hempty⟩ := htimes
    refine ⟨resolved, addrs, hresolve, hafter, hbefore, fun hnil => ⟨hempty hnil, ?_⟩,
      fun hne => ?_⟩
    · subst hnil
      simp only [regression.kad_utils.timed_connect_to_bootstrap, hresolve, List.length_nil,
        if_true]
    · have hrun := kad_dht.helpers.timed_connect_addrs_eq
        (⟨.start, resolved⟩ : TimedBootstrapping PeerId String) dial
        (show addrs.zipIdx.length ≤ addrs.length from List.length_zipIdx.le)
      rw [List.zipIdx_map_fst] at hrun
      have hlength := mt List.length_eq_zero_iff.mp hne
      simp only [regression.kad_utils.timed_connect_to_bootstrap, hresolve, if_neg hlength]
      exact dialsBounded_run (fun _ => hlength) hrun _

/-- Whatever the network does, a node that has resolved its bootstrap service returns, after
at most 281 seconds for each candidate; the bootstraps it ends with have all answered one of
its dials, in the order of its list, and it ends without any only after 181 seconds for each.
It returns nothing before. The regression node resolves the service or gives up after 20
lookups. -/
theorem bootstraps_bounded {limit : Nat}
    (hlimit : ∀ t_address begun, (lookup t_address begun).time ≤ limit) :
    (∀ my_port resolved addrs, kad_dht.helpers.resolve_address lookup muxer
        (target_address service my_port) fuel now = (resolved, some addrs) →
      ∃ found, kad_dht.helpers.timed_connect_to_bootstraps muxer service my_port lookup dial
          shuffle fuel now = some found ∧
        DialsBounded dial (shuffle addrs) (shuffle addrs).length resolved found) ∧
    (∀ my_port found, kad_dht.helpers.timed_connect_to_bootstraps muxer service my_port lookup dial
        shuffle fuel now = some found →
      ∃ resolved addrs, kad_dht.helpers.resolve_address lookup muxer
        (target_address service my_port) fuel now = (resolved, some addrs)) ∧
    (∀ max_connections : Nat, max_connections ≠ 0 →
      (∀ default_port resolved addrs, service_discovery.helpers.resolve_address lookup muxer
          (target_address service default_port) fuel now = (resolved, some addrs) →
        ∃ found, service_discovery.helpers.timed_connect_to_bootstraps muxer service default_port
            max_connections lookup dial shuffle fuel now = some found ∧
          DialsBounded dial (shuffle addrs) max_connections resolved found) ∧
      ∀ default_port found, service_discovery.helpers.timed_connect_to_bootstraps muxer service
          default_port max_connections lookup dial shuffle fuel now = some found →
        ∃ resolved addrs, service_discovery.helpers.resolve_address lookup muxer
          (target_address service default_port) fuel now = (resolved, some addrs)) ∧
    ∃ resolved addrs, ResolveBounded lookup dial muxer service limit now resolved addrs := by
  refine ⟨fun my_port resolved addrs hresolved => ?_, fun my_port found hfound => ?_,
    fun max_connections hmax => ⟨fun default_port resolved addrs hresolved => ?_,
      fun default_port found hfound => ?_⟩, ?_⟩
  · exact kad_dht.helpers.dialsBounded hresolved
  · exact kad_dht.helpers.resolved_of_found hfound
  · exact service_discovery.helpers.dialsBounded hmax hresolved
  · exact service_discovery.helpers.resolved_of_found hmax hfound
  · exact regression.kad_utils.resolveBounded hlimit

end

/-- The one candidate of the service that is known late. -/
def late_addrs (quic : Prop) [Decidable quic] : List String :=
  [multi_address quic ⟨⟨"10.0.0.1", true⟩, 5000⟩]

/-- Three nodes whose service is known late: two of them have its address from their third
lookup, the regression node from one within 102 seconds. -/
theorem bootstraps_bounded_late :
    (∃ found, kad_dht.helpers.timed_connect_to_bootstraps "yamux" "kad-service" 5000 late_lookup
        late_dial id 3 0 = some found ∧
      DialsBounded late_dial (late_addrs (to_lower_ascii "yamux" = "quic")) 1 30300 found) ∧
    (∃ found, service_discovery.helpers.timed_connect_to_bootstraps "yamux" "kad-service" 5000
        (1 : Nat) late_lookup late_dial id 3 0 = some found ∧
      DialsBounded late_dial (late_addrs ("yamux" = "quic")) 1 30300 found) ∧
    ∃ resolved addrs, resolved ≤ 102000 ∧
      ResolveBounded late_lookup late_dial "yamux" "kad-service" 100 0 resolved addrs := by
  obtain ⟨hkad, _, hservice, resolved, addrs, hresolve⟩ := @bootstraps_bounded String late_lookup
    late_dial "yamux" "kad-service" id 3 0 100 fun _ _ => Nat.le_refl 100
  refine ⟨hkad 5000 30300 (late_addrs _) rfl,
    (hservice 1 (by decide)).1 5000 30300 (late_addrs _) rfl, resolved, addrs, ?_, hresolve⟩
  exact hresolve.in_time

end nim_test_node
