import DstTestNode.Nim.BootstrapTimes

open Backoff
open nim

namespace nim_test_node

variable {PeerId Address : Type} {dial : Address → Nat → Call String PeerId}

/-- The pause after an attempt at a candidate, counted from zero. -/
def connect_pause (k : Nat) : Nat := min (2 ^ k) max_backoff * 1000

def connect_pauses : List Nat := (List.range' 0 10).map connect_pause

theorem connect_pause_le {pause : Nat} (hpause : pause ∈ connect_pauses) : pause ≤ 30000 := by
  obtain ⟨k, -, rfl⟩ := List.mem_map.mp hpause
  have hle : min (2 ^ k) max_backoff ≤ 30 := Nat.min_le_right _ _
  exact Nat.mul_le_mul_right 1000 hle

theorem sum_dropLast_connect_pauses : connect_pauses.dropLast.sum = 151000 := by
  simp [connect_pauses, connect_pause, max_backoff, List.range'_succ]

/-- What is known of a bootstrap when it is found. -/
def bootstrap_found (found : Address × PeerId) : PeerId × List Address := (found.2, [found.1])

/-- The loop over the attempts calls a candidate until it answers. -/
theorem TimedBootstrapping.connect_eq (addr : Address) (position k left : Nat)
    (self : TimedBootstrapping PeerId Address) :
    let run := self.connect dial addr position (min (2 ^ k) max_backoff) (List.range' (k + 1) left)
    let ended := backoff (dial_call dial addr) self.now ((List.range' k left).map connect_pause)
    run.now = ended.1 ∧ run.node.bootstraps = self.node.bootstraps ++
      (ended.2.map fun peer_id => bootstrap_found (addr, peer_id)).toList := by
  induction left generalizing self k with
  | zero => simp [connect, backoff]
  | succ left ih =>
    simp only [List.range'_succ, List.map_cons, connect, backoff]
    cases hresult : (dial_call dial addr self.now).result with
    | ok peer_id => simp [Bootstrapping.connected, bootstrap_found]
    | error msg =>
      simp only [Bootstrapping.double_backoff]
      exact ih (k + 1) _

theorem TimedBootstrapping.connect_attempts_eq (dial : Address → Nat → Call String PeerId)
    (addr : Address) (position : Nat) (self : TimedBootstrapping PeerId Address) :
    let run := self.connect dial addr position 1 connect_attempts
    let ended := backoff (dial_call dial addr) self.now connect_pauses
    run.now = ended.1 ∧ run.node.bootstraps = self.node.bootstraps ++
      (ended.2.map fun peer_id => bootstrap_found (addr, peer_id)).toList :=
  self.connect_eq addr position 0 10

/-- The loop over all candidates calls each until it answers. -/
theorem kad_dht.helpers.timed_connect_addrs_eq (self : TimedBootstrapping PeerId Address)
    (dial : Address → Nat → Call String PeerId) {candidates : List (Address × Nat)} {enough : Nat}
    (henough : candidates.length ≤ enough) :
    let run := kad_dht.helpers.timed_connect_addrs dial self candidates
    let ended := each (dial_call dial) connect_pauses enough self.now (candidates.map Prod.fst)
    run.now = ended.1 ∧
      run.node.bootstraps = self.node.bootstraps ++ ended.2.map bootstrap_found := by
  induction candidates generalizing self enough with
  | nil => simp [kad_dht.helpers.timed_connect_addrs, each]
  | cons candidate candidates ih =>
    obtain ⟨addr, position⟩ := candidate
    rw [List.length_cons] at henough
    obtain ⟨hnow, hbootstraps⟩ := self.connect_attempts_eq dial addr position
    simp only [kad_dht.helpers.timed_connect_addrs, List.map_cons, each]
    rw [if_neg (by omega)]
    cases hended : backoff (dial_call dial addr) self.now connect_pauses with
    | mk ended found =>
      rw [hended] at hnow hbootstraps
      cases found with
      | none =>
        obtain ⟨hrun, hfound⟩ := ih (self.connect dial addr position 1 connect_attempts)
          (show candidates.length ≤ enough by omega)
        rw [hnow] at hrun hfound
        simpa [hbootstraps, hrun] using hfound
      | some peer_id =>
        obtain ⟨hrun, hfound⟩ := ih (self.connect dial addr position 1 connect_attempts)
          (show candidates.length ≤ enough - 1 by omega)
        rw [hnow] at hrun hfound
        simpa [hbootstraps, hrun] using hfound

/-- The loop that stops calls the candidates until enough have answered. -/
theorem service_discovery.helpers.timed_connect_addrs_eq (max_connections : Int)
    (self : TimedBootstrapping PeerId Address) (dial : Address → Nat → Call String PeerId)
    (candidates : List (Address × Nat)) :
    let run := service_discovery.helpers.timed_connect_addrs max_connections dial self candidates
    let ended := each (dial_call dial) connect_pauses
      (max_connections - self.node.bootstraps.length).toNat self.now (candidates.map Prod.fst)
    run.now = ended.1 ∧
      run.node.bootstraps = self.node.bootstraps ++ ended.2.map bootstrap_found := by
  induction candidates generalizing self with
  | nil => simp [service_discovery.helpers.timed_connect_addrs, each]
  | cons candidate candidates ih =>
    obtain ⟨addr, position⟩ := candidate
    obtain ⟨hnow, hbootstraps⟩ := self.connect_attempts_eq dial addr position
    simp only [service_discovery.helpers.timed_connect_addrs, List.map_cons, each]
    by_cases hreached : (self.node.bootstraps.length : Int) ≥ max_connections
    · rw [if_pos hreached, if_pos (by omega)]
      simp
    · rw [if_neg hreached, if_neg (by omega)]
      obtain ⟨hrun, hfound⟩ := ih (self.connect dial addr position 1 connect_attempts)
      cases hended : backoff (dial_call dial addr) self.now connect_pauses with
      | mk ended found =>
        rw [hended] at hnow hbootstraps
        rw [hnow] at hrun hfound
        cases found with
        | none =>
          simp only [hbootstraps] at hrun hfound
          simpa [hbootstraps, hrun] using hfound
        | some peer_id =>
          have hleft : (max_connections - (self.connect dial addr position 1
              connect_attempts).node.bootstraps.length).toNat =
                (max_connections - self.node.bootstraps.length).toNat - 1 := by
            rw [hbootstraps]
            simp
            omega
          rw [hleft] at hrun hfound
          simpa [hbootstraps, hrun] using hfound

/-- A service whose name is known from some time on, to which every lookup takes at most
some time, and whose candidates can all be dialed from some time on. -/
structure ComesUp (lookup : Nat → Call String (List TransportAddress))
    (address : TransportAddress → String) (dial : String → Nat → Call String PeerId)
    (resolved : List TransportAddress) (limit named up : Nat) : Prop where
  quick : ∀ begun, (lookup begun).time ≤ limit
  unknown : ∀ begun, begun < named → ∃ error, (lookup begun).result = .error error
  known : ∀ begun, named ≤ begun → (lookup begun).result = .ok resolved
  accepts : ∀ t_address ∈ resolved, ∀ begun, up ≤ begun →
    ∃ peer_id, (dial_call dial (address t_address) begun).result = .ok peer_id

/-- A node with its bootstraps: when it has them, and for which addresses. -/
structure HasBootstraps (addrs : List String) (latest : Nat)
    (found : Nat × Except String (List (PeerId × List String))) : Prop where
  in_time : found.1 ≤ latest
  all : ∃ bootstraps, found.2 = .ok bootstraps ∧
    bootstraps.map Prod.snd = addrs.map fun addr => [addr]

/-- When the candidates of a service are found that is looked up with a pause. -/
def latest_found (limit named up pause now count : Nat) : Nat :=
  max (max now (named + limit + pause) + limit) (up + 40000) + count * 10000

theorem dropLast_replicate_sum (fuel pause : Nat) :
    (List.replicate fuel pause).dropLast.sum = (fuel - 1) * pause := by
  rw [List.dropLast_replicate, List.sum_replicate, smul_eq_mul]

section

variable {lookup : Nat → Call String (List TransportAddress)}
  {address : TransportAddress → String} {dial : String → Nat → Call String PeerId}
  {resolved : List TransportAddress} {limit named up now : Nat}
  (hcomes : ComesUp lookup address dial resolved limit named up)

include hcomes

/-- The lookups end soon after the name is known. -/
theorem ComesUp.resolves {fuel pause : Nat} (hfuel : 0 < fuel)
    (hnamed : named ≤ now + (fuel - 1) * pause) :
    ∃ ended, backoff (fun begun => (lookup begun).map fun found => found.map address) now
        (List.replicate fuel pause) = (ended, some (resolved.map address)) ∧
      max now named ≤ ended ∧ ended ≤ max now (named + limit + pause) + limit := by
  have hquick : ∀ begun, ((lookup begun).map fun found => found.map address).time ≤ limit :=
    hcomes.quick
  refine backoff_of_up hquick (fun begun hbegun => ?_)
    (fun begun hbegun => ?_) ?_ ?_ fun other hother => ?_
  · obtain ⟨error, herror⟩ := hcomes.unknown begun hbegun
    exact ⟨error, by rw [Call.map, herror]; rfl⟩
  · rw [Call.map, hcomes.known begun hbegun]
    rfl
  · rw [ne_eq, List.replicate_eq_nil_iff]
    omega
  · rwa [dropLast_replicate_sum]
  · exact (List.eq_of_mem_replicate hother).le

/-- The candidates are found in their order once they can be dialed. -/
theorem ComesUp.connects {ended : Nat} (hended : up ≤ ended + 151000) {addrs : List String}
    (haddrs : ∀ addr ∈ addrs, addr ∈ resolved.map address) (enough : Nat) :
    let found := each (dial_call dial) connect_pauses enough ended addrs
    found.2.map Prod.fst = addrs.take enough ∧
      found.1 ≤ max ended (up + 40000) + (addrs.take enough).length * 10000 := by
  have hdialed : ∀ addr ∈ addrs, ∀ begun, up ≤ begun →
      ∃ peer_id, (dial_call dial addr begun).result = .ok peer_id := by
    intro addr haddr begun hbegun
    obtain ⟨t_address, hmem, rfl⟩ := List.mem_map.mp (haddrs addr haddr)
    exact hcomes.accepts t_address hmem begun hbegun
  have hpauses : connect_pauses ≠ [] := List.cons_ne_nil _ _
  have hreach : up ≤ ended + connect_pauses.dropLast.sum := by
    rwa [sum_dropLast_connect_pauses]
  have hfound := each_of_up hdialed dial_call_time_le hpauses (fun pause => connect_pause_le)
    hreach enough
  rwa [Nat.add_assoc up] at hfound

end

/-- A run over candidates that all answer ends with them. -/
theorem hasBootstraps_run {run : TimedBootstrapping PeerId String}
    {found : Nat × List (String × PeerId)} {addrs : List String} {latest : Nat}
    (hrun : run.now = found.1 ∧ run.node.bootstraps = [] ++ found.2.map bootstrap_found)
    (hfound : found.2.map Prod.fst = addrs ∧ found.1 ≤ latest) (haddrs : addrs ≠ []) :
    run.node.bootstraps.length ≠ 0 ∧
      HasBootstraps addrs latest (run.now, .ok run.node.bootstraps) := by
  obtain ⟨hnow, hbootstraps⟩ := hrun
  obtain ⟨hall, hlatest⟩ := hfound
  have hlength : run.node.bootstraps.length = addrs.length := by
    rw [hbootstraps, ← hall, List.nil_append, List.length_map, List.length_map]
  refine ⟨fun hnone => haddrs (List.length_eq_zero_iff.mp (hlength ▸ hnone)), ?_, _, rfl, ?_⟩
  · rwa [hnow]
  · rw [hbootstraps, ← hall, List.nil_append, List.map_map, List.map_map]
    rfl

section

variable {lookup : String → Nat → Call String (List TransportAddress)}
  {dial : String → Nat → Call String PeerId} {resolved : List TransportAddress}
  {limit named up now fuel : Nat} {muxer service : String} {shuffle : List String → List String}

/-- A run over the candidates finds as many as are enough. -/
theorem ComesUp.finds {address : TransportAddress → String}
    {lookup : Nat → Call String (List TransportAddress)}
    (hcomes : ComesUp lookup address dial resolved limit named up) {ended pause enough : Nat}
    (hafter : max now named ≤ ended) (hbefore : ended ≤ max now (named + limit + pause) + limit)
    (hup : up ≤ max now named + 151000) {addrs : List String}
    (haddrs : ∀ addr ∈ addrs, addr ∈ resolved.map address) (hne : addrs.take enough ≠ [])
    {run : TimedBootstrapping PeerId String}
    (hrun : run.now = (each (dial_call dial) connect_pauses enough ended addrs).1 ∧
      run.node.bootstraps =
        [] ++ (each (dial_call dial) connect_pauses enough ended addrs).2.map bootstrap_found) :
    run.node.bootstraps.length ≠ 0 ∧
      HasBootstraps (addrs.take enough)
        (latest_found limit named up pause now (addrs.take enough).length)
        (run.now, .ok run.node.bootstraps) := by
  have hfound := hcomes.connects (hup.trans (Nat.add_le_add_right hafter _)) haddrs enough
  have hlatest := Nat.add_le_add_right (max_le_max_right (up + 40000) hbefore)
    ((addrs.take enough).length * 10000)
  exact hasBootstraps_run hrun ⟨hfound.1, hfound.2.trans hlatest⟩ hne

/-- The loop over all candidates finds them all. -/
theorem ComesUp.finds_all {address : TransportAddress → String}
    {lookup : Nat → Call String (List TransportAddress)}
    (hcomes : ComesUp lookup address dial resolved limit named up) {ended pause : Nat}
    (hafter : max now named ≤ ended) (hbefore : ended ≤ max now (named + limit + pause) + limit)
    (hup : up ≤ max now named + 151000) {addrs : List String}
    (haddrs : ∀ addr ∈ addrs, addr ∈ resolved.map address)
    (hlength : addrs.length = resolved.length) (hne : addrs ≠ []) :
    let run := kad_dht.helpers.timed_connect_addrs dial ⟨.start, ended⟩ addrs.zipIdx
    run.node.bootstraps.length ≠ 0 ∧
      HasBootstraps addrs (latest_found limit named up pause now resolved.length)
        (run.now, .ok run.node.bootstraps) := by
  have hrun := kad_dht.helpers.timed_connect_addrs_eq
    (⟨.start, ended⟩ : TimedBootstrapping PeerId String) dial
    (show addrs.zipIdx.length ≤ addrs.length from List.length_zipIdx.le)
  rw [List.zipIdx_map_fst] at hrun
  have hfinds := hcomes.finds hafter hbefore hup haddrs (by rwa [List.take_length]) hrun
  rwa [List.take_length, hlength] at hfinds

theorem kad_dht.helpers.hasBootstraps {my_port : UInt16}
    (hcomes : ComesUp (lookup (target_address service my_port))
      (multi_address (to_lower_ascii muxer = "quic")) dial resolved limit named up)
    (hresolved : resolved ≠ []) (hshuffle : ∀ addrs, (shuffle addrs).Perm addrs) (hfuel : 0 < fuel)
    (hnamed : named ≤ now + (fuel - 1) * 15000) (hup : up ≤ max now named + 151000) :
    ∃ found, kad_dht.helpers.timed_connect_to_bootstraps muxer service my_port lookup dial shuffle
        fuel now = some found ∧
      HasBootstraps (shuffle (resolved.map (multi_address (to_lower_ascii muxer = "quic"))))
        (latest_found limit named up 15000 now resolved.length) found := by
  obtain ⟨ended, hended, hafter, hbefore⟩ := hcomes.resolves hfuel hnamed
  have haddress : kad_dht.helpers.resolve_address lookup muxer (target_address service my_port) fuel
      now = _ := hended
  have hperm := hshuffle (resolved.map (multi_address (to_lower_ascii muxer = "quic")))
  simp only [kad_dht.helpers.timed_connect_to_bootstraps, haddress]
  generalize shuffle (resolved.map (multi_address (to_lower_ascii muxer = "quic"))) = addrs
    at hperm ⊢
  have hlength : addrs.length = resolved.length := by simpa using hperm.length_eq
  have hne : addrs ≠ [] := fun hnil => hresolved (by simpa [hnil] using hlength.symm)
  obtain ⟨hsome, hhas⟩ := hcomes.finds_all hafter hbefore hup (fun _ => hperm.mem_iff.mp)
    hlength hne
  rw [if_neg hsome]
  exact ⟨_, rfl, hhas⟩

theorem service_discovery.helpers.hasBootstraps {default_port : UInt16} {max_connections : Nat}
    (hcomes : ComesUp (lookup (target_address service default_port))
      (multi_address (muxer = "quic")) dial resolved limit named up)
    (hresolved : resolved ≠ []) (hshuffle : ∀ addrs, (shuffle addrs).Perm addrs) (hfuel : 0 < fuel)
    (hnamed : named ≤ now + (fuel - 1) * 15000) (hup : up ≤ max now named + 151000)
    (hmax : 0 < max_connections) :
    ∃ found, service_discovery.helpers.timed_connect_to_bootstraps muxer service default_port
        max_connections lookup dial shuffle fuel now = some found ∧
      HasBootstraps ((shuffle (resolved.map (multi_address (muxer = "quic")))).take max_connections)
        (latest_found limit named up 15000 now (min max_connections resolved.length)) found := by
  obtain ⟨ended, hended, hafter, hbefore⟩ := hcomes.resolves hfuel hnamed
  have haddress : service_discovery.helpers.resolve_address lookup muxer
      (target_address service default_port) fuel now = _ := hended
  have hperm := hshuffle (resolved.map (multi_address (muxer = "quic")))
  simp only [service_discovery.helpers.timed_connect_to_bootstraps, haddress]
  rw [if_neg (by omega)]
  generalize shuffle (resolved.map (multi_address (muxer = "quic"))) = addrs at hperm ⊢
  have hlength : addrs.length = resolved.length := by simpa using hperm.length_eq
  have hne : addrs.take max_connections ≠ [] := by
    rw [ne_eq, List.take_eq_nil_iff, not_or]
    exact ⟨hmax.ne', fun hnil => hresolved (by simpa [hnil] using hlength.symm)⟩
  have hrun := service_discovery.helpers.timed_connect_addrs_eq max_connections
    (⟨.start, ended⟩ : TimedBootstrapping PeerId String) dial addrs.zipIdx
  rw [List.zipIdx_map_fst] at hrun
  obtain ⟨hsome, hhas⟩ := hcomes.finds hafter hbefore hup (fun _ => hperm.mem_iff.mp) hne hrun
  rw [List.length_take, hlength] at hhas
  rw [if_neg hsome]
  exact ⟨_, rfl, hhas⟩

/-- Lookups that are never empty end with the first that succeeds. -/
theorem regression.kad_utils.timed_resolve_addrs_eq {resolve : Nat → Call String (List String)}
    (hsome : ∀ begun addrs, (resolve begun).result = .ok addrs → addrs.length > 0) (now : Nat)
    (attempts : List Nat) :
    let ended := backoff resolve now (List.replicate attempts.length 5000)
    regression.kad_utils.timed_resolve_addrs resolve now [] attempts =
      (ended.1, ended.2.getD []) := by
  induction attempts generalizing now with
  | nil => rfl
  | cons attempt attempts ih =>
    rw [List.length_cons, List.replicate_succ, backoff, regression.kad_utils.timed_resolve_addrs]
    cases hresult : (resolve now).result with
    | error msg => exact ih _
    | ok addrs =>
      dsimp only
      rw [if_pos (hsome now addrs hresult)]
      rfl

theorem regression.kad_utils.hasBootstraps
    (hcomes : ComesUp (lookup (target_address service 5000))
      (multi_address (to_lower_ascii muxer = "quic")) dial resolved limit named up)
    (hresolved : resolved ≠ []) (hnamed : named ≤ now + 95000) (hup : up ≤ max now named + 151000) :
    HasBootstraps (resolved.map (multi_address (to_lower_ascii muxer = "quic")))
      (latest_found limit named up 5000 now resolved.length)
      (regression.kad_utils.timed_connect_to_bootstrap muxer service lookup dial now) := by
  obtain ⟨ended, hended, hafter, hbefore⟩ := hcomes.resolves (Nat.succ_pos 19)
    (show named ≤ now + (20 - 1) * 5000 from hnamed)
  have hsome : ∀ begun addrs, (regression.kad_utils.resolve_bootstrap_addrs lookup muxer service
      begun).result = .ok addrs → addrs.length > 0 := by
    intro begun addrs haddrs
    rw [regression.kad_utils.resolve_bootstrap_addrs, Call.map] at haddrs
    by_cases hlater : named ≤ begun
    · rw [hcomes.known begun hlater] at haddrs
      cases haddrs
      simpa [List.length_pos_iff] using hresolved
    · obtain ⟨error, herror⟩ := hcomes.unknown begun (by omega)
      rw [herror] at haddrs
      cases haddrs
  have haddrs := regression.kad_utils.timed_resolve_addrs_eq hsome now (List.range' 1 20)
  have hanswer : backoff (regression.kad_utils.resolve_bootstrap_addrs lookup muxer service) now
      (List.replicate (List.range' 1 20).length 5000) = _ := hended
  simp only [hanswer, Option.getD_some] at haddrs
  rw [regression.kad_utils.timed_connect_to_bootstrap, haddrs]
  dsimp only
  have hlength : (resolved.map (multi_address (to_lower_ascii muxer = "quic"))).length =
    resolved.length := List.length_map _
  have hne : resolved.map (multi_address (to_lower_ascii muxer = "quic")) ≠ [] := by
    simpa using hresolved
  obtain ⟨hfound, hhas⟩ := hcomes.finds_all hafter hbefore hup (fun _ => id) hlength hne
  rw [if_neg fun hnone => hne (List.length_eq_zero_iff.mp hnone), if_neg hfound]
  exact hhas

/-- A bootstrap service that comes up late is found by every node. If its name is known
before the last lookup, and its candidates can be dialed at most 151 seconds after that,
the kad-dht and the regression node find all of them and the service-discovery node as
many as it may connect, each in the order of its list, at most 40 seconds and the time of
a dial for each candidate after the last of them came up. -/
theorem bootstraps_in_time (hresolved : resolved ≠ [])
    (hshuffle : ∀ addrs, (shuffle addrs).Perm addrs) (hup : up ≤ max now named + 151000) :
    (∀ my_port, ComesUp (lookup (target_address service my_port))
        (multi_address (to_lower_ascii muxer = "quic")) dial resolved limit named up →
      0 < fuel → named ≤ now + (fuel - 1) * 15000 →
        ∃ found, kad_dht.helpers.timed_connect_to_bootstraps muxer service my_port lookup dial
            shuffle fuel now = some found ∧
          HasBootstraps (shuffle (resolved.map (multi_address (to_lower_ascii muxer = "quic"))))
            (latest_found limit named up 15000 now resolved.length) found) ∧
      (∀ default_port, ∀ max_connections : Nat,
        ComesUp (lookup (target_address service default_port)) (multi_address (muxer = "quic")) dial
          resolved limit named up →
        0 < fuel → named ≤ now + (fuel - 1) * 15000 → 0 < max_connections →
          ∃ found, service_discovery.helpers.timed_connect_to_bootstraps muxer service default_port
              max_connections lookup dial shuffle fuel now = some found ∧
            HasBootstraps
              ((shuffle (resolved.map (multi_address (muxer = "quic")))).take max_connections)
              (latest_found limit named up 15000 now (min max_connections resolved.length)) found) ∧
      (ComesUp (lookup (target_address service 5000))
          (multi_address (to_lower_ascii muxer = "quic")) dial resolved limit named up →
        named ≤ now + 95000 →
          HasBootstraps (resolved.map (multi_address (to_lower_ascii muxer = "quic")))
            (latest_found limit named up 5000 now resolved.length)
            (regression.kad_utils.timed_connect_to_bootstrap muxer service lookup dial now)) := by
  refine ⟨fun my_port hcomes hfuel hnamed => ?_,
    fun default_port max_connections hcomes hfuel hnamed hmax => ?_, fun hcomes hnamed => ?_⟩
  · exact kad_dht.helpers.hasBootstraps hcomes hresolved hshuffle hfuel hnamed hup
  · exact service_discovery.helpers.hasBootstraps hcomes hresolved hshuffle hfuel hnamed hup hmax
  · exact regression.kad_utils.hasBootstraps hcomes hresolved hnamed hup

end

/-- A name that is known after 20 seconds. -/
def late_lookup (_ : String) (begun : Nat) : Call String (List TransportAddress) :=
  ⟨100, if begun < 20000 then .error "Could not resolve" else .ok [⟨⟨"10.0.0.1", true⟩, 5000⟩]⟩

/-- A candidate that listens after a minute. -/
def late_dial (_ : String) (begun : Nat) : Call String String :=
  ⟨50, if begun < 60000 then .error "Connection refused" else .ok "peer"⟩

theorem late_comesUp (t_address : String) (address : TransportAddress → String) :
    ComesUp (late_lookup t_address) address late_dial [⟨⟨"10.0.0.1", true⟩, 5000⟩] 100 20000
      60000 where
  quick _ := Nat.le_refl 100
  unknown begun hbegun := ⟨_, if_pos hbegun⟩
  known begun hbegun := if_neg (Nat.not_lt.mpr hbegun)
  accepts _ _ begun hbegun := by
    refine ⟨"peer", ?_⟩
    have hquick : (late_dial (address ‹_›) begun).time ≤ 10000 := show 50 ≤ 10000 by omega
    rw [dial_call, Call.wait, if_pos hquick]
    exact if_neg (Nat.not_lt.mpr hbegun)

/-- All nodes find it within two minutes. -/
theorem bootstraps_in_time_late :
    (∃ found, kad_dht.helpers.timed_connect_to_bootstraps "yamux" "kad-service" 5000 late_lookup
        late_dial id 3 0 = some found ∧
      HasBootstraps [multi_address (to_lower_ascii "yamux" = "quic") ⟨⟨"10.0.0.1", true⟩, 5000⟩]
        110000 found) ∧
    (∃ found, service_discovery.helpers.timed_connect_to_bootstraps "yamux" "kad-service" 5000
        (1 : Nat) late_lookup late_dial id 3 0 = some found ∧
      HasBootstraps [multi_address ("yamux" = "quic") ⟨⟨"10.0.0.1", true⟩, 5000⟩] 110000 found) ∧
    HasBootstraps [multi_address (to_lower_ascii "yamux" = "quic") ⟨⟨"10.0.0.1", true⟩, 5000⟩]
      110000 (regression.kad_utils.timed_connect_to_bootstrap "yamux" "kad-service" late_lookup
        late_dial 0) := by
  obtain ⟨hkad, hservice, hregression⟩ := @bootstraps_in_time String late_lookup late_dial
    [⟨⟨"10.0.0.1", true⟩, 5000⟩] 100 20000 60000 0 3 "yamux" "kad-service" id
    (List.cons_ne_nil _ _) List.Perm.refl (by omega)
  have hlatest (pause : Nat) (hpause : pause ≤ 15000) :
      latest_found 100 20000 60000 pause 0 1 = 110000 := by
    rw [latest_found]
    omega
  have hkad := hkad 5000 (late_comesUp _ _) (by omega) (by omega)
  have hservice := hservice 5000 1 (late_comesUp _ _) (by omega) (by omega) (by omega)
  have hregression := hregression (late_comesUp _ _) (by omega)
  simp only [List.length_cons, List.length_nil, Nat.zero_add, Nat.min_self,
    hlatest 15000 (by omega), hlatest 5000 (by omega)] at hkad hservice hregression
  exact ⟨hkad, hservice, hregression⟩

end nim_test_node
