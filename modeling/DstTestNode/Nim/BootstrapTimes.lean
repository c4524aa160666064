import DstTestNode.Library.Backoff
import DstTestNode.Nim.BootstrapLimits
import DstTestNode.Nim.PeerDetails
import DstTestNode.Nodes.Dialing

open nim
open nodes (IpAddr)
open Backoff (each)

namespace nim_test_node

/-- An address that a name resolves to. -/
structure TransportAddress where
  ip : IpAddr
  port : UInt16

def multi_address (quic : Prop) [Decidable quic] (address : TransportAddress) : String :=
  let host := (if address.ip.is_ipv4 then "/ip4/" else "/ip6/") ++ address.ip.text
  if quic then host ++ "/udp/" ++ toString address.port ++ "/quic-v1"
  else host ++ "/tcp/" ++ toString address.port

/-- A service, with a port if it names none. -/
def target_address (service : String) (port : UInt16) : String :=
  if ':' ∈ service.toList then service else service ++ ":" ++ toString port

/-- The loops over the candidates, with a clock in milliseconds. -/
structure TimedBootstrapping (PeerId Address : Type) where
  node : Bootstrapping PeerId Address
  now : Nat

variable {PeerId Address : Type}

/-- A dial that is given up after ten seconds. -/
def dial_call (dial : Address → Nat → Call String PeerId) (addr : Address) (begun : Nat) :
    Call String PeerId :=
  (dial addr begun).wait 10000 "Timeout exceeded!"

/-- The loop over the attempts at one candidate. -/
def TimedBootstrapping.connect (dial : Address → Nat → Call String PeerId) (addr : Address)
    (position backoff : Nat) (self : TimedBootstrapping PeerId Address) :
    List Nat → TimedBootstrapping PeerId Address
  | [] => self
  | attempt :: attempts =>
    let call := dial_call dial addr self.now
    match call.result with
    | .ok peer_id =>
      ⟨self.node.connected addr position attempt peer_id, self.now + call.time⟩
    | .error msg =>
      connect dial addr position (min (backoff * 2) max_backoff)
        ⟨self.node.failed position attempt backoff msg, self.now + call.time + backoff * 1000⟩
        attempts

namespace service_discovery.helpers

/-- The loop over the candidates, until there are enough connections. -/
def timed_connect_addrs (max_connections : Int) (dial : Address → Nat → Call String PeerId)
    (self : TimedBootstrapping PeerId Address) :
    List (Address × Nat) → TimedBootstrapping PeerId Address
  | [] => self
  | (addr, position) :: addrs =>
    if self.node.bootstraps.length ≥ max_connections then self
    else
      timed_connect_addrs max_connections dial
        (self.connect dial addr position 1 connect_attempts) addrs

/-- `resolveAddress` for at most `fuel` lookups. -/
def resolve_address (lookup : String → Nat → Call String (List TransportAddress))
    (muxer target_address : String) (fuel now : Nat) : Nat × Option (List String) :=
  backoff (fun begun => (lookup target_address begun).map fun resolved =>
    resolved.map (multi_address (muxer = "quic"))) now (List.replicate fuel 15000)

/-- `connectToBootstraps` with a clock: when it returns, and what. Nothing is returned
while the service is waited for. -/
def timed_connect_to_bootstraps (muxer service : String) (default_port : UInt16)
    (max_connections : Int) (lookup : String → Nat → Call String (List TransportAddress))
    (dial : String → Nat → Call String PeerId) (shuffle : List String → List String)
    (fuel now : Nat) : Option (Nat × Except String (List (PeerId × List String))) :=
  if max_connections ≤ 0 then some (now, .error "maxConnections must be greater than 0")
  else
    match resolve_address lookup muxer (target_address service default_port) fuel now with
    | (_, none) => none
    | (resolved, some resolved_addrs) =>
      let addrs := shuffle resolved_addrs
      let run := timed_connect_addrs max_connections dial ⟨.start, resolved⟩ addrs.zipIdx
      if run.node.bootstraps.length = 0 then
        some (run.now, .error ("Could not connect to any bootstrap resolved from '" ++ service ++
          "' (candidates=" ++ toString addrs.length ++ "). Last error: " ++ run.node.last_err))
      else some (run.now, .ok run.node.bootstraps)

end service_discovery.helpers

namespace kad_dht.helpers

/-- The loop over all candidates. -/
def timed_connect_addrs (dial : Address → Nat → Call String PeerId)
    (self : TimedBootstrapping PeerId Address) :
    List (Address × Nat) → TimedBootstrapping PeerId Address
  | [] => self
  | (addr, position) :: addrs =>
    timed_connect_addrs dial (self.connect dial addr position 1 connect_attempts) addrs

/-- `resolveAddress` for at most `fuel` lookups. -/
def resolve_address (lookup : String → Nat → Call String (List TransportAddress))
    (muxer t_address : String) (fuel now : Nat) : Nat × Option (List String) :=
  backoff (fun begun => (lookup t_address begun).map fun resolved =>
    resolved.map (multi_address (to_lower_ascii muxer = "quic"))) now (List.replicate fuel 15000)

/-- `connectToBootstraps` with a clock. -/
def timed_connect_to_bootstraps (muxer service : String) (my_port : UInt16)
    (lookup : String → Nat → Call String (List TransportAddress))
    (dial : String → Nat → Call String PeerId) (shuffle : List String → List String)
    (fuel now : Nat) : Option (Nat × Except String (List (PeerId × List String))) :=
  match resolve_address lookup muxer (target_address service my_port) fuel now with
  | (_, none) => none
  | (resolved, some resolved_addrs) =>
    let addrs := shuffle resolved_addrs
    let run := timed_connect_addrs dial ⟨.start, resolved⟩ addrs.zipIdx
    if run.node.bootstraps.length = 0 then
      some (run.now, .error ("Could not connect to any bootstrap resolved from '" ++ service ++
        "' (candidates=" ++ toString addrs.length ++ "). Last error: " ++ run.node.last_err))
    else some (run.now, .ok run.node.bootstraps)

end kad_dht.helpers

namespace regression.kad_utils

/-- `resolveBootstrapAddrs`, begun at a time. -/
def resolve_bootstrap_addrs (lookup : String → Nat → Call String (List TransportAddress))
    (muxer service : String) (begun : Nat) : Call String (List String) :=
  (lookup (target_address service 5000) begun).map fun resolved =>
    resolved.map (multi_address (to_lower_ascii muxer = "quic"))

/-- The attempts to resolve the service, with five seconds after each that fails or
gives no address. -/
def timed_resolve_addrs (resolve : Nat → Call String (List String)) (now : Nat)
    (addrs : List String) : List Nat → Nat × List String
  | [] => (now, addrs)
  | _ :: attempts =>
    let call := resolve now
    match call.result with
    | .error _ => timed_resolve_addrs resolve (now + call.time + 5000) addrs attempts
    | .ok addrs =>
      if addrs.length > 0 then (now + call.time, addrs)
      else timed_resolve_addrs resolve (now + call.time + 5000) addrs attempts

/-- `connectToBootstrap` with a clock, when no dial is cancelled. Its loop over the
candidates is then the one of the kad-dht node. -/
def timed_connect_to_bootstrap (muxer service : String)
    (lookup : String → Nat → Call String (List TransportAddress))
    (dial : String → Nat → Call String PeerId) (now : Nat) :
    Nat × Except String (List (PeerId × List String)) :=
  let (resolved, addrs) := timed_resolve_addrs (resolve_bootstrap_addrs lookup muxer service) now
    [] (List.range' 1 20)
  if addrs.length = 0 then (resolved, .error ("Could not resolve bootstrap service: " ++ service))
  else
    let run := kad_dht.helpers.timed_connect_addrs dial ⟨.start, resolved⟩ addrs.zipIdx
    if run.node.bootstraps.length = 0 then
      (run.now, .error ("Could not connect to any bootstrap (" ++ toString addrs.length ++
        " candidates): " ++ run.node.last_err))
    else (run.now, .ok run.node.bootstraps)

end regression.kad_utils

variable {dial : Address → Nat → Call String PeerId}

theorem dial_call_time_le (addr : Address) (begun : Nat) :
    (dial_call dial addr begun).time ≤ 10000 :=
  Call.wait_time_le _ _ _

theorem Bootstrapping.connect_congr {addr : Address} {position : Nat}
    {outcome other : Nat → Except String PeerId} {attempts : List Nat}
    (hsame : ∀ attempt ∈ attempts, outcome attempt = other attempt) (backoff : Nat)
    (self : Bootstrapping PeerId Address) :
    self.connect addr position outcome backoff attempts =
      self.connect addr position other backoff attempts := by
  induction attempts generalizing backoff self with
  | nil => rfl
  | cons attempt attempts ih =>
    obtain ⟨hfirst, hrest⟩ := List.forall_mem_cons.mp hsame
    rw [Bootstrapping.connect, Bootstrapping.connect, hfirst]
    cases other attempt with
    | ok peer_id => rfl
    | error msg => exact ih hrest _ _

/-- Without its clock the loop over the attempts is the one that is told the outcomes. -/
theorem TimedBootstrapping.connect_untimed (addr : Address) (position backoff : Nat)
    (self : TimedBootstrapping PeerId Address) {attempts : List Nat} (hnodup : attempts.Nodup) :
    ∃ outcome, (self.connect dial addr position backoff attempts).node =
      self.node.connect addr position outcome backoff attempts := by
  induction attempts generalizing backoff self with
  | nil => exact ⟨fun _ => .error "", rfl⟩
  | cons attempt attempts ih =>
    obtain ⟨hnotMem, hrest⟩ := List.nodup_cons.mp hnodup
    cases hresult : (dial_call dial addr self.now).result with
    | ok peer_id =>
      refine ⟨fun _ => .ok peer_id, ?_⟩
      simp only [connect, Bootstrapping.connect, hresult]
    | error msg =>
      obtain ⟨outcome, houtcome⟩ := ih (min (backoff * 2) max_backoff)
        ⟨self.node.failed position attempt backoff msg,
          self.now + (dial_call dial addr self.now).time + backoff * 1000⟩ hrest
      refine ⟨Function.update outcome attempt (.error msg), ?_⟩
      simp only [connect, Bootstrapping.connect, hresult, Function.update_self, houtcome]
      refine Bootstrapping.connect_congr (fun other hother => ?_) _ _
      have hne : other ≠ attempt := fun heq => hnotMem (heq ▸ hother)
      rw [Function.update_of_ne hne]

theorem nodup_connect_attempts : connect_attempts.Nodup := List.nodup_range'

theorem nodup_zipIdx (addrs : List Address) : (addrs.zipIdx.map Prod.snd).Nodup := by
  rw [List.zipIdx_map_snd]
  exact List.nodup_range'

namespace kad_dht.helpers

theorem connect_addrs_congr {outcome other : Nat → Nat → Except String PeerId}
    {candidates : List (Address × Nat)}
    (hsame : ∀ candidate ∈ candidates, outcome candidate.2 = other candidate.2)
    (self : Bootstrapping PeerId Address) :
    connect_addrs outcome self candidates = connect_addrs other self candidates := by
  induction candidates generalizing self with
  | nil => rfl
  | cons candidate candidates ih =>
    obtain ⟨addr, position⟩ := candidate
    obtain ⟨hfirst, hrest⟩ := List.forall_mem_cons.mp hsame
    dsimp only at hfirst
    rw [connect_addrs, connect_addrs, hfirst, ih hrest]

/-- Without its clock the loop over the candidates is the one that is told the outcomes. -/
theorem timed_connect_addrs_untimed (self : TimedBootstrapping PeerId Address)
    {candidates : List (Address × Nat)} (hnodup : (candidates.map Prod.snd).Nodup) :
    ∃ outcome, (timed_connect_addrs dial self candidates).node =
      connect_addrs outcome self.node candidates := by
  induction candidates generalizing self with
  | nil => exact ⟨fun _ _ => .error "", rfl⟩
  | cons candidate candidates ih =>
    obtain ⟨addr, position⟩ := candidate
    rw [List.map_cons, List.nodup_cons] at hnodup
    obtain ⟨first, hfirst⟩ := self.connect_untimed addr position 1 nodup_connect_attempts
    obtain ⟨outcome, houtcome⟩ := ih (self.connect dial addr position 1 connect_attempts) hnodup.2
    refine ⟨Function.update outcome position first, ?_⟩
    rw [timed_connect_addrs, houtcome, connect_addrs, Function.update_self, hfirst]
    refine connect_addrs_congr (fun candidate hcandidate => ?_) _
    have hmem : candidate.2 ∈ candidates.map Prod.snd := List.mem_map_of_mem hcandidate
    have hne : candidate.2 ≠ position := fun heq => hnodup.1 (heq ▸ hmem)
    rw [Function.update_of_ne hne]

/-- Every outcome with the clock is one without it. -/
theorem timed_connect_to_bootstraps_untimed {muxer service : String} {my_port : UInt16}
    {lookup : String → Nat → Call String (List TransportAddress)}
    {dial : String → Nat → Call String PeerId} {shuffle : List String → List String}
    {fuel now ended : Nat} {result : Except String (List (PeerId × List String))}
    (hresult : timed_connect_to_bootstraps muxer service my_port lookup dial shuffle fuel now =
      some (ended, result)) :
    ∃ addrs outcome, result = (connect_to_bootstraps service (.ok addrs) outcome).1 := by
  rw [timed_connect_to_bootstraps] at hresult
  split at hresult
  · cases hresult
  · next resolved addrs hresolved =>
    have huntimed : ∃ outcome, (timed_connect_addrs dial ⟨.start, resolved⟩
        (shuffle addrs).zipIdx).node = connect_addrs outcome .start (shuffle addrs).zipIdx :=
      timed_connect_addrs_untimed _ (nodup_zipIdx _)
    obtain ⟨outcome, houtcome⟩ := huntimed
    refine ⟨shuffle addrs, outcome, ?_⟩
    simp only [houtcome] at hresult
    rw [connect_to_bootstraps]
    split_ifs at hresult ⊢ with hnone
    · cases hresult
      rfl
    · cases hresult
      rfl

end kad_dht.helpers

namespace service_discovery.helpers

theorem connect_addrs_congr {max_connections : Int}
    {outcome other : Nat → Nat → Except String PeerId} {candidates : List (Address × Nat)}
    (hsame : ∀ candidate ∈ candidates, outcome candidate.2 = other candidate.2)
    (self : Bootstrapping PeerId Address) :
    connect_addrs max_connections outcome self candidates =
      connect_addrs max_connections other self candidates := by
  induction candidates generalizing self with
  | nil => rfl
  | cons candidate candidates ih =>
    obtain ⟨addr, position⟩ := candidate
    obtain ⟨hfirst, hrest⟩ := List.forall_mem_cons.mp hsame
    dsimp only at hfirst
    rw [connect_addrs, connect_addrs, hfirst, ih hrest]

/-- The same of the loop that stops at enough connections. -/
theorem timed_connect_addrs_untimed {max_connections : Int}
    (self : TimedBootstrapping PeerId Address) {candidates : List (Address × Nat)}
    (hnodup : (candidates.map Prod.snd).Nodup) :
    ∃ outcome, (timed_connect_addrs max_connections dial self candidates).node =
      connect_addrs max_connections outcome self.node candidates := by
  induction candidates generalizing self with
  | nil => exact ⟨fun _ _ => .error "", rfl⟩
  | cons candidate candidates ih =>
    obtain ⟨addr, position⟩ := candidate
    rw [List.map_cons, List.nodup_cons] at hnodup
    obtain ⟨first, hfirst⟩ := self.connect_untimed addr position 1 nodup_connect_attempts
    obtain ⟨outcome, houtcome⟩ := ih (self.connect dial addr position 1 connect_attempts) hnodup.2
    refine ⟨Function.update outcome position first, ?_⟩
    rw [timed_connect_addrs, connect_addrs]
    split_ifs with henough
    · rfl
    · rw [houtcome, Function.update_self, hfirst]
      refine connect_addrs_congr (fun candidate hcandidate => ?_) _
      have hmem : candidate.2 ∈ candidates.map Prod.snd := List.mem_map_of_mem hcandidate
      have hne : candidate.2 ≠ position := fun heq => hnodup.1 (heq ▸ hmem)
      rw [Function.update_of_ne hne]

/-- Every outcome with the clock is one without it. -/
theorem timed_connect_to_bootstraps_untimed {muxer service : String} {default_port : UInt16}
    {max_connections : Int} {lookup : String → Nat → Call String (List TransportAddress)}
    {dial : String → Nat → Call String PeerId} {shuffle : List String → List String}
    {fuel now ended : Nat} {result : Except String (List (PeerId × List String))}
    (hresult : timed_connect_to_bootstraps muxer service default_port max_connections lookup dial
      shuffle fuel now = some (ended, result)) :
    ∃ addrs outcome,
      result = (connect_to_bootstraps service max_connections (.ok addrs) outcome).1 := by
  rw [timed_connect_to_bootstraps] at hresult
  split_ifs at hresult with hmax
  · cases hresult
    exact ⟨[], fun _ _ => .error "", by rw [connect_to_bootstraps, if_pos hmax]⟩
  · split at hresult
    · cases hresult
    · next resolved addrs hresolved =>
      have huntimed : ∃ outcome, (timed_connect_addrs max_connections dial ⟨.start, resolved⟩
          (shuffle addrs).zipIdx).node =
            connect_addrs max_connections outcome .start (shuffle addrs).zipIdx :=
        timed_connect_addrs_untimed _ (nodup_zipIdx _)
      obtain ⟨outcome, houtcome⟩ := huntimed
      refine ⟨shuffle addrs, outcome, ?_⟩
      simp only [houtcome] at hresult
      simp only [connect_to_bootstraps, if_neg hmax]
      split_ifs at hresult ⊢ with hnone
      · cases hresult
        rfl
      · cases hresult
        rfl

end service_discovery.helpers

namespace regression.kad_utils

theorem resolve_addrs_congr {resolve other : Nat → Except String (List Address)}
    {attempts : List Nat} (hsame : ∀ attempt ∈ attempts, resolve attempt = other attempt)
    (addrs : List Address) :
    resolve_addrs resolve addrs attempts = resolve_addrs other addrs attempts := by
  induction attempts generalizing addrs with
  | nil => rfl
  | cons attempt attempts ih =>
    obtain ⟨hfirst, hrest⟩ := List.forall_mem_cons.mp hsame
    rw [resolve_addrs, resolve_addrs, hfirst]
    cases other attempt with
    | error msg => exact ih hrest addrs
    | ok addrs =>
      dsimp only
      rw [ih hrest]

theorem timed_resolve_addrs_untimed {resolve : Nat → Call String (List String)} (now : Nat)
    (addrs : List String) {attempts : List Nat} (hnodup : attempts.Nodup) :
    ∃ answers, (timed_resolve_addrs resolve now addrs attempts).2 =
      resolve_addrs answers addrs attempts := by
  induction attempts generalizing now addrs with
  | nil => exact ⟨fun _ => .error "", rfl⟩
  | cons attempt attempts ih =>
    obtain ⟨hnotMem, hrest⟩ := List.nodup_cons.mp hnodup
    have hlater (answers : Nat → Except String (List String))
        (answer : Except String (List String)) (addrs : List String) :
        resolve_addrs (Function.update answers attempt answer) addrs attempts =
          resolve_addrs answers addrs attempts := by
      refine resolve_addrs_congr (fun other hother => ?_) _
      have hne : other ≠ attempt := fun heq => hnotMem (heq ▸ hother)
      rw [Function.update_of_ne hne]
    cases hresult : (resolve now).result with
    | error msg =>
      obtain ⟨answers, hanswers⟩ := ih (now + (resolve now).time + 5000) addrs hrest
      refine ⟨Function.update answers attempt (.error msg), ?_⟩
      simp only [timed_resolve_addrs, resolve_addrs, hresult, Function.update_self, hanswers,
        hlater]
    | ok found =>
      obtain ⟨answers, hanswers⟩ := ih (now + (resolve now).time + 5000) found hrest
      refine ⟨Function.update answers attempt (.ok found), ?_⟩
      simp only [timed_resolve_addrs, resolve_addrs, hresult, Function.update_self, hlater]
      split_ifs
      · rfl
      · exact hanswers

/-- Every outcome with the clock is one without it, where no dial is cancelled. -/
theorem timed_connect_to_bootstrap_untimed {muxer service : String}
    {lookup : String → Nat → Call String (List TransportAddress)}
    {dial : String → Nat → Call String PeerId} {now ended : Nat}
    {result : Except String (List (PeerId × List String))}
    (hresult : timed_connect_to_bootstrap muxer service lookup dial now = (ended, result)) :
    ∃ (answers : Nat → Except String (List String)) (outcome : Nat → Nat → Except String PeerId),
      (connect_to_bootstrap service answers fun position attempt =>
        .of (outcome position attempt)).map Prod.fst = .ok result := by
  have hresolve : ∃ answers, (timed_resolve_addrs (resolve_bootstrap_addrs lookup muxer service) now
      [] (List.range' 1 20)).2 = resolve_addrs answers [] (List.range' 1 20) :=
    timed_resolve_addrs_untimed now [] List.nodup_range'
  obtain ⟨answers, hanswers⟩ := hresolve
  rw [timed_connect_to_bootstrap] at hresult
  cases hresolved : timed_resolve_addrs (resolve_bootstrap_addrs lookup muxer service) now []
    (List.range' 1 20) with
  | mk resolved addrs =>
    simp only [hresolved] at hanswers hresult
    have huntimed : ∃ outcome, (kad_dht.helpers.timed_connect_addrs dial ⟨.start, resolved⟩
        addrs.zipIdx).node = kad_dht.helpers.connect_addrs outcome .start addrs.zipIdx :=
      kad_dht.helpers.timed_connect_addrs_untimed _ (nodup_zipIdx _)
    obtain ⟨outcome, houtcome⟩ := huntimed
    refine ⟨answers, outcome, ?_⟩
    simp only [houtcome] at hresult
    simp only [connect_to_bootstrap, ← hanswers, connect_addrs_of, bind, Except.bind, pure,
      Except.pure]
    split_ifs at hresult ⊢ with hempty hnone
    · cases hresult
      rfl
    · cases hresult
      rfl
    · cases hresult
      rfl

end regression.kad_utils

end nim_test_node
