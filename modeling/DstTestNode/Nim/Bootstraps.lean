import DstTestNode.Library.Attempts

namespace nim_test_node

/-- A dial of a bootstrap candidate, or a sleep after a failed one, with the
position of the candidate in the list of addresses. -/
inductive BootstrapAction where
  | dial (position attempt : Nat)
  | sleep (position seconds : Nat)
  deriving DecidableEq

/-- The local variables of the loops over the candidates, and what they did. -/
structure Bootstrapping (PeerId Address : Type) where
  bootstraps : List (PeerId × List Address)
  last_err : String
  actions : List BootstrapAction

/-- The attempts of the loops to connect to one candidate. -/
def connect_attempts : List Nat := List.range' 1 10

/-- The largest backoff, in seconds. -/
def max_backoff : Nat := 30

variable {PeerId Address : Type}

namespace Bootstrapping

def start : Bootstrapping PeerId Address := ⟨[], "", []⟩

/-- A dial that gives a peer id. -/
def connected (self : Bootstrapping PeerId Address) (addr : Address) (position attempt : Nat)
    (peer_id : PeerId) : Bootstrapping PeerId Address :=
  { self with
    bootstraps := self.bootstraps ++ [(peer_id, [addr])]
    actions := self.actions ++ [.dial position attempt] }

/-- A dial that raises, and the sleep after it. -/
def failed (self : Bootstrapping PeerId Address) (position attempt backoff : Nat)
    (msg : String) : Bootstrapping PeerId Address :=
  { self with
    last_err := msg
    actions := self.actions ++ [.dial position attempt, .sleep position backoff] }

/-- The loop over the attempts at one candidate, where every error that can be
caught is a failure of the attempt. -/
def connect (addr : Address) (position : Nat) (outcome : Nat → Except String PeerId)
    (backoff : Nat) (self : Bootstrapping PeerId Address) : List Nat → Bootstrapping PeerId Address
  | [] => self
  | attempt :: attempts =>
    match outcome attempt with
    | .ok peer_id => self.connected addr position attempt peer_id
    | .error msg =>
      (self.failed position attempt backoff msg).connect addr position outcome
        (min (backoff * 2) max_backoff) attempts

end Bootstrapping

namespace service_discovery.helpers

/-- The loop over the candidates, until there are enough connections. -/
def connect_addrs (max_connections : Int) (outcome : Nat → Nat → Except String PeerId)
    (self : Bootstrapping PeerId Address) : List (Address × Nat) → Bootstrapping PeerId Address
  | [] => self
  | (addr, position) :: addrs =>
    if self.bootstraps.length ≥ max_connections then self
    else
      connect_addrs max_connections outcome
        (self.connect addr position (outcome position) 1 connect_attempts) addrs

/-- `connectToBootstraps` with what `resolveService` gives, and its dials and sleeps. -/
def connect_to_bootstraps (service : String) (max_connections : Int)
    (addrs_res : Except String (List Address)) (outcome : Nat → Nat → Except String PeerId) :
    Except String (List (PeerId × List Address)) × List BootstrapAction :=
  if max_connections ≤ 0 then (.error "maxConnections must be greater than 0", [])
  else
    match addrs_res with
    | .error error =>
      (.error ("Failed to resolve bootstrap service '" ++ service ++ "': " ++ error), [])
    | .ok addrs =>
      let run := connect_addrs max_connections outcome .start addrs.zipIdx
      if run.bootstraps.length = 0 then
        (.error ("Could not connect to any bootstrap resolved from '" ++ service ++
          "' (candidates=" ++ toString addrs.length ++ "). Last error: " ++ run.last_err),
          run.actions)
      else (.ok run.bootstraps, run.actions)

end service_discovery.helpers

namespace kad_dht.helpers

/-- The loop over all candidates. -/
def connect_addrs (outcome : Nat → Nat → Except String PeerId)
    (self : Bootstrapping PeerId Address) : List (Address × Nat) → Bootstrapping PeerId Address
  | [] => self
  | (addr, position) :: addrs =>
    connect_addrs outcome (self.connect addr position (outcome position) 1 connect_attempts) addrs

def connect_to_bootstraps (service : String) (addrs_res : Except String (List Address))
    (outcome : Nat → Nat → Except String PeerId) :
    Except String (List (PeerId × List Address)) × List BootstrapAction :=
  match addrs_res with
  | .error error =>
    (.error ("Failed to resolve bootstrap service '" ++ service ++ "': " ++ error), [])
  | .ok addrs =>
    let run := connect_addrs outcome .start addrs.zipIdx
    if run.bootstraps.length = 0 then
      (.error ("Could not connect to any bootstrap resolved from '" ++ service ++
        "' (candidates=" ++ toString addrs.length ++ "). Last error: " ++ run.last_err),
        run.actions)
    else (.ok run.bootstraps, run.actions)

end kad_dht.helpers

namespace regression.kad_utils

/-- What a dial of this node comes to: it tells a cancellation from other errors. -/
inductive Dialed (PeerId : Type) where
  | connected (peer_id : PeerId)
  | cancelled (msg : String)
  | failed (msg : String)

/-- A dial that is not cancelled. -/
def Dialed.of : Except String PeerId → Dialed PeerId
  | .ok peer_id => .connected peer_id
  | .error msg => .failed msg

/-- The attempts to resolve the service, whose last answer counts. -/
def resolve_addrs (resolve : Nat → Except String (List Address)) (addrs : List Address) :
    List Nat → List Address
  | [] => addrs
  | attempt :: attempts =>
    match resolve attempt with
    | .error _ => resolve_addrs resolve addrs attempts
    | .ok addrs =>
      if addrs.length > 0 then addrs
      else resolve_addrs resolve addrs attempts

/-- The loop over the attempts at one candidate; a cancellation is raised again. -/
def connect (addr : Address) (position : Nat) (outcome : Nat → Dialed PeerId) (backoff : Nat)
    (self : Bootstrapping PeerId Address) : List Nat → Except String (Bootstrapping PeerId Address)
  | [] => .ok self
  | attempt :: attempts =>
    match outcome attempt with
    | .connected peer_id => .ok (self.connected addr position attempt peer_id)
    | .cancelled msg => .error msg
    | .failed msg =>
      connect addr position outcome (min (backoff * 2) max_backoff)
        (self.failed position attempt backoff msg) attempts

/-- The loop over all candidates. -/
def connect_addrs (outcome : Nat → Nat → Dialed PeerId) (self : Bootstrapping PeerId Address) :
    List (Address × Nat) → Except String (Bootstrapping PeerId Address)
  | [] => .ok self
  | (addr, position) :: addrs => do
    let self ← connect addr position (outcome position) 1 self connect_attempts
    connect_addrs outcome self addrs

/-- `connectToBootstrap` with the answers to its attempts to resolve the
service; the outer error is a cancellation. -/
def connect_to_bootstrap (service : String) (resolve : Nat → Except String (List Address))
    (outcome : Nat → Nat → Dialed PeerId) :
    Except String (Except String (List (PeerId × List Address)) × List BootstrapAction) :=
  let addrs := resolve_addrs resolve [] (List.range' 1 20)
  if addrs.length = 0 then
    .ok (.error ("Could not resolve bootstrap service: " ++ service), [])
  else do
    let run ← connect_addrs outcome .start addrs.zipIdx
    if run.bootstraps.length = 0 then
      return (.error ("Could not connect to any bootstrap (" ++ toString addrs.length ++
        " candidates): " ++ run.last_err), run.actions)
    else return (.ok run.bootstraps, run.actions)

end regression.kad_utils

end nim_test_node
