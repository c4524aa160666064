import DstTestNode.Library.Machine
import DstTestNode.Library.Slices

namespace nim_test_node.regression.ping_utils

def PingBatch : Nat := 16

theorem PingBatch_pos : 0 < PingBatch := Nat.zero_lt_succ _

/-- The keys of the connection manager's table. -/
structure Connections (PeerId : Type) where
  keys : List PeerId
  distinct : keys.Nodup

variable {PeerId : Type} [DecidableEq PeerId]

/-- The peers that `pingAllOnce` collects from `connectedPeerIds`. -/
def collect_peers (own : PeerId) (connections : Connections PeerId) : List PeerId :=
  connections.keys.filter (· ≠ own)

/-- One call of `pingAllOnce`: the connections it found, its local variables,
the calls of `pingPeer` it made, batch by batch, and its pauses. -/
structure Sweep (PeerId : Type) where
  connections : Connections PeerId
  peers : List PeerId
  i : Nat
  pinged : List (List PeerId)
  pauses : Nat

/-- Where `pingLoop` is suspended: in the first random delay, in `pingAllOnce`
until a batch of futures or the gap after it is over, or between two sweeps. -/
inductive Suspension (PeerId : Type) where
  | stagger
  | batch (sweep : Sweep PeerId) (futs : List PeerId)
  | gap (sweep : Sweep PeerId)
  | interval
  | stopped

/-- The flag, the suspended `pingLoop` and the sweeps it has made. -/
structure Keepalive (PeerId : Type) where
  messages_started : Bool
  pinging : Suspension PeerId
  sweeps : List (Sweep PeerId)

/-- The call of `pingAllOnce` that has not returned. -/
def Suspension.sweep : Suspension PeerId → Option (Sweep PeerId)
  | .batch sweep _ => some sweep
  | .gap sweep => some sweep
  | _ => none

namespace Keepalive

/-- The sweeps that have returned and the one that has not. -/
def started (self : Keepalive PeerId) : List (Sweep PeerId) :=
  self.sweeps ++ self.pinging.sweep.toList

/-- `pingAllOnce` returns and `pingLoop` sleeps for an interval. -/
def return_sweep (self : Keepalive PeerId) (sweep : Sweep PeerId) : Keepalive PeerId :=
  { self with pinging := .interval, sweeps := self.sweeps ++ [sweep] }

/-- The head of the loop of `pingAllOnce`, up to the next suspension. -/
def ping_batch (self : Keepalive PeerId) (sweep : Sweep PeerId) : Keepalive PeerId :=
  if sweep.i < sweep.peers.length then
    if self.messages_started then self.return_sweep sweep
    else
      let futs := sweep.peers.extract sweep.i (min (sweep.i + PingBatch) sweep.peers.length)
      { self with pinging := .batch { sweep with pinged := sweep.pinged ++ [futs] } futs }
  else self.return_sweep sweep

/-- What `pingAllOnce` does once all futures of a batch are completed. -/
def finish_batch (self : Keepalive PeerId) (sweep : Sweep PeerId) : Keepalive PeerId :=
  let sweep := { sweep with i := sweep.i + PingBatch }
  if sweep.i < sweep.peers.length then
    { self with pinging := .gap { sweep with pauses := sweep.pauses + 1 } }
  else self.ping_batch sweep

def ping_all_once (own : PeerId) (self : Keepalive PeerId) (connections : Connections PeerId) :
    Keepalive PeerId :=
  let peers := collect_peers own connections
  let sweep : Sweep PeerId := ⟨connections, peers, 0, [], 0⟩
  if peers.length = 0 then self.return_sweep sweep
  else self.ping_batch sweep

/-- The test of the loop in `pingLoop`, up to the next suspension. -/
def ping_loop (own : PeerId) (self : Keepalive PeerId) (connections : Connections PeerId) :
    Keepalive PeerId :=
  if ¬ self.messages_started then self.ping_all_once own connections
  else { self with pinging := .stopped }

end Keepalive

/-- What happens while `pingLoop` is suspended: the message handler calls
`notePublishingStarted`, a `pingPeer` completes, the gap after a batch is over,
or another sleep of `pingLoop` is over. -/
inductive Event (PeerId : Type) where
  | note_publishing_started
  | ping_completed (peer : PeerId)
  | gap_over
  | sleep_over (connections : Connections PeerId)

def Event.resumes : Event PeerId → Bool
  | .note_publishing_started => false
  | _ => true

def enabled (self : Keepalive PeerId) : Event PeerId → Prop
  | .note_publishing_started => True
  | .ping_completed peer =>
    match self.pinging with
    | .batch _ futs => peer ∈ futs
    | _ => False
  | .gap_over =>
    match self.pinging with
    | .gap _ => True
    | _ => False
  | .sleep_over _ =>
    match self.pinging with
    | .stagger | .interval => True
    | _ => False

def next (own : PeerId) (self : Keepalive PeerId) : Event PeerId → Keepalive PeerId
  | .note_publishing_started => { self with messages_started := true }
  | .ping_completed peer =>
    match self.pinging with
    | .batch sweep futs =>
      if futs.erase peer = [] then self.finish_batch sweep
      else { self with pinging := .batch sweep (futs.erase peer) }
    | _ => self
  | .gap_over =>
    match self.pinging with
    | .gap sweep => self.ping_batch sweep
    | _ => self
  | .sleep_over connections => self.ping_loop own connections

/-- What an event that can happen does. -/
inductive Step (own : PeerId) (self : Keepalive PeerId) : Event PeerId → Keepalive PeerId → Prop where
  | noted : Step own self .note_publishing_started { self with messages_started := true }
  | completed {sweep : Sweep PeerId} {futs : List PeerId} {peer : PeerId}
    (hcase : self.pinging = .batch sweep futs) (hpeer : peer ∈ futs)
    (hmore : futs.erase peer ≠ []) :
    Step own self (.ping_completed peer) { self with pinging := .batch sweep (futs.erase peer) }
  | finished {sweep : Sweep PeerId} {futs : List PeerId} {peer : PeerId}
    (hcase : self.pinging = .batch sweep futs) (hpeer : peer ∈ futs)
    (hdone : futs.erase peer = []) :
    Step own self (.ping_completed peer) (self.finish_batch sweep)
  | resumed {sweep : Sweep PeerId} (hcase : self.pinging = .gap sweep) :
    Step own self .gap_over (self.ping_batch sweep)
  | woken (hcase : self.pinging.sweep = none) (connections : Connections PeerId) :
    Step own self (.sleep_over connections) (self.ping_loop own connections)

theorem step_next {own : PeerId} {self : Keepalive PeerId} {event : Event PeerId}
    (henabled : enabled self event) : Step own self event (next own self event) := by
  cases event with
  | note_publishing_started => exact .noted
  | ping_completed peer =>
    cases hcase : self.pinging with
    | batch sweep futs =>
      simp only [enabled, hcase] at henabled
      simp only [next, hcase]
      split_ifs with hdone
      · exact .finished hcase henabled hdone
      · exact .completed hcase henabled hdone
    | _ => simp [enabled, hcase] at henabled
  | gap_over =>
    cases hcase : self.pinging with
    | gap sweep =>
      simp only [next, hcase]
      exact .resumed hcase
    | _ => simp [enabled, hcase] at henabled
  | sleep_over connections =>
    refine .woken ?_ connections
    cases hcase : self.pinging with
    | batch _ _ | gap _ | stopped => simp [enabled, hcase] at henabled
    | stagger | interval => rfl

/-- `pingLoop` of the node `own`, among the other tasks of its event loop. -/
def keepalive (own : PeerId) : Machine (Keepalive PeerId) (Event PeerId) where
  initial := ⟨false, .stagger, []⟩
  enabled := enabled
  next := next own

instance (own : PeerId) (self : Keepalive PeerId) (event : Event PeerId) :
    Decidable ((keepalive own).enabled self event) :=
  match self, event with
  | _, .note_publishing_started => .isTrue trivial
  | ⟨_, .batch _ futs, _⟩, .ping_completed peer => inferInstanceAs (Decidable (peer ∈ futs))
  | ⟨_, .stagger, _⟩, .ping_completed _ | ⟨_, .gap _, _⟩, .ping_completed _
  | ⟨_, .interval, _⟩, .ping_completed _ | ⟨_, .stopped, _⟩, .ping_completed _ => .isFalse id
  | ⟨_, .gap _, _⟩, .gap_over => .isTrue trivial
  | ⟨_, .stagger, _⟩, .gap_over | ⟨_, .batch _ _, _⟩, .gap_over
  | ⟨_, .interval, _⟩, .gap_over | ⟨_, .stopped, _⟩, .gap_over => .isFalse id
  | ⟨_, .stagger, _⟩, .sleep_over _ | ⟨_, .interval, _⟩, .sleep_over _ => .isTrue trivial
  | ⟨_, .batch _ _, _⟩, .sleep_over _ | ⟨_, .gap _, _⟩, .sleep_over _
  | ⟨_, .stopped, _⟩, .sleep_over _ => .isFalse id

end nim_test_node.regression.ping_utils
