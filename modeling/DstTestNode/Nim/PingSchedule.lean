import DstTestNode.Library.Rounds
import DstTestNode.Nim.PingSweeps

open Slices

namespace nim_test_node.regression.ping_utils

def PingInterval : Nat := 12000

def PingBatchGap : Nat := 200

def PingTimeout : Nat := 4000

def DialTimeout : Nat := 4000

def CloseTimeout : Nat := 2000

/-- The silence after which quic closes a connection. -/
def quic_idle_timeout : Nat := 30000

/-- What a call of `pingPeer` meets: whether the address book has an address,
how long the dial, the ping and the close take, whether the dial gives a
stream, and whether the stream is closed once the ping is over. -/
structure PingCall where
  has_addrs : Bool
  dial : Nat
  stream : Bool
  ping : Nat
  closed : Bool
  close : Nat

/-- How long a future is awaited under a timeout. A future that is given up is
assumed to end there. -/
def wait (time timeout : Nat) : Nat := min time timeout

/-- The duration of a call of `pingPeer`. A dial past its timeout gives no stream. -/
def ping_peer (call : PingCall) : Nat :=
  if ¬ call.has_addrs then 0
  else if ¬ (call.stream ∧ call.dial ≤ DialTimeout) then wait call.dial DialTimeout
  else
    wait call.dial DialTimeout + wait call.ping PingTimeout +
      if call.closed then 0 else wait call.close CloseTimeout

def longest_call : Nat := DialTimeout + PingTimeout + CloseTimeout

/-- The calls of `pingPeer` take any time up to the sum of the timeouts. -/
theorem ping_peer_range (time : Nat) :
    (∃ call, ping_peer call = time) ↔ time ≤ longest_call := by
  constructor
  · rintro ⟨call, rfl⟩
    simp only [ping_peer, wait, longest_call]
    split_ifs <;> omega
  · intro hle
    have hdial : min time DialTimeout ≤ DialTimeout := Nat.min_le_right _ _
    refine ⟨⟨true, min time DialTimeout, true, time - DialTimeout, false,
      time - DialTimeout - PingTimeout⟩, ?_⟩
    simp only [ping_peer, wait, longest_call, hdial, and_self, not_true_eq_false, if_false,
      Bool.false_eq_true] at hle ⊢
    omega

variable {PeerId : Type}

/-- The keepalive of a node with a clock in milliseconds: when the last event
was, since when `pingLoop` is suspended, and when each batch of calls started. -/
structure Clocked (PeerId : Type) where
  node : Keepalive PeerId
  now : Nat
  since : Nat
  starts : List (Nat × List PeerId)

/-- The calls of `pingPeer` that a suspension starts with. -/
def Suspension.calls : Suspension PeerId → List (List PeerId)
  | .batch _ futs => [futs]
  | _ => []

variable [DecidableEq PeerId]

/-- Whether an event lets `pingLoop` run to its next suspension. -/
def Keepalive.runs_on (state : Keepalive PeerId) : Event PeerId → Bool
  | .note_publishing_started => false
  | .ping_completed peer =>
    match state.pinging with
    | .batch _ futs => futs.erase peer = []
    | _ => false
  | .gap_over => true
  | .sleep_over _ => true

namespace Clocked

variable (own : PeerId) (connections : Connections PeerId) (duration : Nat → PeerId → Nat)

/-- No timer of `pingLoop` and no call of `pingPeer` is over before a time. -/
def nothing_before (state : Clocked PeerId) (time : Nat) : Prop :=
  match state.node.pinging with
  | .stagger => time ≤ PingInterval
  | .batch _ futs =>
    ∀ peer ∈ futs, time ≤ state.since + duration state.node.sweeps.length peer
  | .gap _ => time ≤ state.since + PingBatchGap
  | .interval => time ≤ state.since + PingInterval
  | .stopped => True

/-- The times at which an event can happen. -/
def on_time (state : Clocked PeerId) (time : Nat) : Event PeerId → Prop
  | .note_publishing_started => True
  | .ping_completed peer => time = state.since + duration state.node.sweeps.length peer
  | .gap_over => time = state.since + PingBatchGap
  | .sleep_over found => found = connections ∧
    match state.node.pinging with
    | .interval => time = state.since + PingInterval
    | _ => True

/-- An event happens at a time when it can, and when nothing else is due before. -/
structure Due (state : Clocked PeerId) (timed : Event PeerId × Nat) : Prop where
  possible : enabled state.node timed.1
  forward : state.now ≤ timed.2
  first : state.nothing_before duration timed.2
  on_time : state.on_time connections duration timed.2 timed.1

def next (state : Clocked PeerId) (timed : Event PeerId × Nat) : Clocked PeerId :=
  let node := ping_utils.next own state.node timed.1
  if state.node.runs_on timed.1 then
    ⟨node, timed.2, timed.2, state.starts ++ node.pinging.calls.map fun futs => (timed.2, futs)⟩
  else { state with node, now := timed.2 }

/-- `pingLoop` with a clock, when every sweep finds the same connections and
the call of a sweep for a peer takes a given time. -/
def machine : Machine (Clocked PeerId) (Event PeerId × Nat) where
  initial := ⟨(keepalive own).initial, 0, 0, []⟩
  enabled := Due connections duration
  next := next own

/-- Without its clock it is the keepalive of the node. -/
theorem untimed {events : List (Event PeerId × Nat)}
    (hlegal : (machine own connections duration).Legal events) :
    (keepalive own).Legal (events.map Prod.fst) ∧
      ((machine own connections duration).after events).node =
        (keepalive own).after (events.map Prod.fst) := by
  refine Machine.after_map _ (keepalive own) Clocked.node Prod.fst rfl
    (fun state timed hdue => Due.possible hdue) (fun state timed => ?_) hlegal
  change (next own state timed).node = ping_utils.next own state.node timed.1
  rw [Clocked.next]
  split_ifs <;> rfl

end Clocked

variable (own : PeerId) (connections : Connections PeerId) (duration : Nat → PeerId → Nat)

/-- How many batches a sweep over the connections makes. -/
def batches_in_sweep : Nat := (collect_peers own connections).length ⌈/⌉ PingBatch

/-- The peers of batch `k` of the loop, counted over all sweeps. -/
def batch_peers (k : Nat) : List PeerId :=
  ((collect_peers own connections).drop
    (PingBatch * (k % batches_in_sweep own connections))).take PingBatch

/-- A batch lasts as long as its longest call. -/
def batch_time (k : Nat) : Nat :=
  ((batch_peers own connections k).map
    (duration (k / batches_in_sweep own connections))).foldr max 0

/-- The sleep after a batch. -/
def pause_after (k : Nat) : Nat :=
  if (k + 1) % batches_in_sweep own connections = 0 then PingInterval else PingBatchGap

/-- The batches of all sweeps, as rounds over the same peers. -/
def ping_rounds : Rounds PeerId where
  count := batches_in_sweep own connections
  group := batch_peers own connections
  cost k := batch_time own connections duration k + pause_after own connections k
  comes_back k := by simp only [batch_peers, Nat.add_mod_right]
  apart _ _ _ hfirst hsecond :=
    piece_unique PingBatch (connections.distinct.filter _) hfirst hsecond

end nim_test_node.regression.ping_utils
