import DstTestNode.Nim.Ping

open Slices

namespace nim_test_node.regression.ping_utils

variable {PeerId : Type}

/-- The slice bound of `pingAllOnce` only cuts the last batch short. -/
theorem batch_eq (peers : List PeerId) (i : Nat) :
    peers.extract i (min (i + PingBatch) peers.length) = (peers.drop i).take PingBatch := by
  rw [List.extract_eq_take_drop]
  apply List.take_eq_take_iff.mpr
  rw [List.length_drop]
  omega

/-- The most completions of futures that a suspended `pingAllOnce` waits for. -/
def Suspension.left : Suspension PeerId → Nat
  | .batch sweep futs => futs.length + 2 * (sweep.peers.length - (sweep.i + PingBatch))
  | .gap sweep => 2 * (sweep.peers.length - sweep.i)
  | _ => 0

namespace Keepalive

variable {self : Keepalive PeerId}

theorem left_ping_batch (self : Keepalive PeerId) {sweep : Sweep PeerId}
    (hmore : sweep.i < sweep.peers.length) :
    (self.ping_batch sweep).pinging.left + 1 ≤ 2 * (sweep.peers.length - sweep.i) := by
  rw [Keepalive.ping_batch, if_pos hmore]
  by_cases hflag : self.messages_started = true
  · rw [if_pos hflag]
    simp only [return_sweep, Suspension.left]
    omega
  · rw [if_neg hflag]
    simp only [Suspension.left, List.length_take, List.length_drop, PingBatch]
    omega

theorem left_finish_batch (self : Keepalive PeerId) (sweep : Sweep PeerId) :
    (self.finish_batch sweep).pinging.left ≤
      2 * (sweep.peers.length - (sweep.i + PingBatch)) := by
  by_cases hmore : sweep.i + PingBatch < sweep.peers.length
  · rw [Keepalive.finish_batch, if_pos hmore]
    exact Nat.le_refl _
  · rw [Keepalive.finish_batch, if_neg hmore, Keepalive.ping_batch, if_neg hmore]
    exact Nat.zero_le _

theorem started_return_sweep (self : Keepalive PeerId) (sweep : Sweep PeerId) :
    (self.return_sweep sweep).started = self.sweeps ++ [sweep] := by
  simp [started, return_sweep, Suspension.sweep]

/-- With the flag set, the loop of `pingAllOnce` returns at its head. -/
theorem ping_batch_of_started (hflag : self.messages_started = true) (sweep : Sweep PeerId) :
    self.ping_batch sweep = self.return_sweep sweep := by
  rw [Keepalive.ping_batch, if_pos hflag, ite_self]

end Keepalive

variable [DecidableEq PeerId] {own : PeerId}

/-- The batches that `pingAllOnce` is to make of its list. -/
def Sweep.batches (sweep : Sweep PeerId) : Nat :=
  sweep.peers.length ⌈/⌉ PingBatch

/-- The peers pinged so far are the first batches of the list. -/
structure Sweep.Begun (own : PeerId) (sweep : Sweep PeerId) : Prop where
  peers_eq : sweep.peers = collect_peers own sweep.connections
  pinged_eq : ∃ made ≤ sweep.batches, sweep.pinged = slices PingBatch made sweep.peers

/-- All batches are made, with a pause between any two. -/
structure Sweep.Complete (own : PeerId) (sweep : Sweep PeerId) : Prop where
  peers_eq : sweep.peers = collect_peers own sweep.connections
  pinged_eq : sweep.pinged = slices PingBatch sweep.batches sweep.peers
  pauses_eq : sweep.pauses = sweep.batches - 1

/-- Batches `0` to `n - 1` of the list are over, and the list has one more. -/
structure Sweep.At (own : PeerId) (n : Nat) (sweep : Sweep PeerId) : Prop where
  peers_eq : sweep.peers = collect_peers own sweep.connections
  i_eq : sweep.i = PingBatch * n
  more : sweep.i < sweep.peers.length
  pauses_eq : sweep.pauses = n

/-- A suspended call of `pingAllOnce` is in a batch, or between two. -/
def Suspension.Sound (own : PeerId) : Suspension PeerId → Prop
  | .batch sweep futs => futs ≠ [] ∧ futs.length ≤ PingBatch ∧
    sweep.i + futs.length ≤ sweep.peers.length ∧
    ∃ n, sweep.At own n ∧ sweep.pinged = slices PingBatch (n + 1) sweep.peers
  | .gap sweep => ∃ n, sweep.At own n ∧ sweep.pinged = slices PingBatch n sweep.peers
  | _ => True

/-- A sweep that has returned without the flag has made all its batches. -/
structure Keepalive.Sound (own : PeerId) (state : Keepalive PeerId) : Prop where
  begun : ∀ sweep ∈ state.sweeps, sweep.Begun own
  complete : state.messages_started = false → ∀ sweep ∈ state.sweeps, sweep.Complete own
  pinging : state.pinging.Sound own

theorem Sweep.At.lt_batches {sweep : Sweep PeerId} {n : Nat} (hat : sweep.At own n) :
    n < sweep.batches := by
  by_contra hnot
  have hle := (ceilDiv_le_iff_le_mul PingBatch_pos).mp (Nat.le_of_not_lt hnot)
  have hmore := hat.more
  rw [hat.i_eq] at hmore
  omega

theorem Sweep.Complete.begun {sweep : Sweep PeerId} (hcomplete : sweep.Complete own) :
    sweep.Begun own :=
  ⟨hcomplete.peers_eq, _, le_refl _, hcomplete.pinged_eq⟩

theorem Suspension.Sound.begun {pinging : Suspension PeerId} (hsound : pinging.Sound own)
    {sweep : Sweep PeerId} (hsweep : pinging.sweep = some sweep) : sweep.Begun own := by
  cases pinging with
  | batch current futs =>
    obtain rfl := Option.some.inj hsweep
    obtain ⟨_, _, _, n, hat, hpinged⟩ := hsound
    exact ⟨hat.peers_eq, n + 1, hat.lt_batches, hpinged⟩
  | gap current =>
    obtain rfl := Option.some.inj hsweep
    obtain ⟨n, hat, hpinged⟩ := hsound
    exact ⟨hat.peers_eq, n, Nat.le_of_lt hat.lt_batches, hpinged⟩
  | stagger | interval | stopped => cases hsweep

namespace Keepalive

variable {self : Keepalive PeerId}

theorem Sound.return_sweep (hself : self.Sound own) {sweep : Sweep PeerId}
    (hbegun : sweep.Begun own)
    (hcomplete : self.messages_started = false → sweep.Complete own) :
    (self.return_sweep sweep).Sound own where
  begun := by
    intro other hother
    rcases List.mem_append.mp hother with hold | hnew
    · exact hself.begun other hold
    · rwa [List.mem_singleton.mp hnew]
  complete := by
    intro hflag other hother
    rcases List.mem_append.mp hother with hold | hnew
    · exact hself.complete hflag other hold
    · rw [List.mem_singleton.mp hnew]
      exact hcomplete hflag
  pinging := trivial

/-- The next batch is the next slice of the list, unless the flag is set. -/
theorem Sound.ping_batch (hself : self.Sound own) {sweep : Sweep PeerId} {n : Nat}
    (hat : sweep.At own n) (hpinged : sweep.pinged = slices PingBatch n sweep.peers) :
    (self.ping_batch sweep).Sound own := by
  rw [Keepalive.ping_batch, if_pos hat.more]
  have hmore := hat.more
  by_cases hflag : self.messages_started = true
  · rw [if_pos hflag]
    apply hself.return_sweep ⟨hat.peers_eq, n, Nat.le_of_lt hat.lt_batches, hpinged⟩
    intro hnot
    rw [hflag] at hnot
    cases hnot
  · rw [if_neg hflag]
    have hbatch := batch_eq sweep.peers sweep.i
    generalize sweep.peers.extract sweep.i _ = futs at hbatch ⊢
    have hlength : futs.length = min PingBatch (sweep.peers.length - sweep.i) := by
      rw [hbatch, List.length_take, List.length_drop]
    have hpositive := PingBatch_pos
    have hsome : futs ≠ [] := List.ne_nil_of_length_pos (by omega)
    have hin : sweep.i + futs.length ≤ sweep.peers.length := by omega
    refine ⟨hself.begun, hself.complete, hsome, by omega, hin, n,
      ⟨hat.peers_eq, hat.i_eq, hmore, hat.pauses_eq⟩, ?_⟩
    simp only [hbatch, hpinged, slices_succ, ← hat.i_eq]

/-- After a batch comes a pause, or the end of the sweep. -/
theorem Sound.finish_batch (hself : self.Sound own) {sweep : Sweep PeerId} {n : Nat}
    (hat : sweep.At own n) (hpinged : sweep.pinged = slices PingBatch (n + 1) sweep.peers) :
    (self.finish_batch sweep).Sound own := by
  have hstride : sweep.i + PingBatch = PingBatch * (n + 1) := by
    rw [hat.i_eq, Nat.mul_succ]
  by_cases hmore : sweep.i + PingBatch < sweep.peers.length
  · rw [Keepalive.finish_batch, if_pos hmore]
    exact ⟨hself.begun, hself.complete, n + 1,
      ⟨hat.peers_eq, hstride, hmore, congrArg (· + 1) hat.pauses_eq⟩, hpinged⟩
  · rw [Keepalive.finish_batch, if_neg hmore, Keepalive.ping_batch, if_neg hmore]
    have hlast : sweep.batches = n + 1 := by
      have hlt := hat.lt_batches
      have hle : sweep.batches ≤ n + 1 :=
        (ceilDiv_le_iff_le_mul PingBatch_pos).mpr (by omega)
      omega
    have hcomplete : Sweep.Complete own { sweep with i := sweep.i + PingBatch } := by
      refine ⟨hat.peers_eq, ?_, ?_⟩
      · change sweep.pinged = slices PingBatch sweep.batches sweep.peers
        rw [hpinged, hlast]
      · change sweep.pauses = sweep.batches - 1
        rw [hat.pauses_eq, hlast, Nat.add_sub_cancel]
    exact hself.return_sweep hcomplete.begun fun _ => hcomplete

theorem Sound.ping_all_once (hself : self.Sound own) (connections : Connections PeerId) :
    (self.ping_all_once own connections).Sound own := by
  by_cases hnone : (collect_peers own connections).length = 0
  · rw [Keepalive.ping_all_once, if_pos hnone]
    have hbatches : (⟨connections, collect_peers own connections, 0, [], 0⟩ :
        Sweep PeerId).batches = 0 := by
      rw [Sweep.batches, hnone, zero_ceilDiv]
    have hcomplete : Sweep.Complete own
        ⟨connections, collect_peers own connections, 0, [], 0⟩ :=
      ⟨rfl, by rw [hbatches]; rfl, by rw [hbatches]⟩
    exact hself.return_sweep hcomplete.begun fun _ => hcomplete
  · rw [Keepalive.ping_all_once, if_neg hnone]
    exact hself.ping_batch ⟨rfl, rfl, Nat.pos_of_ne_zero hnone, rfl⟩ rfl

theorem Sound.step (hself : self.Sound own) {event : Event PeerId} {result : Keepalive PeerId}
    (hstep : Step own self event result) : result.Sound own := by
  have hpinging := hself.pinging
  cases hstep with
  | noted => exact ⟨hself.begun, fun hflag => (nomatch hflag), hpinging⟩
  | @completed sweep futs peer hcase hpeer hmore =>
    rw [hcase] at hpinging
    obtain ⟨_, hsize, hin, n, hat, hpinged⟩ := hpinging
    have hle := (List.erase_sublist (a := peer) (l := futs)).length_le
    exact ⟨hself.begun, hself.complete, hmore, hle.trans hsize, by omega, n, hat, hpinged⟩
  | finished hcase hpeer hdone =>
    rw [hcase] at hpinging
    obtain ⟨_, _, _, n, hat, hpinged⟩ := hpinging
    exact hself.finish_batch hat hpinged
  | resumed hcase =>
    rw [hcase] at hpinging
    obtain ⟨n, hat, hpinged⟩ := hpinging
    exact hself.ping_batch hat hpinged
  | woken hcase connections =>
    by_cases hflag : self.messages_started = true
    · rw [Keepalive.ping_loop, if_neg (not_not_intro hflag)]
      exact ⟨hself.begun, hself.complete, trivial⟩
    · rw [Keepalive.ping_loop, if_pos hflag]
      exact hself.ping_all_once connections

end Keepalive

theorem sound_after {events : List (Event PeerId)} (hlegal : (keepalive own).Legal events) :
    ((keepalive own).after events).Sound own := by
  refine (keepalive own).invariant (Keepalive.Sound own) ?_ ?_ hlegal
  · exact ⟨by simp [keepalive], by simp [keepalive], trivial⟩
  · intro self event hself henabled
    exact hself.step (step_next henabled)

theorem left_bounds {pinging : Suspension PeerId} (hsound : pinging.Sound own)
    {sweep : Sweep PeerId} (hsweep : pinging.sweep = some sweep) :
    0 < pinging.left ∧ pinging.left ≤ 2 * sweep.peers.length := by
  cases pinging with
  | batch current futs =>
    obtain rfl := Option.some.inj hsweep
    obtain ⟨hsome, hsize, hin, n, hat, hpinged⟩ := hsound
    have hpositive := List.length_pos_iff.mpr hsome
    simp only [Suspension.left]
    omega
  | gap current =>
    obtain rfl := Option.some.inj hsweep
    obtain ⟨n, hat, hpinged⟩ := hsound
    have hmore := hat.more
    simp only [Suspension.left]
    omega
  | stagger | interval | stopped => cases hsweep

namespace Keepalive

variable {self : Keepalive PeerId}

/-- Every completion brings the end of the sweep nearer. -/
theorem left_step (hself : self.Sound own) {event : Event PeerId} {result : Keepalive PeerId}
    (hstep : Step own self event result) (hsweep : self.pinging.sweep ≠ none) :
    result.pinging.left + (if event.resumes then 1 else 0) ≤ self.pinging.left := by
  have hpinging := hself.pinging
  cases hstep with
  | noted => exact Nat.le_refl _
  | @completed sweep futs peer hcase hpeer hmore =>
    have herase := List.length_erase_of_mem hpeer
    have hpositive := List.length_pos_of_mem hpeer
    rw [hcase]
    simp only [Suspension.left, Event.resumes, if_true]
    omega
  | @finished sweep futs peer hcase hpeer hdone =>
    have hpositive := List.length_pos_of_mem hpeer
    have hle := self.left_finish_batch sweep
    rw [hcase]
    change _ + 1 ≤ futs.length + _
    omega
  | resumed hcase =>
    rw [hcase] at hpinging ⊢
    obtain ⟨n, hat, _⟩ := hpinging
    exact self.left_ping_batch hat.more
  | woken hcase connections => exact absurd hcase hsweep

/-- A suspended `pingAllOnce` waits for something that can happen. -/
theorem exists_resume (hself : self.Sound own) (hsweep : self.pinging.sweep ≠ none) :
    ∃ event : Event PeerId, event.resumes = true ∧ enabled self event := by
  have hpinging := hself.pinging
  cases hcase : self.pinging with
  | batch sweep futs =>
    rw [hcase] at hpinging
    obtain ⟨peer, hpeer⟩ := List.exists_mem_of_ne_nil futs hpinging.1
    exact ⟨.ping_completed peer, rfl, by simpa only [enabled, hcase] using hpeer⟩
  | gap sweep => exact ⟨.gap_over, rfl, by simp only [enabled, hcase]⟩
  | stagger | interval | stopped => exact absurd (by rw [hcase]; rfl) hsweep

/-- With the flag set, nothing that happens starts a sweep or a batch. -/
theorem pinged_step (hflag : self.messages_started = true) {event : Event PeerId}
    {result : Keepalive PeerId} (hstep : Step own self event result) :
    result.messages_started = true ∧
      result.started.map (·.pinged) = self.started.map (·.pinged) := by
  cases hstep with
  | noted => exact ⟨rfl, rfl⟩
  | completed hcase hpeer hmore =>
    exact ⟨hflag, by simp [started, hcase, Suspension.sweep]⟩
  | @finished sweep futs peer hcase hpeer hdone =>
    by_cases hmore : sweep.i + PingBatch < sweep.peers.length
    · rw [Keepalive.finish_batch, if_pos hmore]
      exact ⟨hflag, by simp [started, hcase, Suspension.sweep]⟩
    · rw [Keepalive.finish_batch, if_neg hmore, ping_batch_of_started hflag, started_return_sweep]
      exact ⟨hflag, by simp [started, hcase, Suspension.sweep]⟩
  | resumed hcase =>
    rw [ping_batch_of_started hflag, started_return_sweep]
    exact ⟨hflag, by simp [started, hcase, Suspension.sweep]⟩
  | woken hcase connections =>
    rw [Keepalive.ping_loop, if_neg (not_not_intro hflag)]
    exact ⟨hflag, by rw [started, started, hcase]; rfl⟩

omit [DecidableEq PeerId] in
theorem messages_started_ping_batch (sweep : Sweep PeerId) :
    (self.ping_batch sweep).messages_started = self.messages_started := by
  rw [Keepalive.ping_batch]
  split_ifs <;> rfl

/-- Only the message handler sets the flag. -/
theorem messages_started_next (hresumes : event.resumes = true) :
    (next own self event).messages_started = self.messages_started := by
  cases event with
  | note_publishing_started => cases hresumes
  | ping_completed peer =>
    cases hcase : self.pinging with
    | batch sweep futs =>
      simp only [next, hcase, finish_batch]
      split_ifs <;> first | rfl | exact messages_started_ping_batch _
    | _ => simp only [next, hcase]
  | gap_over =>
    cases hcase : self.pinging with
    | gap sweep =>
      simp only [next, hcase]
      exact messages_started_ping_batch sweep
    | _ => simp only [next, hcase]
  | sleep_over connections =>
    simp only [next, ping_loop, ping_all_once]
    split_ifs <;> first | rfl | exact messages_started_ping_batch _

end Keepalive

open Keepalive

/-- A suspended sweep is over after twice as many completions as it has peers. -/
theorem sweep_ends {events more : List (Event PeerId)}
    (hlegal : (keepalive own).Legal (events ++ more)) {sweep : Sweep PeerId}
    (hsweep : ((keepalive own).after events).pinging.sweep = some sweep)
    (hmany : 2 * sweep.peers.length ≤ more.countP Event.resumes) :
    ∃ before, before <+: more ∧ ((keepalive own).after (events ++ before)).pinging.sweep = none := by
  by_contra hnever
  push Not at hnever
  have hcount := (keepalive own).countP_le_measure Event.resumes (·.pinging.left)
    (·.pinging.sweep ≠ none)
    (fun before hbefore event hin henabled _ =>
      left_step (sound_after hbefore) (step_next henabled) hin)
    hlegal hnever
  obtain ⟨last, hlast⟩ := Option.ne_none_iff_exists'.mp (hnever more (List.prefix_refl _))
  have hleft := left_bounds (sound_after hlegal).pinging hlast
  have hfirst := left_bounds (sound_after hlegal.of_append).pinging hsweep
  omega

/-- What a sweep with its batches made has pinged. -/
theorem Sweep.Complete.once {sweep : Sweep PeerId} (hcomplete : sweep.Complete own)
    (peer : PeerId) : sweep.pinged.flatten.count peer =
      if peer ∈ sweep.connections.keys ∧ peer ≠ own then 1 else 0 := by
  have hdistinct : (collect_peers own sweep.connections).Nodup :=
    sweep.connections.distinct.filter _
  have hpinged : sweep.pinged.flatten = collect_peers own sweep.connections := by
    rw [hcomplete.pinged_eq, Sweep.batches, flatten_slices_ceil PingBatch PingBatch_pos,
      hcomplete.peers_eq]
  rw [hpinged, hdistinct.count]
  simp [collect_peers]

theorem Sweep.Begun.whole_batches {sweep : Sweep PeerId} (hbegun : sweep.Begun own) :
    sweep.pinged <+: slices PingBatch ((collect_peers own sweep.connections).length ⌈/⌉ PingBatch)
        (collect_peers own sweep.connections) ∧
      sweep.pinged.flatten <+: collect_peers own sweep.connections := by
  obtain ⟨hpeers, made, hmade, hpinged⟩ := hbegun
  rw [Sweep.batches, hpeers] at hmade
  rw [hpinged, hpeers, flatten_slices]
  exact ⟨slices_begins PingBatch hmade _, List.take_prefix _ _⟩

/-- Once the flag is set, no ping is sent. -/
theorem pinged_after {events more : List (Event PeerId)}
    (hlegal : (keepalive own).Legal (events ++ more))
    (hflag : ((keepalive own).after events).messages_started = true) :
    ((keepalive own).after (events ++ more)).started.map (·.pinged) =
      ((keepalive own).after events).started.map (·.pinged) := by
  have hstep : ∀ before, (keepalive own).Legal before → ∀ event,
      ((keepalive own).after before).messages_started = true ∧
        ((keepalive own).after before).started.map (·.pinged) =
          ((keepalive own).after events).started.map (·.pinged) →
      (keepalive own).enabled ((keepalive own).after before) event →
      ((keepalive own).next ((keepalive own).after before) event).messages_started = true ∧
        ((keepalive own).next ((keepalive own).after before) event).started.map (·.pinged) =
          ((keepalive own).after events).started.map (·.pinged) := by
    intro before _ event hbefore henabled
    obtain ⟨hset, hsame⟩ := pinged_step hbefore.1 (step_next henabled)
    exact ⟨hset, hsame.trans hbefore.2⟩
  exact ((keepalive own).invariant_from (fun self => self.messages_started = true ∧
    self.started.map (·.pinged) = ((keepalive own).after events).started.map (·.pinged))
    hlegal ⟨hflag, rfl⟩ hstep).2

/-- The connections that the sweeps of a run find: those at the ends of the
sleeps of `pingLoop`, until publishing starts. -/
def found : List (Event PeerId) → List (Connections PeerId)
  | [] => []
  | .note_publishing_started :: _ => []
  | .sleep_over connections :: events => connections :: found events
  | .ping_completed _ :: events | .gap_over :: events => found events

/-- A sweep over some connections has started, and pinged its first batch. -/
def SweepStarts (own : PeerId) (connections : Connections PeerId)
    (before after : Keepalive PeerId) : Prop :=
  ∃ sweep : Sweep PeerId, after.started = before.started ++ [sweep] ∧
    sweep.connections = connections ∧ sweep.peers = collect_peers own connections ∧
    sweep.pinged.flatten = (collect_peers own connections).take PingBatch

namespace Keepalive

variable {self : Keepalive PeerId}

omit [DecidableEq PeerId] in
theorem connections_ping_batch (self : Keepalive PeerId) (sweep : Sweep PeerId) :
    (self.ping_batch sweep).started.map (·.connections) =
      self.sweeps.map (·.connections) ++ [sweep.connections] := by
  rw [ping_batch]
  split_ifs <;> simp [started, return_sweep, Suspension.sweep]

omit [DecidableEq PeerId] in
theorem connections_finish_batch (self : Keepalive PeerId) (sweep : Sweep PeerId) :
    (self.finish_batch sweep).started.map (·.connections) =
      self.sweeps.map (·.connections) ++ [sweep.connections] := by
  simp only [finish_batch]
  split_ifs
  · simp [started, Suspension.sweep]
  · rw [connections_ping_batch]

/-- A sweep keeps the connections that it has found, and no sweep starts while
`pingLoop` does not wake. -/
theorem connections_step {event : Event PeerId} {result : Keepalive PeerId}
    (hstep : Step own self event result) (hasleep : ∀ connections, event ≠ .sleep_over connections) :
    result.started.map (·.connections) = self.started.map (·.connections) := by
  cases hstep with
  | noted => rfl
  | completed hcase hpeer hmore => simp [started, hcase, Suspension.sweep]
  | finished hcase hpeer hdone =>
    rw [connections_finish_batch]
    simp [started, hcase, Suspension.sweep]
  | resumed hcase =>
    rw [connections_ping_batch]
    simp [started, hcase, Suspension.sweep]
  | woken hcase connections => exact absurd rfl (hasleep connections)

/-- A `pingLoop` that wakes before publishing starts a sweep over the
connections it finds, and pings the first batch. -/
theorem sweepStarts_ping_loop (own : PeerId) (hflag : self.messages_started = false)
    (hasleep : self.pinging.sweep = none) (connections : Connections PeerId) :
    SweepStarts own connections self (self.ping_loop own connections) := by
  have hsweeps : self.started = self.sweeps := by simp [started, hasleep]
  simp only [SweepStarts, hsweeps, ping_loop, hflag, Bool.false_eq_true, not_false_eq_true, if_true, ping_all_once]
  split_ifs with hnone
  · refine ⟨_, started_return_sweep self _, rfl, rfl, ?_⟩
    simp [List.eq_nil_of_length_eq_zero hnone]
  · have hsome := Nat.pos_of_ne_zero hnone
    simp only [ping_batch, hsome, hflag, Bool.false_eq_true, if_true, if_false]
    refine ⟨_, rfl, rfl, rfl, ?_⟩
    simp

omit [DecidableEq PeerId] in
theorem ping_batch_ne_stopped (self : Keepalive PeerId) (sweep : Sweep PeerId) :
    (self.ping_batch sweep).pinging ≠ .stopped := by
  rw [ping_batch]
  split_ifs <;> simp [return_sweep]

/-- `pingLoop` stops only once publishing has started. -/
theorem stopped_step {event : Event PeerId} {result : Keepalive PeerId}
    (hstep : Step own self event result) (hstopped : result.pinging = .stopped) :
    result.messages_started = true := by
  cases hstep with
  | noted => rfl
  | completed hcase hpeer hmore => cases hstopped
  | @finished sweep futs peer hcase hpeer hdone =>
    simp only [finish_batch] at hstopped
    split_ifs at hstopped
    exact absurd hstopped (ping_batch_ne_stopped self _)
  | resumed hcase => exact absurd hstopped (ping_batch_ne_stopped self _)
  | woken hcase connections =>
    cases hflag : self.messages_started with
    | true => simp [ping_loop, hflag]
    | false =>
      simp only [ping_loop, hflag, Bool.false_eq_true, not_false_eq_true, if_true, ping_all_once]
        at hstopped
      split_ifs at hstopped
      · cases hstopped
      · exact absurd hstopped (ping_batch_ne_stopped self _)

/-- The sweeps that follow a state find what its later events tell. -/
theorem connections_run {events : List (Event PeerId)}
    (hlegal : (keepalive own).MeetsFrom (keepalive own).enabled self events) :
    (events.foldl (next own) self).started.map (·.connections) =
      self.started.map (·.connections) ++ if self.messages_started then [] else found events := by
  induction events generalizing self with
  | nil => simp [found]
  | cons event events ih =>
    obtain ⟨henabled, hrest⟩ := hlegal
    have hstep : Step own self event (next own self event) := step_next henabled
    have hrun : (events.foldl (next own) (next own self event)).started.map (·.connections) =
        (next own self event).started.map (·.connections) ++
          if (next own self event).messages_started then [] else found events := ih hrest
    rw [List.foldl_cons, hrun]
    cases event with
    | note_publishing_started =>
      rw [connections_step hstep (by simp)]
      simp [next, found]
    | ping_completed peer | gap_over =>
      rw [connections_step hstep (by simp), messages_started_next rfl, found]
    | sleep_over connections =>
      have hasleep : self.pinging.sweep = none := by
        cases hstep
        assumption
      rw [messages_started_next rfl]
      cases hflag : self.messages_started with
      | true =>
        have hstopped : next own self (.sleep_over connections) = { self with pinging := .stopped } := by
          simp [next, ping_loop, hflag]
        have hsweeps : self.started = self.sweeps := by simp [started, hasleep]
        rw [hstopped, hsweeps]
        simp [started, Suspension.sweep]
      | false =>
        obtain ⟨sweep, hstarted, hfound, _⟩ := sweepStarts_ping_loop own hflag hasleep connections
        rw [next, hstarted, List.map_append, List.map_singleton, hfound]
        simp [found]

end Keepalive

/-- The sweeps of a run are those that its sleeps start. -/
theorem connections_after {events : List (Event PeerId)} (hlegal : (keepalive own).Legal events) :
    ((keepalive own).after events).started.map (·.connections) = found events := by
  have hrun := connections_run (((keepalive own).meets_iff_from _ events).mp hlegal)
  simpa [Machine.after, keepalive, started, Suspension.sweep] using hrun

/-- Before publishing starts, `pingLoop` always wakes from a sleep, and then
starts a sweep over the connections that it finds. -/
theorem sweep_starts {events : List (Event PeerId)} (hlegal : (keepalive own).Legal events)
    (hflag : ((keepalive own).after events).messages_started = false)
    (hsweep : ((keepalive own).after events).pinging.sweep = none)
    (connections : Connections PeerId) :
    (keepalive own).enabled ((keepalive own).after events) (.sleep_over connections) ∧
      SweepStarts own connections ((keepalive own).after events)
        ((keepalive own).after (events ++ [.sleep_over connections])) := by
  have hstopped := (keepalive own).invariant
    (fun self => self.pinging = .stopped → self.messages_started = true)
    (fun hinitial => by cases hinitial)
    (fun self event _ henabled => stopped_step (step_next henabled)) hlegal
  refine ⟨?_, ?_⟩
  · cases hcase : ((keepalive own).after events).pinging with
    | batch _ _ | gap _ =>
      rw [hcase] at hsweep
      cases hsweep
    | stagger | interval =>
      change enabled ((keepalive own).after events) (.sleep_over connections)
      simp only [enabled, hcase]
    | stopped =>
      rw [hstopped hcase] at hflag
      cases hflag
  · rw [Machine.after_snoc]
    exact sweepStarts_ping_loop own hflag hsweep connections

/-- Whenever publishing starts, the sweeps of `pingLoop` are those that its
sleeps before start, each over the connections that it finds, and until then no
sleep is the last one. Every sweep pings whole batches from the front of its
list. A sweep that returns before publishing starts pings each connected peer
but the node itself once, with a pause between two batches. Afterwards no batch
and no sweep starts. A sweep that has not returned waits for something that can
happen, and returns within twice as many completions as it has peers. -/
theorem keepalive_sweeps (own : PeerId) (events : List (Event PeerId))
    (hlegal : (keepalive own).Legal events) :
    ((keepalive own).after events).started.map (·.connections) = found events ∧
    (((keepalive own).after events).messages_started = false →
      ((keepalive own).after events).pinging.sweep = none →
      ∀ connections, (keepalive own).enabled ((keepalive own).after events)
          (.sleep_over connections) ∧
        SweepStarts own connections ((keepalive own).after events)
          ((keepalive own).after (events ++ [.sleep_over connections]))) ∧
    (∀ sweep ∈ ((keepalive own).after events).started,
      sweep.pinged <+: slices PingBatch
          ((collect_peers own sweep.connections).length ⌈/⌉ PingBatch)
          (collect_peers own sweep.connections) ∧
        sweep.pinged.flatten <+: collect_peers own sweep.connections) ∧
    (((keepalive own).after events).messages_started = false →
      ∀ sweep ∈ ((keepalive own).after events).sweeps,
        sweep.pinged = slices PingBatch
          ((collect_peers own sweep.connections).length ⌈/⌉ PingBatch)
          (collect_peers own sweep.connections) ∧
        (∀ batch ∈ sweep.pinged, batch.length ≤ PingBatch) ∧
        (∀ peer, sweep.pinged.flatten.count peer =
          if peer ∈ sweep.connections.keys ∧ peer ≠ own then 1 else 0) ∧
        sweep.pauses = (collect_peers own sweep.connections).length ⌈/⌉ PingBatch - 1) ∧
    (((keepalive own).after events).messages_started = true →
      ∀ more, (keepalive own).Legal (events ++ more) →
        ((keepalive own).after (events ++ more)).started.map (·.pinged) =
          ((keepalive own).after events).started.map (·.pinged)) ∧
    ∀ sweep, ((keepalive own).after events).pinging.sweep = some sweep →
      (∃ event : Event PeerId, event.resumes = true ∧
        (keepalive own).enabled ((keepalive own).after events) event) ∧
      ∀ more, (keepalive own).Legal (events ++ more) →
        2 * (collect_peers own sweep.connections).length ≤ more.countP Event.resumes →
        ∃ before, before <+: more ∧
          ((keepalive own).after (events ++ before)).pinging.sweep = none := by
  have hsound := sound_after hlegal
  refine ⟨connections_after hlegal, sweep_starts hlegal, fun sweep hsweep => ?_,
    fun hflag sweep hsweep => ?_, fun hflag more hmore => pinged_after hmore hflag,
    fun sweep hsweep => ⟨?_, fun more hmore hmany => ?_⟩⟩
  · rcases List.mem_append.mp hsweep with hreturned | hrunning
    · exact (hsound.begun sweep hreturned).whole_batches
    · exact (hsound.pinging.begun (Option.mem_toList.mp hrunning)).whole_batches
  · have hcomplete := hsound.complete hflag sweep hsweep
    rw [← hcomplete.peers_eq]
    refine ⟨hcomplete.pinged_eq, fun batch hbatch => ?_, hcomplete.once, hcomplete.pauses_eq⟩
    rw [hcomplete.pinged_eq] at hbatch
    exact length_le_of_mem PingBatch hbatch
  · exact exists_resume hsound (by rw [hsweep]; exact Option.some_ne_none _)
  · have hpeers := (hsound.pinging.begun hsweep).peers_eq
    exact sweep_ends hmore hsweep (by rw [hpeers]; exact hmany)

/-- A node with 17 peers, and publishing that starts in its first batch. -/
def interrupted_run : List (Event Nat) :=
  [.sleep_over ⟨List.range 18, List.nodup_range⟩, .ping_completed 3, .note_publishing_started]

theorem keepalive_sweeps_seventeen :
    ((keepalive 0).after
        (interrupted_run ++ [.ping_completed 1, .ping_completed 2])).started.map (·.pinged) =
      [[[1, 2, 3, 4, 5, 6, 7, 8, 9, 10, 11, 12, 13, 14, 15, 16]]] ∧
    ((keepalive 0).after interrupted_run).started.map (·.connections.keys) = [List.range 18] := by
  have hlegal : (keepalive 0).Legal (interrupted_run ++ [.ping_completed 1, .ping_completed 2]) := by
    decide
  obtain ⟨hfound, _, _, _, hstops, _⟩ := keepalive_sweeps 0 interrupted_run hlegal.of_append
  refine ⟨hstops rfl _ hlegal, ?_⟩
  have hkeys := congrArg (List.map Connections.keys) hfound
  rwa [List.map_map] at hkeys

end nim_test_node.regression.ping_utils
