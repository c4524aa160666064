import DstTestNode.Nim.PingSchedule

open Slices

namespace nim_test_node.regression.ping_utils

variable {PeerId : Type} [DecidableEq PeerId] {own : PeerId} {connections : Connections PeerId}
  {duration : Nat → PeerId → Nat}

theorem number_mod {batches sweeps n : Nat} (hn : n < batches) :
    (batches * sweeps + n) % batches = n := by
  rw [Nat.mul_add_mod, Nat.mod_eq_of_lt hn]

theorem number_div {batches sweeps n : Nat} (hn : n < batches) :
    (batches * sweeps + n) / batches = sweeps := by
  rw [Nat.mul_add_div (by omega), Nat.div_eq_of_lt hn, Nat.add_zero]

/-- A batch is over with the last of its calls. -/
theorem batch_time_eq {k : Nat} {last : PeerId} (hlast : last ∈ batch_peers own connections k)
    (hall : ∀ peer ∈ batch_peers own connections k,
      duration (k / batches_in_sweep own connections) peer ≤
        duration (k / batches_in_sweep own connections) last) :
    batch_time own connections duration k =
      duration (k / batches_in_sweep own connections) last := by
  apply Nat.le_antisymm
  · refine List.max_le_of_forall_le _ _ fun time htime => ?_
    obtain ⟨peer, hpeer, rfl⟩ := List.mem_map.mp htime
    exact hall peer hpeer
  · exact List.le_max_of_le (List.mem_map_of_mem hlast) (Nat.le_refl _)

theorem batches_eq {sweep : Sweep PeerId} {n : Nat} (hat : sweep.At own n)
    (hfound : sweep.connections = connections) :
    sweep.batches = batches_in_sweep own connections := by
  rw [Sweep.batches, hat.peers_eq, hfound, batches_in_sweep]

theorem cost_of_lt {sweeps n : Nat} (hn : n + 1 < batches_in_sweep own connections) :
    (ping_rounds own connections duration).cost
        (batches_in_sweep own connections * sweeps + n) =
      batch_time own connections duration (batches_in_sweep own connections * sweeps + n) +
        PingBatchGap := by
  change _ + pause_after own connections _ = _
  rw [pause_after, Nat.add_assoc, number_mod hn, if_neg (Nat.succ_ne_zero n)]

theorem cost_of_last {sweeps n : Nat} (hn : n + 1 = batches_in_sweep own connections) :
    (ping_rounds own connections duration).cost
        (batches_in_sweep own connections * sweeps + n) =
      batch_time own connections duration (batches_in_sweep own connections * sweeps + n) +
        PingInterval := by
  change _ + pause_after own connections _ = _
  rw [pause_after, Nat.add_assoc, hn, Nat.mul_add_mod, Nat.mod_self, if_pos rfl]

namespace Clocked

/-- The number of the batch that a sweep is at, counted over all sweeps. -/
def number (own : PeerId) (connections : Connections PeerId) (state : Clocked PeerId)
    (sweep : Sweep PeerId) : Nat :=
  batches_in_sweep own connections * state.node.sweeps.length + sweep.pauses

/-- The batches so far are those of the rounds from a time on, and the loop is
suspended until the next one is due. -/
def OnSchedule (own : PeerId) (connections : Connections PeerId)
    (duration : Nat → PeerId → Nat) (origin : Nat) (state : Clocked PeerId) : Prop :=
  match state.node.pinging with
  | .stagger => state.node.sweeps = [] ∧ state.starts = []
  | .batch sweep futs =>
    sweep.connections = connections ∧
      state.starts = (ping_rounds own connections duration).log origin
        (state.number own connections sweep + 1) ∧
      state.since = origin +
        (ping_rounds own connections duration).offset (state.number own connections sweep) ∧
      (∀ peer ∈ futs, peer ∈ batch_peers own connections (state.number own connections sweep)) ∧
      ∀ peer ∈ batch_peers own connections (state.number own connections sweep),
        peer ∈ futs ∨ state.since + duration state.node.sweeps.length peer ≤ state.now
  | .gap sweep =>
    sweep.connections = connections ∧
      state.starts = (ping_rounds own connections duration).log origin
        (state.number own connections sweep) ∧
      state.since + PingBatchGap = origin +
        (ping_rounds own connections duration).offset (state.number own connections sweep)
  | .interval =>
    (∃ made, state.starts = (ping_rounds own connections duration).log origin made) ∧
      (state.node.messages_started = false →
        state.starts = (ping_rounds own connections duration).log origin
          (batches_in_sweep own connections * state.node.sweeps.length) ∧
        (0 < batches_in_sweep own connections →
          state.since + PingInterval = origin + (ping_rounds own connections duration).offset
            (batches_in_sweep own connections * state.node.sweeps.length)))
  | .stopped => ∃ made, state.starts = (ping_rounds own connections duration).log origin made

variable {state : Clocked PeerId} {origin : Nat}

theorem OnSchedule.starts_eq (hself : state.OnSchedule own connections duration origin) :
    ∃ made, state.starts = (ping_rounds own connections duration).log origin made := by
  rw [OnSchedule] at hself
  cases hcase : state.node.pinging with
  | stagger =>
    simp only [hcase] at hself
    exact ⟨0, hself.2⟩
  | batch sweep futs =>
    simp only [hcase] at hself
    exact ⟨_, hself.2.1⟩
  | gap sweep =>
    simp only [hcase] at hself
    exact ⟨_, hself.2.1⟩
  | interval =>
    simp only [hcase] at hself
    exact hself.1
  | stopped => simpa only [hcase] using hself

/-- The head of the loop of `pingAllOnce`, when the next batch is due. -/
theorem OnSchedule.ping_batch {node : Keepalive PeerId} {sweep : Sweep PeerId} {time : Nat}
    {starts : List (Nat × List PeerId)} (hat : sweep.At own sweep.pauses)
    (hfound : sweep.connections = connections)
    (hstarts : starts = (ping_rounds own connections duration).log origin
      (batches_in_sweep own connections * node.sweeps.length + sweep.pauses))
    (htime : time = origin + (ping_rounds own connections duration).offset
      (batches_in_sweep own connections * node.sweeps.length + sweep.pauses)) :
    OnSchedule own connections duration origin ⟨node.ping_batch sweep, time, time,
      starts ++ (node.ping_batch sweep).pinging.calls.map fun futs => (time, futs)⟩ := by
  by_cases hflag : node.messages_started = true
  · rw [Keepalive.ping_batch_of_started hflag]
    refine ⟨⟨_, (List.append_nil _).trans hstarts⟩, fun hnot => ?_⟩
    exact absurd (hflag.symm.trans hnot) (by simp)
  · have hlt := hat.lt_batches
    rw [batches_eq hat hfound] at hlt
    have hbatch : sweep.peers.extract sweep.i (min (sweep.i + PingBatch) sweep.peers.length) =
        batch_peers own connections
          (batches_in_sweep own connections * node.sweeps.length + sweep.pauses) := by
      rw [batch_eq, batch_peers, number_mod hlt, ← hat.i_eq, hat.peers_eq, hfound]
    rw [Keepalive.ping_batch, if_pos hat.more, if_neg hflag, hbatch]
    refine ⟨hfound, ?_, htime, fun peer hpeer => hpeer, fun peer hpeer => .inl hpeer⟩
    change starts ++ [(time, _)] = _
    rw [hstarts, htime]
    exact ((ping_rounds own connections duration).log_succ _ _).symm

/-- The end of a batch. -/
theorem OnSchedule.finish_batch {node : Keepalive PeerId} {sweep : Sweep PeerId} {time : Nat}
    {starts : List (Nat × List PeerId)} (hat : sweep.At own sweep.pauses)
    (hfound : sweep.connections = connections)
    (hstarts : starts = (ping_rounds own connections duration).log origin
      (batches_in_sweep own connections * node.sweeps.length + sweep.pauses + 1))
    (htime : time = origin + (ping_rounds own connections duration).offset
        (batches_in_sweep own connections * node.sweeps.length + sweep.pauses) +
      batch_time own connections duration
        (batches_in_sweep own connections * node.sweeps.length + sweep.pauses)) :
    OnSchedule own connections duration origin ⟨node.finish_batch sweep, time, time,
      starts ++ (node.finish_batch sweep).pinging.calls.map fun futs => (time, futs)⟩ := by
  have hlt := hat.lt_batches
  have hbatches := batches_eq hat hfound
  by_cases hmore : sweep.i + PingBatch < sweep.peers.length
  · have hnext : sweep.pauses + 1 < batches_in_sweep own connections := by
      rw [← hbatches]
      by_contra hnot
      have hle := (ceilDiv_le_iff_le_mul PingBatch_pos).mp (Nat.le_of_not_lt hnot)
      rw [hat.i_eq] at hmore
      rw [Nat.mul_succ] at hle
      omega
    rw [Keepalive.finish_batch, if_pos hmore]
    refine ⟨hfound, (List.append_nil _).trans hstarts, ?_⟩
    change time + PingBatchGap = origin + (ping_rounds own connections duration).offset
      (batches_in_sweep own connections * node.sweeps.length + (sweep.pauses + 1))
    rw [← Nat.add_assoc, Rounds.offset_succ, cost_of_lt hnext, htime]
    omega
  · have hlast : sweep.pauses + 1 = batches_in_sweep own connections := by
      rw [← hbatches]
      have hle : sweep.batches ≤ sweep.pauses + 1 :=
        (ceilDiv_le_iff_le_mul PingBatch_pos).mpr (by rw [Nat.mul_succ, ← hat.i_eq]; omega)
      omega
    have hround : batches_in_sweep own connections * node.sweeps.length + sweep.pauses + 1 =
        batches_in_sweep own connections * (node.sweeps.length + 1) := by
      rw [Nat.mul_succ, Nat.add_assoc, hlast]
    rw [Keepalive.finish_batch, if_neg hmore, Keepalive.ping_batch, if_neg hmore]
    have hmade : starts = (ping_rounds own connections duration).log origin
        (batches_in_sweep own connections * (node.sweeps.length + 1)) := by
      rw [hstarts, hround]
    refine ⟨⟨_, (List.append_nil _).trans hmade⟩, fun _ => ⟨?_, fun _ => ?_⟩⟩
    · change starts ++ [] = _
      simpa [Keepalive.return_sweep] using hmade
    · change time + PingInterval = origin + (ping_rounds own connections duration).offset
        (batches_in_sweep own connections * (node.sweeps ++ [_]).length)
      rw [List.length_append, List.length_singleton, ← hround, Rounds.offset_succ,
        cost_of_last hlast, htime]
      omega

theorem OnSchedule.ping_all_once {node : Keepalive PeerId} {time : Nat}
    {starts : List (Nat × List PeerId)}
    (hstarts : starts = (ping_rounds own connections duration).log origin
      (batches_in_sweep own connections * node.sweeps.length))
    (htime : 0 < batches_in_sweep own connections →
      time = origin + (ping_rounds own connections duration).offset
        (batches_in_sweep own connections * node.sweeps.length)) :
    OnSchedule own connections duration origin ⟨node.ping_all_once own connections, time, time,
      starts ++ (node.ping_all_once own connections).pinging.calls.map
        fun futs => (time, futs)⟩ := by
  by_cases hnone : (collect_peers own connections).length = 0
  · have hbatches : batches_in_sweep own connections = 0 := by
      rw [batches_in_sweep, hnone, zero_ceilDiv]
    have hempty : starts = [] := by
      rw [hstarts, hbatches, Nat.zero_mul, Rounds.log_zero]
    rw [Keepalive.ping_all_once, if_pos hnone]
    refine ⟨⟨0, (List.append_nil _).trans hempty⟩, fun _ => ⟨?_, fun hsome => ?_⟩⟩
    · change starts ++ [] = _
      rw [hempty, hbatches, Nat.zero_mul, Rounds.log_zero, List.append_nil]
    · rw [hbatches] at hsome
      cases hsome
  · rw [Keepalive.ping_all_once, if_neg hnone]
    have hsome : 0 < batches_in_sweep own connections := by
      by_contra hnot
      have hle := (ceilDiv_le_iff_le_mul PingBatch_pos).mp (Nat.le_of_not_lt hnot)
      omega
    exact OnSchedule.ping_batch ⟨rfl, rfl, Nat.pos_of_ne_zero hnone, rfl⟩ rfl hstarts
      (htime hsome)

/-- A message that arrives leaves the batches as they are. -/
theorem OnSchedule.note (hself : state.OnSchedule own connections duration origin) {time : Nat}
    (hforward : state.now ≤ time) : OnSchedule own connections duration origin
      { state with node := { state.node with messages_started := true }, now := time } := by
  rw [OnSchedule] at hself ⊢
  cases hcase : state.node.pinging with
  | stagger | gap sweep | stopped =>
    simp only [hcase] at hself ⊢
    exact hself
  | batch sweep futs =>
    simp only [hcase] at hself ⊢
    obtain ⟨hfound, hstarts, hsince, hin, hover⟩ := hself
    exact ⟨hfound, hstarts, hsince, hin, fun peer hpeer =>
      (hover peer hpeer).imp_right fun hle => hle.trans hforward⟩
  | interval =>
    simp only [hcase] at hself ⊢
    exact ⟨hself.1, fun hflag => nomatch hflag⟩

theorem OnSchedule.complete {sweep : Sweep PeerId} {futs : List PeerId} {peer : PeerId}
    (hcase : state.node.pinging = .batch sweep futs)
    (hself : state.OnSchedule own connections duration origin) {time : Nat}
    (hforward : state.now ≤ time)
    (htime : time = state.since + duration state.node.sweeps.length peer) :
    OnSchedule own connections duration origin
      { state with
        node := { state.node with pinging := .batch sweep (futs.erase peer) }, now := time } := by
  simp only [OnSchedule, hcase] at hself
  obtain ⟨hfound, hstarts, hsince, hin, hover⟩ := hself
  refine ⟨hfound, hstarts, hsince, fun other hother => hin other (List.mem_of_mem_erase hother),
    fun other hother => ?_⟩
  change other ∈ futs.erase peer ∨ state.since + duration state.node.sweeps.length other ≤ time
  by_cases hsame : other = peer
  · rw [hsame, htime]
    exact .inr (Nat.le_refl _)
  · exact (hover other hother).imp (List.mem_erase_of_ne hsame).mpr fun hle => hle.trans hforward

/-- The last call of a batch is its longest. -/
theorem OnSchedule.last_call {sweep : Sweep PeerId} {futs : List PeerId} {peer : PeerId}
    (hcase : state.node.pinging = .batch sweep futs)
    (hself : state.OnSchedule own connections duration origin)
    (hlt : sweep.pauses < batches_in_sweep own connections)
    (hpeer : peer ∈ futs) (hdone : futs.erase peer = []) {time : Nat}
    (hforward : state.now ≤ time)
    (htime : time = state.since + duration state.node.sweeps.length peer) :
    time = origin + (ping_rounds own connections duration).offset
        (state.number own connections sweep) +
      batch_time own connections duration (state.number own connections sweep) := by
  simp only [OnSchedule, hcase] at hself
  obtain ⟨hfound, hstarts, hsince, hin, hover⟩ := hself
  have hsweep : state.number own connections sweep / batches_in_sweep own connections =
      state.node.sweeps.length := number_div hlt
  rw [batch_time_eq (hin peer hpeer), hsweep, htime, hsince]
  intro other hother
  rw [hsweep]
  by_cases hsame : other = peer
  · rw [hsame]
  · rcases hover other hother with hleft | hle
    · have herase := (List.mem_erase_of_ne hsame).mpr hleft
      rw [hdone] at herase
      cases herase
    · omega

/-- Every event keeps the batches on schedule. -/
theorem OnSchedule.step (hself : state.OnSchedule own connections duration origin)
    (hsound : state.node.Sound own) {timed : Event PeerId × Nat}
    (hdue : Due connections duration state timed) :
    ∃ origin, (next own state timed).OnSchedule own connections duration origin := by
  obtain ⟨event, time⟩ := timed
  have hstep : Step own state.node event (ping_utils.next own state.node event) :=
    step_next hdue.possible
  have hpinging := hsound.pinging
  have hforward := hdue.forward
  have htime := hdue.on_time
  rw [next]
  generalize ping_utils.next own state.node event = result at hstep ⊢
  cases hstep with
  | noted => exact ⟨origin, hself.note hforward⟩
  | @completed sweep futs peer hcase hpeer hmore =>
    have hwaits : state.node.runs_on (.ping_completed peer) = false := by
      simp [Keepalive.runs_on, hcase, hmore]
    rw [if_neg (by simp [hwaits])]
    exact ⟨origin, hself.complete hcase hforward htime⟩
  | @finished sweep futs peer hcase hpeer hdone =>
    have hruns : state.node.runs_on (.ping_completed peer) = true := by
      simp [Keepalive.runs_on, hcase, hdone]
    rw [if_pos hruns]
    rw [hcase] at hpinging
    obtain ⟨_, _, _, n, hat, _⟩ := hpinging
    obtain rfl := hat.pauses_eq
    have hover := hself
    simp only [OnSchedule, hcase] at hover
    have hlt := hat.lt_batches
    rw [batches_eq hat hover.1] at hlt
    exact ⟨origin, .finish_batch hat hover.1 hover.2.1
      (hself.last_call hcase hlt hpeer hdone hforward htime)⟩
  | @resumed sweep hcase =>
    rw [hcase] at hpinging
    obtain ⟨n, hat, _⟩ := hpinging
    obtain rfl := hat.pauses_eq
    simp only [OnSchedule, hcase] at hself
    obtain ⟨hfound, hstarts, hsince⟩ := hself
    exact ⟨origin, .ping_batch hat hfound hstarts (htime.trans hsince)⟩
  | woken hnone found =>
    obtain ⟨rfl, htime⟩ := htime
    rw [if_pos (show state.node.runs_on (.sleep_over found) = true from rfl)]
    by_cases hflag : state.node.messages_started = true
    · obtain ⟨made, hmade⟩ := hself.starts_eq
      rw [Keepalive.ping_loop, if_neg (not_not_intro hflag)]
      exact ⟨origin, made, (List.append_nil _).trans hmade⟩
    · rw [Keepalive.ping_loop, if_pos hflag]
      cases hcase : state.node.pinging with
      | stagger =>
        simp only [OnSchedule, hcase] at hself
        refine ⟨time, .ping_all_once ?_ fun _ => ?_⟩
        · rw [hself.1, hself.2, List.length_nil, Nat.mul_zero, Rounds.log_zero]
        · rw [hself.1, List.length_nil, Nat.mul_zero, Rounds.offset_zero, Nat.add_zero]
      | interval =>
        simp only [OnSchedule, hcase] at hself
        simp only [hcase] at htime
        obtain ⟨hstarts, hsince⟩ := hself.2 (by simpa using hflag)
        exact ⟨origin, .ping_all_once hstarts fun hsome => htime.trans (hsince hsome)⟩
      | batch _ _ | gap _ => simp [hcase, Suspension.sweep] at hnone
      | stopped => exact absurd hdue.possible (by simp [enabled, hcase])

/-- In every run the batches are on schedule. -/
theorem on_schedule {events : List (Event PeerId × Nat)}
    (hlegal : (machine own connections duration).Legal events) :
    ∃ origin, ((machine own connections duration).after events).OnSchedule
      own connections duration origin := by
  rw [← List.nil_append events] at hlegal ⊢
  refine Machine.invariant_from _ (fun state => ∃ origin, state.OnSchedule
    own connections duration origin) hlegal ⟨0, rfl, rfl⟩ fun before hbefore timed hself hdue => ?_
  obtain ⟨origin, hself⟩ := hself
  obtain ⟨huntimed, hnode⟩ := untimed own connections duration hbefore
  refine hself.step ?_ hdue
  rw [hnode]
  exact sound_after huntimed

/-- What `pingLoop` waits for while no message has arrived. -/
structure Waiting (duration : Nat → PeerId → Nat) (state : Clocked PeerId) : Prop where
  quiet : state.node.messages_started = false
  running : state.node.pinging ≠ .stopped
  not_late : state.nothing_before duration state.now

/-- The calls of `pingPeer` that are not over. -/
def calls_left (state : Clocked PeerId) : Nat :=
  match state.node.pinging with
  | .batch _ futs => futs.length
  | _ => 0

variable (duration) in
omit [DecidableEq PeerId] in
theorem Waiting.ping_batch {node : Keepalive PeerId} {sweep : Sweep PeerId}
    (hquiet : node.messages_started = false) (hmore : sweep.i < sweep.peers.length) (time : Nat)
    (starts : List (Nat × List PeerId)) :
    Waiting duration ⟨node.ping_batch sweep, time, time,
        starts ++ (node.ping_batch sweep).pinging.calls.map fun futs => (time, futs)⟩ ∧
      starts.length < (starts ++
        (node.ping_batch sweep).pinging.calls.map fun futs => (time, futs)).length := by
  rw [Keepalive.ping_batch, if_pos hmore, if_neg (by simp [hquiet])]
  refine ⟨⟨hquiet, by simp, fun peer _ => Nat.le_add_right _ _⟩, ?_⟩
  simp [Suspension.calls]

variable (duration) in
omit [DecidableEq PeerId] in
theorem Waiting.finish_batch {node : Keepalive PeerId} (hquiet : node.messages_started = false)
    (sweep : Sweep PeerId) (time : Nat) (starts : List (Nat × List PeerId)) :
    Waiting duration ⟨node.finish_batch sweep, time, time,
        starts ++ (node.finish_batch sweep).pinging.calls.map fun futs => (time, futs)⟩ ∧
      starts ++ ((node.finish_batch sweep).pinging.calls.map fun futs => (time, futs)) = starts ∧
      calls_left ⟨node.finish_batch sweep, time, time, starts⟩ = 0 := by
  by_cases hmore : sweep.i + PingBatch < sweep.peers.length
  · rw [Keepalive.finish_batch, if_pos hmore]
    exact ⟨⟨hquiet, by simp, Nat.le_add_right _ _⟩, List.append_nil _, rfl⟩
  · rw [Keepalive.finish_batch, if_neg hmore, Keepalive.ping_batch, if_neg hmore]
    exact ⟨⟨hquiet, by simp [Keepalive.return_sweep], Nat.le_add_right _ _⟩, List.append_nil _, rfl⟩

variable (duration) in
theorem Waiting.ping_loop {node : Keepalive PeerId} (hquiet : node.messages_started = false)
    (hsome : 0 < batches_in_sweep own connections) (time : Nat)
    (starts : List (Nat × List PeerId)) :
    Waiting duration ⟨node.ping_loop own connections, time, time,
        starts ++ (node.ping_loop own connections).pinging.calls.map fun futs => (time, futs)⟩ ∧
      starts.length < (starts ++
        (node.ping_loop own connections).pinging.calls.map fun futs => (time, futs)).length := by
  have hpeers : (collect_peers own connections).length ≠ 0 := by
    intro hnone
    rw [batches_in_sweep, hnone, zero_ceilDiv] at hsome
    cases hsome
  rw [Keepalive.ping_loop, if_pos (by simp [hquiet]), Keepalive.ping_all_once, if_neg hpeers]
  exact Waiting.ping_batch duration hquiet (Nat.pos_of_ne_zero hpeers) time starts

/-- While no message arrives, something is due that starts a batch or brings
the next one nearer. -/
theorem Waiting.progress (hsome : 0 < batches_in_sweep own connections)
    (hself : state.Waiting duration) (hsound : state.node.Sound own) :
    ∃ timed, Due connections duration state timed ∧ (next own state timed).Waiting duration ∧
      (state.starts.length < (next own state timed).starts.length ∨
        (next own state timed).starts.length = state.starts.length ∧
          (next own state timed).calls_left < state.calls_left) := by
  obtain ⟨hquiet, hrunning, hnothing⟩ := hself
  have hpinging := hsound.pinging
  cases hcase : state.node.pinging with
  | stagger =>
    have hdue : Due connections duration state (.sleep_over connections, state.now) :=
      ⟨by simp [enabled, hcase], Nat.le_refl _, hnothing, rfl, by simp only [hcase]⟩
    obtain ⟨hnext, hlonger⟩ :=
      Waiting.ping_loop duration hquiet hsome state.now state.starts
    exact ⟨_, hdue, hnext, .inl hlonger⟩
  | interval =>
    simp only [nothing_before, hcase] at hnothing
    have hdue : Due connections duration state
        (.sleep_over connections, state.since + PingInterval) :=
      ⟨by simp [enabled, hcase], hnothing, by simp only [nothing_before, hcase, Nat.le_refl],
        rfl, by simp only [hcase]⟩
    obtain ⟨hnext, hlonger⟩ := Waiting.ping_loop duration hquiet hsome
      (state.since + PingInterval) state.starts
    exact ⟨_, hdue, hnext, .inl hlonger⟩
  | gap sweep =>
    simp only [nothing_before, hcase] at hnothing
    rw [hcase] at hpinging
    obtain ⟨n, hat, _⟩ := hpinging
    have hdue : Due connections duration state (.gap_over, state.since + PingBatchGap) :=
      ⟨by simp [enabled, hcase], hnothing, by simp only [nothing_before, hcase, Nat.le_refl], rfl⟩
    obtain ⟨hnext, hlonger⟩ := Waiting.ping_batch duration hquiet hat.more
      (state.since + PingBatchGap) state.starts
    refine ⟨_, hdue, ?_⟩
    simp only [next, Keepalive.runs_on, if_true, ping_utils.next, hcase]
    exact ⟨hnext, .inl hlonger⟩
  | batch sweep futs =>
    simp only [nothing_before, hcase] at hnothing
    rw [hcase] at hpinging
    obtain ⟨one, hone⟩ := List.exists_mem_of_ne_nil futs hpinging.1
    obtain ⟨peer, hpeer, hfirst⟩ := Finset.exists_min_image futs.toFinset
      (duration state.node.sweeps.length) ⟨one, List.mem_toFinset.mpr hone⟩
    rw [List.mem_toFinset] at hpeer
    have hdue : Due connections duration state
        (.ping_completed peer, state.since + duration state.node.sweeps.length peer) := by
      refine ⟨by simpa [enabled, hcase] using hpeer, hnothing peer hpeer, ?_, rfl⟩
      simp only [nothing_before, hcase]
      exact fun other hother =>
        Nat.add_le_add_left (hfirst other (List.mem_toFinset.mpr hother)) _
    refine ⟨_, hdue, ?_⟩
    by_cases hdone : futs.erase peer = []
    · obtain ⟨hnext, hsame, hover⟩ := Waiting.finish_batch duration hquiet sweep
        (state.since + duration state.node.sweeps.length peer) state.starts
      simp only [next, Keepalive.runs_on, ping_utils.next, hcase, hdone, decide_true, if_true]
      rw [hsame] at hnext ⊢
      refine ⟨hnext, .inr ⟨rfl, ?_⟩⟩
      rw [hover, calls_left, hcase]
      exact List.length_pos_of_mem hpeer
    · simp only [next, Keepalive.runs_on, ping_utils.next, hcase, hdone, decide_false,
        Bool.false_eq_true, if_false]
      refine ⟨⟨hquiet, by simp, fun other hother => ?_⟩, .inr ⟨trivial, ?_⟩⟩
      · exact Nat.add_le_add_left
          (hfirst other (List.mem_toFinset.mpr (List.mem_of_mem_erase hother))) _
      · simp only [calls_left, hcase, List.length_erase_of_mem hpeer]
        have hpositive := List.length_pos_of_mem hpeer
        omega
  | stopped => exact absurd hcase hrunning

/-- Some run makes as many batches as one likes. -/
theorem exists_batches (hsome : 0 < batches_in_sweep own connections) (goal : Nat) :
    ∃ events, (machine own connections duration).Legal events ∧
      goal ≤ ((machine own connections duration).after events).starts.length := by
  have hprogress := (machine own connections duration).exists_legal_of_progress
    (Waiting duration) (fun state => state.starts.length) calls_left
    ⟨rfl, nofun, Nat.zero_le _⟩ fun before hbefore hself => by
      obtain ⟨huntimed, hnode⟩ := untimed own connections duration hbefore
      refine hself.progress hsome ?_
      rw [hnode]
      exact sound_after huntimed
  obtain ⟨events, hlegal, _, hgoal⟩ := hprogress goal
  exact ⟨events, hlegal, hgoal⟩

end Clocked

theorem batch_peers_ne_nil (hsome : 0 < batches_in_sweep own connections) (k : Nat) :
    batch_peers own connections k ≠ [] := by
  have hlt := Nat.mod_lt k hsome
  have hmore : PingBatch * (k % batches_in_sweep own connections) <
      (collect_peers own connections).length := by
    by_contra hnot
    have hle : batches_in_sweep own connections ≤ k % batches_in_sweep own connections :=
      (ceilDiv_le_iff_le_mul PingBatch_pos).mpr (by omega)
    omega
  have hpositive := PingBatch_pos
  apply List.ne_nil_of_length_pos
  rw [batch_peers, length_piece]
  omega

/-- The sleeps from one ping of a peer to the next. -/
theorem sum_pause_after (hsome : 0 < batches_in_sweep own connections) (k : Nat) :
    ∑ j ∈ Finset.range (batches_in_sweep own connections), pause_after own connections (k + j) =
      PingBatchGap * (batches_in_sweep own connections - 1) + PingInterval := by
  induction k with
  | zero =>
    obtain ⟨before, hbefore⟩ := Nat.exists_eq_add_of_lt hsome
    rw [Nat.zero_add] at hbefore
    rw [hbefore, Finset.sum_range_succ, Nat.add_sub_cancel]
    have hgaps : ∀ j ∈ Finset.range before, pause_after own connections (0 + j) = PingBatchGap := by
      intro j hj
      have hlt := Finset.mem_range.mp hj
      rw [pause_after, if_neg]
      rw [Nat.mod_eq_of_lt (by omega)]
      omega
    have hlast : pause_after own connections (0 + before) = PingInterval := by
      rw [pause_after, if_pos]
      rw [Nat.zero_add, ← hbefore, Nat.mod_self]
    rw [Finset.sum_congr rfl hgaps, hlast, Finset.sum_const, Finset.card_range, smul_eq_mul,
      Nat.mul_comm]
  | succ k ih =>
    have hshift : ∀ j, pause_after own connections (k + 1 + j) =
        pause_after own connections (k + (j + 1)) := fun j => by rw [Nat.add_assoc, Nat.add_comm 1 j]
    have hround : pause_after own connections (k + batches_in_sweep own connections) =
        pause_after own connections (k + 0) := by
      rw [pause_after, pause_after, Nat.add_right_comm, Nat.add_mod_right, Nat.add_zero]
    have hboth := Finset.sum_range_succ (fun j => pause_after own connections (k + j))
      (batches_in_sweep own connections)
    rw [Finset.sum_range_succ', hround] at hboth
    rw [Finset.sum_congr rfl fun j _ => hshift j]
    omega

theorem window_eq (hsome : 0 < batches_in_sweep own connections) (k : Nat) :
    (ping_rounds own connections duration).window k =
      ∑ j ∈ Finset.range (batches_in_sweep own connections),
          batch_time own connections duration (k + j) +
        PingBatchGap * (batches_in_sweep own connections - 1) + PingInterval := by
  rw [Nat.add_assoc, ← sum_pause_after hsome k, ← Finset.sum_add_distrib]
  rfl

/-- The pings of every peer are spaced when no round of batches takes too long. -/
theorem spaced_iff :
    (∀ events, (Clocked.machine own connections duration).Legal events →
      Spaced quic_idle_timeout
        ((Clocked.machine own connections duration).after events).starts) ↔
    ∀ k, ∑ j ∈ Finset.range (batches_in_sweep own connections),
        batch_time own connections duration (k + j) +
      PingBatchGap * (batches_in_sweep own connections - 1) + PingInterval <
        quic_idle_timeout := by
  by_cases hsome : 0 < batches_in_sweep own connections
  · constructor
    · intro hspaced k
      obtain ⟨events, hlegal, hmany⟩ := Clocked.exists_batches hsome
        (k + batches_in_sweep own connections + 1)
      obtain ⟨origin, hself⟩ := Clocked.on_schedule hlegal
      obtain ⟨made, hmade⟩ := hself.starts_eq
      rw [hmade, Rounds.length_log] at hmany
      have hlog := hspaced events hlegal
      rw [hmade, Rounds.spaced_log _ hsome] at hlog
      rw [← window_eq hsome]
      exact hlog k hmany (batch_peers_ne_nil hsome k)
    · intro hwindow events hlegal
      obtain ⟨origin, hself⟩ := Clocked.on_schedule hlegal
      obtain ⟨made, hmade⟩ := hself.starts_eq
      rw [hmade, Rounds.spaced_log _ hsome]
      intro k _ _
      rw [window_eq hsome]
      exact hwindow k
  · have hnone := Nat.eq_zero_of_not_pos hsome
    have hpeers : collect_peers own connections = [] := by
      have hle := (ceilDiv_le_iff_le_mul PingBatch_pos).mp (Nat.le_of_eq hnone)
      exact List.eq_nil_of_length_eq_zero (by omega)
    refine iff_of_true (fun events hlegal => ?_) fun k => ?_
    · obtain ⟨origin, hself⟩ := Clocked.on_schedule hlegal
      obtain ⟨made, hmade⟩ := hself.starts_eq
      rw [hmade]
      intro item a b first second _ ha _ hfirst
      obtain ⟨_, rfl⟩ := (ping_rounds own connections duration).getElem?_log.mp ha
      simp [ping_rounds, batch_peers, hpeers] at hfirst
    · simp only [hnone, Finset.range_zero, Finset.sum_empty, PingInterval, quic_idle_timeout]
      omega

theorem batch_time_le {limit : Nat} (hlimit : ∀ sweep peer, duration sweep peer ≤ limit)
    (k : Nat) : batch_time own connections duration k ≤ limit := by
  refine List.max_le_of_forall_le _ _ fun time htime => ?_
  obtain ⟨peer, _, rfl⟩ := List.mem_map.mp htime
  exact hlimit _ _

theorem batch_time_const (hsome : 0 < batches_in_sweep own connections) (time k : Nat) :
    batch_time own connections (fun _ _ => time) k = time := by
  obtain ⟨peer, hpeer⟩ := List.exists_mem_of_ne_nil _ (batch_peers_ne_nil hsome k)
  exact batch_time_eq hpeer fun _ _ => Nat.le_refl _

/-- With two batches in a sweep, slow calls keep a peer waiting for too long. -/
theorem slow_calls (hmany : PingBatch < (collect_peers own connections).length) :
    ∃ events, (Clocked.machine own connections fun _ _ => longest_call).Legal events ∧
      ¬ Spaced quic_idle_timeout
        ((Clocked.machine own connections fun _ _ => longest_call).after events).starts := by
  have hbatches : 2 ≤ batches_in_sweep own connections := by
    by_contra hnot
    have hle : batches_in_sweep own connections ≤ 1 := by omega
    have hfew := (ceilDiv_le_iff_le_mul PingBatch_pos).mp hle
    omega
  by_contra hnever
  push Not at hnever
  have hwindow := spaced_iff.mp hnever 0
  rw [Finset.sum_congr rfl fun j _ => batch_time_const (by omega) longest_call (0 + j),
    Finset.sum_const, Finset.card_range, smul_eq_mul] at hwindow
  simp only [longest_call, DialTimeout, PingTimeout, CloseTimeout, PingBatchGap, PingInterval,
    quic_idle_timeout] at hwindow
  omega

/-- The keepalive pings every peer in time, whatever its calls take, exactly
when there are at most 16 peers, which make one batch. With more peers, it does
for calls of given durations exactly when no round of batches, from one ping of
a peer to the next, takes too long. -/
theorem keepalive_in_time (own : PeerId) (connections : Connections PeerId) :
    ((∀ duration : Nat → PeerId → Nat, (∀ sweep peer, duration sweep peer ≤ longest_call) →
        ∀ events, (Clocked.machine own connections duration).Legal events →
          Spaced quic_idle_timeout
            ((Clocked.machine own connections duration).after events).starts) ↔
      (collect_peers own connections).length ≤ PingBatch) ∧
    ∀ duration : Nat → PeerId → Nat,
      (∀ events, (Clocked.machine own connections duration).Legal events →
        Spaced quic_idle_timeout
          ((Clocked.machine own connections duration).after events).starts) ↔
      ∀ k, ∑ j ∈ Finset.range (batches_in_sweep own connections),
          batch_time own connections duration (k + j) +
        PingBatchGap * (batches_in_sweep own connections - 1) + PingInterval <
          quic_idle_timeout := by
  refine ⟨⟨fun hspaced => ?_, fun hfew duration hlimit => ?_⟩, fun duration => spaced_iff⟩
  · by_contra hmany
    obtain ⟨events, hlegal, hlate⟩ := slow_calls (Nat.lt_of_not_le hmany)
    exact hlate (hspaced _ (fun _ _ => Nat.le_refl _) events hlegal)
  · have hbatches : batches_in_sweep own connections ≤ 1 :=
      (ceilDiv_le_iff_le_mul PingBatch_pos).mpr (by omega)
    refine spaced_iff.mpr fun k => ?_
    have hsum := Finset.sum_le_card_nsmul (Finset.range (batches_in_sweep own connections))
      (fun j => batch_time own connections duration (k + j)) longest_call
      fun j _ => batch_time_le hlimit (k + j)
    rw [Finset.card_range, smul_eq_mul] at hsum
    have hone := Nat.mul_le_mul_right longest_call hbatches
    simp only [longest_call, DialTimeout, PingTimeout, CloseTimeout, PingBatchGap, PingInterval,
      quic_idle_timeout] at hsum hone ⊢
    omega

/-- A node with 17 peers, all of whose calls run into their timeouts. -/
theorem keepalive_seventeen_late :
    ¬ ∀ connections : Connections Nat, (collect_peers 0 connections).length ≤ 250 →
      ∀ duration : Nat → Nat → Nat, (∀ sweep peer, duration sweep peer ≤ longest_call) →
        ∀ events, (Clocked.machine 0 connections duration).Legal events →
          Spaced quic_idle_timeout
            ((Clocked.machine 0 connections duration).after events).starts := by
  intro hclaim
  have hmany : PingBatch < (collect_peers 0 ⟨List.range 18, List.nodup_range⟩).length := by decide
  obtain ⟨events, hlegal, hlate⟩ := slow_calls hmany
  exact hlate (hclaim _ (by decide) _ (fun _ _ => Nat.le_refl _) events hlegal)

end nim_test_node.regression.ping_utils
