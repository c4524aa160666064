import DstTestNode.Nim.GossipsubFragments
import DstTestNode.Shadow.LogReport

open awk
open nim_test_node.gossipsub_queues.main (PublishCall Traffic Completion handle_all completed_ids)
open shadow.latency_log (Delivery HostNames Reported grep_line peer_name hostNames_peer hostNames_pod
  named_as)
open shadow.summary_latency (accepted Line)

namespace nodes

/-- A Nim node of a simulation: its host and process, what it hears, what its handler
makes of that, and where its lines stand in the output. -/
structure SimulatedNode where
  host : Nat
  pid : Nat
  heard : List nim_test_node.Delivery
  completions : List (Option Completion)
  line : Nat → Nat

/-- The text that the handler echoes. -/
def echoed (completion : Completion) : Text :=
  (toString completion.msg_id ++ " milliseconds: " ++ toString completion.milliseconds).toList

/-- The line that run.sh finds for a completion, the `k`-th one of the node. -/
def SimulatedNode.grep (host_name : Nat → String) (self : SimulatedNode) (k : Nat)
    (completion : Completion) : Text :=
  ("shadow.data/hosts/" ++ host_name self.host ++ "/main." ++ toString self.pid ++ ".stdout:" ++
    toString (self.line k) ++ ":").toList ++ echoed completion

/-- All lines that run.sh finds in the output of a node. -/
def SimulatedNode.log (host_name : Nat → String) (self : SimulatedNode) : List Text :=
  self.completions.reduceOption.zipIdx.map fun entry => self.grep host_name entry.2 entry.1

/-- Nodes that hear the messages of some calls, on a clock by which no fragment is
heard before its message was published. -/
structure Simulation (chunks : Int) (calls : List PublishCall) (peers : List SimulatedNode) :
    Prop where
  traffic : ∀ peer ∈ peers, Traffic chunks calls peer.heard
  handled : ∀ peer ∈ peers, ∃ messages_chunks,
    handle_all chunks ∅ peer.heard = .ok (messages_chunks, peer.completions)
  clock : ∀ peer ∈ peers, ∀ heard ∈ peer.heard, ∀ call ∈ calls, heard.data ∈ call.payloads →
    (call.now_int : Int) ≤ heard.recv_time.nanoseconds

/-- The delay of a call at a node: the time from its publication to its last
fragment, in milliseconds. There is none at a node that misses a fragment. -/
def delays (call : PublishCall) (heard : List nim_test_node.Delivery) : List Nat :=
  (heard.zipIdx.map fun entry =>
    if call.CompletedAt heard entry.2 then
      some ((entry.1.recv_time.nanoseconds - call.now_int).tdiv 1000000).toNat
    else none).reduceOption

/-- How many nodes get all the fragments of a call. -/
def received (peers : List SimulatedNode) (call : PublishCall) : Nat :=
  peers.countP fun peer => call.AllDelivered peer.heard

/-- The delays of a call at the nodes that get all its fragments. -/
def all_delays (peers : List SimulatedNode) (call : PublishCall) : List Nat :=
  peers.flatMap fun peer => delays call peer.heard

theorem map_filter_reduceOption {α β : Type*} (options : List (Option α)) (p : α → Bool)
    (f : α → β) : (options.reduceOption.filter p).map f =
      (options.map fun option => (option.filter p).map f).reduceOption := by
  induction options with
  | nil => rfl
  | cons option options ih =>
    cases option with
    | none => rw [List.reduceOption_cons_of_none, ih, List.map_cons, Option.filter_none,
        Option.map_none, List.reduceOption_cons_of_none]
    | some a =>
      rw [List.reduceOption_cons_of_some, List.map_cons, Option.filter_some, List.filter_cons]
      by_cases hp : p a = true
      · rw [if_pos hp, if_pos hp, List.map_cons, ih, Option.map_some,
          List.reduceOption_cons_of_some]
      · rw [if_neg hp, if_neg hp, ih, Option.map_none, List.reduceOption_cons_of_none]

theorem sum_map_ite {α : Type*} (items : List α) (p : α → Prop) [DecidablePred p] :
    (items.map fun item => if p item then 1 else 0).sum = items.countP p := by
  induction items with
  | nil => rfl
  | cons item items ih =>
    rw [List.map_cons, List.sum_cons, ih, List.countP_cons, Nat.add_comm]
    simp only [decide_eq_true_eq]

/-- Items that are sorted by their keys are still the same items. -/
theorem perm_flatMap_filter {α κ : Type*} [DecidableEq κ] (key : α → κ) {keys : List κ}
    (hkeys : keys.Nodup) {items : List α} (hmem : ∀ item ∈ items, key item ∈ keys) :
    items.Perm (keys.flatMap fun other => items.filter fun item => key item = other) := by
  induction keys generalizing items with
  | nil =>
    cases items with
    | nil => exact .refl _
    | cons item items => exact absurd (hmem item List.mem_cons_self) List.not_mem_nil
  | cons first keys ih =>
    obtain ⟨hfirst, hrest⟩ := List.nodup_cons.mp hkeys
    have hothers : ∀ item ∈ items.filter (fun item => !decide (key item = first)),
        key item ∈ keys := by
      intro item hitem
      obtain ⟨hitem, hne⟩ := List.mem_filter.mp hitem
      exact (List.mem_cons.mp (hmem item hitem)).resolve_left (by simpa using hne)
    refine (List.filter_append_perm (fun item => decide (key item = first)) items).symm.trans ?_
    rw [List.flatMap_cons]
    refine .append_left _ ((ih hrest hothers).trans (.flatMap_left _ fun other hother => ?_))
    rw [List.filter_filter]
    refine .of_eq (List.filter_congr fun item _ => ?_)
    have hne : other ≠ first := fun heq => hfirst (heq ▸ hother)
    by_cases hkey : key item = other
    · simp [hkey, hne]
    · simp [hkey]

section

variable {chunks : Int} {calls : List PublishCall} {peers : List SimulatedNode}

/-- What a node echoes: the calls whose fragments it has all heard, once each. -/
structure Echoes (calls : List PublishCall) (peer : SimulatedNode) : Prop where
  known : ∀ completion ∈ peer.completions.reduceOption,
    (∃ call ∈ calls, call.msg_id = completion.msg_id) ∧ 0 ≤ completion.milliseconds
  delay : ∀ call ∈ calls, (peer.completions.reduceOption.filter fun completion =>
    completion.msg_id = call.msg_id).map (fun completion => completion.milliseconds.toNat) =
      delays call peer.heard
  once : ∀ call ∈ calls, (delays call peer.heard).length =
    if call.AllDelivered peer.heard then 1 else 0

theorem completed_ids_eq (completions : List (Option Completion)) :
    completed_ids completions = completions.reduceOption.map Completion.msg_id := by
  rw [completed_ids, List.reduceOption, List.map_filterMap]
  rfl

/-- At a completion the node echoes the call and its delay, and nothing elsewhere. -/
theorem Simulation.echoes (simulation : Simulation chunks calls peers) {peer : SimulatedNode}
    (hpeer : peer ∈ peers) : Echoes calls peer := by
  have traffic := simulation.traffic peer hpeer
  have hclock := simulation.clock peer hpeer
  obtain ⟨table, hhandled⟩ := simulation.handled peer hpeer
  obtain ⟨_, completions, hrun, _, htotals, hlength, hcompletions⟩ := traffic.handled
  obtain ⟨_, hsame⟩ := Prod.mk.inj (Except.ok.inj (hhandled.symm.trans hrun))
  rw [← hsame] at htotals hlength hcompletions
  have hat (k : Nat) (hk : k < peer.completions.length) (hin : k < peer.heard.length) :
      (∃ call ∈ calls, call.CompletedAt peer.heard k ∧
        peer.completions[k] = some (call.completion peer.heard[k].recv_time)) ∨
      ((∀ call ∈ calls, ¬ call.CompletedAt peer.heard k) ∧ peer.completions[k] = none) := by
    have hat := hcompletions k hin
    simpa only [List.getElem?_eq_getElem hk, Option.some.injEq] using hat
  have hdelay : ∀ call ∈ calls, (peer.completions.reduceOption.filter fun completion =>
      completion.msg_id = call.msg_id).map (fun completion => completion.milliseconds.toNat) =
        delays call peer.heard := by
    intro call hcall
    rw [map_filter_reduceOption, delays]
    congr 1
    refine List.ext_getElem (by simpa using hlength) fun k hk hk' => ?_
    have hin : k < peer.heard.length := by simpa using hk'
    simp only [List.getElem_map, List.getElem_zipIdx, Nat.zero_add]
    rcases hat k (by simpa using hk) hin with ⟨other, hother, hcompleted, hsome⟩ | ⟨hnone, hsome⟩
    · rw [hsome, Option.filter_some]
      by_cases hid : other.msg_id = call.msg_id
      · obtain rfl := List.inj_on_of_nodup_map traffic.ids_nodup hother hcall hid
        rw [if_pos hcompleted, if_pos (by exact decide_eq_true hid)]
        rfl
      · rw [if_neg (by exact mt of_decide_eq_true hid), if_neg fun hmine => hid ?_]
        · rfl
        · rw [traffic.reassembly.completedAt_unique (by simpa using hin) hother hcall hcompleted
            hmine]
    · rw [hsome, if_neg (hnone call hcall)]
      rfl
  refine ⟨fun completion hmem => ?_, hdelay, fun call hcall => ?_⟩
  · obtain ⟨k, hk, hsome⟩ := List.getElem_of_mem (List.reduceOption_mem_iff.mp hmem)
    rcases hat k hk (by omega) with ⟨call, hcall, hcompleted, hcall'⟩ | ⟨_, hnone⟩
    · obtain rfl := Option.some.inj (hsome.symm.trans hcall')
      refine ⟨⟨call, hcall, rfl⟩, Int.tdiv_nonneg (Int.sub_nonneg.mpr ?_) (by decide)⟩
      exact hclock _ (List.getElem_mem _) call hcall
        (traffic.mem_payloads_of_completedAt hcall (by omega) hcompleted)
    · rw [hsome] at hnone
      cases hnone
  · rw [← hdelay call hcall, List.length_map, ← traffic.count_completed htotals hcall,
      completed_ids_eq, List.count, List.countP_map, List.countP_eq_length_filter]
    congr 2

/-- The delivery that a completion logs. -/
def SimulatedNode.delivery (self : SimulatedNode) (k : Nat) (completion : Completion) :
    Delivery where
  host := self.host
  pid := self.pid
  line := self.line k
  publish_time := completion.msg_id
  latency := completion.milliseconds.toNat

/-- The deliveries that a node logs. -/
def SimulatedNode.deliveries (self : SimulatedNode) : List Delivery :=
  self.completions.reduceOption.zipIdx.map fun entry => self.delivery entry.2 entry.1

theorem map_deliveries {β : Type*} (peer : SimulatedNode) (f : Nat → Nat → β) :
    (peer.deliveries.map fun delivery => f delivery.publish_time delivery.latency) =
      peer.completions.reduceOption.map fun completion =>
        f completion.msg_id completion.milliseconds.toNat := by
  conv_rhs => rw [← List.zipIdx_map_fst 0 peer.completions.reduceOption, List.map_map]
  rw [SimulatedNode.deliveries, List.map_map]
  rfl

/-- A delay that is not negative is written in digits. -/
theorem grep_eq (host_name : Nat → String) (peer : SimulatedNode) (k : Nat)
    {completion : Completion} (hnonneg : 0 ≤ completion.milliseconds) :
    peer.grep host_name k completion = grep_line host_name (peer.delivery k completion) := by
  obtain ⟨ms, hms⟩ := Int.eq_ofNat_of_zero_le hnonneg
  have hlatency : (peer.delivery k completion).latency = ms := by
    rw [SimulatedNode.delivery, hms, Int.toNat_natCast]
  have hdigits : toString completion.milliseconds = ms.repr := by
    rw [hms]
    rfl
  unfold SimulatedNode.grep echoed grep_line shadow.latency_log.location
  simp only [hlatency, hdigits, String.toList_append, List.append_assoc]
  rfl

theorem Echoes.log_eq {peer : SimulatedNode} (hechoes : Echoes calls peer)
    (host_name : Nat → String) :
    peer.log host_name = peer.deliveries.map (grep_line host_name) := by
  rw [SimulatedNode.log, SimulatedNode.deliveries, List.map_map]
  apply List.map_congr_left
  intro entry hentry
  exact grep_eq host_name peer entry.2 (hechoes.known entry.1 (List.fst_mem_of_mem_zipIdx hentry)).2

/-- The latencies logged for a call are its delays. -/
theorem Echoes.latencies {peer : SimulatedNode} (hechoes : Echoes calls peer) {call : PublishCall}
    (hcall : call ∈ calls) :
    (peer.deliveries.filter fun delivery => delivery.publish_time = call.msg_id).map
      Delivery.latency = delays call peer.heard := by
  have hpairs := congrArg (fun entries => (entries.filter fun entry : Nat × Nat =>
    entry.1 = call.msg_id).map Prod.snd) (map_deliveries peer Prod.mk)
  rw [← hechoes.delay call hcall]
  simpa only [List.filter_map, List.map_map, Function.comp_def] using hpairs

/-- What the nodes log together. -/
def all_deliveries (peers : List SimulatedNode) : List Delivery :=
  peers.flatMap SimulatedNode.deliveries

namespace Simulation

variable (simulation : Simulation chunks calls peers)

include simulation

theorem log_eq (host_name : Nat → String) : peers.flatMap (SimulatedNode.log host_name) =
    (all_deliveries peers).map (grep_line host_name) := by
  rw [all_deliveries, List.map_flatMap]
  exact List.flatMap_congr fun peer hpeer => (simulation.echoes hpeer).log_eq host_name

theorem latencies {call : PublishCall} (hcall : call ∈ calls) :
    ((all_deliveries peers).filter fun delivery => delivery.publish_time = call.msg_id).map
      Delivery.latency = all_delays peers call := by
  rw [all_deliveries, List.filter_flatMap, List.map_flatMap]
  exact List.flatMap_congr fun peer hpeer => (simulation.echoes hpeer).latencies hcall

theorem length_all_delays {call : PublishCall} (hcall : call ∈ calls) :
    (all_delays peers call).length = received peers call := by
  have honce : ∀ peer ∈ peers, (delays call peer.heard).length =
      if call.AllDelivered peer.heard then 1 else 0 :=
    fun peer hpeer => (simulation.echoes hpeer).once call hcall
  rw [all_delays, received, List.length_flatMap, List.map_congr_left honce, sum_map_ite]

/-- Only calls are logged. -/
theorem exists_call {delivery : Delivery} (hdelivery : delivery ∈ all_deliveries peers) :
    ∃ call ∈ calls, call.msg_id = delivery.publish_time := by
  obtain ⟨peer, hpeer, hmem⟩ := List.mem_flatMap.mp hdelivery
  obtain ⟨entry, hentry, rfl⟩ := List.mem_map.mp hmem
  exact ((simulation.echoes hpeer).known entry.1 (List.fst_mem_of_mem_zipIdx hentry)).1

/-- A call is logged when some node gets all its fragments. -/
theorem exists_delivery_iff {call : PublishCall} (hcall : call ∈ calls) :
    (∃ delivery ∈ all_deliveries peers, delivery.publish_time = call.msg_id) ↔
      0 < received peers call := by
  rw [← simulation.length_all_delays hcall, ← simulation.latencies hcall, List.length_map,
    List.length_pos_iff_exists_mem]
  simp only [List.mem_filter, decide_eq_true_eq]

/-- The delays of all calls make up what is logged. -/
theorem latencies_perm (hpeers : peers ≠ []) :
    ((all_deliveries peers).map Delivery.latency).Perm (calls.flatMap (all_delays peers)) := by
  obtain ⟨peer, hpeer⟩ := List.exists_mem_of_ne_nil _ hpeers
  have hperm := perm_flatMap_filter Delivery.publish_time (simulation.traffic peer hpeer).ids_nodup
    fun delivery hdelivery => by
      obtain ⟨call, hcall, hid⟩ := simulation.exists_call hdelivery
      exact hid ▸ List.mem_map_of_mem hcall
  refine (hperm.map Delivery.latency).trans (.of_eq ?_)
  rw [List.flatMap_map, List.map_flatMap]
  exact List.flatMap_congr fun call hcall => simulation.latencies hcall

end Simulation

/-- The subscript under which the scripts look for a call. -/
def call_text (call : PublishCall) : Text := call.msg_id.repr.toList

theorem repr_toList_inj {m n : Nat} : m.repr.toList = n.repr.toList ↔ m = n := by
  refine ⟨fun heq => ?_, fun heq => heq ▸ rfl⟩
  rw [← Decimal.ofDigitChars_repr m, heq, Decimal.ofDigitChars_repr]

/-- The lines for the calls: one for each call that some node gets, with the number
of these nodes and their average delay up to a rounding. -/
structure CallsReported (calls : List PublishCall) (peers : List SimulatedNode) (rounding : ℚ)
    (lines : List Line) : Prop where
  values : (lines.map Line.value).Perm
    ((calls.filter fun call => 0 < received peers call).map call_text)
  received : ∀ call ∈ calls, ∀ line ∈ lines, line.value = call_text call →
    line.sum_rx_msgs = received peers call
  average : ∀ call ∈ calls, ∀ line ∈ lines, line.value = call_text call →
    |line.average - (all_delays peers call).mean fun ms : Nat => (ms : ℚ)| ≤ rounding

namespace Simulation

variable (simulation : Simulation chunks calls peers)

include simulation

theorem named_as_call {call : PublishCall} (hcall : call ∈ calls) :
    (named_as (fun publish_time => publish_time.repr.toList) (all_deliveries peers)
      (call_text call)).map Delivery.latency = all_delays peers call := by
  rw [← simulation.latencies hcall, named_as]
  simp only [call_text, repr_toList_inj]

/-- The calls that get a line. -/
theorem values_perm (hpeers : peers ≠ []) : ((all_deliveries peers).map fun delivery =>
    delivery.publish_time.repr.toList).dedup.Perm
      ((calls.filter fun call => 0 < received peers call).map call_text) := by
  obtain ⟨peer, hpeer⟩ := List.exists_mem_of_ne_nil _ hpeers
  have hids := (simulation.traffic peer hpeer).ids_nodup
  have hnodup : ((calls.filter fun call => 0 < received peers call).map call_text).Nodup := by
    have htexts : (calls.map call_text).Nodup := by
      have hmap := hids.map fun m n heq => repr_toList_inj.mp heq
      rwa [List.map_map] at hmap
    exact htexts.sublist (List.filter_sublist.map call_text)
  refine (List.perm_ext_iff_of_nodup (List.nodup_dedup _) hnodup).mpr fun value => ?_
  rw [List.mem_dedup, List.mem_map, List.mem_map]
  constructor
  · rintro ⟨delivery, hdelivery, rfl⟩
    obtain ⟨call, hcall, hid⟩ := simulation.exists_call hdelivery
    have hpos := (simulation.exists_delivery_iff hcall).mp ⟨delivery, hdelivery, hid.symm⟩
    exact ⟨call, List.mem_filter.mpr ⟨hcall, decide_eq_true hpos⟩, by rw [call_text, hid]⟩
  · rintro ⟨call, hmem, rfl⟩
    obtain ⟨hcall, hpos⟩ := List.mem_filter.mp hmem
    obtain ⟨delivery, hdelivery, hid⟩ :=
      (simulation.exists_delivery_iff hcall).mpr (of_decide_eq_true hpos)
    exact ⟨delivery, hdelivery, by rw [call_text, hid]⟩

theorem callsReported (hpeers : peers ≠ []) {rounding : ℚ} {lines : List Line}
    (hreported : Reported (fun publish_time => publish_time.repr.toList) (all_deliveries peers)
      rounding lines) : CallsReported calls peers rounding lines where
  values := hreported.values.trans (simulation.values_perm hpeers)
  received := by
    intro call hcall line hline hvalue
    rw [hreported.received line hline, hvalue, ← simulation.length_all_delays hcall,
      ← simulation.named_as_call hcall, List.length_map]
  average := by
    intro call hcall line hline hvalue
    have haverage := hreported.average line hline
    rw [hvalue] at haverage
    rw [← simulation.named_as_call hcall, List.mean, List.map_map, List.length_map]
    exact haverage

end Simulation

/-- The lines that run.sh collects, in any order: those of the nodes, and others
that the row filter of the scripts drops. -/
def Collected (host_name : Nat → String) (peers : List SimulatedNode) (records : List Text) : Prop :=
  ∃ noise : List Text, (∀ line ∈ noise, accepted line = false) ∧
    records.Perm (peers.flatMap (SimulatedNode.log host_name) ++ noise)

/-- A single line for the deliveries of all calls together. -/
def ReportedTogether (calls : List PublishCall) (peers : List SimulatedNode) (rounding : ℚ)
    (lines : List Line) : Prop :=
  ∃ line, lines = [line] ∧ line.value = [] ∧
    line.sum_rx_msgs = (calls.map (received peers)).sum ∧
    |line.average - (calls.flatMap (all_delays peers)).mean fun ms : Nat => (ms : ℚ)| ≤ rounding

theorem Simulation.all_deliveries_ne_nil (simulation : Simulation chunks calls peers)
    (hsome : ∃ call ∈ calls, 0 < received peers call) : all_deliveries peers ≠ [] := by
  obtain ⟨call, hcall, hpos⟩ := hsome
  obtain ⟨delivery, hdelivery, -⟩ := (simulation.exists_delivery_iff hcall).mpr hpos
  exact List.ne_nil_of_mem hdelivery

theorem peers_ne_nil (hsome : ∃ call ∈ calls, 0 < received peers call) : peers ≠ [] := by
  rintro rfl
  obtain ⟨call, -, hpos⟩ := hsome
  exact absurd hpos (Nat.lt_irrefl 0)

/-- When the scripts read no publish time, all deliveries share a line. -/
theorem Simulation.reportedTogether (simulation : Simulation chunks calls peers)
    (hsome : ∃ call ∈ calls, 0 < received peers call) {rounding : ℚ} {lines : List Line}
    (hreported : Reported (fun _ => []) (all_deliveries peers) rounding lines) :
    ReportedTogether calls peers rounding lines := by
  have hvalues : lines.map Line.value = [[]] := by
    have hperm := hreported.values
    rwa [List.map_const', List.replicate_dedup
      (List.length_pos_iff.mpr (simulation.all_deliveries_ne_nil hsome)).ne', List.perm_singleton]
      at hperm
  obtain ⟨line, rfl, hvalue⟩ := List.map_eq_singleton_iff.mp hvalues
  have hall : named_as (fun _ => []) (all_deliveries peers) line.value = all_deliveries peers := by
    rw [named_as, List.filter_eq_self]
    exact fun delivery _ => decide_eq_true hvalue.symm
  have hperm := simulation.latencies_perm (peers_ne_nil hsome)
  have hlengths : ∀ call ∈ calls, (all_delays peers call).length = received peers call :=
    fun call hcall => simulation.length_all_delays hcall
  refine ⟨line, rfl, hvalue, ?_, ?_⟩
  · rw [hreported.received line List.mem_cons_self, hall, ← List.length_map Delivery.latency,
      hperm.length_eq, List.length_flatMap, List.map_congr_left hlengths]
  · have haverage := hreported.average line List.mem_cons_self
    rw [← hperm.mean_eq, List.mean, List.map_map, List.length_map]
    rwa [hall] at haverage

/-- On hosts named `peer<i>` both scripts print one line for each call that some
node gets: how many nodes got it, and the average of their delays. The maxima of
the second script are the greatest delays. -/
theorem report_on_peers (simulation : Simulation chunks calls peers) {records : List Text}
    (hcollected : Collected peer_name peers records)
    (hsome : ∃ call ∈ calls, 0 < received peers call) :
    (∀ orders : shadow.summary_latency.Orders, orders.Enumerates
        (shadow.summary_latency.run records).lat_arr (shadow.summary_latency.run records).msg_arr →
      ∃ summary, shadow.summary_latency.end_rule orders (shadow.summary_latency.run records) =
        .ok summary ∧ CallsReported calls peers 0 summary.lines) ∧
    ∀ orders : shadow.summary_latency_large.Orders,
      orders.Enumerates (shadow.summary_latency_large.run records) →
      ∃ summary, shadow.summary_latency_large.end_rule orders
          (shadow.summary_latency_large.run records) = .ok summary ∧
        CallsReported calls peers 50 summary.lines ∧
        (summary.delays.map Prod.fst).Perm
          ((calls.filter fun call => 0 < received peers call).map call_text) ∧
        ∀ delay ∈ summary.delays, ∀ call ∈ calls, delay.1 = call_text call →
          IsGreatest {x : ℚ | ∃ ms ∈ all_delays peers call, x = ms} delay.2.to_number := by
  obtain ⟨noise, hnoise, hrecords⟩ := hcollected
  rw [simulation.log_eq] at hrecords
  have hlogged := simulation.all_deliveries_ne_nil hsome
  have hpeers := peers_ne_nil hsome
  constructor
  · intro orders horders
    obtain ⟨summary, hsummary, hreported⟩ :=
      hostNames_peer.reported_small hnoise hrecords hlogged horders
    exact ⟨summary, hsummary, simulation.callsReported hpeers hreported⟩
  · intro orders horders
    obtain ⟨summary, hsummary, hreported, hdelays, hgreatest⟩ :=
      hostNames_peer.reported_large hnoise hrecords hlogged horders
    refine ⟨summary, hsummary, simulation.callsReported hpeers hreported,
      hdelays.trans (simulation.values_perm hpeers), fun delay hdelay call hcall hvalue => ?_⟩
    have hmax := hgreatest delay hdelay
    rw [hvalue] at hmax
    simpa only [← simulation.named_as_call hcall, List.mem_map, exists_exists_and_eq_and] using hmax

/-- On the hosts of the generated network, which are named `pod-<i>`, both scripts
print a single line, which counts and averages all deliveries of all calls. -/
theorem report_on_pods (simulation : Simulation chunks calls peers) {records : List Text}
    (hcollected : Collected shadow.topogen.pod_name peers records)
    (hsome : ∃ call ∈ calls, 0 < received peers call) :
    (∀ orders : shadow.summary_latency.Orders, orders.Enumerates
        (shadow.summary_latency.run records).lat_arr (shadow.summary_latency.run records).msg_arr →
      ∃ summary, shadow.summary_latency.end_rule orders (shadow.summary_latency.run records) =
        .ok summary ∧ ReportedTogether calls peers 0 summary.lines) ∧
    ∀ orders : shadow.summary_latency_large.Orders,
      orders.Enumerates (shadow.summary_latency_large.run records) →
      ∃ summary, shadow.summary_latency_large.end_rule orders
          (shadow.summary_latency_large.run records) = .ok summary ∧
        ReportedTogether calls peers 50 summary.lines := by
  obtain ⟨noise, hnoise, hrecords⟩ := hcollected
  rw [simulation.log_eq] at hrecords
  have hlogged := simulation.all_deliveries_ne_nil hsome
  constructor
  · intro orders horders
    obtain ⟨summary, hsummary, hreported⟩ :=
      hostNames_pod.reported_small hnoise hrecords hlogged horders
    exact ⟨summary, hsummary, simulation.reportedTogether hsome hreported⟩
  · intro orders horders
    obtain ⟨summary, hsummary, hreported, -⟩ :=
      hostNames_pod.reported_large hnoise hrecords hlogged horders
    exact ⟨summary, hsummary, simulation.reportedTogether hsome hreported⟩

end

open nim_test_node.gossipsub_queues.main (pair_call pair_time pair_deliveries pair_traffic)

/-- A node that gets all fragments of one message, and one fragment of another. -/
def pair_node : SimulatedNode where
  host := 4
  pid := 1000
  heard := pair_deliveries
  completions := [none, none, some ⟨7, 5⟩]
  line := fun k => k + 9

theorem pair_simulation : Simulation 2 [pair_call 0, pair_call 1] [pair_node] where
  traffic := by
    intro peer hpeer
    rw [List.mem_singleton.mp hpeer]
    exact pair_traffic
  handled := by
    intro peer hpeer
    rw [List.mem_singleton.mp hpeer]
    exact ⟨_, rfl⟩
  clock := by
    intro peer hpeer message hmessage call hcall _
    rw [List.mem_singleton.mp hpeer] at hmessage
    have hlate : ∀ message ∈ pair_deliveries, message.recv_time = pair_time := by
      intro message hmessage
      simp only [pair_deliveries, List.mem_cons, List.not_mem_nil, or_false] at hmessage
      rcases hmessage with rfl | rfl | rfl <;> rfl
    rw [hlate message hmessage]
    rcases List.mem_pair.mp hcall with rfl | rfl <;> decide

theorem pair_received : ∃ call ∈ [pair_call 0, pair_call 1], 0 < received [pair_node] call :=
  ⟨pair_call 0, by simp, by decide +kernel⟩

theorem collected_log (host_name : Nat → String) (peers : List SimulatedNode) :
    Collected host_name peers (peers.flatMap (SimulatedNode.log host_name)) :=
  ⟨[], by simp, by simp⟩

theorem report_on_peers_pair :
    let records := [pair_node].flatMap (SimulatedNode.log peer_name)
    ∀ orders : shadow.summary_latency_large.Orders,
      orders.Enumerates (shadow.summary_latency_large.run records) →
      ∃ summary, shadow.summary_latency_large.end_rule orders
          (shadow.summary_latency_large.run records) = .ok summary ∧
        summary.lines.map Line.value = [['7']] ∧ summary.delays.map Prod.fst = [['7']] := by
  intro records orders horders
  have hvalues : ([pair_call 0, pair_call 1].filter fun call =>
      0 < received [pair_node] call).map call_text = [['7']] := by decide +kernel
  obtain ⟨summary, hsummary, hreported, hdelays, -⟩ :=
    (report_on_peers pair_simulation (collected_log peer_name _) pair_received).2 orders horders
  have hlines := hreported.values
  rw [hvalues] at hlines hdelays
  exact ⟨summary, hsummary, List.perm_singleton.mp hlines, List.perm_singleton.mp hdelays⟩

theorem report_on_pods_pair :
    let records := [pair_node].flatMap (SimulatedNode.log shadow.topogen.pod_name)
    ∀ orders : shadow.summary_latency.Orders, orders.Enumerates
        (shadow.summary_latency.run records).lat_arr (shadow.summary_latency.run records).msg_arr →
      ∃ summary, shadow.summary_latency.end_rule orders (shadow.summary_latency.run records) =
        .ok summary ∧ summary.lines.map Line.value = [[]] := by
  intro records orders horders
  obtain ⟨summary, hsummary, line, hlines, hvalue, -⟩ :=
    (report_on_pods pair_simulation (collected_log shadow.topogen.pod_name _) pair_received).1 orders horders
  exact ⟨summary, hsummary, by rw [hlines, List.map_singleton, hvalue]⟩

end nodes
