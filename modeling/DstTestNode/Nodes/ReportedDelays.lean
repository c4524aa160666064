import DstTestNode.Nim.PublishClock
import DstTestNode.Nodes.NimTraffic

open nim rust
open nim_test_node (Time)
open nim_test_node.Time (Delay)
open nim_test_node.gossipsub_queues.main (PublishCall Traffic handle_all published_apart)
open rust_test_node.main (receive_all)
open go_test_node.main (read_loop)

namespace nodes

/-- Nodes of all three implementations that hear the same deliveries of the messages of
Nim nodes. When the messages are published more than two units apart, every
receiver reports a message with its last fragment, and all report one delay: the time
since the reading of the clock by the publisher, rounded down to milliseconds up to
the error of a published time, and never a negative number. -/
theorem reported_delays (profile : Profile) {chunks : UInt32} {digits : Nat}
    (hdigits : 28 ≤ digits ∧ digits ≤ 33) {published : List (PublishCall × Time)}
    {messages : List nim_test_node.Delivery} (hclock : ∀ sent ∈ published, sent.1.At digits sent.2)
    (hapart : (published.map fun sent => sent.2.nanoseconds).Pairwise (· + 2 ^ (digits - 22) < ·))
    (traffic : Traffic chunks.toNat (published.map Prod.fst) messages)
    (hheard : ∀ sent ∈ published, ∀ message ∈ messages, message.data ∈ sent.1.payloads →
      sent.2.nanoseconds ≤ message.recv_time.nanoseconds)
    (metrics : rust_test_node.metrics.GossipSubMetrics)
    {rusts : List rust_test_node.main.Delivery} {gos : List go_test_node.main.Delivery}
    (hrusts : heard_by_rust rusts = heard_by_nim messages)
    (hgos : heard_by_go gos = heard_by_nim messages) :
    ∃ receiver reports msg_seen reports' messages_chunks completions,
      receive_all profile chunks ⟨∅, metrics⟩ rusts = .ok (receiver, reports) ∧
      read_loop chunks.toNat ∅ gos = .ok (msg_seen, reports') ∧
      handle_all chunks.toNat ∅ messages = .ok (messages_chunks, completions) ∧
      ∀ k (hk : k < messages.length), ∀ sent ∈ published, sent.1.CompletedAt messages k →
        ∃ milliseconds, Delay digits sent.2 messages[k].recv_time milliseconds ∧
          reports[k]? = some (some ⟨sent.1.now_int, milliseconds⟩) ∧
          reports'[k]? = some (some ⟨sent.1.now_int, milliseconds⟩) ∧
          completions[k]? = some (some ⟨sent.1.msg_id, milliseconds⟩) := by
  have htimes : ((published.map Prod.fst).map PublishCall.now_int).Nodup := by
    have hordered := published_apart hdigits hclock hapart
    rw [List.map_map]
    exact hordered.imp Nat.ne_of_lt
  obtain ⟨receiver, reports, hrust, hreports⟩ := reports_at_rust profile traffic htimes metrics hrusts
  obtain ⟨msg_seen, reports', hgo, hreports'⟩ :=
    reports_at_go traffic htimes hgos (clock_at_go hrusts hgos)
  obtain ⟨messages_chunks, completions, hnim, _, _, _, hcompletions⟩ := traffic.handled
  refine ⟨receiver, reports, msg_seen, reports', messages_chunks, completions, hrust, hgo, hnim,
    fun k hk sent hsent hcompleted => ?_⟩
  have hcall : sent.1 ∈ published.map Prod.fst := List.mem_map_of_mem hsent
  have hafter := hheard sent hsent _ (List.getElem_mem hk)
    (traffic.mem_payloads_of_completedAt hcall hk hcompleted)
  have hdelay := (hclock sent hsent).within.delay hdigits hafter
  rw [← (hclock sent hsent).now_int] at hdelay
  exact ⟨_, hdelay, report_of_completedAt traffic hk hcall hcompleted (hreports k hk),
    report_of_completedAt traffic hk hcall hcompleted (hreports' k hk),
    report_of_completedAt traffic hk hcall hcompleted (hcompletions k hk)⟩

open nim_test_node.gossipsub_queues.main (clock_reading clocked_call clocked_call_at)

/-- The fragments of one message, heard five milliseconds after it was published. -/
def clocked_deliveries : List nim_test_node.Delivery :=
  (List.range 2).map fun chunk =>
    { data := (clocked_call 0).buffer.set 16 (UInt8.ofNat chunk)
      recv_time := clock_reading 5000 }

theorem clocked_traffic : Traffic (2 : UInt32).toNat [clocked_call 0] clocked_deliveries where
  chunks_pos := by decide
  chunks_le := by decide
  same_chunks := by decide
  publishable := by
    intro call hcall
    rw [List.mem_singleton.mp hcall]
    exact ⟨by decide, by decide, by decide⟩
  timely := by
    intro call hcall
    rw [List.mem_singleton.mp hcall]
    exact (clocked_call_at (by omega)).timely (by omega)
  ids_nodup := by decide
  published := by decide +kernel
  once := by decide +kernel

theorem reported_delays_clocked :
    let rusts : List rust_test_node.main.Delivery := clocked_deliveries.map fun message =>
      ⟨message.data, 1700000000128456789, by decide, ""⟩
    let gos : List go_test_node.main.Delivery := clocked_deliveries.map fun message =>
      ⟨message.data, 1700000000128456789⟩
    ∃ receiver reports msg_seen reports' messages_chunks completions milliseconds,
      receive_all .release 2 ⟨∅, .new 4⟩ rusts = .ok (receiver, reports) ∧
      read_loop 2 ∅ gos = .ok (msg_seen, reports') ∧
      handle_all 2 ∅ clocked_deliveries = .ok (messages_chunks, completions) ∧
      Delay 31 (clock_reading 0) (clock_reading 5000) milliseconds ∧
      reports[1]? = some (some ⟨1700000000123456768, milliseconds⟩) ∧
      completions[1]? = some (some ⟨7, milliseconds⟩) := by
  intro rusts gos
  have hclock : ∀ sent ∈ [(clocked_call 0, clock_reading 0)], sent.1.At 31 sent.2 := by
    intro sent hsent
    rw [List.mem_singleton.mp hsent]
    exact clocked_call_at (by omega)
  have hrusts : heard_by_rust rusts = heard_by_nim clocked_deliveries := by decide +kernel
  have hgos : heard_by_go gos = heard_by_nim clocked_deliveries := by decide +kernel
  obtain ⟨receiver, reports, msg_seen, reports', messages_chunks, completions, hrust, hgo, hnim,
    hreports⟩ := reported_delays .release (by omega) hclock (List.pairwise_singleton _ _)
      clocked_traffic (by decide +kernel) (.new 4) hrusts hgos
  obtain ⟨milliseconds, hdelay, hreport, _, hcompletion⟩ := hreports 1 (by decide) _
    List.mem_cons_self (by decide +kernel)
  have hsent : (clocked_call 0).now_int = 1700000000123456768 := by decide +kernel
  simp only [hsent, Nat.cast_ofNat] at hreport
  exact ⟨receiver, reports, msg_seen, reports', messages_chunks, completions, milliseconds, hrust,
    hgo, hnim, hdelay, hreport, hcompletion⟩

end nodes
