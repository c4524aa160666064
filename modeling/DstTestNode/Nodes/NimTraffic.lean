import DstTestNode.Nim.GossipsubFragments
import DstTestNode.Nodes.Reassembly

open nim rust

namespace rust_test_node.main

/-- A report is about the timestamp that its delivery is counted under, with the
time since then as its latency. -/
theorem create_message_handler_report {profile : Profile} {message : Delivery} {chunks : UInt32}
    {self next : Receiver} {report : Report}
    (hstep : create_message_handler profile message chunks self = .ok (next, some report))
    (htime : counted_time message.data = some report.tx_time) :
    report.latency = ((message.now.unix_nano : Int) - report.tx_time).tdiv 1000000 := by
  have hbounds := counted_time_bounds htime
  have hnow := message.now.unix_nano_lt
  simp only [create_message_handler, bind, Except.bind] at hstep
  split at hstep
  · cases hstep
  · split at hstep
    · cases hstep
    · next tx_time _ =>
      split_ifs at hstep
      · split at hstep
        · cases hstep
        · split_ifs at hstep
          · cases hstep
          · split at hstep
            · cases hstep
            · next latency hlatency =>
              obtain ⟨_, hreport⟩ := Prod.mk.inj (Except.ok.inj hstep)
              obtain rfl := Option.some.inj hreport
              simp only at hbounds ⊢
              rw [i64_sub_of_bounds profile (by omega) (by omega)] at hlatency
              rw [← Except.ok.inj hlatency]
      · cases hstep

theorem receive_all_report {profile : Profile} {chunks : UInt32} {self next : Receiver}
    {messages : List Delivery} {reports : List (Option Report)}
    (hrun : receive_all profile chunks self messages = .ok (next, reports)) {k : Nat}
    (hk : k < messages.length) {report : Report} (hreport : reports[k]? = some (some report))
    (htime : counted_time messages[k].data = some report.tx_time) :
    report.latency = ((messages[k].now.unix_nano : Int) - report.tx_time).tdiv 1000000 := by
  induction messages generalizing self next reports k with
  | nil => cases hk
  | cons message messages ih =>
    simp only [receive_all, bind, Except.bind] at hrun
    split at hrun
    · cases hrun
    · next step hstep =>
      obtain ⟨mid, first⟩ := step
      split at hrun
      · cases hrun
      · next rest hrest =>
        obtain ⟨_, rfl⟩ := Prod.mk.inj (Except.ok.inj hrun)
        cases k with
        | zero =>
          obtain rfl : first = some report := Option.some.inj hreport
          exact create_message_handler_report hstep htime
        | succ k => exact ih hrest (by simpa using hk) (by simpa using hreport) htime

end rust_test_node.main

namespace go_test_node.main

/-- A report is about the header of its delivery, with the time since then. -/
theorem message_handler_report {chunks : Int} {message : Delivery} {msg_seen next : MsgSeen}
    {report : MessageReport}
    (hstep : message_handler chunks message msg_seen = .ok (next, some report))
    (hfits : report.sent < 2 ^ 63) (hlow : 0 ≤ message.now_nanos)
    (hhigh : message.now_nanos < 2 ^ 63) :
    report.milliseconds = (message.now_nanos - report.sent).tdiv 1000000 := by
  simp only [message_handler, bind, Except.bind] at hstep
  split at hstep
  · cases hstep
  · next header _ =>
    split_ifs at hstep
    · cases hstep
    · cases hstep
    · obtain ⟨_, hreport⟩ := Prod.mk.inj (Except.ok.inj hstep)
      obtain rfl := Option.some.inj hreport
      simp only at hfits ⊢
      have hsent : to_int64 (LittleEndian.value header) = LittleEndian.value header :=
        Int.bmod_eq_of_le_mul_two (by omega) (by omega)
      rw [hsent, time_since, min_eq_right (by omega), max_eq_right (by omega)]

theorem read_loop_report {chunks : Int} {msg_seen next : MsgSeen} {messages : List Delivery}
    {reports : List (Option MessageReport)}
    (hrun : read_loop chunks msg_seen messages = .ok (next, reports)) {k : Nat}
    (hk : k < messages.length) {report : MessageReport}
    (hreport : reports[k]? = some (some report)) (hfits : report.sent < 2 ^ 63)
    (hlow : 0 ≤ messages[k].now_nanos) (hhigh : messages[k].now_nanos < 2 ^ 63) :
    report.milliseconds = (messages[k].now_nanos - report.sent).tdiv 1000000 := by
  induction messages generalizing msg_seen next reports k with
  | nil => cases hk
  | cons message messages ih =>
    simp only [read_loop, bind, Except.bind] at hrun
    split at hrun
    · cases hrun
    · next step hstep =>
      obtain ⟨mid, first⟩ := step
      split at hrun
      · cases hrun
      · next rest hrest =>
        obtain ⟨_, rfl⟩ := Prod.mk.inj (Except.ok.inj hrun)
        cases k with
        | zero =>
          obtain rfl : first = some report := Option.some.inj hreport
          exact message_handler_report hstep hfits hlow hhigh
        | succ k => exact ih hrest (by simpa using hk) (by simpa using hreport) hlow hhigh

/-- Handling a sequence of payloads with headers never panics, and reports a
header at every delivery from its last fragment on. -/
theorem read_loop_spec (chunks : Int) (messages : List Delivery)
    (hlen : ∀ message ∈ messages, 8 ≤ message.data.length) {msg_seen : MsgSeen} {before : List Nat}
    (hcounts : msg_seen.Counts before) :
    ∃ next reports, read_loop chunks msg_seen messages = .ok (next, reports) ∧
      reports.length = messages.length ∧ ∀ k (hk : k < messages.length),
        (reports[k]?.join).map MessageReport.sent =
          (counted_header messages[k].data).filter fun sent =>
            chunks ≤ ((before ++ (messages.take (k + 1)).filterMap fun message =>
              counted_header message.data).count sent : Int) := by
  induction messages generalizing msg_seen before with
  | nil => exact ⟨msg_seen, [], rfl, rfl, by simp⟩
  | cons message messages ih =>
    obtain ⟨hfirst, hrest⟩ := List.forall_mem_cons.mp hlen
    obtain ⟨mid, report, hstep, hmid, hreport⟩ := message_handler_spec chunks message hfirst hcounts
    obtain ⟨next, reports, hrun, hlength, hreports⟩ := ih hrest hmid
    refine ⟨next, report :: reports, ?_, by simp [hlength], fun k hk => ?_⟩
    · simp only [read_loop, hstep, hrun, bind, Except.bind]
    · cases k with
      | zero =>
        rw [List.getElem?_cons_zero, Option.join_some, hreport]
        cases hheader : counted_header message.data with
        | none => simp [hheader]
        | some sent => simp [hheader, Option.filter_some]
      | succ k =>
        have htail := hreports k (by simpa using hk)
        cases hheader : counted_header message.data with
        | none => simpa [hheader] using htail
        | some sent => simpa [hheader] using htail

end go_test_node.main

namespace nodes

open rust_test_node.main (Payload counted_time receive_all receive_all_spec threshold)
open go_test_node.main (counted_header read_loop read_loop_spec)
open nim_test_node.gossipsub_queues.main (PublishCall Traffic handle_all)

/-- The payloads that a Nim node hears, with the readings of its clock. -/
def heard_by_nim (messages : List nim_test_node.Delivery) : List (Payload × Int) :=
  messages.map fun message => (message.data, message.recv_time.nanoseconds)

def heard_by_rust (messages : List rust_test_node.main.Delivery) : List (Payload × Int) :=
  messages.map fun message => (message.data, (message.now.unix_nano : Int))

def heard_by_go (messages : List go_test_node.main.Delivery) : List (Payload × Int) :=
  messages.map fun message => (message.data, message.now_nanos)

section

variable {chunks : Int} {calls : List PublishCall} {messages : List nim_test_node.Delivery}

/-- The Go node tells the calls apart by their times. -/
theorem reassembly_at_go (traffic : Traffic chunks calls messages)
    (htimes : (calls.map PublishCall.now_int).Nodup) :
    Reassembly PublishCall.payloads PublishCall.now_int counted_header chunks.toNat calls
      (messages.map nim_test_node.Delivery.data) :=
  { traffic.reassembly with
    keyed := by
      intro call hcall data hdata
      obtain ⟨_, htime, _⟩ := PublishCall.headers_of_mem_payloads (traffic.publishable call hcall)
        (traffic.timely call hcall) hdata
      rw [counted_header, htime, Option.filter_some,
        if_pos (by simpa using (traffic.timely call hcall).time_min)]
    keys_nodup := htimes }

/-- So does the Rust node, which reads the same times as signed numbers. -/
theorem reassembly_at_rust (traffic : Traffic chunks calls messages)
    (htimes : (calls.map PublishCall.now_int).Nodup) :
    Reassembly PublishCall.payloads (fun call => (call.now_int : Int)) counted_time chunks.toNat
      calls (messages.map nim_test_node.Delivery.data) :=
  { reassembly_at_go traffic htimes with
    keyed := by
      intro call hcall data hdata
      obtain ⟨⟨hlong, _⟩, htime, _⟩ := PublishCall.headers_of_mem_payloads
        (traffic.publishable call hcall) (traffic.timely call hcall) hdata
      have hmax := (traffic.timely call hcall).time_max
      rw [counted_time_eq_header (by omega) (by rw [htime]; simp only [int_high] at hmax; omega),
        (reassembly_at_go traffic htimes).keyed call hcall data hdata, Option.map_some]
    keys_nodup := by
      have hcast : calls.map (fun call => (call.now_int : Int)) =
          (calls.map PublishCall.now_int).map Nat.cast := by simp
      rw [hcast]
      exact htimes.map Nat.cast_injective }

/-- What the three nodes report at one delivery: the message it completes, each
under its own header and all with the same delay, or nothing. -/
def SameReports (calls : List PublishCall) (messages : List nim_test_node.Delivery) (k : Nat)
    (now : Int) (report : Option (Option rust_test_node.main.Report))
    (report' : Option (Option go_test_node.main.MessageReport))
    (completion : Option (Option nim_test_node.gossipsub_queues.main.Completion)) : Prop :=
  (∃ call ∈ calls, call.CompletedAt messages k ∧
    report = some (some ⟨call.now_int, (now - call.now_int).tdiv 1000000⟩) ∧
    report' = some (some ⟨call.now_int, (now - call.now_int).tdiv 1000000⟩) ∧
    completion = some (some ⟨call.msg_id, (now - call.now_int).tdiv 1000000⟩)) ∨
  ((∀ call ∈ calls, ¬ call.CompletedAt messages k) ∧
    report = some none ∧ report' = some none ∧ completion = some none)

theorem filter_congr {α : Type*} {option : Option α} {p q : α → Bool}
    (hpq : ∀ a, option = some a → p a = q a) : option.filter p = option.filter q := by
  cases option with
  | none => rfl
  | some a => rw [Option.filter_some, Option.filter_some, hpq a rfl]

/-- Every payload of the traffic is long enough for the time in its header. -/
theorem long_of_map (traffic : Traffic chunks calls messages) {Delivery : Type}
    {data : Delivery → Payload} {heard : List Delivery}
    (hdata : heard.map data = messages.map nim_test_node.Delivery.data) :
    ∀ message ∈ heard, 8 ≤ (data message).length := by
  intro message hmessage
  obtain ⟨other, hother, hsame⟩ := List.mem_map.mp (hdata ▸ List.mem_map_of_mem hmessage)
  obtain ⟨_, _, _, ⟨hlong, _⟩, _⟩ := traffic.headers hother
  rw [← hsame]
  omega

/-- The Rust node, which forgets completed messages, on the traffic of Nim nodes. -/
theorem reports_at_rust (profile : Profile) {chunks : UInt32}
    (traffic : Traffic chunks.toNat calls messages) (htimes : (calls.map PublishCall.now_int).Nodup)
    (metrics : rust_test_node.metrics.GossipSubMetrics)
    {heard : List rust_test_node.main.Delivery} (hheard : heard_by_rust heard = heard_by_nim messages) :
    ∃ receiver reports, receive_all profile chunks ⟨∅, metrics⟩ heard = .ok (receiver, reports) ∧
      ∀ k (hk : k < messages.length),
        (∃ call ∈ calls, call.CompletedAt messages k ∧ reports[k]? = some (some ⟨call.now_int,
          (messages[k].recv_time.nanoseconds - call.now_int).tdiv 1000000⟩)) ∨
        ((∀ call ∈ calls, ¬ call.CompletedAt messages k) ∧ reports[k]? = some none) := by
  have harrivals := reassembly_at_rust traffic htimes
  rw [Int.toNat_natCast] at harrivals
  have hdata : heard.map rust_test_node.main.Delivery.data =
      messages.map nim_test_node.Delivery.data := by
    simpa [heard_by_rust, heard_by_nim, Function.comp_def] using
      congrArg (List.map Prod.fst) hheard
  have hlength : heard.length = messages.length := by
    simpa [heard_by_rust, heard_by_nim] using congrArg List.length hheard
  have hlong := long_of_map traffic hdata
  obtain ⟨receiver, reports, hrun, _, hreported, hreports, _⟩ := receive_all_spec profile chunks
    ⟨∅, metrics⟩ heard hlong (CountingMap.accounts_empty _)
  refine ⟨receiver, reports, hrun, fun k hk => ?_⟩
  have hk' : k < heard.length := hlength ▸ hk
  have hat : (heard[k].data, (heard[k].now.unix_nano : Int)) =
      (messages[k].data, messages[k].recv_time.nanoseconds) := by
    have hboth : (heard_by_rust heard)[k]? = (heard_by_nim messages)[k]? := by rw [hheard]
    simpa [heard_by_rust, heard_by_nim, hk, hk'] using hboth
  obtain ⟨hdata_at, hnow⟩ := Prod.mk.inj hat
  have htimes_take : rust_test_node.main.counted_times (heard.take (k + 1)) =
      ((messages.map nim_test_node.Delivery.data).take (k + 1)).filterMap counted_time := by
    rw [← hdata, ← List.map_take, List.filterMap_map]
    rfl
  have hin : k < (messages.map nim_test_node.Delivery.data).length := by simpa using hk
  have hreport : (reports[k]?.join).map rust_test_node.main.Report.tx_time =
      (counted_time (messages.map nim_test_node.Delivery.data)[k]).filter fun tx_time =>
        chunks.toNat ≤ (((messages.map nim_test_node.Delivery.data).take (k + 1)).filterMap
          counted_time).count tx_time := by
    rw [hreports k hk', List.nil_append, htimes_take, hdata_at, List.getElem_map]
    apply filter_congr
    intro tx_time htime
    have hle := (harrivals.take (k + 1)).count_le tx_time
    rw [← List.getElem_map nim_test_node.Delivery.data (h := hin)] at htime
    have hpos := Reassembly.count_take_pos hin htime
    have hdvd := threshold_dvd_iff harrivals.chunks_pos hpos hle
    rw [Int.ofNat_le] at hdvd
    simpa using hdvd
  rcases harrivals.reports_at rust_test_node.main.Report.tx_time (by simp [hreported, hlength])
      hin hreport with ⟨call, hcall, hcompleted, report, hsome, htime⟩ | hnone
  · refine .inl ⟨call, hcall, hcompleted, ?_⟩
    have hlatency := rust_test_node.main.receive_all_report hrun hk' hsome (by
      rw [hdata_at, htime]
      have hkey := (harrivals.completes_iff hin _).mpr ⟨call, hcall, rfl, hcompleted⟩
      simpa using hkey.1)
    rw [hsome, ← htime, ← hnow, ← hlatency]
  · exact .inr hnone

/-- The Go node, which keeps its counts, on the traffic of Nim nodes. -/
theorem reports_at_go (traffic : Traffic chunks calls messages)
    (htimes : (calls.map PublishCall.now_int).Nodup) {heard : List go_test_node.main.Delivery}
    (hheard : heard_by_go heard = heard_by_nim messages)
    (hclock : ∀ message ∈ heard, 0 ≤ message.now_nanos ∧ message.now_nanos < 2 ^ 63) :
    ∃ msg_seen reports, read_loop chunks ∅ heard = .ok (msg_seen, reports) ∧
      ∀ k (hk : k < messages.length),
        (∃ call ∈ calls, call.CompletedAt messages k ∧ reports[k]? = some (some ⟨call.now_int,
          (messages[k].recv_time.nanoseconds - call.now_int).tdiv 1000000⟩)) ∨
        ((∀ call ∈ calls, ¬ call.CompletedAt messages k) ∧ reports[k]? = some none) := by
  have harrivals := reassembly_at_go traffic htimes
  have hchunks := traffic.chunks_pos
  have hdata : heard.map go_test_node.main.Delivery.data =
      messages.map nim_test_node.Delivery.data := by
    simpa [heard_by_go, heard_by_nim, Function.comp_def] using congrArg (List.map Prod.fst) hheard
  have hlength : heard.length = messages.length := by
    simpa [heard_by_go, heard_by_nim] using congrArg List.length hheard
  have hlong := long_of_map traffic hdata
  obtain ⟨msg_seen, reports, hrun, hreported, hreports⟩ := read_loop_spec chunks heard hlong
    go_test_node.main.MsgSeen.counts_empty
  refine ⟨msg_seen, reports, hrun, fun k hk => ?_⟩
  have hk' : k < heard.length := hlength ▸ hk
  have hat : (heard[k].data, heard[k].now_nanos) =
      (messages[k].data, messages[k].recv_time.nanoseconds) := by
    have hboth : (heard_by_go heard)[k]? = (heard_by_nim messages)[k]? := by rw [hheard]
    simpa [heard_by_go, heard_by_nim, hk, hk'] using hboth
  obtain ⟨hdata_at, hnow⟩ := Prod.mk.inj hat
  have hheaders_take : (heard.take (k + 1)).filterMap (fun message => counted_header message.data) =
      ((messages.map nim_test_node.Delivery.data).take (k + 1)).filterMap counted_header := by
    rw [← hdata, ← List.map_take, List.filterMap_map]
    rfl
  have hin : k < (messages.map nim_test_node.Delivery.data).length := by simpa using hk
  have hreport : (reports[k]?.join).map go_test_node.main.MessageReport.sent =
      (counted_header (messages.map nim_test_node.Delivery.data)[k]).filter fun sent =>
        chunks.toNat ≤ (((messages.map nim_test_node.Delivery.data).take (k + 1)).filterMap
          counted_header).count sent := by
    rw [hreports k hk', List.nil_append, hheaders_take, hdata_at, List.getElem_map]
    apply filter_congr
    intro sent _
    simp
  rcases harrivals.reports_at go_test_node.main.MessageReport.sent (by simp [hreported, hlength])
      hin hreport with ⟨call, hcall, hcompleted, report, hsome, htime⟩ | hnone
  · refine .inl ⟨call, hcall, hcompleted, ?_⟩
    have hmax := (traffic.timely call hcall).time_max
    obtain ⟨hlow, hhigh⟩ := hclock _ (List.getElem_mem hk')
    have hlatency := go_test_node.main.read_loop_report hrun hk' hsome
      (by rw [htime]; simp only [int_high] at hmax; omega) hlow hhigh
    rw [hsome, ← htime, ← hnow, ← hlatency]
  · exact .inr hnone

/-- What is reported at the delivery that completes a call. -/
theorem report_of_completedAt (traffic : Traffic chunks calls messages) {k : Nat}
    (hk : k < messages.length) {call : PublishCall} (hcall : call ∈ calls)
    (hcompleted : call.CompletedAt messages k) {β : Type*} {report none : β} {of : PublishCall → β}
    (hreport : (∃ call ∈ calls, call.CompletedAt messages k ∧ report = of call) ∨
      ((∀ call ∈ calls, ¬ call.CompletedAt messages k) ∧ report = none)) :
    report = of call := by
  rcases hreport with ⟨other, hother, hcompleted', hreport⟩ | ⟨hnever, _⟩
  · rw [traffic.reassembly.completedAt_unique (by simpa using hk) hcall hother hcompleted
      hcompleted', hreport]
  · exact absurd hcompleted (hnever call hcall)

/-- A Go node that hears what a Rust node hears reads clocks after the epoch. -/
theorem clock_at_go {rusts : List rust_test_node.main.Delivery}
    {gos : List go_test_node.main.Delivery} (hrusts : heard_by_rust rusts = heard_by_nim messages)
    (hgos : heard_by_go gos = heard_by_nim messages) :
    ∀ message ∈ gos, 0 ≤ message.now_nanos ∧ message.now_nanos < 2 ^ 63 := by
  intro message hmessage
  have hheard : (message.data, message.now_nanos) ∈ heard_by_rust rusts := by
    rw [hrusts, ← hgos]
    exact List.mem_map_of_mem hmessage
  obtain ⟨other, _, hsame⟩ := List.mem_map.mp hheard
  have hlt := other.now.unix_nano_lt
  rw [← (Prod.mk.inj hsame).2]
  omega

/-- On the traffic of Nim nodes, with ids and times that tell the messages apart,
the receivers of all three implementations get through every delivery and report
the same messages with the same deliveries and the same delays. -/
theorem receivers_agree (profile : Profile) {chunks : UInt32}
    (traffic : Traffic chunks.toNat calls messages) (htimes : (calls.map PublishCall.now_int).Nodup)
    (metrics : rust_test_node.metrics.GossipSubMetrics)
    {rusts : List rust_test_node.main.Delivery} {gos : List go_test_node.main.Delivery}
    (hrusts : heard_by_rust rusts = heard_by_nim messages)
    (hgos : heard_by_go gos = heard_by_nim messages) :
    ∃ receiver reports msg_seen reports' messages_chunks completions,
      receive_all profile chunks ⟨∅, metrics⟩ rusts = .ok (receiver, reports) ∧
      read_loop chunks.toNat ∅ gos = .ok (msg_seen, reports') ∧
      handle_all chunks.toNat ∅ messages = .ok (messages_chunks, completions) ∧
      ∀ k (hk : k < messages.length), SameReports calls messages k
        messages[k].recv_time.nanoseconds reports[k]? reports'[k]? completions[k]? := by
  obtain ⟨receiver, reports, hrust, hreports⟩ := reports_at_rust profile traffic htimes metrics hrusts
  obtain ⟨msg_seen, reports', hgo, hreports'⟩ :=
    reports_at_go traffic htimes hgos (clock_at_go hrusts hgos)
  obtain ⟨messages_chunks, completions, hnim, _, _, _, hcompletions⟩ := traffic.handled
  refine ⟨receiver, reports, msg_seen, reports', messages_chunks, completions, hrust, hgo, hnim,
    fun k hk => ?_⟩
  rcases hreports k hk with ⟨call, hcall, hcompleted, hrust⟩ | ⟨hnever, hrust⟩
  · exact .inl ⟨call, hcall, hcompleted, hrust,
      report_of_completedAt traffic hk hcall hcompleted (hreports' k hk),
      report_of_completedAt traffic hk hcall hcompleted (hcompletions k hk)⟩
  · rcases hreports' k hk with ⟨other, hother, hcompleted, _⟩ | ⟨_, hgo⟩
    · exact absurd hcompleted (hnever other hother)
    · rcases hcompletions k hk with ⟨other, hother, hcompleted, _⟩ | ⟨_, hnim⟩
      · exact absurd hcompleted (hnever other hother)
      · exact .inr ⟨hnever, hrust, hgo, hnim⟩

end

open nim_test_node.gossipsub_queues.main (pair_call pair_delivery)

/-- The fragments of one message, the second one first. -/
def swapped_deliveries : List nim_test_node.Delivery :=
  [pair_delivery 0 1, pair_delivery 0 0]

theorem swapped_traffic : Traffic 2 [pair_call 0] swapped_deliveries where
  chunks_pos := by decide
  chunks_le := by decide
  same_chunks := by decide
  publishable := by
    intro call hcall
    rw [List.mem_singleton.mp hcall]
    exact ⟨by decide, by decide, by decide⟩
  timely := by
    intro call hcall
    rw [List.mem_singleton.mp hcall]
    exact ⟨by decide, by decide, by decide⟩
  ids_nodup := by decide
  published := by decide +kernel
  once := by decide +kernel

/-- All three receivers report the message at the second delivery. -/
theorem receivers_agree_swapped :
    let rusts : List rust_test_node.main.Delivery := swapped_deliveries.map fun message =>
      ⟨message.data, 1700000000005000000, by decide, ""⟩
    let gos : List go_test_node.main.Delivery := swapped_deliveries.map fun message =>
      ⟨message.data, 1700000000005000000⟩
    ∃ receiver reports msg_seen reports' messages_chunks completions,
      receive_all .release 2 ⟨∅, .new 4⟩ rusts = .ok (receiver, reports) ∧
      read_loop 2 ∅ gos = .ok (msg_seen, reports') ∧
      handle_all 2 ∅ swapped_deliveries = .ok (messages_chunks, completions) ∧
      reports[1]? = some (some ⟨1700000000000000000, 5⟩) ∧
      reports'[1]? = some (some ⟨1700000000000000000, 5⟩) ∧
      completions[1]? = some (some ⟨7, 5⟩) := by
  intro rusts gos
  have traffic : Traffic (2 : UInt32).toNat [pair_call 0] swapped_deliveries := swapped_traffic
  have hrusts : heard_by_rust rusts = heard_by_nim swapped_deliveries := by decide +kernel
  have hgos : heard_by_go gos = heard_by_nim swapped_deliveries := by decide +kernel
  obtain ⟨receiver, reports, msg_seen, reports', messages_chunks, completions, hrust, hgo, hnim,
    hsame⟩ := receivers_agree .release traffic (by decide) (.new 4) hrusts hgos
  refine ⟨receiver, reports, msg_seen, reports', messages_chunks, completions, hrust, hgo, hnim, ?_⟩
  rcases hsame 1 (by decide) with ⟨call, hcall, _, hreport, hreport', hcompletion⟩ | ⟨hnever, _⟩
  · rw [List.mem_singleton.mp hcall] at hreport hreport' hcompletion
    exact ⟨hreport.trans (by decide +kernel), hreport'.trans (by decide +kernel),
      hcompletion.trans (by decide +kernel)⟩
  · exact absurd (by decide +kernel) (hnever (pair_call 0) List.mem_cons_self)

end nodes
