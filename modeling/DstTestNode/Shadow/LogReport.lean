import Mathlib
import DstTestNode.Shadow.Statistics

open awk
open shadow.topogen (pod_name)
open shadow.summary_latency (accepted arr message latency message_rows rows_of mem_rows_of Line
  LatencyRows)

namespace shadow.latency_log

/-- Host names under which the scripts read the publish time of a delivery as
`named` tells. -/
structure HostNames (host_name : Nat → String) (named : Nat → Text) : Prop where
  plain : ∀ i, (host_name i).toList.any is_blank = false
  message_line : ∀ delivery, message (grep_line host_name delivery) = named delivery.publish_time
  separable : ∀ publish_time, '\x1c' ∉ named publish_time

theorem hostNames_peer : HostNames peer_name fun publish_time => publish_time.repr.toList where
  plain := any_is_blank_peer_name
  message_line := summary_latency.message_grep_line
  separable := fun publish_time => Decimal.notMem_repr rfl publish_time

theorem hostNames_pod : HostNames pod_name fun _ => [] where
  plain := any_is_blank_pod_name
  message_line := by
    intro delivery
    rw [message, arr_pod]
    rfl
  separable := fun _ => List.not_mem_nil

/-- The deliveries that the scripts read under one name. -/
def named_as (named : Nat → Text) (deliveries : List Delivery) (value : Text) : List Delivery :=
  deliveries.filter fun delivery => named delivery.publish_time = value

/-- The lines for the deliveries of a log: one for each name, with the number of
its deliveries and their average up to a rounding. -/
structure Reported (named : Nat → Text) (deliveries : List Delivery) (rounding : ℚ)
    (lines : List Line) : Prop where
  values : (lines.map Line.value).Perm
    ((deliveries.map fun delivery => named delivery.publish_time).dedup)
  received : ∀ line ∈ lines, line.sum_rx_msgs = (named_as named deliveries line.value).length
  average : ∀ line ∈ lines, |line.average -
    (named_as named deliveries line.value).mean fun delivery => (delivery.latency : ℚ)| ≤ rounding

section

variable {host_name : Nat → String} {named : Nat → Text} {deliveries : List Delivery}
  {noise records : List Text}

namespace HostNames

variable (names : HostNames host_name named)

include names

theorem accepted_line (delivery : Delivery) : accepted (grep_line host_name delivery) = true :=
  accepted_grep_line (names.plain delivery.host)

theorem field_line (delivery : Delivery) :
    field (grep_line host_name delivery) 3 = .input delivery.latency.repr.toList := by
  rw [field, fields_grep_line (names.plain delivery.host)]
  rfl

theorem latency_line (delivery : Delivery) :
    latency (grep_line host_name delivery) = delivery.latency := by
  rw [latency, names.field_line]
  exact Decimal.ofDigitChars_repr delivery.latency

theorem last_field_line (delivery : Delivery) :
    last_field (grep_line host_name delivery) = field (grep_line host_name delivery) 3 := by
  rw [last_field, field, fields_grep_line (names.plain delivery.host)]
  rfl

variable (hnoise : ∀ line ∈ noise, accepted line = false)
  (hrecords : records.Perm (deliveries.map (grep_line host_name) ++ noise))

include hnoise hrecords

/-- The row filter keeps the deliveries. -/
theorem filter_accepted :
    (records.filter accepted).Perm (deliveries.map (grep_line host_name)) := by
  have hkept : (deliveries.map (grep_line host_name)).filter accepted =
      deliveries.map (grep_line host_name) := by
    rw [List.filter_eq_self, List.forall_mem_map]
    exact fun delivery _ => names.accepted_line delivery
  have hdropped : noise.filter accepted = [] :=
    List.filter_eq_nil_iff.mpr fun line hline => by simp [hnoise line hline]
  have hperm := hrecords.filter accepted
  rwa [List.filter_append, hkept, hdropped, List.append_nil] at hperm

theorem exists_delivery {record : Text} (hrecord : record ∈ records)
    (haccepted : accepted record = true) : ∃ delivery, record = grep_line host_name delivery := by
  have hmem := (names.filter_accepted hnoise hrecords).mem_iff.mp
    (List.mem_filter.mpr ⟨hrecord, haccepted⟩)
  obtain ⟨delivery, -, rfl⟩ := List.mem_map.mp hmem
  exact ⟨delivery, rfl⟩

theorem latencyRows : LatencyRows records := by
  intro record hrecord haccepted
  obtain ⟨delivery, rfl⟩ := names.exists_delivery hnoise hrecords hrecord haccepted
  rw [names.field_line, names.message_line]
  exact ⟨Decimal.repr_ne_nil delivery.latency, names.separable delivery.publish_time⟩

theorem largeRows : summary_latency_large.LargeRows records := by
  refine ⟨names.latencyRows hnoise hrecords, fun record hrecord haccepted => ?_⟩
  obtain ⟨delivery, rfl⟩ := names.exists_delivery hnoise hrecords hrecord haccepted
  have hrow := names.latencyRows hnoise hrecords _ hrecord haccepted
  rw [names.last_field_line]
  exact summary_latency.to_number_field haccepted hrow.1

/-- The rows of a message are the deliveries that are read under its name. -/
theorem message_rows_perm (value : Text) : (message_rows records value).Perm
    ((named_as named deliveries value).map (grep_line host_name)) := by
  have hperm := (names.filter_accepted hnoise hrecords).filter fun record => message record = value
  rw [List.filter_map] at hperm
  have hsame : ((fun record => decide (message record = value)) ∘ grep_line host_name) =
      fun delivery => decide (named delivery.publish_time = value) := by
    funext delivery
    simp only [Function.comp, names.message_line]
  rwa [hsame] at hperm

theorem length_message_rows (value : Text) :
    (message_rows records value).length = (named_as named deliveries value).length := by
  rw [(names.message_rows_perm hnoise hrecords value).length_eq, List.length_map]

theorem mean_message_rows (value : Text) :
    ((message_rows records value).mean fun record => (latency record : ℚ)) =
      (named_as named deliveries value).mean fun delivery => (delivery.latency : ℚ) := by
  rw [(names.message_rows_perm hnoise hrecords value).mean_eq, List.mean, List.mean, List.map_map,
    List.length_map]
  simp only [Function.comp_def, names.latency_line]

theorem messages_perm : (summary_latency_large.messages records).Perm
    ((deliveries.map fun delivery => named delivery.publish_time).dedup) := by
  have hperm := ((names.filter_accepted hnoise hrecords).map message).dedup
  rw [List.map_map] at hperm
  simpa only [Function.comp_def, names.message_line, summary_latency_large.messages] using hperm

/-- What summary_latency.awk prints for a log. -/
theorem reported_small (hsome : deliveries ≠ []) {orders : summary_latency.Orders}
    (horders : orders.Enumerates (summary_latency.run records).lat_arr
      (summary_latency.run records).msg_arr) :
    ∃ summary, summary_latency.end_rule orders (summary_latency.run records) = .ok summary ∧
      Reported named deliveries 0 summary.lines := by
  have hrows := names.latencyRows hnoise hrecords
  have hnonempty : records ≠ [] := by
    rintro rfl
    simp [hsome] at hrecords
  obtain ⟨header, hsummary⟩ := summary_latency.end_rule_run hrows hnonempty horders
  refine ⟨_, hsummary, ?_, ?_, ?_⟩
  · rw [List.map_map]
    refine .trans ?_ (names.messages_perm hnoise hrecords)
    exact (List.map_id' orders.values).symm ▸ horders.values.trans
      (summary_latency_large.keys_perm_messages (summary_latency.mem_msg_arr_iff hrows))
  · rintro line hline
    obtain ⟨value, -, rfl⟩ := List.mem_map.mp hline
    exact names.length_message_rows hnoise hrecords value
  · rintro line hline
    obtain ⟨value, -, rfl⟩ := List.mem_map.mp hline
    rw [← names.mean_message_rows hnoise hrecords]
    exact (abs_eq_zero.mpr (sub_self _)).le

/-- What summary_latency_large.awk prints for a log, the maxima included. -/
theorem reported_large (hsome : deliveries ≠ []) {orders : summary_latency_large.Orders}
    (horders : orders.Enumerates (summary_latency_large.run records)) :
    ∃ summary, summary_latency_large.end_rule orders (summary_latency_large.run records) =
        .ok summary ∧
      Reported named deliveries 50 summary.lines ∧
      (summary.delays.map Prod.fst).Perm
        ((deliveries.map fun delivery => named delivery.publish_time).dedup) ∧
      ∀ delay ∈ summary.delays, IsGreatest
        {x : ℚ | ∃ delivery ∈ named_as named deliveries delay.1, x = delivery.latency}
        delay.2.to_number := by
  obtain ⟨delivery, hdelivery⟩ := List.exists_mem_of_ne_nil _ hsome
  have hrecord : grep_line host_name delivery ∈ records := hrecords.mem_iff.mpr
    (List.mem_append_left _ (List.mem_map_of_mem hdelivery))
  obtain ⟨summary, hsummary, hstatistics, -⟩ := summary_latency_large.statistics_run
    (names.largeRows hnoise hrecords) ⟨_, hrecord, names.accepted_line delivery⟩ horders
  have hmessages := names.messages_perm hnoise hrecords
  refine ⟨summary, hsummary, ⟨hstatistics.lines.trans hmessages, ?_, ?_⟩,
    hstatistics.delays.trans hmessages, ?_⟩
  · intro line hline
    rw [hstatistics.received line hline, names.length_message_rows hnoise hrecords]
  · intro line hline
    have haverage := hstatistics.average line hline
    rw [names.mean_message_rows hnoise hrecords] at haverage
    exact haverage.trans (by norm_num [summary_latency.hop_lat])
  · intro delay hdelay
    have hgreatest := hstatistics.maximum delay hdelay
    simpa only [(names.message_rows_perm hnoise hrecords delay.1).mem_iff, List.mem_map,
      exists_exists_and_eq_and, names.latency_line] using hgreatest

end HostNames

end

end shadow.latency_log
