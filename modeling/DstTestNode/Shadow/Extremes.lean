import Mathlib
import DstTestNode.Library.Running
import DstTestNode.Shadow.Totals

open awk

namespace shadow.summary_shadowlog

/-- The figures are the least, the greatest and the mean of the sums of the
peers. -/
structure TrueExtremes (sum : Tally Text ℚ) (peers : List Text) (figures : ℚ × ℚ × ℚ) : Prop where
  min : IsLeast {x | x ∈ peers.map sum.value} figures.1
  max : IsGreatest {x | x ∈ peers.map sum.value} figures.2.1
  average : figures.2.2 = peers.mean sum.value
  min_le : figures.1 ≤ figures.2.2
  le_max : figures.2.2 ≤ figures.2.1

def Stats.figures (stats : Stats) : ℚ × ℚ × ℚ := (stats.min, stats.max, stats.average)

/-- In whatever orders the loops run, the figures of the peers are the same, and
they are the true ones. -/
def ExtremesRight (vars : Vars) : Prop :=
  ∃ receives transfers, TrueExtremes vars.sum_rx vars.peerlist.keys receives ∧
    TrueExtremes vars.sum_tx vars.peerlist.keys transfers ∧
    ∀ orders : Orders, orders.Enumerates vars → ∃ report, end_rule orders vars = .ok report ∧
      report.receives.figures = receives ∧ report.transfers.figures = transfers

/-- All peers are idle, or none is. -/
def AllOrNoneIdle (sum : Tally Text ℚ) (peers : List Text) : Prop :=
  (∀ peer ∈ peers, sum.value peer = 0) ∨ ∀ peer ∈ peers, sum.value peer ≠ 0

theorem extremes_eq (values : List ℚ) (first : Extremes) :
    values.foldl Extremes.note first =
      ⟨values.foldl Running.lower first.min, values.foldl max first.max,
        first.sum + values.sum⟩ := by
  induction values generalizing first with
  | nil => simp
  | cons value values ih =>
    rw [List.foldl_cons, ih]
    have hmax : (if value > first.max then value else first.max) = max first.max value := by
      rw [max_def]
      split_ifs <;> grind
    simp only [Extremes.note, hmax, List.foldl_cons, List.sum_cons, add_assoc, Running.lower]

theorem TrueExtremes.unique {sum : Tally Text ℚ} {peers : List Text} {figures others : ℚ × ℚ × ℚ}
    (htrue : TrueExtremes sum peers figures) (hother : TrueExtremes sum peers others) :
    figures = others :=
  Prod.ext (htrue.min.unique hother.min)
    (Prod.ext (htrue.max.unique hother.max) (htrue.average.trans hother.average.symm))

section

variable {sum : Tally Text ℚ} {peers : List Text} (hsome : peers ≠ [])
  (hnonneg : ∀ peer ∈ peers, 0 ≤ sum.value peer)

include hsome hnonneg

/-- Without a mixture of idle and other peers, the figures are right. -/
theorem trueExtremes_of_allOrNone (hidle : AllOrNoneIdle sum peers) {order : List Text}
    (horder : order.Perm peers) : TrueExtremes sum peers
      ((extremes (order.map sum.value)).min, (extremes (order.map sum.value)).max,
        (order.map sum.value).sum / peers.length) := by
  have hset : {x | x ∈ order.map sum.value} = {x | x ∈ peers.map sum.value} :=
    Set.ext fun _ => (horder.map sum.value).mem_iff
  have hvalues : order.map sum.value ≠ [] := by
    intro hnil
    rw [List.map_eq_nil_iff.mp hnil] at horder
    exact hsome (List.nil_perm.mp horder)
  have hvalues_nonneg : ∀ value ∈ order.map sum.value, 0 ≤ value :=
    List.forall_mem_map.mpr fun peer hpeer => hnonneg peer (horder.mem_iff.mp hpeer)
  have hmin : IsLeast {x | x ∈ order.map sum.value} (Running.least (order.map sum.value)) := by
    rcases hidle with hzero | hbusy
    · have hall : ∀ value ∈ order.map sum.value, value = 0 :=
        List.forall_mem_map.mpr fun peer hpeer => hzero peer (horder.mem_iff.mp hpeer)
      obtain ⟨value, hvalue⟩ := List.exists_mem_of_ne_nil _ hvalues
      rw [Running.least_zero hall]
      exact ⟨hall value hvalue ▸ hvalue, hvalues_nonneg⟩
    · apply Running.isLeast_least hvalues
      refine List.forall_mem_map.mpr fun peer hpeer => ?_
      have hmem := horder.mem_iff.mp hpeer
      exact lt_of_le_of_ne (hnonneg peer hmem) (Ne.symm (hbusy peer hmem))
  have hmax := Running.isGreatest_greatest hvalues hvalues_nonneg
  rw [hset] at hmin hmax
  rw [extremes, extremes_eq, (horder.map sum.value).sum_eq]
  refine ⟨hmin, hmax, rfl, ?_, ?_⟩
  · exact List.le_mean hsome fun peer hpeer => hmin.2 (List.mem_map_of_mem hpeer)
  · exact List.mean_le hsome fun peer hpeer => hmax.2 (List.mem_map_of_mem hpeer)

omit hsome in
/-- After a peer that is not idle, the least figure is not zero. -/
theorem extremes_min_pos {peer : Text} (hpeer : peer ∈ peers) (hbusy : sum.value peer ≠ 0) :
    ∃ order : List Text, order.Perm peers ∧ 0 < (extremes (order.map sum.value)).min := by
  refine ⟨peers.erase peer ++ [peer], ?_, ?_⟩
  · exact (List.perm_append_singleton _ _).trans (List.perm_cons_erase hpeer).symm
  · have hpos : 0 < sum.value peer := lt_of_le_of_ne (hnonneg peer hpeer) (Ne.symm hbusy)
    rw [extremes, extremes_eq, List.map_append]
    refine Running.least_append_pos (List.forall_mem_map.mpr fun other hother => ?_) hpos
    exact hnonneg other (List.mem_of_mem_erase hother)

omit hsome in
/-- With a mixture of idle and other peers, some order gives a wrong least
figure. -/
theorem allOrNone_of_isLeast (hleast : ∀ order : List Text, order.Perm peers →
    IsLeast {x | x ∈ peers.map sum.value} (extremes (order.map sum.value)).min) :
    AllOrNoneIdle sum peers := by
  refine or_iff_not_imp_right.mpr fun hmixed peer hpeer => ?_
  push Not at hmixed
  obtain ⟨idle, hidle, hzero⟩ := hmixed
  by_contra hbusy
  obtain ⟨order, horder, hpos⟩ := extremes_min_pos hnonneg hpeer hbusy
  have hle := (hleast order horder).2 (List.mem_map_of_mem hidle)
  rw [hzero] at hle
  exact absurd hpos (not_lt.mpr hle)

end

section

variable {vars : Vars} (hsome : vars.peerlist.keys ≠ [])
  (hrx : ∀ peer ∈ vars.peerlist.keys, 0 ≤ vars.sum_rx.value peer)
  (htx : ∀ peer ∈ vars.peerlist.keys, 0 ≤ vars.sum_tx.value peer)

include hsome hrx htx

/-- With no mixture of idle and other peers, the figures are the true ones. -/
theorem extremesRight_of_allOrNone (hrx_idle : AllOrNoneIdle vars.sum_rx vars.peerlist.keys)
    (htx_idle : AllOrNoneIdle vars.sum_tx vars.peerlist.keys) : ExtremesRight vars := by
  have hreceives := trueExtremes_of_allOrNone hsome hrx hrx_idle (.refl _)
  have htransfers := trueExtremes_of_allOrNone hsome htx htx_idle (.refl _)
  refine ⟨_, _, hreceives, htransfers, fun orders horders => ?_⟩
  obtain ⟨report, hreport, hin, hout, hmin, hmax, haverage, hmin', hmax', haverage', -⟩ :=
    end_rule_ok hsome orders
  refine ⟨report, hreport, ?_, ?_⟩
  · rw [Stats.figures, hmin, hmax, haverage, hin]
    exact (trueExtremes_of_allOrNone hsome hrx hrx_idle horders.first).unique hreceives
  · rw [Stats.figures, hmin', hmax', haverage', hout]
    exact (trueExtremes_of_allOrNone hsome htx htx_idle horders.first).unique htransfers

theorem ExtremesRight.allOrNone (hright : ExtremesRight vars) :
    AllOrNoneIdle vars.sum_rx vars.peerlist.keys ∧
      AllOrNoneIdle vars.sum_tx vars.peerlist.keys := by
  obtain ⟨receives, transfers, hreceives, htransfers, horders⟩ := hright
  have hmin (order : List Text) (horder : order.Perm vars.peerlist.keys) :
      (extremes (order.map vars.sum_rx.value)).min = receives.1 ∧
        (extremes (order.map vars.sum_tx.value)).min = transfers.1 := by
    let orders : Orders := ⟨order, vars.peerlist.keys⟩
    obtain ⟨report, hreport, hfigures, hfigures'⟩ := horders orders ⟨horder, .refl _⟩
    obtain ⟨other, hother, -, -, hmin, -, -, hmin', -⟩ := end_rule_ok hsome orders
    rw [hreport] at hother
    cases hother
    exact ⟨hmin.symm.trans (congrArg Prod.fst hfigures),
      hmin'.symm.trans (congrArg Prod.fst hfigures')⟩
  refine ⟨allOrNone_of_isLeast hrx fun order horder => ?_,
    allOrNone_of_isLeast htx fun order horder => ?_⟩
  · rw [(hmin order horder).1]
    exact hreceives.min
  · rw [(hmin order horder).2]
    exact htransfers.min

end

/-- The figures of the peers are right, in whatever order they are visited,
exactly when all peers are idle or none is, for each direction. -/
theorem extremes_right_iff {vars : Vars} (hsome : vars.peerlist.keys ≠ [])
    (hrx : ∀ peer ∈ vars.peerlist.keys, 0 ≤ vars.sum_rx.value peer)
    (htx : ∀ peer ∈ vars.peerlist.keys, 0 ≤ vars.sum_tx.value peer) :
    ExtremesRight vars ↔ AllOrNoneIdle vars.sum_rx vars.peerlist.keys ∧
      AllOrNoneIdle vars.sum_tx vars.peerlist.keys :=
  ⟨fun hright => hright.allOrNone hsome hrx htx,
    fun hidle => extremesRight_of_allOrNone hsome hrx htx hidle.1 hidle.2⟩

/-- In a log, no sum is negative. -/
theorem sums_nonneg (records : List Text) (peer : Text) :
    0 ≤ (run records).sum_rx.value peer ∧ 0 ≤ (run records).sum_tx.value peer :=
  ⟨value_run_nonneg rfl sum_rx_main_rule (positive_nonneg 2) records peer,
    value_run_nonneg rfl sum_tx_main_rule (positive_nonneg 3) records peer⟩

/-- A row of another node, which sent 400 bytes. -/
def other_heartbeat : Text :=
  "00:00:09 [7] 00:01:00 [message] pod-1 ".toList ++
    "[tracker.c:407] [log] [shadow-heartbeat] [node] ".toList ++ "60,0,400,0,0,0".toList

/-- A log of two peers that both sent something and received nothing. -/
theorem extremes_right_iff_heartbeat : ExtremesRight (run [heartbeat, other_heartbeat]) := by
  have hsome : (run [heartbeat, other_heartbeat]).peerlist.keys ≠ [] := by decide +kernel
  refine (extremes_right_iff hsome (fun peer _ => (sums_nonneg _ peer).1)
    fun peer _ => (sums_nonneg _ peer).2).mpr ⟨.inl ?_, .inr ?_⟩
  · decide +kernel
  · decide +kernel

/-- One of two peers sent 900 bytes. When it is visited last, the least number of
bytes sent is 900. -/
theorem idle_peer_forgotten :
    (run [heartbeat, idle_heartbeat]).sum_tx.value "pod-0".toList = 900 ∧
      (run [heartbeat, idle_heartbeat]).sum_tx.value "pod-1".toList = 0 ∧
      (extremes ((["pod-1".toList, "pod-0".toList].map
        (run [heartbeat, idle_heartbeat]).sum_tx.value))).min = 900 ∧
      ¬ ExtremesRight (run [heartbeat, idle_heartbeat]) := by
  have hbusy : (run [heartbeat, idle_heartbeat]).sum_tx.value "pod-0".toList = 900 := by
    decide +kernel
  have hidle : (run [heartbeat, idle_heartbeat]).sum_tx.value "pod-1".toList = 0 := by
    decide +kernel
  have hpeers : "pod-0".toList ∈ (run [heartbeat, idle_heartbeat]).peerlist.keys ∧
      "pod-1".toList ∈ (run [heartbeat, idle_heartbeat]).peerlist.keys := by decide +kernel
  refine ⟨hbusy, hidle, ?_, fun hright => ?_⟩
  · simp only [List.map_cons, List.map_nil, hbusy, hidle]
    decide +kernel
  · obtain ⟨-, hzero | hnone⟩ := hright.allOrNone (List.ne_nil_of_mem hpeers.1)
      (fun peer _ => (sums_nonneg _ peer).1) fun peer _ => (sums_nonneg _ peer).2
    · have hcontra := hzero _ hpeers.1
      rw [hbusy] at hcontra
      norm_num at hcontra
    · exact hnone _ hpeers.2 hidle

end shadow.summary_shadowlog
