import Mathlib
import DstTestNode.Library.Decimal
import DstTestNode.Shadow.HostTable
import DstTestNode.Shadow.SummaryLatency

open awk
open shadow.topogen (pod_name)
open shadow.summary_latency (separator accepted arr CountsFor)

namespace shadow.latency_log

/-- One delivery in the output of a node. -/
structure Delivery where
  host : Nat
  pid : Nat
  line : Nat
  publish_time : Nat
  latency : Nat

/-- The file name and line number that grep prints, and the publish time that
follows them. -/
def location (host_name : Nat → String) (delivery : Delivery) : Text :=
  "shadow.data/hosts/".toList ++ (host_name delivery.host).toList ++ "/main.".toList ++
    delivery.pid.repr.toList ++ ".stdout:".toList ++ delivery.line.repr.toList ++ ":".toList ++
    delivery.publish_time.repr.toList

/-- The line that run.sh collects for a delivery. -/
def grep_line (host_name : Nat → String) (delivery : Delivery) : Text :=
  location host_name delivery ++ " milliseconds: ".toList ++ delivery.latency.repr.toList

/-- The summary reads a line as its comment says: `arr[4] = publish_time`,
`arr[2] = peerID`. -/
def Recovered (host_name : Nat → String) (delivery : Delivery) : Prop :=
  accepted (grep_line host_name delivery) = true ∧
    (element (arr (grep_line host_name delivery)) 2).to_string = delivery.host.repr.toList ∧
    (element (arr (grep_line host_name delivery)) 4).to_string = delivery.publish_time.repr.toList

/-- Both scripts report the publish times of a log, and nothing else. -/
def ReportsPublishTimes (host_name : Nat → String) (deliveries : List Delivery) : Prop :=
  let lines := deliveries.map (grep_line host_name)
  ∀ id, (id ∈ (summary_latency.run lines).msg_arr ↔
      ∃ delivery ∈ deliveries, delivery.publish_time.repr.toList = id) ∧
    (id ∈ (summary_latency_large.run lines).msg_arr ↔
      ∃ delivery ∈ deliveries, delivery.publish_time.repr.toList = id)

/-- A separator may start with `c` where `next` follows it. -/
def starts (c : Char) (next : Option Char) : Bool :=
  if c = 'p' then next == some 'e' else if c = '/' then next == some 'm' else c == ':'

/-- No two characters of a text start a separator. -/
def calm (rest : Text) : Text → Bool
  | [] => true
  | c :: cs => !starts c (cs ++ rest).head? && calm rest cs

theorem mem_separator {word : Text} : word ∈ separator.language ↔
    word = "peer".toList ∨ word = "/main".toList ∨ ∃ middle, word = ':' :: (middle ++ [':']) := by
  simp only [separator, Regex.mem_language_alt, Regex.mem_language_literal,
    Regex.mem_language_seq]
  refine or_congr_right (or_congr_right ⟨?_, ?_⟩)
  · rintro ⟨_, rfl, _, ⟨middle, -, _, rfl, rfl⟩, rfl⟩
    exact ⟨middle, rfl⟩
  · rintro ⟨middle, rfl⟩
    exact ⟨_, rfl, _, ⟨middle, Regex.mem_language_star_all middle, _, rfl, rfl⟩, rfl⟩

theorem starts_of_mem {c : Char} {word text : Text} (hmem : c :: word ∈ separator.language)
    (hbegins : word <+: text) : starts c text.head? = true := by
  obtain ⟨rest, rfl⟩ := hbegins
  rcases mem_separator.mp hmem with hpeer | hmain | ⟨middle, hcolon⟩
  · obtain ⟨rfl, rfl⟩ := List.cons.inj hpeer
    rfl
  · obtain ⟨rfl, rfl⟩ := List.cons.inj hmain
    rfl
  · obtain ⟨rfl, -⟩ := List.cons.inj hcolon
    rfl

theorem quiet_of_calm {rest text : Text} (hcalm : calm rest text = true) :
    separator.Quiet rest text := by
  induction text with
  | nil => trivial
  | cons c cs ih =>
    simp only [calm, Bool.and_eq_true, Bool.not_eq_true'] at hcalm
    refine ⟨fun word hbegins hmem => ?_, ih hcalm.2⟩
    exact Bool.false_ne_true (hcalm.1.symm.trans (starts_of_mem hmem hbegins))

theorem calm_digits (rest : Text) {text : Text} (hdigits : ∀ c ∈ text, c.isDigit = true) :
    calm rest text = true := by
  induction text with
  | nil => rfl
  | cons c cs ih =>
    have hc := hdigits c (by simp)
    have hstarts : starts c (cs ++ rest).head? = false := by
      unfold starts
      split_ifs with hp hslash
      · subst hp
        cases hc
      · subst hslash
        cases hc
      · rw [beq_eq_false_iff_ne]
        rintro rfl
        cases hc
    have hcs := ih fun d hd => hdigits d (List.mem_cons_of_mem c hd)
    simp only [calm, hstarts, hcs, Bool.not_false, Bool.and_self]

theorem quiet_repr (rest : Text) (n : Nat) : separator.Quiet rest n.repr.toList :=
  quiet_of_calm (calm_digits rest fun _ hc => Decimal.isDigit_of_mem_repr hc)

theorem longest_peer (rest : Text) :
    separator.longest ("peer".toList ++ rest) = some "peer".toList.length := by
  apply Regex.longest_append (mem_separator.mpr (.inl rfl))
  intro more _ hmore hmem
  rcases mem_separator.mp hmem with hpeer | hmain | ⟨middle, hcolon⟩
  · exact hmore (List.append_right_eq_self.mp hpeer)
  · cases hmain
  · cases hcolon

theorem longest_main (rest : Text) :
    separator.longest ("/main".toList ++ rest) = some "/main".toList.length := by
  apply Regex.longest_append (mem_separator.mpr (.inr (.inl rfl)))
  intro more _ hmore hmem
  rcases mem_separator.mp hmem with hpeer | hmain | ⟨middle, hcolon⟩
  · cases hpeer
  · exact hmore (List.append_right_eq_self.mp hmain)
  · cases hcolon

/-- A separator between colons ends at the last colon. -/
theorem longest_colons (middle : Text) {rest : Text} (hrest : ':' ∉ rest) :
    separator.longest (':' :: (middle ++ [':']) ++ rest) =
      some (':' :: (middle ++ [':'])).length := by
  apply Regex.longest_append (mem_separator.mpr (.inr (.inr ⟨middle, rfl⟩)))
  intro more hbegins hmore hmem
  rcases mem_separator.mp hmem with hpeer | hmain | ⟨other, hcolon⟩
  · cases hpeer
  · cases hmain
  · have hends := congrArg List.getLast? hcolon
    rw [← List.cons_append, List.getLast?_append_of_ne_nil _ hmore, ← List.cons_append,
      List.getLast?_concat] at hends
    exact hrest (hbegins.subset (List.mem_of_getLast? hends))

/-- What is left of a location once the host name is split off. -/
theorem split_main {head : Text} (pid line publish_time : Nat)
    (hquiet : ∀ rest, separator.Quiet ("/main".toList ++ rest) head) :
    separator.split (head ++ ("/main".toList ++ ((".".toList ++ pid.repr.toList ++
        ".stdout".toList) ++ (':' :: (line.repr.toList ++ [':']) ++ publish_time.repr.toList)))) =
      [head, ".".toList ++ pid.repr.toList ++ ".stdout".toList, publish_time.repr.toList] := by
  have hfile : separator.Quiet (':' :: (line.repr.toList ++ [':']) ++ publish_time.repr.toList)
      (".".toList ++ pid.repr.toList ++ ".stdout".toList) := by
    rw [Regex.quiet_append, Regex.quiet_append]
    exact ⟨⟨quiet_of_calm rfl, quiet_repr _ pid⟩, quiet_of_calm rfl⟩
  rw [Regex.split_separator (hquiet _) (by simp) (longest_main _),
    Regex.split_separator hfile (by simp) (longest_colons _ (Decimal.notMem_repr rfl publish_time)),
    Regex.split_quiet (quiet_repr [] publish_time)]

example : separator.split "peer4/main:2:90".toList =
    ["".toList, "4".toList, "".toList, "90".toList] := rfl

theorem any_is_blank_repr (n : Nat) : n.repr.toList.any is_blank = false :=
  List.any_eq_false.mpr fun _ hc => by simp [is_blank_of_isDigit (Decimal.isDigit_of_mem_repr hc)]

theorem any_is_blank_pod_name (i : Nat) : (pod_name i).toList.any is_blank = false := by
  have hliteral : "pod".toList.any is_blank = false ∧ "-".toList.any is_blank = false := ⟨rfl, rfl⟩
  simp only [pod_name, String.toList_append, List.any_append, hliteral, any_is_blank_repr,
    Bool.or_self]

theorem any_is_blank_location {host_name : Nat → String} {delivery : Delivery}
    (hname : (host_name delivery.host).toList.any is_blank = false) :
    (location host_name delivery).any is_blank = false := by
  have hhosts : "shadow.data/hosts/".toList.any is_blank = false := rfl
  have hmain : "/main.".toList.any is_blank = false := rfl
  have hstdout : ".stdout:".toList.any is_blank = false := rfl
  have hcolon : ":".toList.any is_blank = false := rfl
  unfold location
  simp only [List.any_append, hhosts, hmain, hstdout, hcolon, hname, any_is_blank_repr,
    Bool.or_self]

theorem location_ne_nil (host_name : Nat → String) (delivery : Delivery) :
    location host_name delivery ≠ [] :=
  List.append_ne_nil_of_right_ne_nil _ (Decimal.repr_ne_nil delivery.publish_time)

/-- A line has three fields when the host name has no blank. -/
theorem fields_grep_line {host_name : Nat → String} {delivery : Delivery}
    (hname : (host_name delivery.host).toList.any is_blank = false) :
    fields (grep_line host_name delivery) =
      [location host_name delivery, "milliseconds:".toList, delivery.latency.repr.toList] := by
  have hline : grep_line host_name delivery = location host_name delivery ++
      ' ' :: ("milliseconds:".toList ++ ' ' :: delivery.latency.repr.toList) := by
    have hunit : " milliseconds: ".toList = ' ' :: ("milliseconds:".toList ++ [' ']) := rfl
    simp only [grep_line, hunit, List.append_assoc, List.cons_append, List.nil_append]
  have hunit : "milliseconds:".toList.any is_blank = false := rfl
  rw [hline, fields_append (location_ne_nil host_name delivery) (any_is_blank_location hname),
    fields_append (by simp) hunit, fields_word (Decimal.repr_ne_nil _) (any_is_blank_repr _)]

theorem accepted_grep_line {host_name : Nat → String} {delivery : Delivery}
    (hname : (host_name delivery.host).toList.any is_blank = false) :
    accepted (grep_line host_name delivery) = true := by
  rw [summary_latency.accepted_eq, field, fields_grep_line hname]
  exact List.all_eq_true.mpr fun _ => Decimal.isDigit_of_mem_repr

theorem arr_grep_line {host_name : Nat → String} {delivery : Delivery}
    (hname : (host_name delivery.host).toList.any is_blank = false) :
    arr (grep_line host_name delivery) = separator.split (location host_name delivery) := by
  have hfirst : (field (grep_line host_name delivery) 1).to_string =
      location host_name delivery := by
    rw [field, fields_grep_line hname]
    rfl
  rw [arr, hfirst, split, if_neg (location_ne_nil host_name delivery)]

theorem location_eq (host_name : Nat → String) (delivery : Delivery) :
    location host_name delivery =
      ("shadow.data/hosts/".toList ++ (host_name delivery.host).toList) ++ ("/main".toList ++
        ((".".toList ++ delivery.pid.repr.toList ++ ".stdout".toList) ++
          (':' :: (delivery.line.repr.toList ++ [':']) ++ delivery.publish_time.repr.toList))) := by
  have hmain : "/main.".toList = "/main".toList ++ ".".toList := rfl
  have hstdout : ".stdout:".toList = ".stdout".toList ++ [':'] := rfl
  have hcolon : ":".toList = [':'] := rfl
  unfold location
  simp only [hmain, hstdout, hcolon, List.append_assoc, List.cons_append, List.nil_append]

/-- On a host of the generated network the file name is the second piece and
the publish time the last one: there is no fourth. -/
theorem arr_pod (delivery : Delivery) : arr (grep_line pod_name delivery) =
    ["shadow.data/hosts/".toList ++ (pod_name delivery.host).toList,
      ".".toList ++ delivery.pid.repr.toList ++ ".stdout".toList,
      delivery.publish_time.repr.toList] := by
  have hhead (rest : Text) : separator.Quiet ("/main".toList ++ rest)
      ("shadow.data/hosts/".toList ++ (pod_name delivery.host).toList) := by
    have hliteral : "shadow.data/hosts/".toList ++ (pod_name delivery.host).toList =
        "shadow.data/hosts/pod-".toList ++ delivery.host.repr.toList := by
      simp [pod_name]
    rw [hliteral, Regex.quiet_append]
    exact ⟨quiet_of_calm rfl, quiet_repr _ delivery.host⟩
  rw [arr_grep_line (any_is_blank_pod_name delivery.host), location_eq,
    split_main delivery.pid delivery.line delivery.publish_time hhead]

/-- The host names that the separator of the scripts is made for. -/
def peer_name (i : Nat) : String := "peer" ++ i.repr

theorem any_is_blank_peer_name (i : Nat) : (peer_name i).toList.any is_blank = false := by
  have hpeer : "peer".toList.any is_blank = false := rfl
  simp only [peer_name, String.toList_append, List.any_append, hpeer, any_is_blank_repr,
    Bool.or_self]

theorem arr_peer (delivery : Delivery) : arr (grep_line peer_name delivery) =
    ["shadow.data/hosts/".toList, delivery.host.repr.toList,
      ".".toList ++ delivery.pid.repr.toList ++ ".stdout".toList,
      delivery.publish_time.repr.toList] := by
  have hhosts (rest : Text) :
      separator.Quiet ("peer".toList ++ rest) "shadow.data/hosts/".toList := quiet_of_calm rfl
  rw [arr_grep_line (any_is_blank_peer_name delivery.host), location_eq, peer_name,
    String.toList_append, List.append_assoc, List.append_assoc,
    Regex.split_separator (hhosts _) (by simp) (longest_peer _),
    split_main delivery.pid delivery.line delivery.publish_time fun _ => quiet_repr _ _]

/-- What either script reports for a log. -/
theorem reports_iff {host_name : Nat → String} {deliveries : List Delivery} :
    ReportsPublishTimes host_name deliveries ↔
      ∀ id, (∃ delivery ∈ deliveries, CountsFor (grep_line host_name delivery) id) ↔
        ∃ delivery ∈ deliveries, delivery.publish_time.repr.toList = id := by
  simp only [ReportsPublishTimes, summary_latency.mem_msg_arr_run,
    summary_latency_large.mem_msg_arr_run, List.mem_map, exists_exists_and_eq_and, and_self]

theorem counts_for_pod {delivery : Delivery} {id : Text} :
    CountsFor (grep_line pod_name delivery) id ↔ id = [] := by
  rw [CountsFor, accepted_grep_line (any_is_blank_pod_name delivery.host), arr_pod]
  constructor
  · rintro ⟨-, -, hid⟩
    exact hid.symm
  · rintro rfl
    exact ⟨rfl, List.cons_ne_nil _ _, rfl⟩

/-- On hosts named `peer<i>` the summary recovers every log. -/
theorem peer_log_recovered (deliveries : List Delivery) :
    (∀ delivery ∈ deliveries, Recovered peer_name delivery) ∧
      ReportsPublishTimes peer_name deliveries := by
  have hrecovered (delivery : Delivery) : Recovered peer_name delivery := by
    refine ⟨accepted_grep_line (any_is_blank_peer_name delivery.host), ?_⟩
    rw [arr_peer]
    exact ⟨rfl, rfl⟩
  refine ⟨fun delivery _ => hrecovered delivery, reports_iff.mpr fun id => ?_⟩
  apply exists_congr
  intro delivery
  apply and_congr_right
  intro _
  obtain ⟨haccepted, -, hid⟩ := hrecovered delivery
  rw [CountsFor, hid]
  simp [haccepted, arr_peer]

theorem not_recovered_pod (delivery : Delivery) : ¬ Recovered pod_name delivery := by
  rintro ⟨-, hpeer, -⟩
  rw [arr_pod] at hpeer
  have hdot : '.' ∈ delivery.host.repr.toList := by
    rw [← hpeer]
    exact List.mem_cons_self
  exact Decimal.notMem_repr rfl delivery.host hdot

/-- On the hosts of the generated network the summary recovers no delivery, and
reports the publish times only of the log that has none. -/
theorem pod_log_recovered_iff (deliveries : List Delivery) :
    ((∀ delivery ∈ deliveries, Recovered pod_name delivery) ↔ deliveries = []) ∧
      (ReportsPublishTimes pod_name deliveries ↔ deliveries = []) := by
  cases deliveries with
  | nil => simp [reports_iff]
  | cons delivery deliveries =>
    simp only [reduceCtorEq, iff_false]
    refine ⟨fun hrecovered => not_recovered_pod delivery (hrecovered delivery (by simp)), ?_⟩
    intro hreports
    obtain ⟨other, -, hid⟩ :=
      (reports_iff.mp hreports []).mp ⟨delivery, by simp, counts_for_pod.mpr rfl⟩
    exact Decimal.repr_ne_nil other.publish_time hid

/-- One line of a log: the peer read from it is a file name, and the message
reported has no publish time. -/
theorem pod_line_unread :
    let delivery : Delivery := ⟨4, 1000, 7, 1700000000000000000, 200⟩
    grep_line pod_name delivery = ("shadow.data/hosts/pod-4/main.1000.stdout:7:" ++
        "1700000000000000000 milliseconds: 200").toList ∧
      (element (arr (grep_line pod_name delivery)) 2).to_string = ".1000.stdout".toList ∧
      (element (arr (grep_line pod_name delivery)) 4).to_string = [] ∧
      ¬ Recovered pod_name delivery ∧ ¬ ReportsPublishTimes pod_name [delivery] := by
  intro delivery
  refine ⟨by decide +kernel, ?_, ?_, not_recovered_pod delivery, fun hreports => ?_⟩
  · rw [arr_pod]
    decide +kernel
  · rw [arr_pod]
    rfl
  · obtain ⟨other, -, hid⟩ :=
      (reports_iff.mp hreports []).mp ⟨delivery, by simp, counts_for_pod.mpr rfl⟩
    exact Decimal.repr_ne_nil other.publish_time hid

end shadow.latency_log
