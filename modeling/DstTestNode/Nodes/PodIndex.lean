import DstTestNode.Go.Env
import DstTestNode.Nim.GossipsubEnv
import DstTestNode.Nim.PeerDetails
import DstTestNode.Rust.Env

open Decimal Segments

namespace nodes

/-- The name of a StatefulSet: letters and digits, with dashes inside. -/
structure StatefulSetName where
  chars : List Char
  charset : ∀ c ∈ chars, c.isLower = true ∨ c.isDigit = true ∨ c = '-'
  first : ∃ c rest, chars = c :: rest ∧ c ≠ '-'
  last : ∃ rest c, chars = rest ++ [c] ∧ c ≠ '-'

/-- The hostname of a pod. -/
def StatefulSetName.hostname (name : StatefulSetName) (k : Nat) : String :=
  String.ofList name.chars ++ "-" ++ k.repr

/-- `get_peer_details` does not panic, and gives the id. -/
def RustYields (hostname : String) (k : Nat) : Prop :=
  ∀ environment, ∃ result,
    rust_test_node.env.get_peer_details environment (some hostname) = some result ∧
      ∀ config, result = .ok config → config.my_id = k

def GoYields (hostname : String) (k : Nat) : Prop :=
  go_test_node.main.get_hostname (.ok hostname) = .ok (hostname, k)

/-- `getPeerDetails` of the gossipsub node does not raise, if its other numbers
can be read, and gives the id. -/
def GossipsubYields (hostname : String) (k : Nat) : Prop :=
  ∀ environment : nim.Environment, environment.lookup "PEER_ID_OFFSET" = none →
    (∃ peers, nim.parse_int (nim.get_env environment "PEERS" "100") = .ok peers) →
    (∃ connect_to, nim.parse_int (nim.get_env environment "CONNECTTO" "10") = .ok connect_to) →
    ∃ result, nim_test_node.gossipsub_queues.env.get_peer_details environment hostname =
        .ok result ∧
      ∀ details, result = .ok details → details.my_id = k

/-- `getPeerDetails` of the kad-dht node does not raise, if its role is known,
and gives the id. -/
def KadDhtYields (hostname : String) (k : Nat) : Prop :=
  ∀ my_port environment, (∃ role, nim.parse_enum nim_test_node.kad_dht.env.NodeType.names
      (nim.get_env environment "NODE_ROLE" "RoleBootstrap") = .ok role) →
    ∃ result, nim_test_node.kad_dht.env.get_peer_details my_port environment hostname =
        .ok result ∧
      ∀ details, result = .ok details → details.my_id = k

def RegressionYields (hostname : String) (k : Nat) : Prop :=
  ∀ listen_ip environment details,
    nim_test_node.regression.env.get_peer_details listen_ip environment hostname = .ok details →
      details.my_id = k

variable (name : StatefulSetName) (k : Nat)

theorem toList_hostname :
    (name.hostname k).toList = name.chars ++ '-' :: k.repr.toList := by
  simp [StatefulSetName.hostname]

theorem splitOn_hostname :
    (name.hostname k).toList.splitOn '-' = name.chars.splitOn '-' ++ [k.repr.toList] := by
  rw [toList_hostname, splitOn_append_last _ (notMem_repr rfl k)]

/-- The second segment of a hostname has letters and digits only. -/
theorem exists_second_segment : ∃ segment, ((name.hostname k).toList.splitOn '-')[1]? = some segment ∧
    (∀ c ∈ segment, c.isLower = true ∨ c.isDigit = true) ∧
    ('-' ∉ name.chars ∧ segment = k.repr.toList ∨
      '-' ∈ name.chars ∧ (name.chars.splitOn '-')[1]? = some segment) := by
  rw [splitOn_hostname]
  by_cases hdash : '-' ∈ name.chars
  · have hlong := one_lt_length_splitOn hdash
    refine ⟨(name.chars.splitOn '-')[1], ?_, fun c hc => ?_, .inr ⟨hdash, ?_⟩⟩
    · rw [List.getElem?_append_left hlong, List.getElem?_eq_getElem hlong]
    · obtain ⟨hmem, hnot⟩ := mem_of_mem_segment (List.getElem_mem hlong) hc
      rcases name.charset c hmem with hlower | hdigit | hsep
      · exact .inl hlower
      · exact .inr hdigit
      · exact absurd hsep hnot
    · exact List.getElem?_eq_getElem hlong
  · rw [List.splitOn_eq_singleton hdash]
    exact ⟨k.repr.toList, rfl, fun c hc => .inr (isDigit_of_mem_repr hc), .inl ⟨hdash, rfl⟩⟩

/-- The numeral of a pod is in the second segment of its hostname when the name
has one segment, or has the same number in its own second one. -/
theorem numeral_second_segment {segment : List Char}
    (hsegment : ((name.hostname k).toList.splitOn '-')[1]? = some segment) :
    Numeral segment k ↔ '-' ∉ name.chars ∨
      ∃ segment, (name.chars.splitOn '-')[1]? = some segment ∧ Numeral segment k := by
  obtain ⟨other, hother, _, hcases⟩ := exists_second_segment name k
  obtain rfl := Option.some.inj (hsegment.symm.trans hother)
  rcases hcases with ⟨hdash, rfl⟩ | ⟨hdash, hname⟩
  · exact iff_of_true (numeral_repr k) (.inl hdash)
  · simp [hdash, hname]

/-- The Rust node takes the second segment. -/
theorem rust_yields_iff {segment : List Char} (hk : k < 2 ^ 31)
    (hsegment : ((name.hostname k).toList.splitOn '-')[1]? = some segment)
    (hchars : ∀ c ∈ segment, c.isLower = true ∨ c.isDigit = true) :
    RustYields (name.hostname k) k ↔ Numeral segment k := by
  have hplus : '+' ∉ segment := fun hmem => by simpa using hchars _ hmem
  rw [RustYields, rust_test_node.env.get_peer_details_yields_iff,
    rust_test_node.env.hostname_id, hsegment, Option.bind_some,
    rust_test_node.env.parse_unsigned_eq_some 64 hplus]
  exact and_iff_left (by omega)

/-- So does the Go node. -/
theorem go_yields_iff {segment : List Char} (hk : k < 2 ^ 31)
    (hsegment : ((name.hostname k).toList.splitOn '-')[1]? = some segment)
    (hchars : ∀ c ∈ segment, c.isLower = true ∨ c.isDigit = true) :
    GoYields (name.hostname k) k ↔ Numeral segment k := by
  have hplus : '+' ∉ segment := fun hmem => by simpa using hchars _ hmem
  have hminus : '-' ∉ segment := fun hmem => by simpa using hchars _ hmem
  rw [GoYields, go_test_node.main.get_hostname_eq_ok hsegment,
    go_test_node.main.atoi_eq_some hplus hminus]
  exact and_iff_left (by omega)

/-- The Nim nodes take the last segment, which is the number of the pod. -/
theorem parse_last_part (hk : k < 2 ^ 31) :
    nim.parse_int (nim.last_part (name.hostname k) '-') = .ok k := by
  rw [StatefulSetName.hostname, nim.last_part_number, nim.parse_int_repr (by omega)]

theorem hostname_id_eq (hk : k < 2 ^ 31) : nim_test_node.hostname_id (name.hostname k) = k := by
  rw [nim_test_node.hostname_id, parse_last_part name k hk]

theorem gossipsub_yields (hk : k < 2 ^ 31) : GossipsubYields (name.hostname k) k := by
  rintro environment hunset ⟨peers, hpeers⟩ ⟨connect_to, hconnect⟩
  have hoffset : nim.parse_int (nim.get_env environment "PEER_ID_OFFSET" "0") = .ok 0 := by
    rw [nim.get_env, hunset]
    exact nim.parse_int_repr (n := 0) (by omega)
  have hadd : nim.int_add 0 k = .ok (k : Int) := by
    rw [nim.int_add, if_pos (by simp only [nim.int_low, nim.int_high]; omega), zero_add]
  simp only [nim_test_node.gossipsub_queues.env.get_peer_details, parse_last_part name k hk,
    hoffset, hadd, hpeers, hconnect, bind, Except.bind]
  split
  · exact ⟨_, rfl, by simp⟩
  · split
    · exact ⟨_, rfl, by simp⟩
    · refine ⟨_, rfl, fun details hdetails => ?_⟩
      cases hdetails
      rfl

/-- The Nim nodes derive the index of the pod from every hostname. The Rust and
the Go node do so exactly when the name of the set has no dash, or has the same
number between its first two dashes. -/
theorem pod_index (hk : k < 2 ^ 31) :
    (GossipsubYields (name.hostname k) k ∧ KadDhtYields (name.hostname k) k ∧
      RegressionYields (name.hostname k) k) ∧
    (RustYields (name.hostname k) k ↔ '-' ∉ name.chars ∨
      ∃ segment, (name.chars.splitOn '-')[1]? = some segment ∧ Numeral segment k) ∧
    (GoYields (name.hostname k) k ↔ '-' ∉ name.chars ∨
      ∃ segment, (name.chars.splitOn '-')[1]? = some segment ∧ Numeral segment k) := by
  obtain ⟨segment, hsegment, hchars, _⟩ := exists_second_segment name k
  have hid := hostname_id_eq name k hk
  refine ⟨⟨gossipsub_yields name k hk, fun my_port environment hrole => ?_,
    fun listen_ip environment details hdetails => ?_⟩, ?_, ?_⟩
  · obtain ⟨role, hrole⟩ := hrole
    have hyields := nim_test_node.kad_dht.env.get_peer_details_yields my_port hrole
      (name.hostname k)
    rwa [hid] at hyields
  · rw [nim_test_node.regression.env.get_peer_details_yields hdetails, hid]
  · rw [rust_yields_iff name k hk hsegment hchars, numeral_second_segment name k hsegment]
  · rw [go_yields_iff name k hk hsegment hchars, numeral_second_segment name k hsegment]

/-- The name of the set in most deployments. -/
def pod_name : StatefulSetName where
  chars := ['p', 'o', 'd']
  charset := by simp
  first := ⟨'p', _, rfl, by simp⟩
  last := ⟨['p', 'o'], 'd', rfl, by simp⟩

theorem pod_index_seven :
    RustYields (pod_name.hostname 7) 7 ∧ GoYields (pod_name.hostname 7) 7 ∧
      KadDhtYields (pod_name.hostname 7) 7 := by
  obtain ⟨hnim, hrust, hgo⟩ := pod_index pod_name 7 (by omega)
  have hdash : '-' ∉ pod_name.chars := by simp [pod_name]
  exact ⟨hrust.mpr (.inl hdash), hgo.mpr (.inl hdash), hnim.2.1⟩

/-- A name of two words. -/
def test_node_name : StatefulSetName where
  chars := ['t', 'e', 's', 't', '-', 'n', 'o', 'd', 'e']
  charset := by simp
  first := ⟨'t', _, rfl, by simp⟩
  last := ⟨['t', 'e', 's', 't', '-', 'n', 'o', 'd'], 'e', rfl, by simp⟩

/-- On the hostname `test-node-0` the Rust and the Go node panic. -/
theorem pod_index_two_words :
    ¬ ∀ (name : StatefulSetName) (k : Nat), k < 2 ^ 31 →
      RustYields (name.hostname k) k ∧ GoYields (name.hostname k) k ∧
        GossipsubYields (name.hostname k) k ∧ KadDhtYields (name.hostname k) k ∧
        RegressionYields (name.hostname k) k := by
  intro hclaim
  obtain ⟨_, hgo, _⟩ := hclaim test_node_name 0 (by omega)
  have hpanics : go_test_node.main.get_hostname (.ok (test_node_name.hostname 0)) =
      .error .parsing_id := rfl
  cases hpanics.symm.trans hgo

end nodes
