import DstTestNode.Nim.ConnmanagerEnv

open nim
open nim_test_node.connmanager.env

namespace nim_test_node.connmanager.main

variable {PeerId : Type}

/-- The address at which a hub dials the one with a number. -/
def hub_addr (hub_namespace : String) (i : Nat) : String :=
  "hub-" ++ i.repr ++ ".nimp2p-service." ++ hub_namespace ++ ".svc.cluster.local:5000"

/-- The other hubs that `runHub` dials, in order. -/
def peer_hubs (cfg : HubConfig PeerId) (hostname : String) : List String :=
  if cfg.num_hubs > 1 then
    ((List.range cfg.num_hubs.toNat).filter fun i : Nat => (i : Int) ≠ hostname_id hostname).map
      (hub_addr cfg.hub_namespace)
  else []

/-- All addresses that `runHub` starts to connect to, in order. -/
def hub_dials (cfg : HubConfig PeerId) (hostname : String) : List String :=
  cfg.outbound_peers ++ peer_hubs cfg hostname

/-- The address of a pod behind the service of the test nodes. -/
def pod_addr (hub_namespace hostname : String) : String :=
  hostname ++ ".nimp2p-service." ++ hub_namespace ++ ".svc.cluster.local:5000"

theorem hub_addr_eq_iff (hub_namespace : String) (i : Nat) (name : nodes.StatefulSetName) (j : Nat) :
    hub_addr hub_namespace i = pod_addr hub_namespace (name.hostname j) ↔
      name.chars = ['h', 'u', 'b'] ∧ i = j := by
  have hhub : (hub_addr hub_namespace i).toList = (['h', 'u', 'b'] ++ '-' :: i.repr.toList) ++
      (".nimp2p-service." ++ hub_namespace ++ ".svc.cluster.local:5000").toList := by
    simp [hub_addr]
  have hpod : (pod_addr hub_namespace (name.hostname j)).toList =
      (name.chars ++ '-' :: j.repr.toList) ++
        (".nimp2p-service." ++ hub_namespace ++ ".svc.cluster.local:5000").toList := by
    simp [pod_addr, nodes.StatefulSetName.hostname]
  rw [← String.toList_inj, hhub, hpod, List.append_left_inj,
    Segments.append_last_inj (Decimal.notMem_repr rfl i) (Decimal.notMem_repr rfl j),
    String.toList_inj, Nat.repr_inj, eq_comm (a := name.chars)]

theorem hub_addr_inj {hub_namespace : String} {i j : Nat}
    (hsame : hub_addr hub_namespace i = hub_addr hub_namespace j) : i = j := by
  rw [← Nat.repr_inj, ← String.toList_inj, Nat.toList_repr, Nat.toList_repr]
  simpa [hub_addr, ← String.toList_inj] using hsame

/-- The hubs are connected in both directions. A hub dials every other replica of a
StatefulSet of the name `hub` once and itself never, as long as there are several
hubs; the replicas of a StatefulSet of any other name are not dialed; and hubs dial
nothing else but the peers they are configured to. -/
theorem hub_mesh (cfg : HubConfig PeerId) (name : nodes.StatefulSetName) {i : Nat}
    (hi : i < 2 ^ 31) (j : Nat) :
    ((peer_hubs cfg (name.hostname i)).count (pod_addr cfg.hub_namespace (name.hostname j)) =
      if name.chars = ['h', 'u', 'b'] ∧ j ≠ i ∧ (j : Int) < cfg.num_hubs ∧ 1 < cfg.num_hubs then 1
      else 0) ∧
    ∀ address ∈ hub_dials cfg (name.hostname i), address ∈ cfg.outbound_peers ∨
      ∃ k : Nat, k ≠ i ∧ (k : Int) < cfg.num_hubs ∧ address = hub_addr cfg.hub_namespace k := by
  have hid := nodes.hostname_id_eq name i hi
  have hmem (address : String) : address ∈ peer_hubs cfg (name.hostname i) ↔
      1 < cfg.num_hubs ∧ ∃ k : Nat, k ≠ i ∧ (k : Int) < cfg.num_hubs ∧
        hub_addr cfg.hub_namespace k = address := by
    rw [peer_hubs, hid]
    split_ifs with hseveral
    · simp only [List.mem_map, List.mem_filter, List.mem_range, decide_eq_true_eq]
      constructor
      · rintro ⟨k, ⟨hk, hother⟩, haddress⟩
        exact ⟨hseveral, k, by omega, by omega, haddress⟩
      · rintro ⟨_, k, hother, hk, haddress⟩
        exact ⟨k, ⟨by omega, by omega⟩, haddress⟩
    · simp [hseveral]
  have hnodup : (peer_hubs cfg (name.hostname i)).Nodup := by
    rw [peer_hubs]
    split_ifs
    · exact (List.nodup_range.filter _).map fun _ _ => hub_addr_inj
    · exact List.nodup_nil
  refine ⟨?_, fun address haddress => ?_⟩
  · rw [hnodup.count]
    refine if_congr ((hmem _).trans ?_) rfl rfl
    simp only [hub_addr_eq_iff]
    constructor
    · rintro ⟨hseveral, k, hother, hk, hname, rfl⟩
      exact ⟨hname, hother, hk, hseveral⟩
    · rintro ⟨hname, hother, hj, hseveral⟩
      exact ⟨hseveral, j, hother, hj, hname, rfl⟩
  · rcases List.mem_append.mp haddress with houtbound | hpeer
    · exact .inl houtbound
    · obtain ⟨_, k, hother, hk, hsame⟩ := (hmem address).mp hpeer
      exact .inr ⟨k, hother, hk, hsame.symm⟩

/-- A cluster of three hubs. -/
def three_hubs : HubConfig String where
  low_water := 10
  high_water := 20
  grace_period_s := 0
  silence_period_s := 2
  max_connections := 0
  protected_peers := []
  outbound_peers := ["peer-0:5000"]
  num_hubs := 3
  hub_namespace := "nimlibp2p"

def hub_name : nodes.StatefulSetName where
  chars := ['h', 'u', 'b']
  charset := by simp
  first := ⟨'h', _, rfl, by simp⟩
  last := ⟨['h', 'u'], 'b', rfl, by simp⟩

theorem hub_mesh_three :
    (peer_hubs three_hubs (hub_name.hostname 1)).count
        (pod_addr "nimlibp2p" (hub_name.hostname 2)) = 1 ∧
      (peer_hubs three_hubs (hub_name.hostname 2)).count
        (pod_addr "nimlibp2p" (hub_name.hostname 1)) = 1 :=
  ⟨(hub_mesh three_hubs hub_name (by decide) 2).1.trans (if_pos (by decide)),
    (hub_mesh three_hubs hub_name (by decide) 1).1.trans (if_pos (by decide))⟩

end nim_test_node.connmanager.main
