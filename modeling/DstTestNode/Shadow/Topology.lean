import Mathlib.Data.List.AList
import DstTestNode.Shadow.Python

open python

namespace shadow.topogen

/-- The text `f"{value} {unit}"`. -/
structure Quantity where
  value : Int
  unit : String
  deriving DecidableEq, Repr

/-- The attributes of a node, each absent until it is set. -/
structure NodeAttrs where
  host_bandwidth_up : Option Quantity
  host_bandwidth_down : Option Quantity
  deriving DecidableEq, Repr

/-- The attributes of an edge, each absent until it is set. -/
structure EdgeAttrs (Loss : Type) where
  latency : Option Quantity
  packet_loss : Option Loss

/-- A simple undirected graph with attributes. -/
structure Graph (Loss : Type) where
  nodes : AList fun _ : Nat => NodeAttrs
  edges : AList fun _ : Nat × Nat => EdgeAttrs Loss

/-- An undirected edge is stored under its end nodes in ascending order. -/
def edge_key (u v : Nat) : Nat × Nat := (min u v, max u v)

namespace Graph

variable {Loss : Type}

def empty : Graph Loss where
  nodes := ∅
  edges := ∅

/-- `G.add_node(n, **attrs)`, which updates the attributes of a node that
exists. -/
def add_node (G : Graph Loss) (n : Nat) (attrs : NodeAttrs → NodeAttrs) : Graph Loss :=
  { G with nodes := G.nodes.insert n (attrs ((G.nodes.lookup n).getD ⟨none, none⟩)) }

/-- `G.add_edge(u, v)`, which adds the end nodes and keeps the attributes of an
edge that exists. -/
def add_edge (G : Graph Loss) (u v : Nat) : Graph Loss :=
  let G := (G.add_node u id).add_node v id
  { G with edges :=
      G.edges.insert (edge_key u v) ((G.edges.lookup (edge_key u v)).getD ⟨none, none⟩) }

/-- `G.nodes[n][...] = ...`. -/
def set_node (G : Graph Loss) (n : Nat) (attrs : NodeAttrs → NodeAttrs) :
    Except PyError (Graph Loss) :=
  match G.nodes.lookup n with
  | none => .error .key_error
  | some old => .ok { G with nodes := G.nodes.insert n (attrs old) }

/-- `G.edges[u, v][...] = ...`. -/
def set_edge (G : Graph Loss) (u v : Nat) (attrs : EdgeAttrs Loss → EdgeAttrs Loss) :
    Except PyError (Graph Loss) :=
  match G.edges.lookup (edge_key u v) with
  | none => .error .key_error
  | some old => .ok { G with edges := G.edges.insert (edge_key u v) (attrs old) }

/-- The latency of an edge in milliseconds, if the edge exists and has one. -/
def latency (G : Graph Loss) (u v : Nat) : Option Int :=
  (G.edges.lookup (edge_key u v)).bind fun attrs => attrs.latency.map Quantity.value

end Graph

section

variable {Loss : Type}

/-- `nx.complete_graph(n)`: the nodes below `n` and an edge between any two. -/
def complete_graph (n : Nat) : Graph Loss :=
  let G := (range 0 n).foldl (fun G i => G.add_node i id) .empty
  (range 0 n).foldl (fun G i => (range (i + 1) n).foldl (fun G j => G.add_edge i j) G) G

/-- Set both attributes of an edge, one after the other. -/
def set_link (G : Graph Loss) (u v : Nat) (latency : Int) (packet_loss : Loss) :
    Except PyError (Graph Loss) := do
  let G ← G.set_edge u v ({ · with latency := some ⟨latency, "ms"⟩ })
  G.set_edge u v ({ · with packet_loss := some packet_loss })

def self_latency (steps : Nat) (latency_jump min_latency : Int) (i : Nat) : Int :=
  max ((steps - i) * latency_jump) min_latency

def edge_latency (steps : Nat) (latency_jump min_latency max_latency : Int) (j : Nat) : Int :=
  min ((steps - j) * latency_jump + min_latency) max_latency

/-- One iteration of the loop over the stages: the node, its self-loop, and its
edges to the later stages. -/
def configure_stage (steps : Nat) (bandwidth_jump min_bandwidth latency_jump min_latency
    max_latency : Int) (packet_loss : Loss) (G : Graph Loss) (i : Nat) :
    Except PyError (Graph Loss) := do
  let node_bw : Quantity := ⟨i * bandwidth_jump + min_bandwidth, "Mbit"⟩
  let G ← G.set_node i ({ · with host_bandwidth_up := some node_bw })
  let G ← G.set_node i ({ · with host_bandwidth_down := some node_bw })
  let G := G.add_edge i i
  let G ← set_link G i i (self_latency steps latency_jump min_latency i) packet_loss
  (range (i + 1) steps).foldlM (fun G j =>
    set_link G i j (edge_latency steps latency_jump min_latency max_latency j) packet_loss) G

/-- One iteration of the loop that connects the message injector. -/
def connect_injector [Zero Loss] (steps : Nat) (G : Graph Loss) (i : Nat) :
    Except PyError (Graph Loss) :=
  set_link (G.add_edge i steps) i steps 1 0

def create_network_topology [Zero Loss] (steps : Nat) (min_bandwidth max_bandwidth min_latency
    max_latency : Int) (packet_loss : Loss) : Except PyError (Graph Loss) := do
  let G := complete_graph steps
  let bandwidth_jump ← int_truediv (max_bandwidth - min_bandwidth) steps
  let latency_jump ← int_truediv (max_latency - min_latency) steps
  let G ← (range 0 steps).foldlM (configure_stage steps bandwidth_jump min_bandwidth latency_jump
    min_latency max_latency packet_loss) G
  let G := G.add_node steps fun _ => ⟨some ⟨100, "Mbit"⟩, some ⟨100, "Mbit"⟩⟩
  (range 0 (steps + 1)).foldlM (connect_injector steps) G

end

end shadow.topogen
