import Mathlib.Data.List.Basic

/- Directed graphs as a search sees them, the nodes and the edges out of each, and as a
   library makes them: nodes are added one by one and numbered in that order, edges go
   between numbers that are given out. `GraphLib` is what such a library promises;
   `listGraphs` is one that keeps nodes and edges in lists. -/
namespace Graphs

structure EdgeRef (V E : Type) where
  source : V
  target : V
  weight : E
deriving DecidableEq, Repr

/-- A graph whose nodes can be listed and whose edges can be followed. -/
structure IntoEdges (V E : Type) where
  nodes : List V
  edges : V → List (EdgeRef V E)
  closed : ∀ v, ∀ e ∈ edges v, e.target ∈ nodes

namespace IntoEdges
variable {V E K : Type}

/-- One round for each edge, one for the first node and one to find nothing left. -/
def rounds (g : IntoEdges V E) : Nat := (g.nodes.flatMap g.edges).length + 2

/-- The edges with their costs. -/
def edge (g : IntoEdges V E) (edge_cost : EdgeRef V E → K) (u v : V) (w : K) : Prop :=
  ∃ e ∈ g.edges u, e.target = v ∧ edge_cost e = w

end IntoEdges

/-- The numbers an edge goes between are given out. -/
def EdgeRef.Within {W : Type} (n : Nat) (e : EdgeRef Nat W) : Prop := e.source < n ∧ e.target < n

/-- A graph library: its graphs, how they are made and what they hold. -/
structure GraphLib (N W : Type) where
  Graph : Type
  new : Graph
  add_node : Graph → N → Graph × Nat
  add_edge : Graph → Nat → Nat → W → Graph
  node_weights : Graph → List N
  edge_references : Graph → List (EdgeRef Nat W)
  edges : Graph → Nat → List (EdgeRef Nat W)
  nodes_new : node_weights new = []
  edges_new : edge_references new = []
  index_added : ∀ g n, (add_node g n).2 = (node_weights g).length
  nodes_add_node : ∀ g n, node_weights (add_node g n).1 = node_weights g ++ [n]
  mem_add_node : ∀ g n e, e ∈ edge_references (add_node g n).1 ↔ e ∈ edge_references g
  nodes_add_edge : ∀ g e, EdgeRef.Within (node_weights g).length e →
    node_weights (add_edge g e.source e.target e.weight) = node_weights g
  mem_add_edge : ∀ g e, EdgeRef.Within (node_weights g).length e →
    ∀ x, x ∈ edge_references (add_edge g e.source e.target e.weight) ↔ x ∈ edge_references g ∨ x = e
  within : ∀ g, ∀ e ∈ edge_references g, EdgeRef.Within (node_weights g).length e
  mem_edges : ∀ g i e, e ∈ edges g i ↔ e ∈ edge_references g ∧ e.source = i

namespace GraphLib
variable {N W K : Type} (L : GraphLib N W)

def node_weight (g : L.Graph) (i : Nat) : Option N := (L.node_weights g)[i]?

def node_count (g : L.Graph) : Nat := (L.node_weights g).length

/-- Edges added one after the other. -/
def add_edges (g : L.Graph) (l : List (EdgeRef Nat W)) : L.Graph :=
  l.foldl (fun g e => L.add_edge g e.source e.target e.weight) g

/-- The edges are there then, beside those that were, and the nodes are the same. -/
theorem add_edges_spec : ∀ (l : List (EdgeRef Nat W)) (g : L.Graph),
    (∀ e ∈ l, e.Within (L.node_weights g).length) →
    L.node_weights (L.add_edges g l) = L.node_weights g ∧
      ∀ x, x ∈ L.edge_references (L.add_edges g l) ↔ x ∈ L.edge_references g ∨ x ∈ l
  | [], _, _ => ⟨rfl, fun x => by simp [add_edges]⟩
  | e :: l, g, h => by
    have he := h e List.mem_cons_self
    have hnodes := L.nodes_add_edge g e he
    obtain ⟨hl, hmem⟩ := add_edges_spec l (L.add_edge g e.source e.target e.weight)
      (fun x hx => by rw [hnodes]; exact h x (List.mem_cons_of_mem e hx))
    refine ⟨hl.trans hnodes, fun x => ?_⟩
    rw [show L.add_edges g (e :: l) = L.add_edges (L.add_edge g e.source e.target e.weight) l from rfl, hmem,
      L.mem_add_edge g e he, List.mem_cons, or_assoc]

/-- The graph as a search sees it. -/
def view (g : L.Graph) : IntoEdges Nat W where
  nodes := List.range (L.node_count g)
  edges := L.edges g
  closed := fun i e he => List.mem_range.mpr (L.within g e ((L.mem_edges g i e).mp he).1).2

theorem edge_view {g : L.Graph} {edge_cost : EdgeRef Nat W → K} {i j : Nat} {w : K} :
    (L.view g).edge edge_cost i j w ↔ ∃ e ∈ L.edge_references g, e.source = i ∧ e.target = j ∧ edge_cost e = w := by
  constructor
  · rintro ⟨e, he, hj, hw⟩
    obtain ⟨hmem, hi⟩ := (L.mem_edges g i e).mp he
    exact ⟨e, hmem, hi, hj, hw⟩
  · rintro ⟨e, he, hi, hj, hw⟩
    exact ⟨e, (L.mem_edges g i e).mpr ⟨he, hi⟩, hj, hw⟩

end GraphLib

/-! ## One such library -/

/-- A graph as its nodes and its edges. -/
structure Digraph (N W : Type) where
  node_weights : List N
  edge_list : List (EdgeRef Nat W)
  within : ∀ e ∈ edge_list, e.Within node_weights.length

namespace Digraph
variable {N W : Type}

def empty : Digraph N W := ⟨[], [], fun _ h => absurd h List.not_mem_nil⟩

/-- The new node has the next index. -/
def add_node (g : Digraph N W) (n : N) : Digraph N W where
  node_weights := g.node_weights ++ [n]
  edge_list := g.edge_list
  within := fun e he => by
    obtain ⟨hs, ht⟩ := g.within e he
    rw [List.length_append]
    exact ⟨by omega, by omega⟩

/-- An edge that leaves the indices is not added. -/
def add_edge (g : Digraph N W) (e : EdgeRef Nat W) : Digraph N W where
  node_weights := g.node_weights
  edge_list :=
    if e.source < g.node_weights.length ∧ e.target < g.node_weights.length then g.edge_list ++ [e] else g.edge_list
  within := fun x hx => by
    split at hx
    · next h =>
      rcases List.mem_append.mp hx with hx | hx
      · exact g.within x hx
      · rw [List.mem_singleton.mp hx]
        exact h
    · exact g.within x hx

end Digraph

/-- Graphs as lists; the edges out of a node come latest first. -/
def listGraphs (N W : Type) : GraphLib N W where
  Graph := Digraph N W
  new := Digraph.empty
  add_node := fun g n => (g.add_node n, g.node_weights.length)
  add_edge := fun g i j w => g.add_edge ⟨i, j, w⟩
  node_weights := fun g => g.node_weights
  edge_references := fun g => g.edge_list
  edges := fun g i => (g.edge_list.filter (·.source = i)).reverse
  nodes_new := rfl
  edges_new := rfl
  index_added := fun _ _ => rfl
  nodes_add_node := fun _ _ => rfl
  mem_add_node := fun _ _ _ => Iff.rfl
  nodes_add_edge := fun _ _ _ => rfl
  mem_add_edge := fun g e he x => by
    show x ∈ (if _ then g.edge_list ++ [e] else g.edge_list) ↔ _
    rw [if_pos (show e.source < _ ∧ e.target < _ from he), List.mem_append, List.mem_singleton]
  within := fun g => g.within
  mem_edges := fun g i e => by
    rw [List.mem_reverse, List.mem_filter, decide_eq_true_iff]

end Graphs
