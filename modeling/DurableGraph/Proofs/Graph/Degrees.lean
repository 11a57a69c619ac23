import Mathlib.Combinatorics.Enumerative.DoubleCounting
import DurableGraph.Proofs.Graph.SetGraph

/-!
# Degrees

Every edge has two ends, so the degrees of all nodes add up to twice the number of edges.  The
pairs of a node and an edge at it are counted in two ways: node by node they are the degrees,
edge by edge they are two for each.

    s.sum_card_edgesAt          ∑ a ∈ s.nodes, (s.edgesAt a).card = 2 * s.edges.card
    Matches.totalDegree_eq      totalDegree g.nodes = 2 * s.edges.card
    Matches.edgeCount_eq        g.edgeCount = s.edges.card
-/

namespace DurableGraph

namespace SetGraph

/-- The edges that a node is in. -/
def edgesAt (s : SetGraph) (a : NodeId) : Finset (Sym2 NodeId) := s.edges.filter (a ∈ ·)

theorem mem_edgesAt {s : SetGraph} {a : NodeId} {e : Sym2 NodeId} :
    e ∈ s.edgesAt a ↔ e ∈ s.edges ∧ a ∈ e := Finset.mem_filter

/-- The nodes of an edge are its two ends. -/
theorem card_ends {s : SetGraph} {e : Sym2 NodeId} (he : e ∈ s.edges) :
    (s.nodes.filter (· ∈ e)).card = 2 := by
  have hends : s.nodes.filter (· ∈ e) = e.toFinset := by
    ext a
    rw [Finset.mem_filter, Sym2.mem_toFinset]
    exact and_iff_right_of_imp (s.inside e he a)
  rw [hends, Sym2.card_toFinset_of_not_isDiag e (s.proper e he)]

/-- **Both ends of every edge**, counted at the nodes. -/
theorem sum_card_edgesAt (s : SetGraph) :
    ∑ a ∈ s.nodes, (s.edgesAt a).card = 2 * s.edges.card := by
  calc ∑ a ∈ s.nodes, (s.edgesAt a).card
      = ∑ e ∈ s.edges, (s.nodes.filter (· ∈ e)).card :=
        Finset.sum_card_bipartiteAbove_eq_sum_card_bipartiteBelow fun a e => a ∈ e
    _ = ∑ _e ∈ s.edges, 2 := Finset.sum_congr rfl fun _ he => card_ends he
    _ = 2 * s.edges.card := by rw [Finset.sum_const, smul_eq_mul, Nat.mul_comm]

end SetGraph

namespace Graph

variable {g : Graph} {s : SetGraph}

theorem totalDegree_eq_sum (nodes : List Node) :
    totalDegree nodes = (nodes.map Node.degree).sum := by
  induction nodes with
  | nil => rfl
  | cons n rest ih => rw [totalDegree, ih, List.map_cons, List.sum_cons]

theorem Shows.nodup_nodes (shows : g.Shows s) : (g.nodes.map Node.id).Nodup :=
  shows.ascending.imp fun lt => UInt64.ne_of_lt lt

theorem Shows.nodup_neighbors (shows : g.Shows s) {n : Node} (hn : n ∈ g.nodes) :
    n.neighbors.Nodup :=
  (shows.neighbors_ascending n hn).imp fun lt => UInt64.ne_of_lt lt

/-- The ids of the nodes are the set of nodes. -/
theorem Shows.toFinset_nodes (shows : g.Shows s) : (g.nodes.map Node.id).toFinset = s.nodes := by
  ext a
  rw [List.mem_toFinset, shows.mem_nodes]

theorem Matches.nodeCount_eq (h : g.Matches s) : g.nodeCount = s.nodes.card := by
  rw [← h.shows.toFinset_nodes, List.toFinset_card_of_nodup h.shows.nodup_nodes, List.length_map,
    g.nodeCount_eq]

/-- The degree of a node is the number of the edges at it. -/
theorem Matches.degree_eq (h : g.Matches s) {n : Node} (hn : n ∈ g.nodes) :
    n.degree = (s.edgesAt n.id).card := by
  have hedges : s.edgesAt n.id = n.neighbors.toFinset.image fun b => s(n.id, b) := by
    ext e
    rw [SetGraph.mem_edgesAt, Finset.mem_image]
    constructor
    · rintro ⟨he, b, rfl⟩
      exact ⟨b, List.mem_toFinset.2 ((h.shows.mem_neighbors n hn b).2 he), rfl⟩
    · rintro ⟨b, hb, rfl⟩
      exact ⟨(h.shows.mem_neighbors n hn b).1 (List.mem_toFinset.1 hb), Sym2.mem_mk_left n.id b⟩
  rw [hedges, Finset.card_image_of_injective _ fun b c hbc => Sym2.congr_right.1 hbc,
    List.toFinset_card_of_nodup (h.shows.nodup_neighbors hn)]
  exact Std.ExtTreeSet.length_toList.symm

/-- **The degrees together** are twice the number of edges. -/
theorem Matches.totalDegree_eq (h : g.Matches s) : totalDegree g.nodes = 2 * s.edges.card := by
  have hdegrees : g.nodes.map Node.degree =
      (g.nodes.map Node.id).map fun a => (s.edgesAt a).card := by
    rw [List.map_map]
    exact List.map_congr_left fun n hn => h.degree_eq hn
  rw [totalDegree_eq_sum, hdegrees, ← List.sum_toFinset _ h.shows.nodup_nodes,
    h.shows.toFinset_nodes, s.sum_card_edgesAt]

theorem Matches.edgeCount_eq (h : g.Matches s) : g.edgeCount = s.edges.card := by
  unfold edgeCount
  rw [h.totalDegree_eq]
  omega

end Graph

end DurableGraph
