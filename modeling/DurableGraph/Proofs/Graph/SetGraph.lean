import Mathlib.Data.Finset.Basic
import Mathlib.Data.Sym.Sym2
import DurableGraph.Proofs.Actions
import DurableGraph.Proofs.Graph.Simple

/-!
# Graphs as sets

A `SetGraph` is a finite set of nodes and a finite set of unordered pairs of different nodes.
Any actions on the empty graph give the answers that they give on the empty sets, and leave a
graph that shows what the sets hold.

    addNode a        insert a
    removeNode a     erase a, and every pair that a is in
    addEdge a b      insert {a, b}, for two different nodes
    removeEdge a b   erase {a, b}
    graphs that match the same sets are equal                        (Matches.unique)
-/

namespace DurableGraph

/-- What is done with a graph in memory. -/
inductive GraphAction where
  | mutation (m : Mutation)
  | clear

/-- Nodes, and edges that join two different ones of them. -/
@[ext]
structure SetGraph where
  nodes : Finset NodeId
  edges : Finset (Sym2 NodeId)
  proper : ∀ e ∈ edges, ¬ e.IsDiag
  inside : ∀ e ∈ edges, ∀ a ∈ e, a ∈ nodes

namespace SetGraph

/-! ## Algorithm -/

instance : EmptyCollection SetGraph := ⟨⟨∅, ∅, by simp, by simp⟩⟩

def insertNode (s : SetGraph) (a : NodeId) : SetGraph where
  nodes := insert a s.nodes
  edges := s.edges
  proper := s.proper
  inside e he x hx := Finset.mem_insert_of_mem (s.inside e he x hx)

/-- The edges of a node go with it, and no others. -/
def eraseNode (s : SetGraph) (a : NodeId) : SetGraph where
  nodes := s.nodes.erase a
  edges := s.edges.filter fun e => a ∉ e
  proper e he := s.proper e (Finset.mem_filter.1 he).1
  inside e he x hx := by
    obtain ⟨held, apart⟩ := Finset.mem_filter.1 he
    refine Finset.mem_erase.2 ⟨?_, s.inside e held x hx⟩
    rintro rfl
    exact apart hx

def insertEdge (s : SetGraph) {a b : NodeId} (ne : a ≠ b) (ha : a ∈ s.nodes) (hb : b ∈ s.nodes) :
    SetGraph where
  nodes := s.nodes
  edges := insert s(a, b) s.edges
  proper e he := by
    rcases Finset.mem_insert.1 he with rfl | he
    · exact fun same => ne (Sym2.mk_isDiag_iff.1 same)
    · exact s.proper e he
  inside e he x hx := by
    rcases Finset.mem_insert.1 he with rfl | he
    · rcases Sym2.mem_iff.1 hx with rfl | rfl
      · exact ha
      · exact hb
    · exact s.inside e he x hx

def eraseEdge (s : SetGraph) (a b : NodeId) : SetGraph where
  nodes := s.nodes
  edges := s.edges.erase s(a, b)
  proper e he := s.proper e (Finset.mem_of_mem_erase he)
  inside e he := s.inside e (Finset.mem_of_mem_erase he)

def addNode (s : SetGraph) (a : NodeId) : Except Refusal Outcome × SetGraph :=
  if a ∈ s.nodes then (.ok .noAction, s) else (.ok .success, s.insertNode a)

def removeNode (s : SetGraph) (a : NodeId) : Except Refusal Outcome × SetGraph :=
  if a ∈ s.nodes then (.ok .success, s.eraseNode a) else (.error .missing, s)

/-- Equal ends are refused before anything is looked up. -/
def addEdge (s : SetGraph) (a b : NodeId) : Except Refusal Outcome × SetGraph :=
  if ne : a = b then (.error (.invalid "edge endpoints must differ"), s)
  else if held : a ∈ s.nodes ∧ b ∈ s.nodes then
    if s(a, b) ∈ s.edges then (.ok .noAction, s)
    else (.ok .success, s.insertEdge ne held.1 held.2)
  else (.error .missing, s)

def removeEdge (s : SetGraph) (a b : NodeId) : Except Refusal Outcome × SetGraph :=
  if a = b then (.error (.invalid "edge endpoints must differ"), s)
  else if s(a, b) ∈ s.edges then (.ok .success, s.eraseEdge a b)
  else (.error .missing, s)

/-- The answer to a look for an edge. -/
def edge (s : SetGraph) (a b : NodeId) : Except Refusal (NodeId × NodeId) :=
  if a = b then .error (.invalid "edge endpoints must differ")
  else if s(a, b) ∈ s.edges then .ok (a, b)
  else .error .missing

def mutate (s : SetGraph) (m : Mutation) : Except Refusal Outcome × SetGraph :=
  match m.kind with
  | .addNode => s.addNode m.a
  | .removeNode => s.removeNode m.a
  | .addEdge => s.addEdge m.a m.b
  | .removeEdge => s.removeEdge m.a m.b

/-- Clearing has no answer. -/
def perform (s : SetGraph) : GraphAction → Option (Except Refusal Outcome) × SetGraph
  | .mutation m => (some (s.mutate m).1, (s.mutate m).2)
  | .clear => (none, ∅)

def run (s : SetGraph) (actions : List GraphAction) :
    List (Option (Except Refusal Outcome)) × SetGraph := performAll perform s actions

/-- The ends of an edge are nodes. -/
theorem ends (s : SetGraph) {a b : NodeId} (joined : s(a, b) ∈ s.edges) :
    a ∈ s.nodes ∧ b ∈ s.nodes :=
  ⟨s.inside _ joined a (Sym2.mem_mk_left a b), s.inside _ joined b (Sym2.mem_mk_right a b)⟩

/-- Looking from the other end finds the pair turned round, or is refused alike. -/
theorem edge_swap (s : SetGraph) (a b : NodeId) : s.edge b a = (s.edge a b).map Prod.swap := by
  unfold edge
  rw [Sym2.eq_swap]
  by_cases ne : a = b
  · rw [if_pos ne, if_pos ne.symm]
    rfl
  rw [if_neg ne, if_neg (Ne.symm ne)]
  split
  · rfl
  · rfl

/-- Only a success changes the sets. -/
theorem mutate_unchanged (s : SetGraph) (m : Mutation) :
    (s.mutate m).1 = .ok .success ∨ (s.mutate m).2 = s := by
  unfold mutate addNode removeNode addEdge removeEdge
  split
  · split
    · exact .inr rfl
    · exact .inl rfl
  · split
    · exact .inl rfl
    · exact .inr rfl
  · split
    · exact .inr rfl
    · split
      · split
        · exact .inr rfl
        · exact .inl rfl
      · exact .inr rfl
  · split
    · exact .inr rfl
    · split
      · exact .inl rfl
      · exact .inr rfl

end SetGraph

namespace Graph

/-- Performs an action with its answer; a mutation that is refused leaves the graph alone. -/
def perform (g : Graph) : GraphAction → Option (Except Refusal Outcome) × Graph
  | .mutation m => (some (g.answer m), g.after m)
  | .clear => (none, ∅)

def run (g : Graph) (actions : List GraphAction) :
    List (Option (Except Refusal Outcome)) × Graph := performAll perform g actions

/-- A graph has the nodes and the edges of the sets. -/
structure Matches (g : Graph) (s : SetGraph) : Prop where
  nodes : ∀ a, g.contains a = true ↔ a ∈ s.nodes
  edges : ∀ a b, g.Adj a b ↔ s(a, b) ∈ s.edges

/-- What can be seen of a graph: its nodes in ascending order, each under its own id, and the
neighbours of each in ascending order; an edge is seen alike from both of its ends. -/
structure Shows (g : Graph) (s : SetGraph) : Prop where
  ascending : (g.nodes.map Node.id).Pairwise (· < ·)
  mem_nodes : ∀ a, a ∈ g.nodes.map Node.id ↔ a ∈ s.nodes
  node : ∀ n ∈ g.nodes, g.node n.id = .ok n
  neighbors_ascending : ∀ n ∈ g.nodes, n.neighbors.Pairwise (· < ·)
  mem_neighbors : ∀ n ∈ g.nodes, ∀ b, b ∈ n.neighbors ↔ s(n.id, b) ∈ s.edges
  hasEdge : ∀ a b, g.hasEdge a b = decide (s(a, b) ∈ s.edges)
  hasEdge_comm : ∀ a b, g.hasEdge b a = g.hasEdge a b
  edge : ∀ a b, g.edge a b = s.edge a b
  edge_swap : ∀ a b, g.edge b a = (g.edge a b).map Prod.swap

variable {g h : Graph} {s : SetGraph} {a b : NodeId}

/-! ## Matching -/

theorem map_id_nodes (g : Graph) : g.nodes.map Node.id = g.adjacency.keys := by
  rw [nodes, List.map_map, ← Std.ExtTreeMap.map_fst_toList_eq_keys]
  rfl

theorem mem_map_id_nodes : a ∈ g.nodes.map Node.id ↔ g.contains a = true := by
  rw [map_id_nodes, Std.ExtTreeMap.mem_keys]
  rfl

theorem matches_empty : (∅ : Graph).Matches ∅ where
  nodes a := by
    rw [contains_eq, neighbors?_empty]
    constructor
    · intro h
      cases h
    · intro h
      exact absurd h (Finset.notMem_empty a)
  edges a b := by
    constructor
    · intro h
      exact absurd h (not_adj_of_none (neighbors?_empty a))
    · intro h
      exact absurd h (Finset.notMem_empty s(a, b))

/-- The sets decide the graph. -/
theorem Matches.unique (hg : g.Matches s) (hh : h.Matches s) : g = h := by
  apply ext_contains_adj
  · intro x
    rw [Bool.eq_iff_iff, hg.nodes, hh.nodes]
  · intro x y
    rw [hg.edges, hh.edges]

/-- The graph decides the sets. -/
theorem Matches.unique_sets {t : SetGraph} (hs : g.Matches s) (ht : g.Matches t) : s = t := by
  apply SetGraph.ext
  · ext a
    rw [← hs.nodes, ← ht.nodes]
  · ext e
    induction e using Sym2.ind with
    | h a b => rw [← hs.edges, ← ht.edges]

/-- Pairs have no order, no node is paired with itself, and only nodes are paired. -/
theorem Matches.simple (h : g.Matches s) : g.Simple where
  symm a b hab := by
    rw [h.edges, Sym2.eq_swap, ← h.edges]
    exact hab
  irrefl a haa := s.proper _ ((h.edges a a).1 haa) (Sym2.mk_isDiag_iff.2 rfl)
  closed a b hab := (h.nodes b).2 (s.inside _ ((h.edges a b).1 hab) b (Sym2.mem_mk_right a b))

/-- The edges of a graph, as they are listed at their near ends. -/
def edgeSet (g : Graph) : Finset (Sym2 NodeId) :=
  (g.nodes.flatMap fun n => n.neighbors.map fun b => s(n.id, b)).toFinset

theorem mem_edgeSet {e : Sym2 NodeId} : e ∈ g.edgeSet ↔ ∃ a b, g.Adj a b ∧ e = s(a, b) := by
  unfold edgeSet
  rw [List.mem_toFinset, List.mem_flatMap]
  constructor
  · rintro ⟨n, hn, he⟩
    obtain ⟨b, hb, rfl⟩ := List.mem_map.1 he
    exact ⟨n.id, b, (adj_iff (mem_nodes_iff.1 hn)).2 (Std.ExtTreeSet.mem_toList.1 hb), rfl⟩
  · rintro ⟨a, b, ⟨edges, held, hb⟩, rfl⟩
    exact ⟨⟨a, edges⟩, mem_nodes_iff.2 held,
      List.mem_map.2 ⟨b, Std.ExtTreeSet.mem_toList.2 hb, rfl⟩⟩

/-- The sets that a simple graph matches. -/
def Simple.sets (simple : g.Simple) : SetGraph where
  nodes := (g.nodes.map Node.id).toFinset
  edges := g.edgeSet
  proper e he := by
    obtain ⟨a, b, hab, rfl⟩ := mem_edgeSet.1 he
    rw [Sym2.mk_isDiag_iff]
    rintro rfl
    exact simple.irrefl a hab
  inside e he x hx := by
    obtain ⟨a, b, hab, rfl⟩ := mem_edgeSet.1 he
    rw [List.mem_toFinset, mem_map_id_nodes]
    rcases Sym2.mem_iff.1 hx with rfl | rfl
    · exact hab.contains
    · exact simple.closed a x hab

theorem Simple.matches_sets (simple : g.Simple) : g.Matches simple.sets where
  nodes a := by
    show _ ↔ a ∈ (g.nodes.map Node.id).toFinset
    rw [List.mem_toFinset, mem_map_id_nodes]
  edges a b := by
    show _ ↔ s(a, b) ∈ g.edgeSet
    rw [mem_edgeSet]
    constructor
    · intro hab
      exact ⟨a, b, hab, rfl⟩
    · rintro ⟨x, y, hxy, same⟩
      rcases Sym2.eq_iff.1 same with ⟨rfl, rfl⟩ | ⟨rfl, rfl⟩
      · exact hxy
      · exact simple.symm _ _ hxy

theorem Matches.contains_false (h : g.Matches s) (out : a ∉ s.nodes) : g.contains a = false := by
  rw [Bool.eq_false_iff, ne_eq, h.nodes]
  exact out

theorem Matches.hasEdge_eq (h : g.Matches s) (a b : NodeId) :
    g.hasEdge a b = decide (s(a, b) ∈ s.edges) := by
  rw [Bool.eq_iff_iff, hasEdge_iff, decide_eq_true_iff]
  exact h.edges a b

/-! ## Mutations -/

/-- A mutation answers as it does on the sets, and leaves a graph that matches them. -/
def Follows (g : Graph) (done : Except Refusal (Outcome × Graph))
    (sets : Except Refusal Outcome × SetGraph) : Prop :=
  done.map Prod.fst = sets.1 ∧
    Matches (match done with | .ok (_, next) => next | .error _ => g) sets.2

theorem Matches.addNode (h : g.Matches s) (a : NodeId) : g.Follows (g.addNode a) (s.addNode a) := by
  by_cases held : a ∈ s.nodes
  · have hadd : g.addNode a = .ok (.noAction, g) := if_pos ((h.nodes a).2 held)
    rw [hadd, SetGraph.addNode, if_pos held]
    exact ⟨rfl, h⟩
  · have hadd : g.addNode a = .ok (.success, ⟨g.adjacency.insert a ∅⟩) :=
      if_neg (by rw [h.contains_false held]; decide)
    have hnodes := fun x => contains_addNode (x := x) hadd
    have hedges := fun x y => adj_addNode (x := x) (y := y) hadd
    rw [hadd, SetGraph.addNode, if_neg held]
    refine ⟨rfl, fun x => ?_, fun x y => ?_⟩
    · show _ ↔ x ∈ insert a s.nodes
      rw [hnodes, h.nodes, Finset.mem_insert]
    · rw [hedges]
      exact h.edges x y

theorem Matches.removeNode (h : g.Matches s) (a : NodeId) :
    g.Follows (g.removeNode a) (s.removeNode a) := by
  have hcontains := contains_eq g a
  cases edges : g.neighbors? a with
  | none =>
    rw [edges] at hcontains
    have out : a ∉ s.nodes := by
      rw [← h.nodes, hcontains]
      exact Bool.false_ne_true
    have hremove : g.removeNode a = .error .missing := by
      unfold Graph.removeNode
      rw [edges]
    rw [hremove, SetGraph.removeNode, if_neg out]
    exact ⟨rfl, h⟩
  | some neighbors =>
    rw [edges] at hcontains
    have held : a ∈ s.nodes := (h.nodes a).1 hcontains
    obtain ⟨k, hremove⟩ : ∃ k, g.removeNode a = .ok (.success, k) := by
      unfold Graph.removeNode
      rw [edges]
      exact ⟨_, rfl⟩
    rw [hremove, SetGraph.removeNode, if_pos held]
    refine ⟨rfl, fun x => ?_, fun x y => ?_⟩
    · show _ ↔ x ∈ s.nodes.erase a
      rw [contains_removeNode hremove, h.nodes, Finset.mem_erase]
    · show _ ↔ s(x, y) ∈ s.edges.filter fun e => a ∉ e
      rw [adj_removeNode h.simple hremove, h.edges, Finset.mem_filter, Sym2.mem_iff]
      grind

theorem Matches.checkEnds_missing (h : g.Matches s) (ne : a ≠ b)
    (out : ¬ (a ∈ s.nodes ∧ b ∈ s.nodes)) : g.checkEnds a b = .error .missing := by
  unfold checkEnds
  rw [if_neg ne, if_neg]
  rw [Bool.and_eq_true, h.nodes, h.nodes]
  exact out

theorem Matches.checkEnds_ok (h : g.Matches s) (ne : a ≠ b) (held : a ∈ s.nodes ∧ b ∈ s.nodes) :
    g.checkEnds a b = .ok () :=
  checkEnds_eq_ok_iff.2 ⟨ne, (h.nodes a).2 held.1, (h.nodes b).2 held.2⟩

/-- Writing an edge down at both ends adds one pair. -/
theorem Matches.adj_link (h : g.Matches s) (ne : a ≠ b) (held : a ∈ s.nodes ∧ b ∈ s.nodes)
    (x y : NodeId) : (g.link a b).Adj x y ↔ s(x, y) ∈ insert s(a, b) s.edges := by
  rw [Graph.adj_link ne ((h.nodes a).2 held.1) ((h.nodes b).2 held.2), h.edges, Finset.mem_insert,
    Sym2.eq_iff, or_comm]

theorem Matches.addEdge (h : g.Matches s) (a b : NodeId) :
    g.Follows (g.addEdge a b) (s.addEdge a b) := by
  unfold Graph.addEdge SetGraph.addEdge
  by_cases ne : a = b
  · subst ne
    rw [checkEnds_self, dif_pos rfl]
    exact ⟨rfl, h⟩
  rw [dif_neg ne]
  by_cases held : a ∈ s.nodes ∧ b ∈ s.nodes
  · rw [h.checkEnds_ok ne held, dif_pos held]
    by_cases joined : s(a, b) ∈ s.edges
    · -- the pair is there already, at either end
      rw [h.hasEdge_eq, decide_eq_true joined, if_pos joined]
      refine ⟨rfl, fun x => ?_, fun x y => ?_⟩
      · show (g.link a b).contains x = true ↔ _
        rw [contains_link ne]
        exact h.nodes x
      · show (g.link a b).Adj x y ↔ _
        rw [h.adj_link ne held, Finset.insert_eq_of_mem joined]
    · rw [h.hasEdge_eq, decide_eq_false joined, if_neg joined]
      refine ⟨rfl, fun x => ?_, fun x y => ?_⟩
      · show (g.link a b).contains x = true ↔ _
        rw [contains_link ne]
        exact h.nodes x
      · exact h.adj_link ne held x y
  · rw [h.checkEnds_missing ne held, dif_neg held]
    exact ⟨rfl, h⟩

theorem Matches.removeEdge (h : g.Matches s) (a b : NodeId) :
    g.Follows (g.removeEdge a b) (s.removeEdge a b) := by
  unfold Graph.removeEdge SetGraph.removeEdge
  by_cases ne : a = b
  · subst ne
    rw [checkEnds_self, if_pos rfl]
    exact ⟨rfl, h⟩
  rw [if_neg ne]
  by_cases joined : s(a, b) ∈ s.edges
  · rw [h.checkEnds_ok ne (s.ends joined), h.hasEdge_eq, decide_eq_true joined, if_pos joined]
    refine ⟨rfl, fun x => ?_, fun x y => ?_⟩
    · show (g.unlink a b).contains x = true ↔ _
      rw [contains_unlink ne]
      exact h.nodes x
    · show (g.unlink a b).Adj x y ↔ s(x, y) ∈ s.edges.erase s(a, b)
      rw [adj_unlink ne, h.edges, Finset.mem_erase, ne_eq, Sym2.eq_iff]
      grind
  · rw [if_neg joined]
    by_cases held : a ∈ s.nodes ∧ b ∈ s.nodes
    · rw [h.checkEnds_ok ne held, h.hasEdge_eq, decide_eq_false joined]
      exact ⟨rfl, h⟩
    · rw [h.checkEnds_missing ne held]
      exact ⟨rfl, h⟩

/-- **One mutation.** -/
theorem Matches.mutate (h : g.Matches s) (m : Mutation) :
    g.answer m = (s.mutate m).1 ∧ (g.after m).Matches (s.mutate m).2 := by
  have follows : g.Follows (g.apply m) (s.mutate m) := by
    unfold Graph.apply SetGraph.mutate
    cases m.kind with
    | addNode => exact h.addNode m.a
    | removeNode => exact h.removeNode m.a
    | addEdge => exact h.addEdge m.a m.b
    | removeEdge => exact h.removeEdge m.a m.b
  exact follows

theorem Matches.perform (h : g.Matches s) (action : GraphAction) :
    (g.perform action).1 = (s.perform action).1 ∧
      (g.perform action).2.Matches (s.perform action).2 := by
  cases action with
  | mutation m =>
    obtain ⟨answer, next⟩ := h.mutate m
    exact ⟨congrArg some answer, next⟩
  | clear => exact ⟨rfl, matches_empty⟩

/-- **Any actions.** -/
theorem Matches.run (h : g.Matches s) (actions : List GraphAction) :
    (g.run actions).1 = (s.run actions).1 ∧ (g.run actions).2.Matches (s.run actions).2 :=
  performAll_follows Matches (fun _ _ action h => h.perform action) h actions

theorem simple_run (actions : List GraphAction) : ((∅ : Graph).run actions).2.Simple :=
  (matches_empty.run actions).2.simple

/-- Without a success a graph that matches sets is left as it is. -/
theorem Matches.unchanged (h : g.Matches s) (m : Mutation) :
    g.answer m = .ok .success ∨ g.after m = g := by
  obtain ⟨answer, next⟩ := h.mutate m
  obtain success | same := s.mutate_unchanged m
  · exact .inl (answer.trans success)
  · rw [same] at next
    exact .inr (next.unique h)

/-! ## Showing -/

theorem Matches.edge_eq (h : g.Matches s) (a b : NodeId) : g.edge a b = s.edge a b := by
  unfold Graph.edge SetGraph.edge
  by_cases ne : a = b
  · subst ne
    rw [checkEnds_self, if_pos rfl]
    rfl
  rw [if_neg ne]
  by_cases joined : s(a, b) ∈ s.edges
  · rw [h.checkEnds_ok ne (s.ends joined), h.hasEdge_eq, decide_eq_true joined, if_pos joined]
    rfl
  · rw [if_neg joined]
    by_cases held : a ∈ s.nodes ∧ b ∈ s.nodes
    · rw [h.checkEnds_ok ne held, h.hasEdge_eq, decide_eq_false joined]
      rfl
    · rw [h.checkEnds_missing ne held]
      rfl

/-- Everything that can be seen of the graph follows from the sets. -/
theorem Matches.shows (h : g.Matches s) : g.Shows s where
  ascending := by
    rw [map_id_nodes]
    exact g.adjacency.ordered_keys.imp fun lt => Std.compare_eq_lt.1 lt
  mem_nodes a := by rw [mem_map_id_nodes, h.nodes]
  node n hn := by
    unfold Graph.node
    rw [mem_nodes_iff.1 hn]
  neighbors_ascending n _ := n.edges.ordered_toList.imp fun lt => Std.compare_eq_lt.1 lt
  mem_neighbors n hn b := by
    rw [Node.neighbors, Std.ExtTreeSet.mem_toList, ← h.edges, adj_iff (mem_nodes_iff.1 hn)]
  hasEdge := h.hasEdge_eq
  hasEdge_comm a b := by
    rw [h.hasEdge_eq, h.hasEdge_eq, Sym2.eq_swap]
  edge := h.edge_eq
  edge_swap a b := by
    rw [h.edge_eq, h.edge_eq, s.edge_swap]

/-- **A graph in memory is an undirected simple graph.**  Any actions on the empty graph answer
as they do on the empty sets, and the graph they leave shows what the sets then hold.  On it,
a mutation that does not succeed changes nothing; and whatever other actions led to the same
sets led to the same graph. -/
theorem run_eq_setGraph (actions : List GraphAction) :
    ((∅ : Graph).run actions).1 = ((∅ : SetGraph).run actions).1 ∧
      ((∅ : Graph).run actions).2.Shows ((∅ : SetGraph).run actions).2 ∧
      (∀ m, ((∅ : Graph).run actions).2.answer m = .ok .success ∨
        ((∅ : Graph).run actions).2.after m = ((∅ : Graph).run actions).2) ∧
      ∀ others, ((∅ : Graph).run actions).2 = ((∅ : Graph).run others).2 ↔
        ((∅ : SetGraph).run actions).2 = ((∅ : SetGraph).run others).2 := by
  obtain ⟨answers, last⟩ := matches_empty.run actions
  refine ⟨answers, last.shows, last.unchanged, fun others => ?_⟩
  obtain ⟨-, other⟩ := matches_empty.run others
  constructor
  · intro same
    rw [same] at last
    exact last.unique_sets other
  · intro same
    rw [same] at last
    exact last.unique other

end Graph

end DurableGraph
