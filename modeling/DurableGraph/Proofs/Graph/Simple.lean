import DurableGraph.Graph.Basic
import DurableGraph.Store.Basic

/-!
# Mutations and simple graphs

What a mutation does, told by the nodes and edges that are there afterwards, and that it keeps
graphs simple.

    g.addEdge a b = .ok (_, h) → (h.Adj x y ↔ g.Adj x y or {x, y} = {a, b})
    g.Simple → (g.after m).Simple
    a graph is known by its nodes and edges                       (ext_contains_adj)
-/

namespace DurableGraph

/-! ## Sets of nodes -/

theorem NodeSet.mem_insert_iff {s : NodeSet} {a b : NodeId} : b ∈ s.insert a ↔ b = a ∨ b ∈ s := by
  rw [Std.ExtTreeSet.mem_insert, Std.LawfulEqCmp.compare_eq_iff_eq, eq_comm]

theorem NodeSet.mem_erase_iff {s : NodeSet} {a b : NodeId} : b ∈ s.erase a ↔ b ≠ a ∧ b ∈ s := by
  rw [Std.ExtTreeSet.mem_erase, ne_eq, Std.LawfulEqCmp.compare_eq_iff_eq, eq_comm]

/-- A refusal that speaks of what was asked of a graph. -/
def Refusal.OfGraph (e : Refusal) : Prop := e = .missing ∨ ∃ reason, e = .invalid reason

/-- It is no fault of the storage. -/
theorem Refusal.OfGraph.isFault {e : Refusal} (h : e.OfGraph) : e.isFault = false := by
  obtain rfl | ⟨reason, rfl⟩ := h <;> rfl

/-- A graph in memory does not run out of space. -/
theorem Refusal.OfGraph.ne_noSpace {e : Refusal} (h : e.OfGraph) : e ≠ .noSpace := by
  obtain rfl | ⟨reason, rfl⟩ := h
  · exact Refusal.noConfusion
  · exact Refusal.noConfusion

namespace Graph

variable {g h : Graph} {o : Outcome} {a b x y : NodeId}

/-! ## Nodes and edges -/

theorem adj_iff {edges : NodeSet} (held : g.neighbors? a = some edges) : g.Adj a b ↔ b ∈ edges := by
  unfold Adj
  rw [held]
  simp

theorem not_adj_of_none (held : g.neighbors? a = none) : ¬ g.Adj a b := by
  unfold Adj
  rw [held]
  simp

/-- The near end of an edge is a node. -/
theorem Adj.contains (h : g.Adj a b) : g.contains a = true := by
  obtain ⟨edges, held, -⟩ := h
  rw [contains_eq, held]
  rfl

/-- The nodes of a graph are listed with their neighbours. -/
theorem mem_nodes_iff {n : Node} : n ∈ g.nodes ↔ g.neighbors? n.id = some n.edges := by
  unfold nodes neighbors?
  rw [List.mem_map, ← Std.ExtTreeMap.mem_toList_iff_getElem?_eq_some]
  constructor
  · rintro ⟨⟨id, edges⟩, held, rfl⟩
    exact held
  · intro held
    exact ⟨(n.id, n.edges), held, rfl⟩

theorem nodeCount_eq (g : Graph) : g.nodeCount = g.nodes.length := by
  unfold nodeCount nodes
  rw [List.length_map, Std.ExtTreeMap.length_toList]

theorem degree_le_totalDegree {n : Node} {nodes : List Node} (h : n ∈ nodes) :
    n.degree ≤ totalDegree nodes := by
  induction nodes with
  | nil => cases h
  | cons m rest ih =>
    rw [totalDegree]
    rcases List.mem_cons.1 h with rfl | h
    · omega
    · have := ih h
      omega

/-- A graph is known by its nodes and edges. -/
theorem ext_contains_adj (nodes : ∀ x, g.contains x = h.contains x)
    (edges : ∀ x y, g.Adj x y ↔ h.Adj x y) : g = h := by
  apply ext_neighbors?
  intro x
  have hx := nodes x
  rw [contains_eq, contains_eq] at hx
  cases hg : g.neighbors? x with
  | none =>
    rw [hg] at hx
    exact (Option.isSome_eq_false_iff.1 hx.symm |> Option.isNone_iff_eq_none.1).symm
  | some s =>
    rw [hg] at hx
    obtain ⟨t, ht⟩ := Option.isSome_iff_exists.1 hx.symm
    rw [ht]
    congr 1
    apply Std.ExtTreeSet.ext_mem
    intro y
    rw [← adj_iff hg, ← adj_iff ht]
    exact edges x y

/-! ## What mutations do -/

theorem neighbors?_addNode (ok : g.addNode a = .ok (o, h)) :
    h.neighbors? x = if x = a then some ((g.neighbors? a).getD ∅) else g.neighbors? x := by
  unfold addNode at ok
  split at ok
  · next held =>
    cases ok
    rw [contains_eq] at held
    obtain ⟨s, hs⟩ := Option.isSome_iff_exists.1 held
    split
    · next hx => rw [hx, hs]; rfl
    · rfl
  · next held =>
    cases ok
    have hnone : g.neighbors? a = none := by
      rw [contains_eq] at held
      simpa using held
    show (g.adjacency.insert a ∅)[x]? = _
    rw [Std.ExtTreeMap.getElem?_insert, hnone]
    by_cases hx : x = a
    · rw [if_pos hx, if_pos (Std.LawfulEqCmp.compare_eq_iff_eq.2 hx.symm)]
      rfl
    · rw [if_neg hx, if_neg (fun hc => hx (Std.LawfulEqCmp.compare_eq_iff_eq.1 hc).symm)]
      rfl

theorem contains_addNode (ok : g.addNode a = .ok (o, h)) :
    h.contains x = true ↔ x = a ∨ g.contains x = true := by
  rw [contains_eq, contains_eq, neighbors?_addNode ok]
  by_cases hx : x = a
  · simp [hx]
  · simp [hx]

theorem adj_addNode (ok : g.addNode a = .ok (o, h)) : h.Adj x y ↔ g.Adj x y := by
  unfold Adj
  rw [neighbors?_addNode ok]
  by_cases hx : x = a
  · subst hx
    cases g.neighbors? x <;> simp
  · simp [hx]

/-- What an edge needs: two different ends, both of them nodes. -/
theorem checkEnds_eq_ok_iff :
    g.checkEnds a b = .ok () ↔ a ≠ b ∧ g.contains a = true ∧ g.contains b = true := by
  unfold checkEnds
  by_cases hab : a = b
  · simp [hab]
  · by_cases hc : g.contains a && g.contains b
    · rw [Bool.and_eq_true] at hc
      simp [hab, hc]
    · rw [if_neg hab, if_neg hc]
      rw [Bool.and_eq_true] at hc
      simp [hab, hc]

theorem checkEnds_self : g.checkEnds a a = .error (.invalid "edge endpoints must differ") :=
  if_pos rfl

/-- A node is not joined to itself, whether it is there or not. -/
theorem addEdge_self : g.addEdge a a = .error (.invalid "edge endpoints must differ") := by
  unfold addEdge
  rw [checkEnds_self]
  rfl

theorem addEdge_inv (ok : g.addEdge a b = .ok (o, h)) :
    a ≠ b ∧ g.contains a = true ∧ g.contains b = true ∧ h = g.link a b := by
  unfold addEdge at ok
  cases hc : g.checkEnds a b with
  | error e => rw [hc] at ok; cases ok
  | ok _ =>
    obtain ⟨ne, ha, hb⟩ := checkEnds_eq_ok_iff.1 hc
    simp only [hc, bind, Except.bind] at ok
    cases ok
    exact ⟨ne, ha, hb, rfl⟩

theorem removeEdge_inv (ok : g.removeEdge a b = .ok (o, h)) : a ≠ b ∧ h = g.unlink a b := by
  unfold removeEdge at ok
  cases hc : g.checkEnds a b with
  | error e => rw [hc] at ok; cases ok
  | ok _ =>
    simp only [hc, bind, Except.bind] at ok
    split at ok
    · cases ok
      exact ⟨(checkEnds_eq_ok_iff.1 hc).1, rfl⟩
    · cases ok

theorem contains_link (ne : a ≠ b) : (g.link a b).contains x = g.contains x := by
  rw [contains_eq, contains_eq, neighbors?_link g ne]
  split
  · rw [Option.isSome_map]
  · split
    · rw [Option.isSome_map]
    · rfl

theorem contains_unlink (ne : a ≠ b) : (g.unlink a b).contains x = g.contains x := by
  rw [contains_eq, contains_eq, neighbors?_unlink g ne]
  split
  · rw [Option.isSome_map]
  · split
    · rw [Option.isSome_map]
    · rfl

theorem adj_link (ne : a ≠ b) (ha : g.contains a = true) (hb : g.contains b = true) :
    (g.link a b).Adj x y ↔ g.Adj x y ∨ (x = a ∧ y = b) ∨ (x = b ∧ y = a) := by
  have hx := neighbors?_link g ne x
  by_cases hxa : x = a
  · subst hxa
    rw [contains_eq] at ha
    obtain ⟨s, hs⟩ := Option.isSome_iff_exists.1 ha
    rw [if_pos rfl, hs] at hx
    rw [adj_iff hx, adj_iff hs, NodeSet.mem_insert_iff]
    simp [ne, or_comm]
  · by_cases hxb : x = b
    · subst hxb
      rw [contains_eq] at hb
      obtain ⟨s, hs⟩ := Option.isSome_iff_exists.1 hb
      rw [if_neg hxa, if_pos rfl, hs] at hx
      rw [adj_iff hx, adj_iff hs, NodeSet.mem_insert_iff]
      simp [hxa, or_comm]
    · rw [if_neg hxa, if_neg hxb] at hx
      unfold Adj
      rw [hx]
      simp [hxa, hxb]

theorem adj_unlink (ne : a ≠ b) :
    (g.unlink a b).Adj x y ↔ g.Adj x y ∧ ¬ (x = a ∧ y = b) ∧ ¬ (x = b ∧ y = a) := by
  have hx := neighbors?_unlink g ne x
  cases hs : g.neighbors? x with
  | none =>
    rw [hs] at hx
    have hnone : (g.unlink a b).neighbors? x = none := by
      rw [hx]
      split
      · rfl
      · split <;> rfl
    simp [not_adj_of_none hnone, not_adj_of_none hs]
  | some s =>
    rw [hs] at hx
    by_cases hxa : x = a
    · subst hxa
      rw [if_pos rfl] at hx
      rw [adj_iff hx, adj_iff hs, NodeSet.mem_erase_iff]
      simp [ne, and_comm]
    · by_cases hxb : x = b
      · subst hxb
        rw [if_neg hxa, if_pos rfl] at hx
        rw [adj_iff hx, adj_iff hs, NodeSet.mem_erase_iff]
        simp [hxa, and_comm]
      · rw [if_neg hxa, if_neg hxb] at hx
        rw [adj_iff hx, adj_iff hs]
        simp [hxa, hxb]

theorem erase_erase (s : NodeSet) (a : NodeId) : (s.erase a).erase a = s.erase a := by
  apply Std.ExtTreeSet.ext_mem
  intro b
  rw [NodeSet.mem_erase_iff, NodeSet.mem_erase_iff]
  simp

theorem getElem?_forget (id : NodeId) (adjacency : Std.ExtTreeMap NodeId NodeSet)
    (edges : List NodeId) :
    (forget id adjacency edges)[x]? =
      if x ∈ edges then adjacency[x]?.map fun s : NodeSet => s.erase id else adjacency[x]? := by
  induction edges generalizing adjacency with
  | nil => simp [forget]
  | cons e rest ih =>
    have hcons : forget id adjacency (e :: rest) =
      forget id (adjacency.modify e fun s : NodeSet => s.erase id) rest := rfl
    rw [hcons, ih, Std.ExtTreeMap.getElem?_modify]
    by_cases hx : x = e
    · subst hx
      rw [if_pos (Std.LawfulEqCmp.compare_eq_iff_eq.2 rfl), if_pos List.mem_cons_self]
      split
      · rw [Option.map_map]
        congr 1
        funext s
        exact erase_erase s id
      · rfl
    · rw [if_neg (fun hc => hx (Std.LawfulEqCmp.compare_eq_iff_eq.1 hc).symm)]
      simp [hx]

theorem removeNode_inv (ok : g.removeNode a = .ok (o, h)) :
    ∃ edges, g.neighbors? a = some edges ∧ ∀ x, h.neighbors? x =
      if x = a then none
      else if x ∈ edges then (g.neighbors? x).map (·.erase a)
      else g.neighbors? x := by
  unfold removeNode at ok
  split at ok
  · next edges held =>
    cases ok
    refine ⟨edges, held, fun x => ?_⟩
    show (forget a (g.adjacency.erase a) edges.toList)[x]? = _
    rw [getElem?_forget, Std.ExtTreeMap.getElem?_erase]
    by_cases hx : x = a
    · subst hx
      rw [if_pos (Std.LawfulEqCmp.compare_eq_iff_eq.2 rfl), if_pos rfl]
      split <;> rfl
    · rw [if_neg (fun hc => hx (Std.LawfulEqCmp.compare_eq_iff_eq.1 hc).symm), if_neg hx]
      simp only [Std.ExtTreeSet.mem_toList]
      rfl
  · cases ok

theorem contains_removeNode (ok : g.removeNode a = .ok (o, h)) :
    h.contains x = true ↔ x ≠ a ∧ g.contains x = true := by
  obtain ⟨edges, -, hn⟩ := removeNode_inv ok
  rw [contains_eq, contains_eq, hn]
  by_cases hx : x = a
  · simp [hx]
  · rw [if_neg hx]
    split
    · simp [hx]
    · simp [hx]

/-- In a simple graph only neighbours of the node know of it, and all of them forget it. -/
theorem adj_removeNode (simple : g.Simple) (ok : g.removeNode a = .ok (o, h)) :
    h.Adj x y ↔ g.Adj x y ∧ x ≠ a ∧ y ≠ a := by
  obtain ⟨edges, held, hn⟩ := removeNode_inv ok
  have hx := hn x
  by_cases hxa : x = a
  · rw [if_pos hxa] at hx
    constructor
    · intro hxy
      exact absurd hxy (not_adj_of_none hx)
    · intro hxy
      exact absurd hxa hxy.2.1
  · rw [if_neg hxa] at hx
    cases hs : g.neighbors? x with
    | none =>
      rw [hs] at hx
      have hnone : h.neighbors? x = none := by
        rw [hx]
        split <;> rfl
      simp [not_adj_of_none hnone, not_adj_of_none hs]
    | some s =>
      rw [hs] at hx
      by_cases hmem : x ∈ edges
      · rw [if_pos hmem] at hx
        rw [adj_iff hx, adj_iff hs, NodeSet.mem_erase_iff]
        simp [hxa, and_comm]
      · rw [if_neg hmem] at hx
        have hya : y ∈ s → y ≠ a := by
          rintro hy rfl
          exact hmem ((adj_iff held).1 (simple.symm _ _ ((adj_iff hs).2 hy)))
        rw [adj_iff hx, adj_iff hs]
        constructor
        · intro hy
          exact ⟨hy, hxa, hya hy⟩
        · exact And.left

theorem exists_addNode (g : Graph) (a : NodeId) :
    ∃ o, g.addNode a = .ok (o, g.after (.addNode a)) := by
  obtain ⟨o, h, ok⟩ : ∃ o h, g.addNode a = .ok (o, h) := by
    unfold addNode
    split
    · exact ⟨_, _, rfl⟩
    · exact ⟨_, _, rfl⟩
  have after_eq : g.after (.addNode a) = h := by
    have happly : g.apply (.addNode a) = .ok (o, h) := ok
    unfold Graph.after
    rw [happly]
  exact ⟨o, by rw [after_eq, ok]⟩

/-- Two different nodes can be joined. -/
theorem exists_addEdge (ne : a ≠ b) (ha : g.contains a = true) (hb : g.contains b = true) :
    ∃ o h, g.addEdge a b = .ok (o, h) := by
  unfold addEdge
  rw [checkEnds_eq_ok_iff.2 ⟨ne, ha, hb⟩]
  exact ⟨_, _, rfl⟩

theorem contains_addEdge (ok : g.addEdge a b = .ok (o, h)) : h.contains x = g.contains x := by
  obtain ⟨ne, -, -, rfl⟩ := addEdge_inv ok
  exact contains_link ne

theorem adj_addEdge (ok : g.addEdge a b = .ok (o, h)) :
    h.Adj x y ↔ g.Adj x y ∨ (x = a ∧ y = b) ∨ (x = b ∧ y = a) := by
  obtain ⟨ne, ha, hb, rfl⟩ := addEdge_inv ok
  exact adj_link ne ha hb

/-! ## Mutations keep graphs simple -/

theorem Simple.addNode (simple : g.Simple) (ok : g.addNode a = .ok (o, h)) : h.Simple where
  symm x y hxy := (adj_addNode ok).2 (simple.symm x y ((adj_addNode ok).1 hxy))
  irrefl x hxx := simple.irrefl x ((adj_addNode ok).1 hxx)
  closed x y hxy := (contains_addNode ok).2 (.inr (simple.closed x y ((adj_addNode ok).1 hxy)))

theorem Simple.addEdge (simple : g.Simple) (ok : g.addEdge a b = .ok (o, h)) : h.Simple := by
  obtain ⟨ne, ha, hb, rfl⟩ := addEdge_inv ok
  refine ⟨fun x y hxy => ?_, fun x hxx => ?_, fun x y hxy => ?_⟩
  · rw [adj_link ne ha hb] at hxy ⊢
    obtain hxy | ⟨rfl, rfl⟩ | ⟨rfl, rfl⟩ := hxy
    · exact .inl (simple.symm x y hxy)
    · exact .inr (.inr ⟨rfl, rfl⟩)
    · exact .inr (.inl ⟨rfl, rfl⟩)
  · rw [adj_link ne ha hb] at hxx
    obtain hxx | ⟨rfl, rfl⟩ | ⟨rfl, rfl⟩ := hxx
    · exact simple.irrefl x hxx
    · exact ne rfl
    · exact ne rfl
  · rw [adj_link ne ha hb] at hxy
    rw [contains_link ne]
    obtain hxy | ⟨rfl, rfl⟩ | ⟨rfl, rfl⟩ := hxy
    · exact simple.closed x y hxy
    · exact hb
    · exact ha

theorem Simple.removeEdge (simple : g.Simple) (ok : g.removeEdge a b = .ok (o, h)) : h.Simple := by
  obtain ⟨ne, rfl⟩ := removeEdge_inv ok
  refine ⟨fun x y hxy => ?_, fun x hxx => ?_, fun x y hxy => ?_⟩
  · rw [adj_unlink ne] at hxy ⊢
    obtain ⟨hxy, h1, h2⟩ := hxy
    exact ⟨simple.symm x y hxy, fun h => h2 h.symm, fun h => h1 h.symm⟩
  · rw [adj_unlink ne] at hxx
    exact simple.irrefl x hxx.1
  · rw [adj_unlink ne] at hxy
    rw [contains_unlink ne]
    exact simple.closed x y hxy.1

theorem Simple.removeNode (simple : g.Simple) (ok : g.removeNode a = .ok (o, h)) : h.Simple := by
  refine ⟨fun x y hxy => ?_, fun x hxx => ?_, fun x y hxy => ?_⟩
  · rw [adj_removeNode simple ok] at hxy ⊢
    exact ⟨simple.symm x y hxy.1, hxy.2.2, hxy.2.1⟩
  · rw [adj_removeNode simple ok] at hxx
    exact simple.irrefl x hxx.1
  · rw [adj_removeNode simple ok] at hxy
    exact (contains_removeNode ok).2 ⟨hxy.2.2, simple.closed x y hxy.1⟩

theorem Simple.apply (simple : g.Simple) {m : Mutation} (ok : g.apply m = .ok (o, h)) :
    h.Simple := by
  unfold Graph.apply at ok
  split at ok
  · exact simple.addNode ok
  · exact simple.removeNode ok
  · exact simple.addEdge ok
  · exact simple.removeEdge ok

/-- **One mutation**, refused ones included. -/
theorem Simple.after (simple : g.Simple) (m : Mutation) : (g.after m).Simple := by
  unfold Graph.after
  split
  · next ok => exact simple.apply ok
  · exact simple

/-- **Any mutations**, by induction on them. -/
theorem Simple.replay (simple : g.Simple) (ms : List Mutation) : (g.replay ms).Simple := by
  induction ms generalizing g with
  | nil => exact simple
  | cons m rest ih => exact ih (simple.after m)

theorem replay_append (ms more : List Mutation) :
    g.replay (ms ++ more) = (g.replay ms).replay more := List.foldl_append

/-! ## Refusals -/

section Refusals

variable {α β : Type} {e : Refusal}

theorem map_eq_error_iff {x : Except Refusal α} {f : α → β} :
    x.map f = .error e ↔ x = .error e := by
  cases x with
  | ok a =>
    constructor
    · intro h
      cases h
    · intro h
      cases h
  | error e' =>
    show (.error e' : Except Refusal β) = .error e ↔ _
    rw [Except.error.injEq, Except.error.injEq]

/-- Ends that are no ends of an edge are refused first. -/
theorem ofGraph_checkEnds_bind {f : Unit → Except Refusal α}
    (rest : f () = .error e → e.OfGraph) (no : (g.checkEnds a b >>= f) = .error e) :
    e.OfGraph := by
  cases hc : g.checkEnds a b with
  | ok done =>
    rw [hc] at no
    exact rest no
  | error e' =>
    rw [hc] at no
    cases no
    unfold checkEnds at hc
    split at hc
    · cases hc
      exact .inr ⟨_, rfl⟩
    · split at hc <;> cases hc
      exact .inl rfl

theorem ofGraph_node (no : g.node a = .error e) : e.OfGraph := by
  unfold node at no
  split at no <;> cases no
  exact .inl rfl

theorem ofGraph_apply {m : Mutation} (no : g.apply m = .error e) : e.OfGraph := by
  unfold apply at no
  split at no
  · unfold addNode at no
    split at no <;> cases no
  · unfold removeNode at no
    split at no <;> cases no
    exact .inl rfl
  · refine ofGraph_checkEnds_bind (fun hrest => ?_) no
    cases hrest
  · refine ofGraph_checkEnds_bind (fun hrest => ?_) no
    split at hrest <;> cases hrest
    exact .inl rfl

theorem ofGraph_answer {m : Mutation} (no : g.answer m = .error e) : e.OfGraph :=
  ofGraph_apply (map_eq_error_iff.1 no)

theorem ofGraph_look {q : Query} (no : g.look q = .error e) : e.OfGraph := by
  cases q with
  | node id => exact ofGraph_node (map_eq_error_iff.1 no)
  | edge a b =>
    refine ofGraph_checkEnds_bind (fun hrest => ?_) (map_eq_error_iff.1 no)
    split at hrest <;> cases hrest
    exact .inl rfl
  | neighbors id => exact ofGraph_node (map_eq_error_iff.1 (map_eq_error_iff.1 no))
  | shortestPath a b =>
    have hpath := map_eq_error_iff.1 no
    unfold shortestPath at hpath
    split at hpath
    · split at hpath <;> cases hpath
    · cases hpath
      exact .inl rfl

end Refusals

end Graph

end DurableGraph
