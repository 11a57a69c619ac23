import DurableGraph.Graph.Basic

/-!
# Distances

The number of hops between two nodes, by a search that goes out one level at a time.  Level
`d` holds the nodes whose distance from the start is `d`; levels share no node, so as many
rounds as the graph has nodes are enough.

    id ∈ (g.nextLevel seen level).1 ↔ id ∉ seen ∧ id is next to a node of the level
-/

namespace DurableGraph

namespace Graph

/-! ## Algorithm -/

/-- The neighbours of a node; an absent node has none. -/
def around (g : Graph) (id : NodeId) : List NodeId :=
  match g.neighbors? id with
  | some edges => edges.toList
  | none => []

/-- Of a list of ids, those not seen before, and everything seen by then. -/
def unseen : List NodeId → NodeSet → List NodeId × NodeSet
  | [], seen => ([], seen)
  | id :: rest, seen =>
    if seen.contains id then unseen rest seen
    else
      let (found, seen) := unseen rest (seen.insert id)
      (id :: found, seen)

/-- The level after a given one, and everything seen by then. -/
def nextLevel (g : Graph) (level : List NodeId) (seen : NodeSet) : List NodeId × NodeSet :=
  unseen (level.flatMap g.around) seen

/-- The level that holds `target`, counted on from `hops`, within a number of rounds. -/
def levelOf (g : Graph) (target : NodeId) :
    (rounds : Nat) → (level : List NodeId) → (seen : NodeSet) → (hops : Nat) → Option Nat
  | 0, _, _, _ => none
  | rounds + 1, level, seen, hops =>
    if level.contains target then some hops
    else if level.isEmpty then none
    else
      let (next, seen) := g.nextLevel level seen
      g.levelOf target rounds next seen (hops + 1)

/-- The number of hops from `a` to `b`: none where they are one node, or not connected. -/
def shortestPath (g : Graph) (a b : NodeId) : Except Refusal (Option Nat) :=
  if g.contains a && g.contains b then
    if a = b then .ok none
    else .ok (g.levelOf b g.nodeCount [a] (Std.ExtTreeSet.empty.insert a) 0)
  else .error .missing

/-! ## Walks -/

/-- `b` can be reached from `a` in a number of hops along edges. -/
inductive Walk (g : Graph) : NodeId → NodeId → Nat → Prop where
  | stay (a : NodeId) : Walk g a a 0
  | step {a b c : NodeId} {hops : Nat} (walk : Walk g a b hops) (adj : g.Adj b c) :
      Walk g a c (hops + 1)

/-! ## Lemmas -/

theorem mem_around {g : Graph} {a b : NodeId} : b ∈ g.around a ↔ g.Adj a b := by
  unfold around Adj
  cases g.neighbors? a <;> simp

/-- A node is found once, and only if it was not seen before. -/
theorem mem_unseen (ids : List NodeId) (seen : NodeSet) (id : NodeId) :
    id ∈ (unseen ids seen).1 ↔ id ∈ ids ∧ id ∉ seen := by
  induction ids generalizing seen with
  | nil => simp [unseen]
  | cons x rest ih =>
    unfold unseen
    by_cases h : x ∈ seen
    · simp only [Std.ExtTreeSet.contains_iff_mem, h, if_true, ih]
      grind
    · simp only [Std.ExtTreeSet.contains_iff_mem, h, if_false, List.mem_cons, ih,
        Std.ExtTreeSet.mem_insert, Std.LawfulEqCmp.compare_eq_iff_eq]
      grind

theorem mem_seen_unseen (ids : List NodeId) (seen : NodeSet) (id : NodeId) :
    id ∈ (unseen ids seen).2 ↔ id ∈ ids ∨ id ∈ seen := by
  induction ids generalizing seen with
  | nil => simp [unseen]
  | cons x rest ih =>
    unfold unseen
    by_cases h : x ∈ seen
    · simp only [Std.ExtTreeSet.contains_iff_mem, h, if_true, ih]
      grind
    · simp only [Std.ExtTreeSet.contains_iff_mem, h, if_false, List.mem_cons, ih,
        Std.ExtTreeSet.mem_insert, Std.LawfulEqCmp.compare_eq_iff_eq]
      grind

theorem mem_nextLevel (g : Graph) (level : List NodeId) (seen : NodeSet) (id : NodeId) :
    id ∈ (g.nextLevel level seen).1 ↔ (∃ a ∈ level, g.Adj a id) ∧ id ∉ seen := by
  simp [nextLevel, mem_unseen, mem_around]

end Graph

end DurableGraph
