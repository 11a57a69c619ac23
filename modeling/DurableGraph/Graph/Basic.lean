import Std.Data.ExtTreeMap
import Std.Data.ExtTreeSet
import DurableGraph.Graph.Outcome

/-!
# Undirected simple graphs

A graph maps each node to the set of its neighbours, so equal nodes and edges make equal
graphs.  A mutation answers with an outcome and the changed graph, or with a refusal and
no graph at all.

    (g.link a b).Adj x y ↔ …         an edge is written down at both of its ends
    g.Simple                          neighbours are mutual, distinct and present
-/

namespace DurableGraph

/-- The identity of a node. -/
abbrev NodeId := UInt64

/-- A finite set of nodes, listed in ascending order. -/
abbrev NodeSet := Std.ExtTreeSet NodeId

/-- A node with its neighbours. -/
structure Node where
  id : NodeId
  edges : NodeSet

namespace Node

def degree (node : Node) : Nat := node.edges.size

def neighbors (node : Node) : List NodeId := node.edges.toList

def hasEdge (node : Node) (other : NodeId) : Bool := node.edges.contains other

end Node

/-- The neighbours of every node. -/
structure Graph where
  adjacency : Std.ExtTreeMap NodeId NodeSet

/-- The four ways to change a graph. -/
inductive MutationKind where
  | addNode
  | addEdge
  | removeNode
  | removeEdge
  deriving DecidableEq, Repr

/-- One change of a graph.  A change of a node ignores `b`, which is zero by custom. -/
structure Mutation where
  kind : MutationKind
  a : NodeId
  b : NodeId
  deriving DecidableEq, Repr

/-! ## Mutations as values -/

namespace MutationKind

def text : MutationKind → String
  | addNode => "ADD_NODE"
  | addEdge => "ADD_EDGE"
  | removeNode => "REMOVE_NODE"
  | removeEdge => "REMOVE_EDGE"

end MutationKind

namespace Mutation

def addNode (id : NodeId) : Mutation := ⟨.addNode, id, 0⟩
def removeNode (id : NodeId) : Mutation := ⟨.removeNode, id, 0⟩
def addEdge (a b : NodeId) : Mutation := ⟨.addEdge, a, b⟩
def removeEdge (a b : NodeId) : Mutation := ⟨.removeEdge, a, b⟩

def text (m : Mutation) : String :=
  "Entry(" ++ m.kind.text ++ ", " ++ m.a.toNat.repr ++ ", " ++ m.b.toNat.repr ++ ")"

end Mutation

namespace Graph

instance : DecidableEq Graph := fun g h =>
  decidable_of_iff (g.adjacency = h.adjacency) (by cases g; cases h; simp)

/-! ## Looking at a graph -/

def empty : Graph := ⟨∅⟩

instance : EmptyCollection Graph := ⟨empty⟩

def neighbors? (g : Graph) (id : NodeId) : Option NodeSet := g.adjacency[id]?

def contains (g : Graph) (id : NodeId) : Bool := g.adjacency.contains id

/-- `b` is among the neighbours of `a`. -/
def hasEdge (g : Graph) (a b : NodeId) : Bool :=
  match g.neighbors? a with
  | some edges => edges.contains b
  | none => false

/-- The nodes in ascending order of their ids. -/
def nodes (g : Graph) : List Node := g.adjacency.toList.map fun (id, edges) => ⟨id, edges⟩

def nodeCount (g : Graph) : Nat := g.adjacency.size

/-- The number of neighbours of all nodes of a list together. -/
def totalDegree : List Node → Nat
  | [] => 0
  | node :: rest => node.degree + totalDegree rest

/-- Every edge is seen from both of its ends. -/
def edgeCount (g : Graph) : Nat := totalDegree g.nodes / 2

/-! ## Requests that look -/

def node (g : Graph) (id : NodeId) : Except Refusal Node :=
  match g.neighbors? id with
  | some edges => .ok ⟨id, edges⟩
  | none => .error .missing

def neighbors (g : Graph) (id : NodeId) : Except Refusal (List NodeId) :=
  (g.node id).map Node.neighbors

/-- The ends of an edge must differ, and must exist. -/
def checkEnds (g : Graph) (a b : NodeId) : Except Refusal Unit :=
  if a = b then .error (.invalid "edge endpoints must differ")
  else if g.contains a && g.contains b then .ok ()
  else .error .missing

def edge (g : Graph) (a b : NodeId) : Except Refusal (NodeId × NodeId) := do
  g.checkEnds a b
  if g.hasEdge a b then .ok (a, b) else .error .missing

/-! ## Requests that change -/

/-- Writes `b` down at `a` and `a` at `b`. -/
def link (g : Graph) (a b : NodeId) : Graph :=
  ⟨(g.adjacency.modify a (·.insert b)).modify b (·.insert a)⟩

/-- Strikes `b` off at `a` and `a` at `b`. -/
def unlink (g : Graph) (a b : NodeId) : Graph :=
  ⟨(g.adjacency.modify a (·.erase b)).modify b (·.erase a)⟩

/-- Strikes `id` off at every node of a list. -/
def forget (id : NodeId) (adjacency : Std.ExtTreeMap NodeId NodeSet) (edges : List NodeId) :
    Std.ExtTreeMap NodeId NodeSet :=
  edges.foldl (fun rest neighbor => rest.modify neighbor (·.erase id)) adjacency

def addNode (g : Graph) (id : NodeId) : Except Refusal (Outcome × Graph) :=
  if g.contains id then .ok (.noAction, g)
  else .ok (.success, ⟨g.adjacency.insert id ∅⟩)

/-- The edges of a node go with it. -/
def removeNode (g : Graph) (id : NodeId) : Except Refusal (Outcome × Graph) :=
  match g.neighbors? id with
  | some edges => .ok (.success, ⟨forget id (g.adjacency.erase id) edges.toList⟩)
  | none => .error .missing

/-- The near end decides the outcome; both ends are written down either way. -/
def addEdge (g : Graph) (a b : NodeId) : Except Refusal (Outcome × Graph) := do
  g.checkEnds a b
  .ok (if g.hasEdge a b then .noAction else .success, g.link a b)

def removeEdge (g : Graph) (a b : NodeId) : Except Refusal (Outcome × Graph) := do
  g.checkEnds a b
  if g.hasEdge a b then .ok (.success, g.unlink a b) else .error .missing

def apply (g : Graph) (m : Mutation) : Except Refusal (Outcome × Graph) :=
  match m.kind with
  | .addNode => g.addNode m.a
  | .removeNode => g.removeNode m.a
  | .addEdge => g.addEdge m.a m.b
  | .removeEdge => g.removeEdge m.a m.b

/-- What the caller of a mutation is told. -/
def answer (g : Graph) (m : Mutation) : Except Refusal Outcome := (g.apply m).map Prod.fst

/-- The graph after a mutation; a refused one leaves it as it was. -/
def after (g : Graph) (m : Mutation) : Graph :=
  match g.apply m with
  | .ok (_, next) => next
  | .error _ => g

/-! ## Simple graphs -/

/-- `a` and `b` are joined by an edge. -/
def Adj (g : Graph) (a b : NodeId) : Prop := ∃ edges, g.neighbors? a = some edges ∧ b ∈ edges

/-- Neighbours are mutual, no node is its own neighbour, and every neighbour is a node. -/
structure Simple (g : Graph) : Prop where
  symm : ∀ a b, g.Adj a b → g.Adj b a
  irrefl : ∀ a, ¬ g.Adj a a
  closed : ∀ a b, g.Adj a b → g.contains b

/-! ## Lemmas -/

theorem ext_neighbors? {g h : Graph} (same : ∀ id, g.neighbors? id = h.neighbors? id) : g = h := by
  cases g; cases h
  simp only [mk.injEq]
  exact Std.ExtTreeMap.ext_getElem? same

@[simp] theorem neighbors?_empty (id : NodeId) : (∅ : Graph).neighbors? id = none := by
  show (∅ : Std.ExtTreeMap NodeId NodeSet)[id]? = none
  simp

theorem contains_eq (g : Graph) (id : NodeId) : g.contains id = (g.neighbors? id).isSome := by
  simp [contains, neighbors?]

theorem hasEdge_iff {g : Graph} {a b : NodeId} : g.hasEdge a b = true ↔ g.Adj a b := by
  unfold hasEdge Adj
  cases g.neighbors? a <;> simp

theorem neighbors?_link (g : Graph) {a b : NodeId} (ne : a ≠ b) (id : NodeId) :
    (g.link a b).neighbors? id =
      if id = a then (g.neighbors? id).map (·.insert b)
      else if id = b then (g.neighbors? id).map (·.insert a)
      else g.neighbors? id := by
  simp only [link, neighbors?, Std.ExtTreeMap.getElem?_modify, Std.LawfulEqCmp.compare_eq_iff_eq]
  grind

theorem neighbors?_unlink (g : Graph) {a b : NodeId} (ne : a ≠ b) (id : NodeId) :
    (g.unlink a b).neighbors? id =
      if id = a then (g.neighbors? id).map (·.erase b)
      else if id = b then (g.neighbors? id).map (·.erase a)
      else g.neighbors? id := by
  simp only [unlink, neighbors?, Std.ExtTreeMap.getElem?_modify, Std.LawfulEqCmp.compare_eq_iff_eq]
  grind

/-- The empty graph is simple. -/
theorem simple_empty : Simple ∅ where
  symm := by simp [Adj]
  irrefl := by simp [Adj]
  closed := by simp [Adj]

end Graph

end DurableGraph
