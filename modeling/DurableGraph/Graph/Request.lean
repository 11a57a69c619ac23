import DurableGraph.Graph.Distance

/-!
# Requests and replies

Everything a client can ask of a graph, as data, with the one text of every reply.

    g.look q                         what a graph in memory answers to a query
-/

namespace DurableGraph

/-- A question about a graph. -/
inductive Query where
  | node (id : NodeId)
  | edge (a b : NodeId)
  | neighbors (id : NodeId)
  | shortestPath (a b : NodeId)
  deriving DecidableEq, Repr

/-- What is done with the near half of an edge whose far end lies in another partition. -/
inductive EdgePartAccess where
  | add
  | remove
  | get
  deriving DecidableEq, Repr

/-- A call on a store of a graph. -/
inductive Request where
  | mutation (m : Mutation)
  | query (q : Query)
  | checkpoint
  | edgePart (access : EdgePartAccess) (near far : NodeId)
  deriving DecidableEq, Repr

/-- The result of a request that was carried out. -/
inductive Reply where
  | outcome (outcome : Outcome)
  | node (node : Node)
  | edge (a b : NodeId)
  | neighbors (ids : List NodeId)
  | distance (hops : Option Nat)
  | checkpointed (generation : UInt64)

namespace Graph

/-- The answer to a query. -/
def look (g : Graph) : Query → Except Refusal Reply
  | .node id => (g.node id).map .node
  | .edge a b => (g.edge a b).map fun (a, b) => .edge a b
  | .neighbors id => (g.neighbors id).map .neighbors
  | .shortestPath a b => (g.shortestPath a b).map .distance

end Graph

namespace Reply

/-- Decimal numbers with one space between them. -/
def idsText (ids : List NodeId) : String := " ".intercalate (ids.map fun id => id.toNat.repr)

/-- The text of a reply.  No distance reads as a call without effect. -/
def text : Reply → String
  | .outcome result => result.status.text
  | .node found =>
    found.neighbors.foldl (fun text id => text ++ " " ++ id.toNat.repr) (found.id.toNat.repr ++ ":")
  | .edge a b => idsText [a, b]
  | .neighbors ids => idsText ids
  | .distance (some hops) => hops.repr
  | .distance none => Outcome.noAction.status.text
  | .checkpointed generation =>
    Outcome.success.status.text ++ " (generation " ++ generation.toNat.repr ++ ")"

end Reply

end DurableGraph
