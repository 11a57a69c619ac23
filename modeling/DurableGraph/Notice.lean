import DurableGraph.Graph.Request

/-!
# Notices

What a store reports of its own work: each notice has a level, a message and named fields.
Around a request of a client stands a span, and the last notice inside it tells how the
request ended.

    request.within notices result = notices of the work, then the closing one, in the span
-/

namespace DurableGraph

inductive Level where
  | trace
  | debug
  | info
  | warn
  | error
  deriving DecidableEq, Repr

inductive FieldValue where
  | number (n : Nat)
  | flag (b : Bool)
  | text (s : String)
  deriving DecidableEq, Repr

/-- The occasions on which something is reported. -/
inductive Notice where
  | deviceOpened (path : String) (blockCount : Nat) (directIo : Bool)
  | logReformatted (generation : Nat)
  | logStarted (generation segmentSize : Nat)
  | logRotated (generation : Nat)
  | segmentExtended (block : Nat)
  | checkpointLoaded (version : Nat) (committed : Bool)
  | checkpointCommitted (generation nodes : Nat)
  /-- A checkpoint of the wanted generation was begun but not committed. -/
  | checkpointIncomplete (generation : Nat)
  | checkpointAbsent (generation onDisk : Nat)
  | storeFormatted (device : String) (blocks generation : Nat)
  | recoveryBegun (generation : Nat)
  | replayed (m : Mutation) (status : StatusCode)
  /-- With the count of checkpoint records restored and of log entries replayed. -/
  | recovered (generation records entries nodes edges : Nat)
  | checkpointed (generation next nodes : Nat)
  | outOfSpace (error : String)
  | halted (error : String)
  | requestServed (value : String)
  | requestRejected (status : StatusCode)
  | requestFailed (error : String)
  | checkpointServed (generation : Nat)
  | checkpointFailed (error : String)
  deriving DecidableEq, Repr

/-- A stretch of work that notices can stand in. -/
structure Span where
  name : String
  level : Level
  fields : List (String × FieldValue)
  deriving DecidableEq, Repr

/-- A notice with the spans around it, the outermost first. -/
structure Event where
  notice : Notice
  spans : List Span
  deriving DecidableEq, Repr

/-! ## The form of a notice -/

def Level.text : Level → String
  | trace => "TRACE"
  | debug => "DEBUG"
  | info => "INFO"
  | warn => "WARN"
  | error => "ERROR"

namespace Notice

def level : Notice → Level
  | segmentExtended _ => .trace
  | deviceOpened .. | logReformatted _ | logStarted .. | logRotated _ | checkpointLoaded ..
  | checkpointCommitted .. | checkpointAbsent .. | replayed .. | requestServed _
  | requestRejected _ => .debug
  | storeFormatted .. | recoveryBegun _ | recovered .. | checkpointed ..
  | checkpointServed _ => .info
  | checkpointIncomplete _ | outOfSpace _ => .warn
  | halted _ | requestFailed _ | checkpointFailed _ => .error

def message : Notice → String
  | deviceOpened .. => "opened block device"
  | logReformatted _ => "reformatting existing log"
  | logStarted .. => "log initialized"
  | logRotated _ => "log rotated"
  | segmentExtended _ => "log segment extended"
  | checkpointLoaded .. => "checkpoint superblock loaded"
  | checkpointCommitted .. => "checkpoint committed"
  | checkpointIncomplete _ => "skipping incomplete checkpoint"
  | checkpointAbsent .. => "no checkpoint to restore"
  | storeFormatted .. => "formatted store"
  | recoveryBegun _ => "recovering store"
  | replayed .. => "replayed"
  | recovered .. => "recovery complete"
  | checkpointed .. => "checkpoint complete, log rotated"
  | outOfSpace _ => "out of space"
  | halted _ => "store halted"
  | requestServed _ => "ok"
  | requestRejected _ => "rejected"
  | requestFailed _ => "failed"
  | checkpointServed _ => "checkpoint complete"
  | checkpointFailed _ => "checkpoint failed"

def fields : Notice → List (String × FieldValue)
  | deviceOpened path blockCount directIo =>
    [("path", .text path), ("block_count", .number blockCount), ("direct_io", .flag directIo)]
  | logReformatted generation => [("generation", .number generation)]
  | logStarted generation segmentSize =>
    [("generation", .number generation), ("segment_size", .number segmentSize)]
  | logRotated generation => [("generation", .number generation)]
  | segmentExtended block => [("block", .number block)]
  | checkpointLoaded version committed =>
    [("version", .number version), ("checkpointed", .flag committed)]
  | checkpointCommitted generation nodes =>
    [("generation", .number generation), ("nodes", .number nodes)]
  | checkpointIncomplete generation => [("generation", .number generation)]
  | checkpointAbsent generation onDisk =>
    [("generation", .number generation), ("on_disk", .number onDisk)]
  | storeFormatted device blocks generation =>
    [("device", .text device), ("blocks", .number blocks), ("generation", .number generation)]
  | recoveryBegun generation => [("generation", .number generation)]
  | replayed m status => [("entry", .text m.text), ("status", .text status.text)]
  | recovered generation records entries nodes edges =>
    [("generation", .number generation), ("restored", .number records),
      ("replayed", .number entries), ("nodes", .number nodes), ("edges", .number edges)]
  | checkpointed generation next nodes =>
    [("generation", .number generation), ("next", .number next), ("nodes", .number nodes)]
  | outOfSpace error | halted error | requestFailed error | checkpointFailed error =>
    [("error", .text error)]
  | requestServed value => [("value", .text value)]
  | requestRejected status => [("status", .text status.text)]
  | checkpointServed generation => [("generation", .number generation)]

end Notice

/-! ## Spans of requests -/

namespace Reply

/-- The short form of a reply in a notice: a node and a list of ids show how many they are. -/
def summary : Reply → String
  | .outcome .success => "Success"
  | .outcome .noAction => "NoAction"
  | .node found => found.degree.repr
  | .edge a b => "(" ++ a.toNat.repr ++ ", " ++ b.toNat.repr ++ ")"
  | .neighbors ids => ids.length.repr
  | .distance (some hops) => "Some(" ++ hops.repr ++ ")"
  | .distance none => "None"
  | .checkpointed generation => generation.toNat.repr

end Reply

namespace Request

private def idField (id : NodeId) : List (String × FieldValue) := [("id", .number id.toNat)]

private def endFields (a b : NodeId) : List (String × FieldValue) :=
  [("a", .number a.toNat), ("b", .number b.toNat)]

private def halfFields (near far : NodeId) : List (String × FieldValue) :=
  [("local", .number near.toNat), ("remote", .number far.toNat)]

/-- The span of a request: short look-ups stand a level below the rest. -/
def span : Request → Span
  | .mutation ⟨.addNode, id, _⟩ => ⟨"graph.add_node", .info, idField id⟩
  | .mutation ⟨.removeNode, id, _⟩ => ⟨"graph.remove_node", .info, idField id⟩
  | .mutation ⟨.addEdge, a, b⟩ => ⟨"graph.add_edge", .info, endFields a b⟩
  | .mutation ⟨.removeEdge, a, b⟩ => ⟨"graph.remove_edge", .info, endFields a b⟩
  | .query (.node id) => ⟨"graph.find_node", .debug, idField id⟩
  | .query (.edge a b) => ⟨"graph.get_edge", .debug, endFields a b⟩
  | .query (.neighbors id) => ⟨"graph.get_neighbors", .debug, idField id⟩
  | .query (.shortestPath a b) => ⟨"graph.shortest_path", .info, endFields a b⟩
  | .checkpoint => ⟨"graph.checkpoint", .info, []⟩
  | .edgePart .add near far => ⟨"graph.add_edge_part", .info, halfFields near far⟩
  | .edgePart .remove near far => ⟨"graph.remove_edge_part", .info, halfFields near far⟩
  | .edgePart .get near far => ⟨"graph.get_edge_part", .debug, halfFields near far⟩

/-- The notice that tells how a request ended.  A rejected request is no failure of the store;
a checkpoint has only success and failure. -/
def closing : Request → Except Refusal Reply → Notice
  | .checkpoint, .ok (.checkpointed generation) => .checkpointServed generation.toNat
  | .checkpoint, .error refusal => .checkpointFailed refusal.message
  | _, .ok reply => .requestServed reply.summary
  | _, .error refusal =>
    if refusal.isFault then .requestFailed refusal.message else .requestRejected refusal.status

/-- The events of a request whose work gave some notices and a result. -/
def within (request : Request) (notices : List Notice) (result : Except Refusal Reply) :
    List Event :=
  (notices ++ [request.closing result]).map fun notice => ⟨notice, [request.span]⟩

/-- A span adds one notice to those of the work, and none of them leaves it. -/
theorem length_within (request : Request) (notices : List Notice)
    (result : Except Refusal Reply) :
    (request.within notices result).length = notices.length + 1 := by
  simp [within]

end Request

end DurableGraph
