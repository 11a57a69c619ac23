import DurableGraph.Store.Basic

/-!
# Statistics

A summary of a store at one moment, as text and as JSON.

    Stats.text      one row for each figure, the labels padded to one width
    Stats.json      the members in the order of the structure
-/

namespace DurableGraph

structure Stats where
  device : String
  deviceBlocks : Nat
  generation : Nat
  nodeCount : Nat
  edgeCount : Nat
  segment : Region
  capacity : Nat
  checkpointVersion : Nat
  checkpointed : Bool
  halted : Bool
  deriving DecidableEq, Repr

def Store.stats (store : Store) : Stats where
  device := store.device.path
  deviceBlocks := store.device.blockCount
  generation := store.log.generation.toNat
  nodeCount := store.graph.nodeCount
  edgeCount := store.graph.edgeCount
  segment := store.log.segment
  capacity := store.log.capacity
  checkpointVersion := store.checkpoints.superblock.version.toNat
  checkpointed := store.checkpoints.superblock.committed
  halted := store.halted

/-! ## JSON strings -/

/-- A character inside a JSON string: quote, backslash and control characters are escaped. -/
def jsonChar (c : Char) : List Char :=
  match c with
  | '"' => ['\\', '"']
  | '\\' => ['\\', '\\']
  | '\n' => ['\\', 'n']
  | '\r' => ['\\', 'r']
  | '\t' => ['\\', 't']
  | '\x08' => ['\\', 'b']
  | '\x0c' => ['\\', 'f']
  | c =>
    if c.toNat < 0x20 then
      ['\\', 'u', '0', '0', Nat.digitChar (c.toNat / 16), Nat.digitChar (c.toNat % 16)]
    else [c]

def jsonString (s : String) : String := "\"" ++ String.ofList (s.toList.flatMap jsonChar) ++ "\""

def jsonBool (b : Bool) : String := if b then "true" else "false"

namespace Stats

/-! ## Reports -/

/-- A row of the report, its value in the fifteenth column. -/
def row (label value : String) : String :=
  label ++ ":" ++ String.ofList (List.replicate (13 - label.length) ' ') ++ value ++ "\n"

def text (stats : Stats) : String :=
  row "Device" stats.device ++
  row "Blocks" stats.deviceBlocks.repr ++
  row "Generation" stats.generation.repr ++
  row "Nodes" stats.nodeCount.repr ++
  row "Edges" stats.edgeCount.repr ++
  row "Log segment" (stats.segment.start.repr ++ ".." ++ stats.segment.stop.repr) ++
  row "Log capacity" (stats.capacity.repr ++ " entries") ++
  row "Checkpoint"
    (if stats.checkpointed then "generation " ++ stats.checkpointVersion.repr else "none") ++
  (if stats.halted then row "Status" "halted" else "")

/-- The members of a JSON object, each on a line of its own. -/
def jsonObject (indent : String) (members : List (String × String)) : String :=
  "\x7b\n" ++
    ",\n".intercalate (members.map fun (name, value) =>
      indent ++ "  " ++ jsonString name ++ ": " ++ value) ++
    "\n" ++ indent ++ "\x7d"

def json (stats : Stats) : String :=
  jsonObject "" [
    ("device", jsonString stats.device),
    ("device_blocks", stats.deviceBlocks.repr),
    ("generation", stats.generation.repr),
    ("node_count", stats.nodeCount.repr),
    ("edge_count", stats.edgeCount.repr),
    ("log_segment", jsonObject "  "
      [("start", stats.segment.start.repr), ("end", stats.segment.stop.repr)]),
    ("log_capacity_remaining", stats.capacity.repr),
    ("checkpoint_version", stats.checkpointVersion.repr),
    ("checkpointed", jsonBool stats.checkpointed),
    ("halted", jsonBool stats.halted)]

end Stats

end DurableGraph
