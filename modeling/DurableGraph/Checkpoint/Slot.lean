import DurableGraph.Disk.Work
import DurableGraph.Record.CheckpointRecord
import DurableGraph.Checkpoint.Words

/-!
# The checkpoint

A region of the device with room for one graph: a superblock, then for each node in ascending
order its id, its degree and its neighbours, a word each.  The superblock is written twice,
as not committed before the body and as committed after it.

    commit    superblock, body, superblock; refused before the first write if it does not fit
    restore   adds the nodes and edges of the body to a graph
-/

namespace DurableGraph

/-- The words that tell a graph. -/
def Graph.words (g : Graph) : List UInt64 :=
  g.nodes.flatMap fun node => node.id :: node.degree.toUInt64 :: node.neighbors

structure CheckpointSlot where
  device : Device
  region : Region
  superblock : CheckpointSuperblock

namespace CheckpointSlot

open Work

/-! ## Looking at the checkpoint -/

/-- The checkpoint in a region of a device.  Nothing is read or written yet. -/
def ofRegion (device : Device) (region : Region) : Except CheckpointError CheckpointSlot :=
  if device.blockCount < region.stop ∨ region.stop - region.start < 2 then
    .error (.invalidRange region.start region.stop device.blockCount)
  else .ok ⟨device, region, .none⟩

/-- The blocks behind the superblock. -/
def body (slot : CheckpointSlot) : Region := ⟨slot.region.start + 1, slot.region.stop⟩

/-- The words that the body has room for. -/
def bodyWords (slot : CheckpointSlot) : Nat := (slot.body.stop - slot.body.start) * wordsPerBlock

/-- Whether a committed checkpoint of a generation is on disk. -/
def has (slot : CheckpointSlot) (generation : UInt64) : Bool :=
  slot.superblock.committed && slot.superblock.version = generation

/-! ## Writing -/

def storeSuperblock (superblock : CheckpointSuperblock) :
    Work CheckpointSlot CheckpointError Unit := do
  let slot ← current
  let buffer ← ask .device (slot.device.blank slot.region.start)
  store .device slot.device ⟨buffer.number, superblock.encode buffer.content⟩
  replace { slot with superblock }

/-- Forgets every checkpoint. -/
def format : Work CheckpointSlot CheckpointError Unit := storeSuperblock .none

/-- Takes up the superblock as it stands in the image. -/
def load (image : Image) : Work CheckpointSlot CheckpointError Unit := do
  let slot ← current
  let buffer ← ask .device (slot.device.get image slot.region.start)
  let superblock := CheckpointSuperblock.decode buffer.content
  replace { slot with superblock }
  note (.checkpointLoaded superblock.version.toNat superblock.committed)

/-- Writes a graph as the checkpoint of a generation. -/
def commit (generation : UInt64) (g : Graph) : Work CheckpointSlot CheckpointError Unit := do
  let slot ← current
  let words := g.words
  if slot.bodyWords < words.length then fail (.noSpace slot.region.stop)
  else
    let nodes := g.nodeCount.toUInt64
    storeSuperblock ⟨false, generation, nodes⟩
    let writer ← ofExcept ((WordWriter.ofRegion slot.device slot.body).pushAll words)
    writer.finish.forM (store .device slot.device)
    storeSuperblock ⟨true, generation, nodes⟩
    note (.checkpointCommitted generation.toNat nodes.toNat)

/-! ## Restoring -/

/-- Reads the neighbours of a node and joins them to it.  What was restored before a failure
stays in the graph. -/
def restoreEdges (image : Image) (id : NodeId) :
    (count : Nat) → WordReader → Graph → Except CheckpointError WordReader × Graph
  | 0, r, g => (.ok r, g)
  | count + 1, r, g =>
    match r.next image with
    | .error e => (.error e, g)
    | .ok (neighbor, r) =>
      let g := g.after (.addNode neighbor)
      match g.addEdge id neighbor with
      | .ok (_, g) => restoreEdges image id count r g
      | .error refusal => (.error (.restore refusal), g)

/-- Reads the records of nodes: an id, a degree, and so many neighbours. -/
def restoreRecords (image : Image) :
    (count : Nat) → WordReader → Graph → Except CheckpointError WordReader × Graph
  | 0, r, g => (.ok r, g)
  | count + 1, r, g =>
    match r.next image with
    | .error e => (.error e, g)
    | .ok (id, r) =>
      let g := g.after (.addNode id)
      match r.next image with
      | .error e => (.error e, g)
      | .ok (degree, r) =>
        match restoreEdges image id degree.toNat r g with
        | (.ok r, g) => restoreRecords image count r g
        | (.error e, g) => (.error e, g)

/-- Adds the checkpoint of a generation to a graph, and tells the number of its records: zero
where no such checkpoint is committed. -/
def restore (slot : CheckpointSlot) (image : Image) (generation : UInt64) :
    Work Graph CheckpointError UInt64 := do
  if slot.has generation then
    let g ← current
    let (result, g) := restoreRecords image slot.superblock.nodeCount.toNat
      (WordReader.ofRegion slot.device slot.body) g
    replace g
    let _ ← ofExcept result
    pure slot.superblock.nodeCount
  else
    if slot.superblock.version = generation ∧ generation ≠ 0 then
      note (.checkpointIncomplete generation.toNat)
    else note (.checkpointAbsent generation.toNat slot.superblock.version.toNat)
    pure 0

end CheckpointSlot

end DurableGraph
