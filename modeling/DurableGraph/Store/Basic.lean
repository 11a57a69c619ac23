import DurableGraph.Log.Cursor
import DurableGraph.Checkpoint.Slot
import DurableGraph.Store.Error

/-!
# The store

A graph in memory, made durable.  Every mutation is appended to the log before it is applied,
refused ones included.  A checkpoint writes the whole graph and rotates the log, so opening
restores the last checkpoint and replays the log that was written since.

    mutate       append, then apply; a full log refuses and leaves everything as it was
    checkpoint   commit under the current generation, then rotate
    recover      restore the checkpoint of the generation before, then replay
-/

namespace DurableGraph

structure Store where
  device : Device
  log : Log
  checkpoints : CheckpointSlot
  graph : Graph
  /-- Set by the first fault of the storage, and never cleared. -/
  halted : Bool

namespace Graph

/-- The graph after a list of mutations, refused ones among them. -/
def replay (g : Graph) (ms : List Mutation) : Graph := ms.foldl after g

/-- The code that each of a list of mutations gets. -/
def replayStatuses (g : Graph) : List Mutation → List StatusCode
  | [] => []
  | m :: rest => statusOf (g.answer m) :: (g.after m).replayStatuses rest

@[simp] theorem length_replayStatuses (g : Graph) (ms : List Mutation) :
    (g.replayStatuses ms).length = ms.length := by
  induction ms generalizing g with
  | nil => rfl
  | cons m rest ih => simp [replayStatuses, ih]

end Graph

/-- The first fifth of a device holds the log, the rest the checkpoint; either needs a
superblock and one block more. -/
def regions (blockCount : Nat) : Except StoreError (Region × Region) :=
  let border := blockCount / 5
  if border < 2 ∨ blockCount - border < 2 then .error (.tooSmall blockCount)
  else .ok (⟨0, border⟩, ⟨border, blockCount⟩)

theorem regions_eq_ok_iff {blockCount : Nat} {split : Region × Region} :
    regions blockCount = .ok split ↔
      10 ≤ blockCount ∧ split = (⟨0, blockCount / 5⟩, ⟨blockCount / 5, blockCount⟩) := by
  unfold regions
  simp only
  split
  · simp; omega
  · simp [eq_comm]; omega

namespace Store

open Work

/-! ## Parts -/

def onLog (wrap : LogError → StoreError) {α : Type} (x : Work Log LogError α) :
    Work Store StoreError α :=
  onPart log (fun store log => { store with log }) wrap x

def onCheckpoints {α : Type} (x : Work CheckpointSlot CheckpointError α) :
    Work Store StoreError α :=
  onPart checkpoints (fun store checkpoints => { store with checkpoints }) .checkpoint x

def onGraph {α : Type} (x : Work Graph CheckpointError α) : Work Store StoreError α :=
  onPart graph (fun store graph => { store with graph }) .checkpoint x

/-! ## Opening -/

/-- Makes the device an empty store. -/
def format (image : Image) : Work Store StoreError Unit := do
  let generation ← onLog .log (Log.format image)
  onCheckpoints CheckpointSlot.format
  let store ← current
  replace { store with graph := ∅ }
  note (.storeFormatted store.device.path store.device.blockCount generation.toNat)

/-- Rebuilds the graph from the device.  The generation of the log is still open, so the last
completed checkpoint belongs to the one before. -/
def recover (image : Image) : Work Store StoreError Unit := do
  onLog .log (Log.load image)
  onCheckpoints (CheckpointSlot.load image)
  let store ← current
  let generation := store.log.generation
  note (.recoveryBegun generation.toNat)
  let before := if generation = 0 then 0 else generation - 1
  let restored ← onGraph (store.checkpoints.restore image before)
  let cursor ← ofExcept ((store.log.cursor image).mapError .log)
  let (entries, failure) := cursor.entries image
  let store ← current
  let graph := store.graph.replay entries
  noteAll (List.zipWith .replayed entries (store.graph.replayStatuses entries))
  replace { store with graph }
  match failure with
  | some e => fail (.log e)
  | none =>
    note (.recovered generation.toNat restored.toNat entries.length graph.nodeCount graph.edgeCount)

/-- Opens an image as the settings say. -/
def openImage (settings : Settings) (image : Image) : Work Unit StoreError Store := do
  let device := Device.ofImage settings.device image
  note (.deviceOpened device.path device.blockCount settings.directIo)
  let (logRegion, checkpointRegion) ← ofExcept (regions device.blockCount)
  let log ← ofExcept ((Log.ofRegion device logRegion).mapError .log)
  let checkpoints ←
    ofExcept ((CheckpointSlot.ofRegion device checkpointRegion).mapError .checkpoint)
  startingAt ⟨device, log, checkpoints, ∅, false⟩
    (if settings.format then format image else recover image)

/-- Opens the device that the settings name, given what became of opening its file. -/
def openFile (settings : Settings) (file : Except FileFault Image) :
    Work Unit StoreError Store := do
  ofExcept (settings.validate.mapError .settings)
  match file with
  | .ok image => openImage settings image
  | .error fault => fail (.device (.openFailed settings.device fault))

/-! ## Serving -/

/-- A store that has halted serves no more requests. -/
def running : Work Store Refusal Unit := do
  let store ← current
  if store.halted then fail .halted else pure ()

/-- Tells the client of a failure, and halts the store unless space has just run out. -/
def settle {α : Type} (x : Work Store StoreError α) : Work Store Refusal α :=
  x.onError fun e =>
    if e.isNoSpace then do
      note (.outOfSpace e.message)
      fail .noSpace
    else do
      let store ← current
      replace { store with halted := true }
      note (.halted e.message)
      fail e.refusal

def mutate (m : Mutation) : Work Store Refusal Outcome := do
  running
  settle (onLog .log (Log.append m))
  let store ← current
  match store.graph.apply m with
  | .ok (outcome, graph) =>
    replace { store with graph }
    pure outcome
  | .error refusal => fail refusal

/-- Commits the graph under the current generation, then begins the next one. -/
def commitAndRotate : Work Store StoreError UInt64 := do
  let store ← current
  let generation := store.log.generation
  onCheckpoints (CheckpointSlot.commit generation store.graph)
  let next ← onLog .rotationFailed Log.rotate
  note (.checkpointed generation.toNat next.toNat store.graph.nodeCount)
  pure next

def checkpoint : Work Store Refusal UInt64 := do
  running
  settle commitAndRotate

def look (q : Query) : Work Store Refusal Reply := do
  running
  let store ← current
  ofExcept (store.graph.look q)

/-- A copy of the live graph. -/
def snapshot : Work Store Refusal Graph := do
  running
  let store ← current
  pure store.graph

/-- Halves of edges belong to a partition layer, which this store is not. -/
def serve : Request → Work Store Refusal Reply
  | .mutation m => do return .outcome (← mutate m)
  | .query q => look q
  | .checkpoint => do return .checkpointed (← checkpoint)
  | .edgePart .. => fail .wrongPartition

end Store

end DurableGraph
