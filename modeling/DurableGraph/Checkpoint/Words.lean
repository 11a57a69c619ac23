import DurableGraph.Disk.Device
import DurableGraph.Graph.Basic

/-!
# Words over a run of blocks

A writer packs words into consecutive blocks of a region, a reader takes them out again.
Either touches a block only when its first word is asked for.

    a writer takes 512 words for every block of its region, and no more
    a reader gives them back, then the zeros that fill the last block
-/

namespace DurableGraph

inductive CheckpointError where
  | device (error : DeviceError)
  | noSpace (block : Nat)
  | truncated (block : Nat)
  | invalidRange (start stop blockCount : Nat)
  | restore (refusal : Refusal)
  deriving DecidableEq, Repr

namespace CheckpointError

def message : CheckpointError → String
  | device error => error.message
  | noSpace block => "checkpoint region exhausted at block " ++ block.repr
  | truncated block =>
    "corrupt checkpoint: body runs past the region at block " ++ block.repr
  | invalidRange start stop blockCount =>
    "invalid checkpoint range " ++ start.repr ++ ".." ++ stop.repr ++ " on a device of " ++
      blockCount.repr ++ " blocks"
  | restore refusal => "corrupt checkpoint: " ++ refusal.message

/-- The messages of the errors below this one; an error of the device speaks for itself. -/
def causes : CheckpointError → List String
  | device error => error.causes
  | restore refusal => [refusal.message]
  | _ => []

end CheckpointError

/-! ## Writing -/

structure WordWriter where
  device : Device
  /-- One past the last block of the region. -/
  stop : Nat
  /-- The block that is being filled. -/
  block : Nat
  /-- Its words so far, fewer than a block holds. -/
  pending : Array UInt64
  /-- The blocks that are full, in order. -/
  full : Array Buffer

namespace WordWriter

def ofRegion (device : Device) (region : Region) : WordWriter :=
  ⟨device, region.stop, region.start, #[], #[]⟩

/-- Whether there is a place for one more word. -/
def room (w : WordWriter) : Except CheckpointError Unit :=
  if !w.pending.isEmpty then .ok ()
  else if w.stop ≤ w.block then .error (.noSpace w.block)
  else (w.device.check w.block).mapError .device

/-- Takes one more word. -/
def push (w : WordWriter) (word : UInt64) : Except CheckpointError WordWriter :=
  match w.room with
  | .error e => .error e
  | .ok _ =>
    let pending := w.pending.push word
    if pending.size = wordsPerBlock then
      .ok { w with
        block := w.block + 1
        pending := #[]
        full := w.full.push ⟨w.block, .ofWords pending.toList⟩ }
    else .ok { w with pending }

def pushAll (w : WordWriter) (words : List UInt64) : Except CheckpointError WordWriter :=
  words.foldlM push w

/-- All blocks that hold a word, the last one filled up with zeros. -/
def finish (w : WordWriter) : List Buffer :=
  if w.pending.isEmpty then w.full.toList
  else w.full.toList ++ [⟨w.block, .ofWords w.pending.toList⟩]

end WordWriter

/-! ## Reading -/

structure WordReader where
  device : Device
  /-- One past the last block of the region. -/
  stop : Nat
  block : Nat
  /-- The word of the block that comes next. -/
  place : Nat
  /-- The block, once it was read. -/
  content : Option Block

namespace WordReader

def ofRegion (device : Device) (region : Region) : WordReader :=
  ⟨device, region.stop, region.start, 0, none⟩

/-- The block that holds the next word. -/
def load (image : Image) (r : WordReader) : Except CheckpointError Block :=
  match r.content with
  | some content => .ok content
  | none =>
    if r.stop ≤ r.block then .error (.truncated r.block)
    else ((r.device.get image r.block).map Buffer.content).mapError .device

/-- The next word, and the reader behind it. -/
def next (image : Image) (r : WordReader) : Except CheckpointError (UInt64 × WordReader) :=
  match r.load image with
  | .error e => .error e
  | .ok content =>
    let word := content.word r.place
    if r.place + 1 = wordsPerBlock then
      .ok (word, { r with block := r.block + 1, place := 0, content := none })
    else .ok (word, { r with place := r.place + 1, content := some content })

end WordReader

end DurableGraph
