import DurableGraph.Disk.Work
import DurableGraph.Record.LogRecord

/-!
# The log

A region of the device that starts with a superblock.  Behind it stands the active segment, a
run of log blocks of one generation; only the last of them, the tail, is ever written again.
Rotation begins a new generation with one empty block.

    append     one block written; three where the tail was full: the new block while it is
               empty, the superblock that counts it in, and the new block with its entry
    rotate     the superblock of the next generation, then its empty first block
-/

namespace DurableGraph

inductive LogError where
  | device (error : DeviceError)
  | record (error : RecordError)
  | noSpace (block : Nat)
  | invalidRange (start stop blockCount : Nat)
  | badSegment (start size : Nat)
  | staleBlock (block : Nat) (found expected : UInt64)
  | pastSegmentEnd (block : Nat)
  | generationsExhausted
  | notStarted
  deriving DecidableEq, Repr

/-- A block of the log with its header read. -/
structure LogBlock where
  buffer : Buffer
  header : LogHeader

structure Log where
  device : Device
  region : Region
  superblock : LogSuperblock
  /-- The block that is appended to; none before the log has been formatted or loaded. -/
  tail : Option LogBlock

/-! ## Messages -/

namespace LogError

def message : LogError → String
  | device error => error.message
  | record error => "corrupt log: " ++ error.message
  | noSpace block => "log region exhausted at block " ++ block.repr
  | invalidRange start stop blockCount =>
    "invalid log range " ++ start.repr ++ ".." ++ stop.repr ++ " on a device of " ++
      blockCount.repr ++ " blocks"
  | badSegment start size =>
    "corrupt log: segment " ++ start.repr ++ "+" ++ size.repr ++ " lies outside the log region"
  | staleBlock block found expected =>
    "corrupt log: block " ++ block.repr ++ " has generation " ++ found.toNat.repr ++
      ", expected " ++ expected.toNat.repr
  | pastSegmentEnd block => "read past the end of the log segment at block " ++ block.repr
  | generationsExhausted => "log generation counter exhausted"
  | notStarted => "log has not been formatted or initialized"

/-- The messages of the errors below this one; an error of the device speaks for itself. -/
def causes : LogError → List String
  | device error => error.causes
  | record error => [error.message]
  | _ => []

end LogError

/-! ## Blocks of the log -/

namespace LogBlock

/-- An empty block for a generation, written over a buffer. -/
def empty (generation : UInt64) (buffer : Buffer) : LogBlock :=
  let header : LogHeader := ⟨generation, 0⟩
  ⟨⟨buffer.number, header.encode buffer.content⟩, header⟩

/-- The block with one more entry. -/
def push (block : LogBlock) (m : Mutation) : LogBlock :=
  let header := { block.header with entryCount := block.header.entryCount + 1 }
  let content := m.encode block.header.entryCount.toNat block.buffer.content
  ⟨⟨block.buffer.number, header.encode content⟩, header⟩

/-- Reads a block, which must be of the generation that is wanted. -/
def load (device : Device) (image : Image) (n : Nat) (generation : UInt64) :
    Except LogError LogBlock := do
  let buffer ← (device.get image n).mapError .device
  let header ← (LogHeader.decode buffer).mapError .record
  if header.generation = generation then .ok ⟨buffer, header⟩
  else .error (.staleBlock n header.generation generation)

end LogBlock

namespace Log

open Work

/-! ## Looking at a log -/

/-- A log over a region of a device.  Its block numbers must fit into 32 bits; nothing is read
or written yet. -/
def ofRegion (device : Device) (region : Region) : Except LogError Log :=
  if device.blockCount < region.stop ∨ region.stop - region.start < 2 ∨
      UInt32.size ≤ region.stop then
    .error (.invalidRange region.start region.stop device.blockCount)
  else .ok ⟨device, region, .fresh (region.start + 1).toUInt32, none⟩

def generation (log : Log) : UInt64 := log.superblock.generation.toUInt64

/-- The blocks of the active segment. -/
def segment (log : Log) : Region := ⟨log.superblock.segmentStart.toNat, log.superblock.segmentEnd⟩

/-- The place of the first log block, right behind the superblock. -/
def firstBlock (log : Log) : UInt32 := (log.region.start + 1).toUInt32

/-- The number of entries that can still be appended. -/
def capacity (log : Log) : Nat :=
  match log.tail with
  | none => 0
  | some tail =>
    (log.region.stop - log.superblock.segmentEnd) * entriesPerBlock +
      (entriesPerBlock - tail.header.entryCount.toNat)

/-! ## Work on a log -/

def storeSuperblock (superblock : LogSuperblock) : Work Log LogError Unit := do
  let log ← current
  let buffer ← ask .device (log.device.blank log.region.start)
  store .device log.device ⟨buffer.number, superblock.encode buffer.content⟩

/-- Begins the next generation with one empty block, and tells its number. -/
def rotate : Work Log LogError UInt64 := do
  let log ← current
  if log.superblock.generation.toNat + 1 = UInt32.size then fail .generationsExhausted
  else
    let next : LogSuperblock := ⟨log.superblock.generation + 1, log.firstBlock, 1⟩
    storeSuperblock next
    replace { log with superblock := next }
    let generation := next.generation.toUInt64
    let buffer ← ask .device (log.device.blank (next.segmentEnd - 1))
    let block := LogBlock.empty generation buffer
    store .device log.device block.buffer
    replace { log with superblock := next, tail := some block }
    note (.logRotated generation.toNat)
    pure generation

/-- Begins a new generation.  A region that holds a superblock goes on counting from there, any
other one is given a fresh superblock first. -/
def format (image : Image) : Work Log LogError UInt64 := do
  let log ← current
  let buffer ← ask .device (log.device.get image log.region.start)
  match LogSuperblock.decode buffer with
  | .ok found =>
    note (.logReformatted found.generation.toNat)
    replace { log with superblock := found }
  | .error _ =>
    let fresh := LogSuperblock.fresh log.firstBlock
    replace { log with superblock := fresh }
    storeSuperblock fresh
  rotate

/-- Takes up a log as it stands in the image.  The segment must start behind the superblock,
hold a block, and end inside the region; its tail must be of the superblock's generation. -/
def load (image : Image) : Work Log LogError Unit := do
  let log ← current
  let buffer ← ask .device (log.device.get image log.region.start)
  let superblock ← ofExcept ((LogSuperblock.decode buffer).mapError .record)
  let start := superblock.segmentStart.toNat
  let size := superblock.segmentSize.toNat
  if start ≠ log.region.start + 1 ∨ size = 0 ∨ log.region.stop < superblock.segmentEnd then
    fail (.badSegment start size)
  else
    let generation := superblock.generation.toUInt64
    let tail ← ofExcept (LogBlock.load log.device image (superblock.segmentEnd - 1) generation)
    replace { log with superblock, tail := some tail }
    note (.logStarted generation.toNat size)

/-- Adds an empty block behind the segment. -/
def extend : Work Log LogError Unit := do
  let log ← current
  let n := log.superblock.segmentEnd
  if log.region.stop ≤ n then fail (.noSpace n)
  else
    let buffer ← ask .device (log.device.blank n)
    let block := LogBlock.empty log.generation buffer
    store .device log.device block.buffer
    let next := { log.superblock with segmentSize := log.superblock.segmentSize + 1 }
    storeSuperblock next
    replace { log with superblock := next, tail := some block }
    note (.segmentExtended n)

/-- Appends one entry. -/
def append (m : Mutation) : Work Log LogError Unit := do
  let log ← current
  match log.tail with
  | none => fail .notStarted
  | some tail =>
    if tail.header.isFull then extend
    let log ← current
    match log.tail with
    | none => fail .notStarted
    | some tail =>
      let tail := tail.push m
      store .device log.device tail.buffer
      replace { log with tail := some tail }

end Log

end DurableGraph
