import DurableGraph.Proofs.Checked.Arithmetic
import DurableGraph.Proofs.Log.Capacity

/-!
# The log in checked arithmetic

The steps of a log, computed with words.  They go through on any image: what is read is checked
before anything is computed from it.

    log.Placed image     format, load, rotate
    log.Started image    append
    log.Countable        capacity
-/

namespace DurableGraph

open Checked Work

instance : DeviceErrors LogError where
  beyond
    | .device (.noSpace ..) => true
    | _ => false

/-! ## Records -/

/-- The fields of a superblock, and the words under its seal. -/
def LogSuperblock.fields : List (Nat × Nat) := [(0, 8), (8, 4), (12, 4), (16, 4), (20, 4), (8, 16)]

/-- The fields of the header of a log block, and the words under its seal. -/
def LogHeader.fields : List (Nat × Nat) := [(0, 8), (8, 8), (16, 8), (24, 4), (28, 4), (8, 4080)]

/-- The fields of an entry. -/
def Mutation.fields : List (Nat × Nat) := [(0, 4), (4, 4), (8, 8), (16, 8)]

theorem LogSuperblock.fields_eq_ok : Checked.fields blockSize LogSuperblock.fields = .ok () := rfl

theorem LogHeader.fields_eq_ok : Checked.fields blockSize LogHeader.fields = .ok () := rfl

theorem Mutation.fields_eq_ok : Checked.fields 24 Mutation.fields = .ok () := rfl

def LogSuperblock.segmentEndChecked (s : LogSuperblock) : Checked Nat :=
  add64 s.segmentStart.toNat s.segmentSize.toNat

/-- Where the slot of an entry begins, which must lie behind the header and end with the last
entry. -/
def slotStart (slot : Nat) : Checked Nat := do
  let offset ← mul64 slot 24
  let start ← add64 32 offset
  let stop ← add64 start 24
  slice start stop 32 4088
  fields 24 Mutation.fields
  pure start

theorem slotStart_eq_ok {slot : Nat} (h : slot < entriesPerBlock) :
    slotStart slot = .ok (8 * slotWord slot) := by
  have few : slot < 169 := h
  have hmul : slot * 24 < UInt64.size := by
    show slot * 24 < 18446744073709551616
    omega
  have hadd : 32 + slot * 24 + 24 < UInt64.size := by
    show 32 + slot * 24 + 24 < 18446744073709551616
    omega
  unfold slotStart
  rw [mul64_eq_ok hmul, ok_bind, add64_eq_ok (by omega), ok_bind, add64_eq_ok hadd, ok_bind,
    slice_eq_ok (by omega), ok_bind, Mutation.fields_eq_ok, ok_bind]
  unfold slotWord
  rw [show 32 + slot * 24 = 8 * (4 + 3 * slot) by omega]
  rfl

example : slotStart entriesPerBlock = .error .outside := rfl

/-- Two numbers of 32 bits always have a sum of 64. -/
theorem LogSuperblock.segmentEndChecked_eq_ok (s : LogSuperblock) :
    s.segmentEndChecked = .ok s.segmentEnd := by
  have hstart : s.segmentStart.toNat < 4294967296 := s.segmentStart.toNat_lt
  have hsize : s.segmentSize.toNat < 4294967296 := s.segmentSize.toNat_lt
  refine add64_eq_ok ?_
  show _ < 18446744073709551616
  omega

/-! ## Blocks -/

namespace LogBlock

def emptyChecked (generation : UInt64) (buffer : Buffer) : Checked LogBlock := do
  fields blockSize LogHeader.fields
  pure (empty generation buffer)

def pushChecked (block : LogBlock) (m : Mutation) : Checked LogBlock := do
  let _ ← slotStart block.header.entryCount.toNat
  let _ ← add32 block.header.entryCount 1
  fields blockSize LogHeader.fields
  pure (block.push m)

def loadChecked (device : Device) (image : Image) (n : Nat) (generation : UInt64) :
    Checked (Except LogError LogBlock) := do
  let _ ← device.byteOffset n
  fields blockSize LogHeader.fields
  pure (load device image n generation)

theorem emptyChecked_eq_ok (generation : UInt64) (buffer : Buffer) :
    emptyChecked generation buffer = .ok (empty generation buffer) := by
  unfold emptyChecked
  rw [LogHeader.fields_eq_ok]
  rfl

theorem pushChecked_eq_ok {block : LogBlock} (room : block.header.isFull = false) (m : Mutation) :
    block.pushChecked m = .ok (block.push m) := by
  have few := entryCount_lt room
  have hadd : block.header.entryCount.toNat + (1 : UInt32).toNat < UInt32.size := by
    have few' : block.header.entryCount.toNat < 169 := few
    show block.header.entryCount.toNat + 1 < 4294967296
    omega
  unfold pushChecked
  rw [slotStart_eq_ok few, ok_bind, add32_eq_ok hadd, ok_bind, LogHeader.fields_eq_ok]
  rfl

theorem loadChecked_eq_ok {device : Device} (all : device.Addressable) {n : Nat}
    (h : n < device.blockCount) (image : Image) (generation : UInt64) :
    loadChecked device image n generation = .ok (load device image n generation) := by
  unfold loadChecked
  rw [Device.byteOffset_eq_ok all h, ok_bind, LogHeader.fields_eq_ok]
  rfl

theorem load_of_checked {device : Device} {image : Image} {n : Nat} {generation : UInt64}
    {r : Except LogError LogBlock} (h : loadChecked device image n generation = .ok r) :
    r = load device image n generation := by
  obtain ⟨_, -, h⟩ := bind_eq_ok_iff.1 h
  obtain ⟨_, -, h⟩ := bind_eq_ok_iff.1 h
  cases h
  rfl

/-- A block of the device is not refused for its number. -/
theorem beyond_load {device : Device} {n : Nat} (h : n < device.blockCount) {image : Image}
    {generation : UInt64} {e : LogError} (failed : load device image n generation = .error e) :
    DeviceErrors.beyond e = false := by
  unfold load at failed
  cases hget : device.get image n with
  | error e' =>
    rw [hget, Device.get_error h hget] at failed
    cases failed
    rfl
  | ok buffer =>
    rw [hget] at failed
    cases decoded : LogHeader.decode buffer with
    | error e' =>
      simp only [decoded, Work.mapError_ok, Work.mapError_error, bind, Except.bind] at failed
      cases failed
      rfl
    | ok header =>
      simp only [decoded, Work.mapError_ok, bind, Except.bind] at failed
      split at failed
      · cases failed
      · cases failed
        rfl

end LogBlock

/-! ## The log -/

namespace Log

def ofRegionChecked (device : Device) (region : Region) : Checked (Except LogError Log) :=
  if device.blockCount < region.stop ∨ region.stop - region.start < 2 ∨
      UInt32.size ≤ region.stop then
    pure (.error (.invalidRange region.start region.stop device.blockCount))
  else do
    let behind ← add64 region.start 1
    let start ← narrow32 behind
    pure (.ok ⟨device, region, .fresh start, none⟩)

def firstBlockChecked (log : Log) : Checked UInt32 := do
  let behind ← add64 log.region.start 1
  narrow32 behind

def capacityChecked (log : Log) : Checked Nat :=
  match log.tail with
  | none => pure 0
  | some tail => do
    let stop ← log.superblock.segmentEndChecked
    let inTail ← sub entriesPerBlock tail.header.entryCount.toNat
    let behind ← mul64 (log.region.stop - stop) entriesPerBlock
    add64 behind inTail

def storeSuperblockChecked (superblock : LogSuperblock) : Guarded Log LogError Unit := do
  let log ← .of current
  let buffer ← .blank .device log.device log.region.start
  .check (fields blockSize LogSuperblock.fields)
  .store .device log.device ⟨buffer.number, superblock.encode buffer.content⟩

def rotateChecked : Guarded Log LogError UInt64 := do
  let log ← .of current
  if log.superblock.generation.toNat + 1 = UInt32.size then .of (fail .generationsExhausted)
  else
    let generation ← .check (add32 log.superblock.generation 1)
    let first ← .check log.firstBlockChecked
    let next : LogSuperblock := ⟨generation, first, 1⟩
    storeSuperblockChecked next
    .of (replace { log with superblock := next })
    let generation := next.generation.toUInt64
    let stop ← .check next.segmentEndChecked
    let last ← .check (sub stop 1)
    let buffer ← .blank .device log.device last
    let block ← .check (LogBlock.emptyChecked generation buffer)
    .store .device log.device block.buffer
    .of (replace { log with superblock := next, tail := some block })
    .of (note (.logRotated generation.toNat))
    pure generation

def formatChecked (image : Image) : Guarded Log LogError UInt64 := do
  let log ← .of current
  let buffer ← .get .device log.device image log.region.start
  .check (fields blockSize LogSuperblock.fields)
  match LogSuperblock.decode buffer with
  | .ok found =>
    .of (note (.logReformatted found.generation.toNat))
    .of (replace { log with superblock := found })
  | .error _ =>
    let first ← .check log.firstBlockChecked
    .of (replace { log with superblock := .fresh first })
    storeSuperblockChecked (.fresh first)
  rotateChecked

def loadChecked (image : Image) : Guarded Log LogError Unit := do
  let log ← .of current
  let buffer ← .get .device log.device image log.region.start
  .check (fields blockSize LogSuperblock.fields)
  let superblock ← .of (ofExcept ((LogSuperblock.decode buffer).mapError .record))
  let start := superblock.segmentStart.toNat
  let size := superblock.segmentSize.toNat
  let behind ← .check (add64 log.region.start 1)
  let stop ← .check superblock.segmentEndChecked
  if start ≠ behind ∨ size = 0 ∨ log.region.stop < stop then .of (fail (.badSegment start size))
  else
    let generation := superblock.generation.toUInt64
    let last ← .check (sub stop 1)
    let tail ← .answer (LogBlock.loadChecked log.device image last generation)
    .of (replace { log with superblock, tail := some tail })
    .of (note (.logStarted generation.toNat size))

def extendChecked : Guarded Log LogError Unit := do
  let log ← .of current
  let n ← .check log.superblock.segmentEndChecked
  if log.region.stop ≤ n then .of (fail (.noSpace n))
  else
    let buffer ← .blank .device log.device n
    let block ← .check (LogBlock.emptyChecked log.generation buffer)
    .store .device log.device block.buffer
    let segmentSize ← .check (add32 log.superblock.segmentSize 1)
    let next := { log.superblock with segmentSize }
    storeSuperblockChecked next
    .of (replace { log with superblock := next, tail := some block })
    .of (note (.segmentExtended n))

def appendChecked (m : Mutation) : Guarded Log LogError Unit := do
  let log ← .of current
  match log.tail with
  | none => .of (fail .notStarted)
  | some tail =>
    if tail.header.isFull then extendChecked
    let log ← .of current
    match log.tail with
    | none => .of (fail .notStarted)
    | some tail =>
      let tail ← .check (tail.pushChecked m)
      .store .device log.device tail.buffer
      .of (replace { log with tail := some tail })

end Log

/-! ## Steps of the log -/

namespace Log

variable {log : Log} {image disk : Image}

theorem Placed.add64_start (placed : log.Placed disk) :
    add64 log.region.start 1 = .ok (log.region.start + 1) := by
  have hwide := placed.wide
  have hsmall : log.region.stop < 4294967296 := placed.small
  refine add64_eq_ok ?_
  show _ < 18446744073709551616
  omega

theorem Placed.firstBlockChecked_eq_ok (placed : log.Placed disk) :
    log.firstBlockChecked = .ok log.firstBlock := by
  have hwide := placed.wide
  have hsmall := placed.small
  unfold firstBlockChecked
  rw [placed.add64_start, ok_bind, narrow32_eq_ok (by omega)]
  rfl

theorem ofRegionChecked_eq_ok (device : Device) (region : Region) :
    ofRegionChecked device region = .ok (ofRegion device region) := by
  unfold ofRegionChecked ofRegion
  split
  · rfl
  · next h =>
    have hsmall : UInt32.size = 4294967296 := rfl
    have hadd : region.start + 1 < UInt64.size := by
      show _ < 18446744073709551616
      omega
    rw [add64_eq_ok hadd, ok_bind, narrow32_eq_ok (by omega)]
    rfl

theorem beyond_ofRegion {device : Device} {region : Region} {e : LogError}
    (failed : ofRegion device region = .error e) : DeviceErrors.beyond e = false := by
  unfold ofRegion at failed
  split at failed
  · cases failed
    rfl
  · cases failed

/-- The superblock is stored in its place, and the work goes on from the same log. -/
theorem safe_storeSuperblock (all : log.device.Addressable) (placed : log.Placed disk)
    (s : LogSuperblock) {β : Type} {f : Unit → Guarded Log LogError β}
    {g : Unit → Work Log LogError β} (h : Safe (f ()) (g ()) log) :
    Safe (storeSuperblockChecked s >>= f) (storeSuperblock s >>= g) log := by
  have hlt : log.region.start < log.device.blockCount :=
    placed.lt_blockCount (Nat.lt_of_succ_lt placed.wide)
  have gives := gives_storeSuperblock placed s
  refine Safe.bind ?_ fun a t w gives' => ?_
  · unfold storeSuperblockChecked storeSuperblock
    refine Safe.current (Safe.blank all hlt (Safe.check LogSuperblock.fields_eq_ok ?_))
    exact Safe.store all hlt
  · obtain ⟨-, rfl, -⟩ := gives.unique gives'
    exact h

theorem safe_rotate (all : log.device.Addressable) (placed : log.Placed disk) :
    Safe rotateChecked rotate log := by
  have hlt : log.region.start + 1 < log.device.blockCount := placed.lt_blockCount placed.wide
  unfold rotateChecked rotate
  refine Safe.current ?_
  by_cases spent : log.superblock.generation.toNat + 1 = UInt32.size
  · rw [if_pos spent, if_pos spent]
    exact Safe.fail rfl
  · rw [if_neg spent, if_neg spent]
    have hgeneration : log.superblock.generation.toNat + (1 : UInt32).toNat < UInt32.size := by
      have : log.superblock.generation.toNat < UInt32.size := UInt32.toNat_lt_size _
      show log.superblock.generation.toNat + 1 < UInt32.size
      omega
    refine Safe.check (add32_eq_ok hgeneration) ?_
    refine Safe.check placed.firstBlockChecked_eq_ok ?_
    refine safe_storeSuperblock all placed _ ?_
    refine Safe.replace ?_
    refine Safe.check (LogSuperblock.segmentEndChecked_eq_ok _) ?_
    have hfirst : log.firstBlock.toNat = log.region.start + 1 := placed.toNat_firstBlock
    have hstop : (⟨log.superblock.generation + 1, log.firstBlock, 1⟩ : LogSuperblock).segmentEnd =
        log.region.start + 1 + 1 := by
      show log.firstBlock.toNat + 1 = _
      rw [hfirst]
    rw [hstop]
    refine Safe.check (sub_eq_ok (Nat.succ_pos _)) ?_
    refine Safe.blank all hlt ?_
    refine Safe.check (LogBlock.emptyChecked_eq_ok _ _) ?_
    refine Safe.store_then all hlt ?_
    exact Safe.replace (Safe.note (Safe.pure _ _))

theorem safe_format (all : log.device.Addressable) (placed : log.Placed disk) (image : Image) :
    Safe (formatChecked image) (format image) log := by
  have hlt : log.region.start < log.device.blockCount :=
    placed.lt_blockCount (Nat.lt_of_succ_lt placed.wide)
  have rotates (superblock : LogSuperblock) :
      Safe rotateChecked rotate (log.withSuperblock superblock) := by
    have placed' : (log.withSuperblock superblock).Placed disk := placed.congr rfl rfl rfl
    exact safe_rotate all placed'
  unfold formatChecked format
  refine Safe.current ?_
  refine (Safe.get all hlt fun _ => rfl).bind fun buffer t w gives => ?_
  obtain ⟨-, rfl, -⟩ := gives
  refine Safe.check LogSuperblock.fields_eq_ok ?_
  cases LogSuperblock.decode buffer with
  | ok found => exact Safe.note (Safe.replace (rotates found))
  | error e =>
    refine Safe.check placed.firstBlockChecked_eq_ok ?_
    refine Safe.replace ?_
    have all' : (log.withSuperblock (.fresh log.firstBlock)).device.Addressable := all
    have placed' : (log.withSuperblock (.fresh log.firstBlock)).Placed disk :=
      placed.congr rfl rfl rfl
    exact safe_storeSuperblock all' placed' _ (rotates _)

theorem safe_load (all : log.device.Addressable) (placed : log.Placed disk) (image : Image) :
    Safe (loadChecked image) (load image) log := by
  have hlt : log.region.start < log.device.blockCount :=
    placed.lt_blockCount (Nat.lt_of_succ_lt placed.wide)
  unfold loadChecked load
  refine Safe.current ?_
  refine (Safe.get all hlt fun _ => rfl).bind fun buffer t w gives => ?_
  obtain ⟨-, rfl, -⟩ := gives
  refine Safe.check LogSuperblock.fields_eq_ok ?_
  refine (Safe.ofExcept fun _ => rfl).bind fun superblock t w gives => ?_
  obtain ⟨-, rfl, -⟩ := gives
  refine Safe.check placed.add64_start ?_
  refine Safe.check superblock.segmentEndChecked_eq_ok ?_
  simp only
  split
  · exact Safe.fail rfl
  · next sound =>
    have hstop : superblock.segmentEnd =
      superblock.segmentStart.toNat + superblock.segmentSize.toNat := rfl
    have hlast : superblock.segmentEnd - 1 < log.device.blockCount :=
      placed.lt_blockCount (by omega)
    refine Safe.check (sub_eq_ok (by omega)) ?_
    refine (Safe.answer (LogBlock.loadChecked_eq_ok all hlast image _) fun _ =>
      LogBlock.beyond_load hlast).bind fun tail t w gives => ?_
    obtain ⟨-, rfl, -⟩ := gives
    exact Safe.replace (Safe.of_ok (Work.gives_note _ _))

/-- A block behind the segment, and the work goes on with it. -/
theorem safe_extend (all : log.device.Addressable) (placed : log.Placed disk) :
    Safe extendChecked extend log := by
  unfold extendChecked extend
  refine Safe.current ?_
  refine Safe.check log.superblock.segmentEndChecked_eq_ok ?_
  simp only
  split
  · exact Safe.fail rfl
  · next room =>
    have hlt : log.superblock.segmentEnd < log.device.blockCount :=
      placed.lt_blockCount (Nat.lt_of_not_le room)
    refine Safe.blank all hlt ?_
    refine Safe.check (LogBlock.emptyChecked_eq_ok _ _) ?_
    refine Safe.store_then all hlt ?_
    have hsize : log.superblock.segmentSize.toNat + (1 : UInt32).toNat < UInt32.size := by
      have hsmall := placed.small
      have hstop : log.superblock.segmentEnd =
        log.superblock.segmentStart.toNat + log.superblock.segmentSize.toNat := rfl
      show log.superblock.segmentSize.toNat + 1 < UInt32.size
      omega
    refine Safe.check (add32_eq_ok hsize) ?_
    refine safe_storeSuperblock all placed _ ?_
    exact Safe.replace (Safe.of_ok (Work.gives_note _ _))

theorem safe_append (all : log.device.Addressable) (h : log.Started disk) (m : Mutation) :
    Safe (appendChecked m) (append m) log := by
  obtain ⟨tail, htail, number, few⟩ := h.tail
  unfold appendChecked append
  refine Safe.current ?_
  cases full : tail.header.isFull with
  | false =>
    simp only [htail, full, Bool.false_eq_true, if_false]
    refine Safe.current ?_
    simp only [htail]
    have hlt : (tail.push m).buffer.number < log.device.blockCount := by
      rw [LogBlock.number_push]
      exact h.placed.lt_blockCount number
    refine Safe.check (LogBlock.pushChecked_eq_ok full m) ?_
    exact Safe.store_then all hlt (Safe.of_ok (Work.gives_replace _ _))
  | true =>
    simp only [htail, full, if_true]
    refine (safe_extend all h.placed).bind fun a t w gives => ?_
    by_cases room : log.superblock.segmentEnd < log.region.stop
    · obtain ⟨-, rfl, -⟩ := (gives_extend h.placed room).unique gives
      refine Safe.current ?_
      have hlt : (log.nextTail.push m).buffer.number < log.device.blockCount := by
        rw [LogBlock.number_push]
        exact h.placed.lt_blockCount room
      refine Safe.check (LogBlock.pushChecked_eq_ok (LogBlock.isFull_empty _ _) m) ?_
      exact Safe.store_then all hlt (Safe.of_ok (Work.gives_replace _ _))
    · cases (gives.unique (gives_extend_full (Nat.le_of_not_lt room))).1

/-- What a log counts its capacity from: a region of blocks with numbers of 32 bits, and a tail
with no more entries than a block holds. -/
structure Countable (log : Log) : Prop where
  small : log.region.stop < UInt32.size
  few : ∀ tail, log.tail = some tail → tail.header.entryCount.toNat ≤ entriesPerBlock

theorem Started.countable (h : log.Started disk) :
    log.Countable where
  small := h.placed.small
  few tail htail := by
    obtain ⟨tail', htail', -, few⟩ := h.tail
    rw [htail] at htail'
    cases htail'
    exact few

theorem capacityChecked_eq_ok (h : log.Countable) : log.capacityChecked = .ok log.capacity := by
  unfold capacityChecked capacity
  cases htail : log.tail with
  | none => rfl
  | some tail =>
    have few := h.few tail htail
    have hsmall : log.region.stop < 4294967296 := h.small
    have hmul : (log.region.stop - log.superblock.segmentEnd) * entriesPerBlock < UInt64.size := by
      show _ * 169 < 18446744073709551616
      omega
    have hadd : (log.region.stop - log.superblock.segmentEnd) * entriesPerBlock +
        (entriesPerBlock - tail.header.entryCount.toNat) < UInt64.size := by
      show _ * 169 + (169 - _) < 18446744073709551616
      omega
    simp only
    rw [LogSuperblock.segmentEndChecked_eq_ok, ok_bind, sub_eq_ok few, ok_bind, mul64_eq_ok hmul,
      ok_bind, add64_eq_ok hadd]

end Log

end DurableGraph
