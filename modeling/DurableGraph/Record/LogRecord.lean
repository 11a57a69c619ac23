import DurableGraph.Record.Seal
import DurableGraph.Graph.Basic

/-!
# The records of the log

    superblock   word 0 seal | 1 magic, generation | 2 segment start, segment size
    log block    word 0 seal | 1 magic | 2 generation | 3 entry count, zero
                 then 169 slots of three words | 511 free
    slot         opcode, zero | a | b

Pairs share a word, the first of them in its low half.

    LogSuperblock.decode (superblock written on any block) = .ok superblock
    LogHeader.decode (header written on any block) = .ok header      for at most 169 entries
-/

namespace DurableGraph

/-- The mark of every record of the log. -/
def logMagic : UInt32 := 1234567

/-- The entries that fit into a log block. -/
def entriesPerBlock : Nat := 169

/-- The words under the seal of a log block: its header and all of its slots. -/
def logBlockWords : Nat := 510

/-- The words under the seal of a superblock. -/
def superblockWords : Nat := 2

/-- What the first block of the log tells of the log. -/
structure LogSuperblock where
  /-- Counts rotations. -/
  generation : UInt32
  /-- The first block of the active segment. -/
  segmentStart : UInt32
  /-- The number of blocks in the active segment. -/
  segmentSize : UInt32
  deriving DecidableEq, Repr

/-- What the head of a log block tells of it. -/
structure LogHeader where
  generation : UInt64
  entryCount : UInt32
  deriving DecidableEq, Repr

/-! ## Superblock -/

namespace LogSuperblock

/-- The superblock of a log that was never used: an empty segment right behind it. -/
def fresh (segmentStart : UInt32) : LogSuperblock := ⟨0, segmentStart, 0⟩

/-- One past the last block of the active segment. -/
def segmentEnd (s : LogSuperblock) : Nat := s.segmentStart.toNat + s.segmentSize.toNat

/-- Writes a superblock over a block. -/
def encode (s : LogSuperblock) (b : Block) : Block :=
  ((b.setWord 1 (wordOfHalves logMagic s.generation)).setWord 2
    (wordOfHalves s.segmentStart s.segmentSize)).sealed superblockWords

def decode (buffer : Buffer) : Except RecordError LogSuperblock := do
  buffer.verify superblockWords
  let b := buffer.content
  let magic := lowHalf (b.word 1)
  if magic ≠ logMagic then .error (.badMagic buffer.number magic.toUInt64)
  else .ok ⟨highHalf (b.word 1), lowHalf (b.word 2), highHalf (b.word 2)⟩

end LogSuperblock

/-! ## Block header -/

namespace LogHeader

def isFull (h : LogHeader) : Bool := entriesPerBlock ≤ h.entryCount.toNat

/-- Writes a header over a block, whose seal covers the slots as they stand. -/
def encode (h : LogHeader) (b : Block) : Block :=
  (((b.setWord 1 logMagic.toUInt64).setWord 2 h.generation).setWord 3
    (wordOfHalves h.entryCount 0)).sealed logBlockWords

def decode (buffer : Buffer) : Except RecordError LogHeader := do
  buffer.verify logBlockWords
  let b := buffer.content
  let entryCount := lowHalf (b.word 3)
  if b.word 1 ≠ logMagic.toUInt64 then .error (.badMagic buffer.number (b.word 1))
  else if entriesPerBlock < entryCount.toNat then
    .error (.entryCountOverflow buffer.number entryCount)
  else .ok ⟨b.word 2, entryCount⟩

end LogHeader

/-! ## Slots -/

namespace MutationKind

/-- The opcode of a kind of mutation. -/
def code : MutationKind → UInt32
  | addNode => 0
  | addEdge => 1
  | removeNode => 2
  | removeEdge => 3

def ofCode? (code : UInt32) : Option MutationKind :=
  if code = 0 then some addNode
  else if code = 1 then some addEdge
  else if code = 2 then some removeNode
  else if code = 3 then some removeEdge
  else none

@[simp] theorem ofCode?_code (kind : MutationKind) : ofCode? kind.code = some kind := by
  cases kind <;> rfl

end MutationKind

/-- The first word of a slot of a log block. -/
def slotWord (slot : Nat) : Nat := 4 + 3 * slot

namespace Mutation

/-- Writes a mutation into a slot of a log block. -/
def encode (m : Mutation) (slot : Nat) (b : Block) : Block :=
  ((b.setWord (slotWord slot) (wordOfHalves m.kind.code 0)).setWord (slotWord slot + 1) m.a).setWord
    (slotWord slot + 2) m.b

/-- The mutation in a slot; the high half beside its opcode does not matter. -/
def decode (buffer : Buffer) (slot : Nat) : Except RecordError Mutation :=
  let b := buffer.content
  let opcode := lowHalf (b.word (slotWord slot))
  match MutationKind.ofCode? opcode with
  | some kind => .ok ⟨kind, b.word (slotWord slot + 1), b.word (slotWord slot + 2)⟩
  | none => .error (.unknownOpcode buffer.number opcode)

end Mutation

/-! ## Lemmas -/

/-- The slots end where the seal's reach ends. -/
theorem slotWord_lt {slot : Nat} (h : slot < entriesPerBlock) :
    slotWord slot + 2 ≤ logBlockWords := by
  unfold slotWord logBlockWords entriesPerBlock at *; omega

theorem LogSuperblock.decode_encode (number : Nat) (s : LogSuperblock) (b : Block) :
    LogSuperblock.decode ⟨number, s.encode b⟩ = .ok s := by
  have h : 2 < wordsPerBlock := by decide
  have h' : 1 < wordsPerBlock := by decide
  simp [decode, encode, Buffer.verify_sealed, Block.word_sealed, Block.word_setWord _ h,
    Block.word_setWord _ h', bind, Except.bind]

theorem LogHeader.decode_encode (number : Nat) (h : LogHeader) (b : Block)
    (few : h.entryCount.toNat ≤ entriesPerBlock) :
    LogHeader.decode ⟨number, h.encode b⟩ = .ok h := by
  have h3 : 3 < wordsPerBlock := by decide
  have h2 : 2 < wordsPerBlock := by decide
  have h1 : 1 < wordsPerBlock := by decide
  simp [decode, encode, Buffer.verify_sealed, Block.word_sealed, Block.word_setWord _ h3,
    Block.word_setWord _ h2, Block.word_setWord _ h1, bind, Except.bind, few]

end DurableGraph
