import DurableGraph.Disk.Block

/-!
# The first block of the checkpoint region

    word 0   lowest byte nonzero where the checkpoint is committed | 1 version | 2 node count

The block carries no seal: any content reads as some superblock.

    CheckpointSuperblock.decode (superblock written on any block) = superblock
-/

namespace DurableGraph

structure CheckpointSuperblock where
  /-- Set only once the whole body is on disk. -/
  committed : Bool
  /-- The generation of the log that the body belongs to. -/
  version : UInt64
  nodeCount : UInt64
  deriving DecidableEq, Repr

namespace CheckpointSuperblock

/-- The superblock of a region without a checkpoint. -/
def none : CheckpointSuperblock := ⟨false, 0, 0⟩

def decode (b : Block) : CheckpointSuperblock := ⟨(b.word 0).toUInt8 ≠ 0, b.word 1, b.word 2⟩

/-- Writes a superblock over a block. -/
def encode (s : CheckpointSuperblock) (b : Block) : Block :=
  ((b.setWord 0 (if s.committed then 1 else 0)).setWord 1 s.version).setWord 2 s.nodeCount

theorem decode_encode (s : CheckpointSuperblock) (b : Block) : decode (s.encode b) = s := by
  have h2 : 2 < wordsPerBlock := by decide
  have h1 : 1 < wordsPerBlock := by decide
  have h0 : 0 < wordsPerBlock := by decide
  obtain ⟨committed, version, nodeCount⟩ := s
  cases committed <;>
    simp [decode, encode, Block.word_setWord _ h2, Block.word_setWord _ h1, Block.word_setWord _ h0]

end CheckpointSuperblock

end DurableGraph
