import DurableGraph.Disk.Block

/-!
# Sealed records

Word 0 of a sealed record is the exclusive or of the words that follow it, up to a sentinel.
Words from the sentinel on are free.

    verify (seal b) succeeds; it fails as soon as one word before the sentinel differs
-/

namespace DurableGraph

/-- What is wrong with the content of a block. -/
inductive RecordError where
  | checksumMismatch (block : Nat) (stored computed : UInt64)
  | badMagic (block : Nat) (found : UInt64)
  | unknownOpcode (block : Nat) (opcode : UInt32)
  | entryCountOverflow (block : Nat) (count : UInt32)
  deriving DecidableEq, Repr

/-! ## Messages -/

/-- Sixteen hexadecimal digits after `0x`. -/
def hexWord (w : UInt64) : String :=
  let digits := Nat.toDigits 16 w.toNat
  "0x" ++ String.ofList (List.replicate (16 - digits.length) '0' ++ digits)

namespace RecordError

def message : RecordError → String
  | checksumMismatch block stored computed =>
    "checksum mismatch in block " ++ block.repr ++ ": stored " ++ hexWord stored ++
      ", computed " ++ hexWord computed
  | badMagic block found => "bad magic in block " ++ block.repr ++ ": " ++ found.toNat.repr
  | unknownOpcode block opcode =>
    "unknown opcode " ++ opcode.toNat.repr ++ " in block " ++ block.repr
  | entryCountOverflow block count =>
    "entry count " ++ count.toNat.repr ++ " in block " ++ block.repr ++ " exceeds block capacity"

end RecordError

namespace Block

/-! ## Algorithm -/

/-- The exclusive or of the `count` words after the seal. -/
def sealSum (b : Block) (count : Nat) : UInt64 := xorWords b.word 1 count

/-- Seals a record of `count` words. -/
def sealed (b : Block) (count : Nat) : Block := b.setWord 0 (b.sealSum count)

end Block

/-- The seal of a record of `count` words must fit. -/
def Buffer.verify (buffer : Buffer) (count : Nat) : Except RecordError Unit :=
  let stored := buffer.content.word 0
  let computed := buffer.content.sealSum count
  if stored = computed then .ok ()
  else .error (.checksumMismatch buffer.number stored computed)

/-! ## Lemmas -/

namespace Block

theorem word_sealed (b : Block) (count j : Nat) :
    (b.sealed count).word j = if j = 0 then b.sealSum count else b.word j :=
  word_setWord b (by decide) _ j

theorem sealSum_setWord_zero (b : Block) (w : UInt64) (count : Nat) :
    (b.setWord 0 w).sealSum count = b.sealSum count :=
  xorWords_congr fun _ _ _ => word_setWord_ne b (by decide) w (by omega)

end Block

/-- A block that was sealed is accepted. -/
theorem Buffer.verify_sealed (number count : Nat) (b : Block) :
    Buffer.verify ⟨number, b.sealed count⟩ count = .ok () := by
  have first : 0 < wordsPerBlock := by decide
  simp [verify, Block.sealed, Block.sealSum_setWord_zero, Block.word_setWord _ first]

end DurableGraph
