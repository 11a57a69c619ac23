import DurableGraph.Proofs.Disk.Writes
import DurableGraph.Record.LogRecord

/-!
# Damage under a seal

A seal is an exclusive or, so a change of a single word that it covers, the seal itself
included, never goes unnoticed.

    verify accepts a block and one word from 0 to count changes → verify refuses it
    bytes of one word change in an image                        → one word of the block changes
-/

namespace DurableGraph

/-- Two blocks differ in one word, and in no other. -/
structure Block.DiffersIn (a b : Block) (w : Nat) : Prop where
  ne : b.word w ≠ a.word w
  same : ∀ i, i ≠ w → b.word i = a.word i

/-- Byte `k` of an image is not what it was. -/
def Image.DiffersAt (image altered : Image) (k : Nat) : Prop :=
  altered.bytes[k]! ≠ image.bytes[k]!

/-! ## Seals -/

/-- An exclusive or changes with any single one of its words. -/
theorem xorWords_ne {f g : Nat → UInt64} {first count w : Nat} (ne : f w ≠ g w)
    (same : ∀ i, i ≠ w → f i = g i) (after : first ≤ w) (before : w < first + count) :
    xorWords f first count ≠ xorWords g first count := by
  induction count with
  | zero => omega
  | succ count ih =>
    unfold xorWords
    by_cases last : w = first + count
    · have rest : xorWords f first count = xorWords g first count :=
        xorWords_congr fun i _ hi => same i (by omega)
      rw [rest, ← last]
      exact fun h => ne ((UInt64.xor_right_inj _).1 h)
    · rw [same (first + count) (Ne.symm last)]
      exact fun h => ih (by omega) ((UInt64.xor_left_inj _).1 h)

theorem Buffer.verify_eq_ok_iff {buffer : Buffer} {count : Nat} :
    buffer.verify count = .ok () ↔ buffer.content.word 0 = buffer.content.sealSum count := by
  unfold verify
  dsimp only
  split
  · next fits => exact ⟨fun _ => fits, fun _ => rfl⟩
  · next broken =>
    constructor
    · intro h
      cases h
    · intro fits
      exact absurd fits broken

theorem Buffer.verify_eq_error {buffer : Buffer} {count : Nat}
    (broken : buffer.content.word 0 ≠ buffer.content.sealSum count) :
    buffer.verify count = .error (.checksumMismatch buffer.number (buffer.content.word 0)
      (buffer.content.sealSum count)) :=
  if_neg broken

/-- **A seal notices the change of a single word**, of the seal or of what it covers. -/
theorem Block.DiffersIn.seal_ne {a b : Block} {count w : Nat} (h : a.DiffersIn b w)
    (covered : w ≤ count) (fits : a.word 0 = a.sealSum count) : b.word 0 ≠ b.sealSum count := by
  by_cases first : w = 0
  · subst first
    have sum : b.sealSum count = a.sealSum count := xorWords_congr fun i hi _ => h.same i (by omega)
    rw [sum, ← fits]
    exact h.ne
  · have sum : b.sealSum count ≠ a.sealSum count :=
      xorWords_ne h.ne h.same (by omega) (by omega)
    rw [h.same 0 (Ne.symm first), fits]
    exact sum.symm

/-! ## Records -/

/-- A superblock that was read has a seal that fits. -/
theorem LogSuperblock.seal_of_decode {buffer : Buffer} {superblock : LogSuperblock}
    (read : decode buffer = .ok superblock) :
    buffer.content.word 0 = buffer.content.sealSum superblockWords := by
  unfold decode at read
  cases verified : buffer.verify superblockWords with
  | error e =>
    rw [verified] at read
    cases read
  | ok _ => exact Buffer.verify_eq_ok_iff.1 verified

/-- So has a header. -/
theorem LogHeader.seal_of_decode {buffer : Buffer} {header : LogHeader}
    (read : decode buffer = .ok header) :
    buffer.content.word 0 = buffer.content.sealSum logBlockWords := by
  unfold decode at read
  cases verified : buffer.verify logBlockWords with
  | error e =>
    rw [verified] at read
    cases read
  | ok _ => exact Buffer.verify_eq_ok_iff.1 verified

/-- A superblock that is damaged in one word is refused for its seal. -/
theorem LogSuperblock.decode_of_differsIn {number number' : Nat} {a b : Block}
    {superblock : LogSuperblock} (read : decode ⟨number, a⟩ = .ok superblock) {w : Nat}
    (h : a.DiffersIn b w) (covered : w ≤ superblockWords) :
    decode ⟨number', b⟩ =
      .error (.checksumMismatch number' (b.word 0) (b.sealSum superblockWords)) := by
  unfold decode
  rw [Buffer.verify_eq_error (h.seal_ne covered (seal_of_decode read))]
  rfl

/-- So is a log block that is damaged in one word, of its header or of its slots. -/
theorem LogHeader.decode_of_differsIn {number number' : Nat} {a b : Block} {header : LogHeader}
    (read : decode ⟨number, a⟩ = .ok header) {w : Nat} (h : a.DiffersIn b w)
    (covered : w ≤ logBlockWords) :
    decode ⟨number', b⟩ =
      .error (.checksumMismatch number' (b.word 0) (b.sealSum logBlockWords)) := by
  unfold decode
  rw [Buffer.verify_eq_error (h.seal_ne covered (seal_of_decode read))]
  rfl

/-! ## Bytes of an image -/

/-- A block holds no words behind its last one. -/
theorem Block.word_of_le (b : Block) {i : Nat} (h : wordsPerBlock ≤ i) : b.word i = 0 := by
  unfold word readWord
  rw [b.size_eq, if_neg]
  unfold wordsPerBlock at h
  unfold blockSize
  omega

namespace Image

variable {image altered : Image} {n : Nat}

/-- A block that an image holds lies inside it. -/
theorem le_size_of_block? {content : Block} (held : image.block? n = some content) :
    blockSize * n + blockSize ≤ image.size := by
  unfold block? at held
  split at held
  · assumption
  · cases held

/-- The words of a part of some bytes. -/
theorem readWord_extract {bytes : ByteArray} {first count i : Nat}
    (fits : 8 * (first + count) ≤ bytes.size) (h : i < count) :
    readWord (bytes.extract (8 * first) (8 * (first + count))) i = readWord bytes (first + i) := by
  have size : (bytes.extract (8 * first) (8 * (first + count))).size = 8 * count := by
    rw [ByteArray.size_extract]
    omega
  unfold readWord
  rw [if_pos (by omega), if_pos (by omega)]
  simp (disch := omega) only [getElem!_extract, Nat.mul_add, Nat.add_assoc]

/-- The words of a block are words of the image. -/
theorem word_of_block? {content : Block} (held : image.block? n = some content) {i : Nat}
    (inside : i < wordsPerBlock) : content.word i = readWord image.bytes (wordsPerBlock * n + i) := by
  have whole := le_size_of_block? held
  have start : blockSize * n = 8 * (wordsPerBlock * n) := by
    unfold blockSize wordsPerBlock
    omega
  have stop : blockSize * n + blockSize = 8 * (wordsPerBlock * n + wordsPerBlock) := by
    unfold blockSize wordsPerBlock
    omega
  unfold block? at held
  rw [dif_pos whole] at held
  cases held
  show readWord (image.bytes.extract (blockSize * n) (blockSize * n + blockSize)) i = _
  rw [stop, start]
  unfold size at whole
  exact readWord_extract (by omega) inside

/-- Words whose bytes do not differ are the same. -/
theorem readWord_of_not_differsAt (size : altered.size = image.size) {i : Nat}
    (same : ∀ k, image.DiffersAt altered k → k / 8 ≠ i) :
    readWord altered.bytes i = readWord image.bytes i := by
  apply readWord_congr size
  intro r hr
  exact Classical.byContradiction fun differs => same _ differs (by omega)

/-- Where bytes of a single word of a block differ, so do the blocks in that word. -/
theorem DiffersAt.differsIn {k : Nat} {a b : Block} (size : altered.size = image.size)
    (h : image.DiffersAt altered k) (held : image.block? (k / blockSize) = some a)
    (held' : altered.block? (k / blockSize) = some b)
    (single : ∀ l, image.DiffersAt altered l → l / blockSize = k / blockSize → l / 8 = k / 8) :
    a.DiffersIn b (k % blockSize / 8) where
  ne := by
    intro same
    have inside : k % blockSize / 8 < wordsPerBlock := by
      unfold blockSize wordsPerBlock
      omega
    have place : wordsPerBlock * (k / blockSize) + k % blockSize / 8 = k / 8 := by
      unfold blockSize wordsPerBlock
      omega
    rw [word_of_block? held inside, word_of_block? held' inside, place] at same
    have whole := le_size_of_block? held
    have whole' := le_size_of_block? held'
    unfold blockSize Image.size at whole whole'
    have byte := getElem!_of_readWord_eq (by omega) (by omega) same (Nat.mod_lt k (by decide))
    rw [Nat.div_add_mod] at byte
    exact h byte
  same := by
    intro i other
    by_cases inside : i < wordsPerBlock
    · rw [word_of_block? held inside, word_of_block? held' inside]
      apply readWord_of_not_differsAt size
      intro l differs word
      unfold wordsPerBlock at inside
      unfold wordsPerBlock blockSize at word
      unfold blockSize at other single
      have := single l differs (by omega)
      omega
    · rw [a.word_of_le (by omega), b.word_of_le (by omega)]

/-- Blocks without a byte that differs are the same. -/
theorem block?_of_not_differsAt (size : altered.size = image.size)
    (same : ∀ k, image.DiffersAt altered k → k / blockSize ≠ n) :
    altered.block? n = image.block? n := by
  cases held : image.block? n with
  | none =>
    cases held' : altered.block? n with
    | none => rfl
    | some b =>
      have whole := le_size_of_block? held'
      unfold block? at held
      rw [dif_pos (by rw [← size]; exact whole)] at held
      cases held
  | some a =>
    obtain ⟨b, held'⟩ : ∃ b, altered.block? n = some b := by
      have whole := le_size_of_block? held
      refine ⟨_, dif_pos (?_ : blockSize * n + blockSize ≤ altered.size)⟩
      rw [size]
      exact whole
    rw [held', Option.some_inj]
    apply Block.ext_word
    intro i inside
    rw [word_of_block? held inside, word_of_block? held' inside]
    apply readWord_of_not_differsAt size
    intro k differs word
    apply same k differs
    unfold wordsPerBlock at inside word
    unfold blockSize
    omega

end Image

end DurableGraph
