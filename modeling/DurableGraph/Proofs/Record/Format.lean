import Mathlib.Algebra.Ring.Nat
import DurableGraph.Proofs.Record.Damage
import DurableGraph.Proofs.Record.LogRecord

/-!
# The format of sealed records

Whether a sealed record is accepted hangs on its bytes before a sentinel, and on nothing else.
They are whole words, the first of which is the seal; so the exclusive or of all of them is zero.

    record       sentinel   magic            entry count
    log block    4088       8 bytes at 8     4 bytes at 24, 169 at most
    superblock   24         4 bytes at 8

    decode accepts b ↔ checksum of the bytes before the sentinel = 0 and b has the format
    decode accepts a and one word before the sentinel changes → decode refuses it for its seal
-/

namespace DurableGraph

/-! ## Numbers in bytes -/

/-- The number that some bytes stand for, the least significant of them first. -/
def littleEndian (bytes : ByteArray) (start : Nat) : (count : Nat) → Nat
  | 0 => 0
  | count + 1 => bytes[start]!.toNat + 0x100 * littleEndian bytes (start + 1) count

theorem littleEndian_lt (bytes : ByteArray) (start count : Nat) :
    littleEndian bytes start count < 0x100 ^ count := by
  induction count generalizing start with
  | zero => exact Nat.zero_lt_one
  | succ count ih =>
    have digit := bytes[start]!.toNat_lt
    have rest := ih (start + 1)
    rw [littleEndian, Nat.pow_succ]
    omega

theorem littleEndian_add (bytes : ByteArray) (start m n : Nat) :
    littleEndian bytes start (m + n) =
      littleEndian bytes start m + 0x100 ^ m * littleEndian bytes (start + m) n := by
  induction m generalizing start with
  | zero => simp [littleEndian]
  | succ m ih =>
    have place : 0x100 ^ (m + 1) * littleEndian bytes (start + (m + 1)) n =
        0x100 * (0x100 ^ m * littleEndian bytes (start + 1 + m) n) := by
      rw [Nat.pow_succ', Nat.mul_assoc, Nat.add_right_comm start 1 m, Nat.add_assoc]
    rw [Nat.succ_add, littleEndian, littleEndian, ih, place]
    omega

theorem toNat_readWord {bytes : ByteArray} {i : Nat} (fits : 8 * i + 8 ≤ bytes.size) :
    (readWord bytes i).toNat = littleEndian bytes (8 * i) 8 := by
  unfold readWord
  rw [if_pos fits, toNat_wordOfBytes]
  simp only [littleEndian, Nat.add_assoc, Nat.mul_zero, Nat.add_zero]

/-- The low half of a word is the number in its first four bytes. -/
theorem toNat_lowHalf_readWord {bytes : ByteArray} {i : Nat} (fits : 8 * i + 8 ≤ bytes.size) :
    (lowHalf (readWord bytes i)).toNat = littleEndian bytes (8 * i) 4 := by
  have halves := littleEndian_add bytes (8 * i) 4 4
  have low := littleEndian_lt bytes (8 * i) 4
  unfold lowHalf
  rw [UInt64.toNat_toUInt32, toNat_readWord fits, halves]
  omega

/-! ## Checksums of parts -/

theorem xorWords_add (word : Nat → UInt64) (first count : Nat) :
    xorWords (fun i => word (first + i)) 0 count = xorWords word first count := by
  induction count with
  | zero => rfl
  | succ count ih => rw [xorWords, xorWords, ih, Nat.zero_add]

theorem xorWords_succ_first (word : Nat → UInt64) (first count : Nat) :
    xorWords word first (count + 1) = word first ^^^ xorWords word (first + 1) count := by
  induction count with
  | zero => simp [xorWords]
  | succ count ih =>
    rw [xorWords, ih, xorWords, UInt64.xor_assoc]
    congr 3
    omega

/-- The checksum of a part that consists of whole words. -/
theorem checksum_extract {bytes : ByteArray} {first count : Nat}
    (fits : 8 * (first + count) ≤ bytes.size) :
    checksum (bytes.extract (8 * first) (8 * (first + count))) =
      xorWords (readWord bytes) first count := by
  have size : (bytes.extract (8 * first) (8 * (first + count))).size / 8 = count := by
    rw [ByteArray.size_extract]
    omega
  unfold checksum
  rw [size, ← xorWords_add (readWord bytes)]
  exact xorWords_congr fun i _ hi => Image.readWord_extract fits (by omega)

namespace Block

variable {a b : Block} {count w : Nat}

/-- The words that a seal covers, as bytes. -/
theorem checksum_covered (b : Block) (fits : count < wordsPerBlock) :
    checksum (b.bytes.extract 8 (8 * (count + 1))) = b.sealSum count := by
  have whole := b.fits fits
  have part : checksum (b.bytes.extract (8 * 1) (8 * (1 + count))) = b.sealSum count :=
    checksum_extract (by omega)
  rw [Nat.add_comm 1 count] at part
  exact part

/-- A seal fits where the exclusive or of all words up to the last one it covers is zero. -/
theorem checksum_eq_zero_iff (b : Block) (fits : count < wordsPerBlock) :
    checksum (b.bytes.extract 0 (8 * (count + 1))) = 0 ↔ b.word 0 = b.sealSum count := by
  have whole := b.fits fits
  have part : checksum (b.bytes.extract (8 * 0) (8 * (0 + (count + 1)))) =
      xorWords b.word 0 (count + 1) := checksum_extract (by omega)
  rw [Nat.zero_add] at part
  rw [show 0 = 8 * 0 from rfl, part, xorWords_succ_first]
  exact UInt64.xor_eq_zero_iff

/-! ## Changes of bytes -/

/-- Two blocks differ, and only in bytes of one word. -/
structure AlteredIn (a b : Block) (w : Nat) : Prop where
  differs : a ≠ b
  inside : ∀ k, b.bytes[k]! ≠ a.bytes[k]! → k / 8 = w

/-- Words whose bytes are the same are the same. -/
theorem word_congr {i : Nat} (same : ∀ r < 8, b.bytes[8 * i + r]! = a.bytes[8 * i + r]!) :
    b.word i = a.word i :=
  readWord_congr (b.size_eq.trans a.size_eq.symm) same

/-- Bytes of words that are the same are the same. -/
theorem byte_congr {k : Nat} (same : b.word (k / 8) = a.word (k / 8)) :
    b.bytes[k]! = a.bytes[k]! := by
  have ha := a.size_eq
  have hb := b.size_eq
  unfold blockSize at ha hb
  by_cases inside : k < 4096
  · have byte := getElem!_of_readWord_eq (by omega) (by omega) same (Nat.mod_lt k (by decide))
    rwa [Nat.div_add_mod] at byte
  · rw [getElem!_neg _ k (by omega), getElem!_neg _ k (by omega)]

theorem alteredIn_setWord (b : Block) {i : Nat} (h : i < wordsPerBlock) {w : UInt64}
    (other : b.word i ≠ w) : b.AlteredIn (b.setWord i w) i where
  differs same := by
    apply other
    conv => lhs; rw [same]
    exact b.word_setWord_self h w
  inside k differs := by
    refine Classical.byContradiction fun beside => differs ?_
    exact byte_congr (b.word_setWord_ne h w beside)

/-- A change of bytes is a change of the word they stand in. -/
theorem AlteredIn.differsIn (h : a.AlteredIn b w) : a.DiffersIn b w := by
  have others : ∀ i, i ≠ w → b.word i = a.word i := by
    intro i other
    apply word_congr
    intro r hr
    refine Classical.byContradiction fun differs => other ?_
    have := h.inside _ differs
    omega
  refine ⟨fun same => h.differs ?_, others⟩
  apply ext_word
  intro i _
  by_cases hi : i = w
  · rw [hi, same]
  · rw [others i hi]

end Block

/-! ## Reading records -/

/-- A reader of records goes by the bytes before a sentinel.  It accepts those that are sealed and
have a format, and refuses any others that differ from them in one word. -/
structure AcceptsSealed {α : Type} (decode : Buffer → Except RecordError α) (sentinel : Nat)
    (format : Block → Prop) : Prop where
  accepts : ∀ number b, (∃ record, decode ⟨number, b⟩ = .ok record) ↔
    checksum (b.bytes.extract 0 sentinel) = 0 ∧ format b
  free : ∀ number a b, (∀ k < sentinel, b.bytes[k]! = a.bytes[k]!) →
    decode ⟨number, b⟩ = decode ⟨number, a⟩
  notices : ∀ number a b w record, decode ⟨number, a⟩ = .ok record → a.AlteredIn b w →
    8 * w < sentinel → decode ⟨number, b⟩ =
      .error (.checksumMismatch number (b.word 0) (checksum (b.bytes.extract 8 sentinel)))

/-- What a reader does with words, told by bytes. -/
theorem acceptsSealed_of_words {α : Type} {decode : Buffer → Except RecordError α} {count : Nat}
    {format : Block → Prop} (fits : count < wordsPerBlock)
    (accepts : ∀ number b, (∃ record, decode ⟨number, b⟩ = .ok record) ↔
      b.word 0 = b.sealSum count ∧ format b)
    (congr : ∀ number a b, (∀ i ≤ count, b.word i = a.word i) →
      decode ⟨number, b⟩ = decode ⟨number, a⟩)
    (notices : ∀ number a b w record, decode ⟨number, a⟩ = .ok record → a.DiffersIn b w →
      w ≤ count → decode ⟨number, b⟩ =
        .error (.checksumMismatch number (b.word 0) (b.sealSum count))) :
    AcceptsSealed decode (8 * (count + 1)) format where
  accepts number b := by
    rw [accepts, b.checksum_eq_zero_iff fits]
  free number a b same := by
    apply congr
    intro i hi
    apply Block.word_congr
    intro r hr
    exact same _ (by omega)
  notices number a b w record read altered before := by
    rw [b.checksum_covered fits]
    exact notices number a b w record read altered.differsIn (by omega)

theorem Buffer.verify_congr {a b : Block} {count : Nat} (number : Nat)
    (same : ∀ i ≤ count, b.word i = a.word i) :
    Buffer.verify ⟨number, b⟩ count = Buffer.verify ⟨number, a⟩ count := by
  have sum : b.sealSum count = a.sealSum count := xorWords_congr fun i _ hi => same i (by omega)
  unfold Buffer.verify
  dsimp only
  rw [same 0 (Nat.zero_le _), sum]

/-- A superblock is what a sealed block with the magic tells. -/
theorem LogSuperblock.decode_eq_ok_iff {number : Nat} {b : Block} {s : LogSuperblock} :
    decode ⟨number, b⟩ = .ok s ↔ b.word 0 = b.sealSum superblockWords ∧
      lowHalf (b.word 1) = logMagic ∧
      s = ⟨highHalf (b.word 1), lowHalf (b.word 2), highHalf (b.word 2)⟩ := by
  unfold decode
  by_cases fits : b.word 0 = b.sealSum superblockWords
  · rw [Buffer.verify_eq_ok_iff.2 fits]
    by_cases magic : lowHalf (b.word 1) = logMagic
    · simp [magic, fits, bind, Except.bind, eq_comm]
    · simp [magic, bind, Except.bind]
  · rw [Buffer.verify_eq_error fits]
    simp [fits, bind, Except.bind]

/-- A header is what a sealed block with the magic tells, where it counts no more entries than
there are slots. -/
theorem LogHeader.decode_eq_ok_iff {number : Nat} {b : Block} {h : LogHeader} :
    decode ⟨number, b⟩ = .ok h ↔ b.word 0 = b.sealSum logBlockWords ∧
      b.word 1 = logMagic.toUInt64 ∧ (lowHalf (b.word 3)).toNat ≤ entriesPerBlock ∧
      h = ⟨b.word 2, lowHalf (b.word 3)⟩ := by
  unfold decode
  by_cases fits : b.word 0 = b.sealSum logBlockWords
  · rw [Buffer.verify_eq_ok_iff.2 fits]
    by_cases magic : b.word 1 = logMagic.toUInt64
    · by_cases few : (lowHalf (b.word 3)).toNat ≤ entriesPerBlock
      · simp [magic, fits, few, Nat.not_lt.2 few, bind, Except.bind, eq_comm]
      · simp [magic, few, Nat.lt_of_not_le few, bind, Except.bind]
    · simp [magic, bind, Except.bind]
  · rw [Buffer.verify_eq_error fits]
    simp [fits, bind, Except.bind]

theorem LogSuperblock.decode_congr {a b : Block} (number : Nat)
    (same : ∀ i ≤ superblockWords, b.word i = a.word i) :
    decode ⟨number, b⟩ = decode ⟨number, a⟩ := by
  have h1 := same 1 (by decide)
  have h2 := same 2 (by decide)
  unfold decode
  rw [Buffer.verify_congr number same]
  simp only [h1, h2]

theorem LogHeader.decode_congr {a b : Block} (number : Nat)
    (same : ∀ i ≤ logBlockWords, b.word i = a.word i) :
    decode ⟨number, b⟩ = decode ⟨number, a⟩ := by
  have h1 := same 1 (by decide)
  have h2 := same 2 (by decide)
  have h3 := same 3 (by decide)
  unfold decode
  rw [Buffer.verify_congr number same]
  simp only [h1, h2, h3]

/-! ## Top theorem -/

/-- A superblock has the magic in the four bytes behind its seal. -/
def Block.IsSuperblock (b : Block) : Prop := littleEndian b.bytes 8 4 = 1234567

/-- A log block has the magic in the eight bytes behind its seal, and an entry count that its slots
have room for. -/
def Block.IsLogBlock (b : Block) : Prop :=
  littleEndian b.bytes 8 8 = 1234567 ∧ littleEndian b.bytes 24 4 ≤ 169

theorem Block.isSuperblock_iff (b : Block) : b.IsSuperblock ↔ lowHalf (b.word 1) = logMagic := by
  have number := toNat_lowHalf_readWord (b.fits (i := 1) (by decide))
  unfold IsSuperblock
  rw [← UInt32.toNat_inj]
  show _ ↔ (lowHalf (readWord b.bytes 1)).toNat = 1234567
  rw [number]

theorem Block.isLogBlock_iff (b : Block) : b.IsLogBlock ↔
    b.word 1 = logMagic.toUInt64 ∧ (lowHalf (b.word 3)).toNat ≤ entriesPerBlock := by
  have magic := toNat_readWord (b.fits (i := 1) (by decide))
  have count := toNat_lowHalf_readWord (b.fits (i := 3) (by decide))
  unfold IsLogBlock
  rw [← UInt64.toNat_inj]
  show _ ↔ (readWord b.bytes 1).toNat = 1234567 ∧ (lowHalf (readWord b.bytes 3)).toNat ≤ 169
  rw [magic, count]

/-- **Sealed records are accepted exactly where they have their format.**  Bytes from the sentinel
on never matter, and no change of a single word before it, the seal included, is taken for a
record. -/
theorem records_acceptSealed :
    AcceptsSealed LogHeader.decode 4088 Block.IsLogBlock ∧
      AcceptsSealed LogSuperblock.decode 24 Block.IsSuperblock := by
  constructor
  · show AcceptsSealed _ (8 * (logBlockWords + 1)) _
    refine acceptsSealed_of_words (by decide) (fun number b => ?_)
      (fun number _ _ same => LogHeader.decode_congr number same)
      fun _ _ _ _ _ read differs covered => LogHeader.decode_of_differsIn read differs covered
    rw [b.isLogBlock_iff]
    constructor
    · rintro ⟨h, read⟩
      obtain ⟨fits, magic, few, -⟩ := LogHeader.decode_eq_ok_iff.1 read
      exact ⟨fits, magic, few⟩
    · rintro ⟨fits, magic, few⟩
      exact ⟨_, LogHeader.decode_eq_ok_iff.2 ⟨fits, magic, few, rfl⟩⟩
  · show AcceptsSealed _ (8 * (superblockWords + 1)) _
    refine acceptsSealed_of_words (by decide) (fun number b => ?_)
      (fun number _ _ same => LogSuperblock.decode_congr number same)
      fun _ _ _ _ _ read differs covered => LogSuperblock.decode_of_differsIn read differs covered
    rw [b.isSuperblock_iff]
    constructor
    · rintro ⟨s, read⟩
      obtain ⟨fits, magic, -⟩ := LogSuperblock.decode_eq_ok_iff.1 read
      exact ⟨fits, magic⟩
    · rintro ⟨fits, magic⟩
      exact ⟨_, LogSuperblock.decode_eq_ok_iff.2 ⟨fits, magic, rfl⟩⟩

/-- A log block with one entry is accepted, also with another word behind the sentinel; with
another one in its first slot it is refused. -/
theorem records_acceptSealed_filled :
    let b := (⟨5, 1⟩ : LogHeader).encode ((Mutation.addEdge 7 3).encode 0 .zero)
    LogHeader.decode ⟨1, b⟩ = .ok ⟨5, 1⟩ ∧
      checksum (b.bytes.extract 0 4088) = 0 ∧ b.IsLogBlock ∧
      LogHeader.decode ⟨1, b.setWord 511 8⟩ = .ok ⟨5, 1⟩ ∧
      b.AlteredIn (b.setWord 5 8) 5 ∧
      LogHeader.decode ⟨1, b.setWord 5 8⟩ = .error (.checksumMismatch 1 ((b.setWord 5 8).word 0)
        (checksum ((b.setWord 5 8).bytes.extract 8 4088))) := by
  intro b
  have log := records_acceptSealed.1
  have read : LogHeader.decode ⟨1, b⟩ = .ok ⟨5, 1⟩ := LogHeader.decode_encode 1 ⟨5, 1⟩ _ (by decide)
  have slot : b.word 5 = 7 := by
    show (LogHeader.encode _ _).word 5 = 7
    rw [LogHeader.word_encode _ _ (by decide), Mutation.word_encode _ (by decide)]
    rfl
  have altered : b.AlteredIn (b.setWord 5 8) 5 :=
    b.alteredIn_setWord (by decide) (by rw [slot]; decide)
  obtain ⟨sealed, format⟩ := (log.accepts 1 b).1 ⟨_, read⟩
  refine ⟨read, sealed, format, ?_, altered, log.notices 1 b _ 5 _ read altered (by decide)⟩
  rw [log.free 1 b _ fun k hk => ?_]
  · exact read
  · exact Block.byte_congr (b.word_setWord_ne (by decide) 8 (by omega))

end DurableGraph
