import DurableGraph.Record.CheckpointRecord
import DurableGraph.Proofs.Record.Format

/-!
# Round trips of records

A record can be written over a block whatever the block held before, and read back; the bytes
beside it stay.

    decode (s.encode b) = s
    decode (h.encode b) = h                  unless h counts more entries than there are slots
    decode (m.encode slot b) slot = m        under any header; no byte of another slot changes
    decode b = s → s.encode b = b            for a superblock
-/

namespace DurableGraph

namespace Block

/-- A word that stands there already. -/
theorem setWord_word (b : Block) {i : Nat} (h : i < wordsPerBlock) :
    b.setWord i (b.word i) = b := by
  apply ext_word
  intro j _
  rw [word_setWord b h]
  split
  · next same => rw [same]
  · rfl

/-- A seal that fits already. -/
theorem sealed_of_fits {b : Block} {count : Nat} (fits : b.word 0 = b.sealSum count) :
    b.sealed count = b := by
  unfold sealed
  rw [← fits]
  exact b.setWord_word (by decide)

end Block

/-- **A superblock that was read has one written form**, in whatever block it stands. -/
theorem LogSuperblock.encode_of_decode {number : Nat} {b : Block} {s : LogSuperblock}
    (read : decode ⟨number, b⟩ = .ok s) : s.encode b = b := by
  obtain ⟨fits, magic, rfl⟩ := decode_eq_ok_iff.1 read
  have fields : (b.setWord 1 (wordOfHalves logMagic (highHalf (b.word 1)))).setWord 2
      (wordOfHalves (lowHalf (b.word 2)) (highHalf (b.word 2))) = b := by
    rw [← magic, wordOfHalves_halves, wordOfHalves_halves, b.setWord_word (by decide),
      b.setWord_word (by decide)]
  unfold encode
  rw [fields, Block.sealed_of_fits fits]

/-- A header that counts more entries than there are slots is written, but not read. -/
theorem LogHeader.decode_encode_of_lt (number : Nat) {h : LogHeader} (b : Block)
    (many : entriesPerBlock < h.entryCount.toNat) :
    decode ⟨number, h.encode b⟩ = .error (.entryCountOverflow number h.entryCount) := by
  have h3 : 3 < wordsPerBlock := by decide
  have h2 : 2 < wordsPerBlock := by decide
  have h1 : 1 < wordsPerBlock := by decide
  simp [decode, encode, Buffer.verify_sealed, Block.word_sealed, Block.word_setWord _ h3,
    Block.word_setWord _ h2, Block.word_setWord _ h1, bind, Except.bind, many]

/-- An entry and a header over it leave the bytes of every other slot. -/
theorem Mutation.byte_encode_beside (m : Mutation) (h : LogHeader) (b : Block) {slot other k : Nat}
    (held : slot < entriesPerBlock) (ne : other ≠ slot) (hk : k < 24) :
    (h.encode (m.encode slot b)).bytes[32 + 24 * other + k]! = b.bytes[32 + 24 * other + k]! := by
  apply Block.byte_congr
  rw [h.word_encode _ (by omega)]
  apply m.word_encode_beside held
  unfold slotWord
  omega

/-- **Records survive being written and read**, over whatever stood in the block. -/
theorem decode_encode_records (number : Nat) (b : Block) :
    (∀ s : LogSuperblock, LogSuperblock.decode ⟨number, s.encode b⟩ = .ok s) ∧
      (∀ s : CheckpointSuperblock, CheckpointSuperblock.decode (s.encode b) = s) ∧
      (∀ h : LogHeader, LogHeader.decode ⟨number, h.encode b⟩ =
        if h.entryCount.toNat ≤ 169 then .ok h
        else .error (.entryCountOverflow number h.entryCount)) ∧
      (∀ (m : Mutation) (slot : Nat) (h : LogHeader), slot < 169 → h.entryCount.toNat ≤ 169 →
        let filled := h.encode (m.encode slot b)
        LogHeader.decode ⟨number, filled⟩ = .ok h ∧
          Mutation.decode ⟨number, filled⟩ slot = .ok m ∧
          ∀ other < 169, other ≠ slot → ∀ k < 24,
            filled.bytes[32 + 24 * other + k]! = b.bytes[32 + 24 * other + k]!) ∧
      ∀ s : LogSuperblock, LogSuperblock.decode ⟨number, b⟩ = .ok s → s.encode b = b := by
  refine ⟨fun s => s.decode_encode number b, fun s => s.decode_encode b, fun h => ?_,
    fun m slot h held few => ⟨h.decode_encode number _ few, ?_, ?_⟩,
    fun s read => LogSuperblock.encode_of_decode read⟩
  · split
    · next few => exact h.decode_encode number b few
    · next many => exact h.decode_encode_of_lt number b (Nat.lt_of_not_le many)
  · rw [Mutation.decode_header]
    exact m.decode_encode held number b
  · intro other _ ne k hk
    exact m.byte_encode_beside h b held ne hk

/-- An entry in the last slot of a block that was not empty, under a full header; and a superblock
that was read, with words behind it. -/
theorem decode_encode_records_full :
    let b := Block.zero.setWord 40 9
    let s : LogSuperblock := ⟨5, 1, 2⟩
    let m : Mutation := .removeEdge 7 3
    let h : LogHeader := ⟨6, 169⟩
    168 < 169 ∧ h.entryCount.toNat ≤ 169 ∧
      LogHeader.decode ⟨1, h.encode (m.encode 168 b)⟩ = .ok h ∧
      Mutation.decode ⟨1, h.encode (m.encode 168 b)⟩ 168 = .ok m ∧
      (∀ k < 24, (h.encode (m.encode 168 b)).bytes[32 + 24 * 12 + k]! =
        b.bytes[32 + 24 * 12 + k]!) ∧
      LogHeader.decode ⟨1, LogHeader.encode ⟨6, 170⟩ b⟩ = .error (.entryCountOverflow 1 170) ∧
      LogSuperblock.decode ⟨0, s.encode b⟩ = .ok s ∧ s.encode (s.encode b) = s.encode b := by
  intro b s m h
  obtain ⟨-, -, header, filled, -⟩ := decode_encode_records 1 b
  obtain ⟨read, entry, others⟩ := filled m 168 h (by decide) (by decide)
  have superblock := (decode_encode_records 0 b).1 s
  obtain ⟨-, -, -, -, again⟩ := decode_encode_records 0 (s.encode b)
  exact ⟨by decide, by decide, read, entry, others 12 (by decide) (by decide), header ⟨6, 170⟩,
    superblock, again s superblock⟩

end DurableGraph
