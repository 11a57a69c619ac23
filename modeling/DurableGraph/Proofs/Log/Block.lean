import DurableGraph.Proofs.Disk.Steps
import DurableGraph.Proofs.Record.LogRecord
import DurableGraph.Log.Cursor

/-!
# The entries of a log block

A block tells a list of entries: as many as its header counts, each in its slot.

    (LogBlock.empty g buffer).Tells []
    block.Tells es → (block.push m).Tells (es ++ [m])            unless the block is full
-/

namespace DurableGraph

namespace LogBlock

/-- A block tells a list of entries, one in each slot that its header counts. -/
structure Tells (block : LogBlock) (entries : List Mutation) : Prop where
  count : block.header.entryCount.toNat = entries.length
  slot : ∀ (i : Nat) (h : i < entries.length), Mutation.decode block.buffer i = .ok entries[i]

/-- The header of a block is the one that its content carries. -/
def Sealed (block : LogBlock) : Prop := LogHeader.decode block.buffer = .ok block.header

/-! ## Lemmas -/

theorem load_eq_ok_iff {device : Device} {image : Image} {n : Nat} {generation : UInt64}
    {block : LogBlock} :
    load device image n generation = .ok block ↔
      n < device.blockCount ∧ block.buffer.number = n ∧
        image.block? n = some block.buffer.content ∧ block.Sealed ∧
        block.header.generation = generation := by
  unfold load Sealed
  constructor
  · intro h
    cases hget : device.get image n with
    | error e =>
      rw [hget] at h
      cases h
    | ok buffer =>
      obtain ⟨hlt, number, held⟩ := Device.get_eq_ok_iff.1 hget
      simp only [hget, Work.mapError_ok, bind, Except.bind] at h
      cases decoded : LogHeader.decode buffer with
      | error e =>
        rw [decoded] at h
        cases h
      | ok header =>
        simp only [decoded, Work.mapError_ok] at h
        split at h
        · next same =>
          cases h
          exact ⟨hlt, number, held, decoded, same⟩
        · cases h
  · rintro ⟨hlt, number, held, decoded, same⟩
    have hbuffer : (⟨n, block.buffer.content⟩ : Buffer) = block.buffer := by rw [← number]
    simp only [Device.get_eq_ok hlt held, hbuffer, Work.mapError_ok, bind, Except.bind, decoded,
      same, if_true]

/-- Loading looks at one block of the image. -/
theorem load_congr {device : Device} {a b : Image} {n : Nat} (same : a.block? n = b.block? n)
    (generation : UInt64) : load device a n generation = load device b n generation := by
  unfold load
  rw [Device.get_eq_of_block? same]

/-- A block is of one generation only, and is refused in any other. -/
theorem generation_unique {device device' : Device} {a b : Image} {n : Nat}
    {generation generation' : UInt64} {block block' : LogBlock} (same : a.block? n = b.block? n)
    (h : load device a n generation = .ok block)
    (h' : load device' b n generation' = .ok block') : generation = generation' := by
  obtain ⟨-, number, held, decoded, rfl⟩ := load_eq_ok_iff.1 h
  obtain ⟨-, number', held', decoded', rfl⟩ := load_eq_ok_iff.1 h'
  rw [same, held'] at held
  have hbuffer : block'.buffer = block.buffer := by
    obtain ⟨⟨n, content⟩, header⟩ := block
    obtain ⟨⟨n', content'⟩, header'⟩ := block'
    cases held
    cases number
    cases number'
    rfl
  unfold Sealed at decoded decoded'
  rw [hbuffer, decoded] at decoded'
  injection decoded' with header
  rw [header]

theorem Sealed.entryCount_le {block : LogBlock} (h : block.Sealed) :
    block.header.entryCount.toNat ≤ entriesPerBlock := LogHeader.entryCount_le h

theorem sealed_empty (generation : UInt64) (buffer : Buffer) : (empty generation buffer).Sealed :=
  LogHeader.decode_encode _ _ _ (Nat.zero_le _)

theorem tells_empty (generation : UInt64) (buffer : Buffer) : (empty generation buffer).Tells [] where
  count := rfl
  slot := fun _ h => absurd h (Nat.not_lt_zero _)

@[simp] theorem isFull_empty (generation : UInt64) (buffer : Buffer) :
    (empty generation buffer).header.isFull = false := by
  show decide (entriesPerBlock ≤ (0 : UInt32).toNat) = false
  decide

@[simp] theorem number_push (block : LogBlock) (m : Mutation) :
    (block.push m).buffer.number = block.buffer.number := by
  simp only [push]

@[simp] theorem generation_push (block : LogBlock) (m : Mutation) :
    (block.push m).header.generation = block.header.generation := by
  simp only [push]

theorem buffer_push (block : LogBlock) (m : Mutation) :
    (block.push m).buffer = ⟨block.buffer.number, (block.push m).header.encode
      (m.encode block.header.entryCount.toNat block.buffer.content)⟩ := by
  simp only [push]

theorem entryCount_lt {block : LogBlock} (room : block.header.isFull = false) :
    block.header.entryCount.toNat < entriesPerBlock := by
  simpa [LogHeader.isFull] using room

theorem entryCount_push {block : LogBlock} (room : block.header.isFull = false) (m : Mutation) :
    (block.push m).header.entryCount.toNat = block.header.entryCount.toNat + 1 := by
  have hlt : block.header.entryCount.toNat < 169 := entryCount_lt room
  simp only [push, UInt32.toNat_add, UInt32.reduceToNat, Nat.reducePow]
  omega

theorem sealed_push {block : LogBlock} (room : block.header.isFull = false) (m : Mutation) :
    (block.push m).Sealed := by
  have few : (block.push m).header.entryCount.toNat ≤ entriesPerBlock := by
    have := entryCount_lt room
    rw [entryCount_push room]
    omega
  unfold Sealed
  rw [buffer_push]
  exact LogHeader.decode_encode _ _ _ few

/-- An entry that is pushed comes after those already there. -/
theorem Tells.push {block : LogBlock} {entries : List Mutation} (h : block.Tells entries)
    (room : block.header.isFull = false) (m : Mutation) :
    (block.push m).Tells (entries ++ [m]) where
  count := by
    rw [entryCount_push room, h.count, List.length_append, List.length_singleton]
  slot := by
    intro i hi
    have hlt := entryCount_lt room
    rw [List.length_append, List.length_singleton] at hi
    rw [buffer_push, Mutation.decode_header]
    by_cases hl : i < entries.length
    · rw [Mutation.decode_encode_ne m hlt (by have := h.count; omega),
        List.getElem_append_left hl]
      exact h.slot i hl
    · have hi' : i = block.header.entryCount.toNat := by have := h.count; omega
      subst hi'
      rw [Mutation.decode_encode m hlt]
      simp [h.count]

end LogBlock

end DurableGraph
