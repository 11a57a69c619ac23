import DurableGraph.Proofs.Checkpoint.Packing
import DurableGraph.Proofs.Disk.Footprint

/-!
# What a writer of words takes, and what a reader gives back

Both cursors of a region of `n` blocks stop after `512 * n` words: the writer at the next word it
is given, the reader at the next it is asked for.  In between, the reader hands out what was
written.

    a word that is taken        one place further                           (pushAll_place)
    words that face a reader    as many of them as are asked for            (readAll_of_faces)
    write words, read           words, zeros to the end of a block, the old words behind it
                                                                            (readAll_pushAll)
-/

namespace DurableGraph

/-! ## Writing -/

namespace WordWriter

variable {w t : WordWriter} {word : UInt64}

/-- A word that is taken moves the writer one place on in its region. -/
theorem push_place (few : w.pending.size < wordsPerBlock) (h : w.push word = .ok t) :
    (t.device = w.device ∧ t.stop = w.stop) ∧ t.pending.size < wordsPerBlock ∧
      wordsPerBlock * t.block + t.pending.size =
        wordsPerBlock * w.block + w.pending.size + 1 := by
  have room : w.room = .ok () := by
    cases hroom : w.room with
    | ok done => rfl
    | error e =>
      unfold push at h
      rw [hroom] at h
      cases h
  rw [push_eq room, Except.ok.injEq] at h
  subst h
  rw [Array.size_push]
  by_cases hfull : w.pending.size + 1 = wordsPerBlock
  · rw [if_pos hfull]
    refine ⟨⟨rfl, rfl⟩, ?_, ?_⟩
    · show 0 < wordsPerBlock
      decide
    · show wordsPerBlock * (w.block + 1) + 0 = _
      rw [Nat.mul_succ]
      omega
  · rw [if_neg hfull]
    dsimp only
    rw [Array.size_push]
    exact ⟨⟨rfl, rfl⟩, by omega, rfl⟩

/-- Words that are taken, by induction on them. -/
theorem pushAll_place {words : List UInt64} (few : w.pending.size < wordsPerBlock)
    (h : w.pushAll words = .ok t) :
    (t.device = w.device ∧ t.stop = w.stop) ∧ t.pending.size < wordsPerBlock ∧
      wordsPerBlock * t.block + t.pending.size =
        wordsPerBlock * w.block + w.pending.size + words.length := by
  induction words generalizing w with
  | nil =>
    cases h
    exact ⟨⟨rfl, rfl⟩, few, rfl⟩
  | cons word rest ih =>
    have hstep : w.pushAll (word :: rest) = (w.push word).bind fun t => t.pushAll rest := rfl
    rw [hstep] at h
    cases hpush : w.push word with
    | error e =>
      rw [hpush] at h
      cases h
    | ok u =>
      rw [hpush] at h
      obtain ⟨⟨device, stop⟩, few', place⟩ := push_place few hpush
      obtain ⟨⟨device', stop'⟩, few'', place'⟩ := ih few' h
      refine ⟨⟨device'.trans device, stop'.trans stop⟩, few'', ?_⟩
      rw [List.length_cons]
      omega

/-- A writer that has come to the end of its region takes no word. -/
theorem push_of_end (few : w.pending.size < wordsPerBlock)
    (last : wordsPerBlock * w.block + w.pending.size = wordsPerBlock * w.stop) (word : UInt64) :
    w.push word = .error (.noSpace w.stop) := by
  have hsize : w.pending.size = 0 := by
    unfold wordsPerBlock at few last
    omega
  have hblock : w.block = w.stop := by
    unfold wordsPerBlock at last
    omega
  have hempty : w.pending.isEmpty = true := by
    rw [Array.isEmpty_iff_size_eq_zero]
    exact hsize
  unfold push WordWriter.room
  simp only [hempty, hblock, Bool.not_true, Bool.false_eq_true, if_false, Nat.le_refl, if_true]

/-- **A writer of a region** takes as many words as there are places, and what it gives at the end
is packed. -/
theorem pushAll_ofRegion (device : Device) {region : Region} (ordered : region.start ≤ region.stop)
    (inside : region.stop ≤ device.blockCount) {words : List UInt64}
    (room : words.length ≤ wordsPerBlock * (region.stop - region.start)) :
    ∃ writer, (ofRegion device region).pushAll words = .ok writer ∧
      writer.finish = packed region.start words ∧
      (words.length = wordsPerBlock * (region.stop - region.start) →
        ∀ word, writer.push word = .error (.noSpace region.stop)) := by
  have few : (ofRegion device region).pending.size < wordsPerBlock := by
    show 0 < wordsPerBlock
    decide
  obtain ⟨writer, hpush, hfinish⟩ := pushAll_eq_ok (w := ofRegion device region) inside few
    (show 0 + words.length ≤ (region.stop - region.start) * wordsPerBlock by
      rw [Nat.zero_add, Nat.mul_comm]
      exact room)
  obtain ⟨⟨-, stop⟩, few', place⟩ := pushAll_place few hpush
  refine ⟨writer, hpush, hfinish, fun full word => ?_⟩
  have stop' : writer.stop = region.stop := stop
  have place' : wordsPerBlock * writer.block + writer.pending.size =
    wordsPerBlock * region.start + 0 + words.length := place
  rw [← stop']
  refine push_of_end few' ?_ word
  rw [place', full, stop', Nat.add_zero, ← Nat.mul_add, Nat.add_sub_cancel' ordered]

end WordWriter

/-! ## Reading -/

namespace WordReader

/-- Asks for words one after the other, up to the first failure. -/
def readAll (image : Image) (r : WordReader) : (count : Nat) → List UInt64 × Option CheckpointError
  | 0 => ([], none)
  | count + 1 =>
    match r.next image with
    | .error e => ([], some e)
    | .ok (word, r) =>
      let (rest, failure) := readAll image r count
      (word :: rest, failure)

/-- A reader hands out the words it stands in front of, and fails behind the last of them. -/
theorem readAll_of_faces {image : Image} {r : WordReader} {stop : Nat} {words : List UInt64}
    (h : r.Faces image stop words) (count : Nat) :
    r.readAll image count =
      (words.take count, if count ≤ words.length then none else some (.truncated stop)) := by
  induction count generalizing r words with
  | zero => simp [readAll]
  | succ count ih =>
    cases words with
    | nil =>
      unfold readAll
      rw [next_of_faces_nil h]
      simp
    | cons word rest =>
      obtain ⟨t, hnext, faces⟩ := next_of_faces h
      unfold readAll
      rw [hnext]
      simp only [ih faces, List.take_succ_cons, List.length_cons, Nat.add_le_add_iff_right]

end WordReader

/-! ## Top theorem -/

/-- What a region holds after words were written to it: the words, zeros up to the end of the last
block that holds one of them, and what stood in the blocks behind it. -/
def Image.wordsAfter (image : Image) (region : Region) (words : List UInt64) : List UInt64 :=
  words ++ List.replicate (wordsPerBlock * blocksFor words.length - words.length) 0 ++
    (image.words region).drop (wordsPerBlock * blocksFor words.length)

/-- **Word cursors are inverse and bounded.**  In any range of blocks of any image, a writer takes
the words there is room for and fails at the next one.  A reader of the blocks that were written
hands out those words, then zeros, then the old words of the blocks behind, and fails once it has
handed out all of the range.  No byte of another block changes. -/
theorem readAll_pushAll {image : Image} {region : Region} (ordered : region.start ≤ region.stop)
    (inside : region.stop ≤ image.blockCount) (path : String) (words : List UInt64) :
    let device := Device.ofImage path image
    let bound := wordsPerBlock * (region.stop - region.start)
    let taken := words.take bound
    ∃ writer, (WordWriter.ofRegion device region).pushAll taken = .ok writer ∧
      (bound ≤ words.length → ∀ word, writer.push word = .error (.noSpace region.stop)) ∧
      (image.wordsAfter region taken).length = bound ∧
      (∀ count, (WordReader.ofRegion device region).readAll (image.storeAll writer.finish) count =
        ((image.wordsAfter region taken).take count,
          if count ≤ bound then none else some (.truncated region.stop))) ∧
      image.AlteredIn (image.storeAll writer.finish)
        (Set.Ico region.start (region.start + blocksFor taken.length)) := by
  intro device bound taken
  have few : taken.length ≤ bound := List.length_take_le bound words
  obtain ⟨writer, hpush, hfinish, full⟩ := WordWriter.pushAll_ofRegion device ordered inside few
  have room : taken.length ≤ (region.stop - region.start) * wordsPerBlock := by
    rw [Nat.mul_comm]
    exact few
  have fits : image.Fits (packed region.start taken) := fits_packed inside room
  have hcount := Image.blockCount_storeAll fits
  have hwords : (image.storeAll (packed region.start taken)).words region =
      image.wordsAfter region taken := words_storeAll_packed inside room
  have inside' : region.stop ≤ (image.storeAll (packed region.start taken)).blockCount := by
    rw [hcount]
    exact inside
  have hlength : (image.wordsAfter region taken).length = bound := by
    rw [← hwords]
    exact Image.length_words inside'
  have faces : (WordReader.ofRegion device region).Faces _ region.stop _ :=
    WordReader.faces_ofRegion ordered inside inside'
  rw [hwords] at faces
  refine ⟨writer, hpush, fun more => full ?_, hlength, ?_⟩
  · exact List.length_take_of_le more
  rw [hfinish]
  refine ⟨fun count => ?_, ?_⟩
  · rw [WordReader.readAll_of_faces faces, hlength]
  · exact Image.alteredIn_storeAll fits fun buffer hb =>
      ⟨(number_of_mem_packed hb).1, number_lt_of_mem_packed hb⟩

/-- Two words in two empty blocks are read back with zeros behind them, up to the end of the
second block. -/
theorem readAll_pushAll_zeros :
    let image := Image.zeros 40960
    2 ≤ 4 ∧ 4 ≤ image.blockCount ∧
      ∃ writer, (WordWriter.ofRegion (Device.ofImage "disk" image) ⟨2, 4⟩).pushAll [7, 8] =
          .ok writer ∧
        (WordReader.ofRegion (Device.ofImage "disk" image) ⟨2, 4⟩).readAll
          (image.storeAll writer.finish) 3 = ([7, 8, 0], none) ∧
        ((WordReader.ofRegion (Device.ofImage "disk" image) ⟨2, 4⟩).readAll
          (image.storeAll writer.finish) 1025).2 = some (.truncated 4) := by
  intro image
  have ordered : (⟨2, 4⟩ : Region).start ≤ (⟨2, 4⟩ : Region).stop := by decide
  have inside : (⟨2, 4⟩ : Region).stop ≤ image.blockCount :=
    Nat.le_trans (by decide) (Nat.le_of_eq (Image.blockCount_zeros 40960).symm)
  obtain ⟨writer, hpush, -, -, reads, -⟩ := readAll_pushAll ordered inside "disk" [7, 8]
  refine ⟨ordered, inside, writer, hpush, (reads 3).trans ?_, ?_⟩
  · rfl
  · rw [reads 1025]
    rfl

end DurableGraph
