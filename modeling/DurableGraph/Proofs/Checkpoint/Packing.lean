import DurableGraph.Proofs.Disk.Contents
import DurableGraph.Checkpoint.Words

/-!
# Words packed into blocks

What a writer stores is `packed`.  A reader hands out the words of its region in order, and fails
once it has handed out all of them.

    (ofRegion device region).pushAll words → w    then    w.finish = packed region.start words
    packed words in a region       the words, zeros to the end of a block, the old words behind it
    r.Faces image stop (word :: rest) → r.next image = .ok (word, r')  and  r'.Faces image stop rest
    r.Faces image stop [] → r.next image = .error (.truncated stop)
-/

namespace DurableGraph

/-- Words in consecutive blocks from `start` on, the last one filled up with zeros. -/
def packed (start : Nat) (words : List UInt64) : List Buffer :=
  if words = [] then []
  else ⟨start, .ofWords (words.take wordsPerBlock)⟩ ::
    packed (start + 1) (words.drop wordsPerBlock)
termination_by words.length
decreasing_by
  rename_i h
  have := List.length_pos_iff.2 h
  rw [List.length_drop]
  have : 0 < wordsPerBlock := by decide
  omega

@[simp] theorem packed_nil (start : Nat) : packed start [] = [] := by
  rw [packed, if_pos rfl]

theorem packed_of_ne_nil (start : Nat) {words : List UInt64} (ne : words ≠ []) :
    packed start words = ⟨start, .ofWords (words.take wordsPerBlock)⟩ ::
      packed (start + 1) (words.drop wordsPerBlock) := by
  rw [packed, if_neg ne]

/-- A block that is full is followed by the other words. -/
theorem packed_append (start : Nat) {first : List UInt64} (full : first.length = wordsPerBlock)
    (rest : List UInt64) :
    packed start (first ++ rest) = ⟨start, .ofWords first⟩ :: packed (start + 1) rest := by
  rw [packed_of_ne_nil, List.take_left' full, List.drop_left' full]
  intro h
  rw [(List.append_eq_nil_iff.1 h).1] at full
  cases full

/-- Words of one block. -/
theorem packed_of_length_lt (start : Nat) {words : List UInt64} (ne : words ≠ [])
    (few : words.length < wordsPerBlock) : packed start words = [⟨start, .ofWords words⟩] := by
  rw [packed_of_ne_nil start ne, List.take_of_length_le (by omega),
    List.drop_of_length_le (by omega), packed_nil]

/-- Every block holds a word, so its place is known from the number of words. -/
theorem number_of_mem_packed {start : Nat} {words : List UInt64} {buffer : Buffer}
    (h : buffer ∈ packed start words) :
    start ≤ buffer.number ∧ (buffer.number - start) * wordsPerBlock < words.length := by
  fun_induction packed start words with
  | case1 => cases h
  | case2 start words ne ih =>
    have hpos := List.length_pos_iff.2 ne
    rcases List.mem_cons.1 h with rfl | h
    · exact ⟨Nat.le_refl _, by simpa using hpos⟩
    · obtain ⟨hstart, hlt⟩ := ih h
      rw [List.length_drop] at hlt
      unfold wordsPerBlock at hlt ⊢
      omega

/-- The blocks that a number of words takes, the last one filled up. -/
def blocksFor (count : Nat) : Nat := (count + (wordsPerBlock - 1)) / wordsPerBlock

/-- The first block, and those for the words that are left. -/
theorem blocksFor_eq_succ {count : Nat} (pos : 0 < count) :
    wordsPerBlock * blocksFor count =
      wordsPerBlock + wordsPerBlock * blocksFor (count - wordsPerBlock) := by
  unfold blocksFor wordsPerBlock
  omega

theorem number_lt_of_mem_packed {start : Nat} {words : List UInt64} {buffer : Buffer}
    (h : buffer ∈ packed start words) : buffer.number < start + blocksFor words.length := by
  obtain ⟨hstart, hlt⟩ := number_of_mem_packed h
  unfold blocksFor wordsPerBlock at *
  omega

/-- Words that fit behind `start` take blocks of the image. -/
theorem fits_packed {image : Image} {start stop : Nat} {words : List UInt64}
    (inside : stop ≤ image.blockCount) (room : words.length ≤ (stop - start) * wordsPerBlock) :
    image.Fits (packed start words) := by
  intro buffer hb
  obtain ⟨hstart, hlt⟩ := number_of_mem_packed hb
  unfold wordsPerBlock at *
  omega

/-- The first block is not touched again once it is stored. -/
theorem words_storeAll_cons {image : Image} {start stop : Nat} {content : Block}
    {words : List UInt64} (hstart : start < stop)
    (fits : image.Fits (⟨start, content⟩ :: packed (start + 1) words)) :
    (image.storeAll (⟨start, content⟩ :: packed (start + 1) words)).words ⟨start, stop⟩ =
      content.words ++
        ((image.store ⟨start, content⟩).storeAll (packed (start + 1) words)).words
          ⟨start + 1, stop⟩ := by
  obtain ⟨first, others⟩ := Image.fits_cons.1 fits
  have fits' := others.of_blockCount (Image.blockCount_store image _ first)
  rw [Image.storeAll_cons]
  apply Image.words_cons hstart
  rw [Image.block?_storeAll_of_ne fits']
  · exact Image.block?_store_self first
  · intro buffer hb
    have := (number_of_mem_packed hb).1
    omega

/-- **What is stored**, by induction on the blocks: the words, zeros up to the end of the last
block, and what stood behind it before. -/
theorem words_storeAll_packed {image : Image} {start stop : Nat} {words : List UInt64}
    (inside : stop ≤ image.blockCount) (room : words.length ≤ (stop - start) * wordsPerBlock) :
    (image.storeAll (packed start words)).words ⟨start, stop⟩ =
      words ++ List.replicate (wordsPerBlock * blocksFor words.length - words.length) 0 ++
        (image.words ⟨start, stop⟩).drop (wordsPerBlock * blocksFor words.length) := by
  have fits := fits_packed inside room
  fun_induction packed start words generalizing image with
  | case1 => rfl
  | case2 start words ne ih =>
    have hpos := List.length_pos_iff.2 ne
    have hstart : start < stop := by unfold wordsPerBlock at room; omega
    obtain ⟨first, others⟩ := Image.fits_cons.1 fits
    have hcount := Image.blockCount_store image _ first
    have room' : (words.drop wordsPerBlock).length ≤ (stop - (start + 1)) * wordsPerBlock := by
      rw [List.length_drop]
      unfold wordsPerBlock at *
      omega
    -- the blocks behind the first one still hold what they held before
    have same : Image.SameOn ⟨start + 1, stop⟩
        (image.store ⟨start, .ofWords (words.take wordsPerBlock)⟩) image := by
      intro n hn _
      rw [Image.block?_store image _ first, if_neg (Nat.ne_of_gt hn)]
    obtain ⟨content, held⟩ := Image.exists_block (show start < image.blockCount by omega)
    have hold : (image.words ⟨start, stop⟩).drop (wordsPerBlock * blocksFor words.length) =
        (image.words ⟨start + 1, stop⟩).drop
          (wordsPerBlock * blocksFor (words.drop wordsPerBlock).length) := by
      rw [Image.words_cons hstart held, blocksFor_eq_succ hpos, List.length_drop,
        ← Block.length_words content]
      exact List.drop_length_add_append _
    rw [words_storeAll_cons hstart fits, ih (by rw [hcount]; exact inside) room'
      (others.of_blockCount hcount), Image.words_congr same, hold,
      Block.words_ofWords (by rw [List.length_take]; omega), blocksFor_eq_succ hpos,
      List.length_drop, List.length_take]
    by_cases hmore : words.length ≤ wordsPerBlock
    · rw [List.take_of_length_le hmore, List.drop_of_length_le hmore, Nat.min_eq_right hmore,
        Nat.sub_eq_zero_of_le hmore]
      simp [blocksFor, wordsPerBlock]
    · rw [Nat.min_eq_left (by omega), Nat.sub_self,
        show wordsPerBlock + wordsPerBlock * blocksFor (words.length - wordsPerBlock) -
          words.length = wordsPerBlock * blocksFor (words.length - wordsPerBlock) -
            (words.length - wordsPerBlock) by omega]
      simp only [List.replicate_zero, List.append_nil, ← List.append_assoc,
        List.take_append_drop]

/-! ## Writing -/

namespace WordWriter

/-- A writer that has room takes a word. -/
theorem push_eq {w : WordWriter} {word : UInt64} (room : w.room = .ok ()) :
    w.push word = .ok (if (w.pending.push word).size = wordsPerBlock then
      { w with
        block := w.block + 1
        pending := #[]
        full := w.full.push ⟨w.block, .ofWords (w.pending.push word).toList⟩ }
      else { w with pending := w.pending.push word }) := by
  unfold push
  rw [room]
  simp only
  split <;> rfl

theorem room_eq_ok {w : WordWriter} (inside : w.stop ≤ w.device.blockCount)
    (room : 0 < w.pending.size + (w.stop - w.block) * wordsPerBlock) : w.room = .ok () := by
  unfold WordWriter.room
  cases hp : w.pending.isEmpty with
  | false => rfl
  | true =>
    have hsize : w.pending.size = 0 := by
      rw [Array.isEmpty_iff.1 hp]
      rfl
    have hlt : w.block < w.stop := by
      rw [hsize, Nat.zero_add] at room
      have := Nat.pos_of_mul_pos_right room
      omega
    simp only [Bool.not_true, Bool.false_eq_true, if_false]
    rw [if_neg (by omega), Device.check_eq_ok (by omega)]
    rfl

/-- **All words** that there is room for are taken, and finishing gives them packed behind what
was full already. -/
theorem pushAll_eq_ok {w : WordWriter} {words : List UInt64}
    (inside : w.stop ≤ w.device.blockCount) (few : w.pending.size < wordsPerBlock)
    (room : w.pending.size + words.length ≤ (w.stop - w.block) * wordsPerBlock) :
    ∃ t, w.pushAll words = .ok t ∧
      t.finish = w.full.toList ++ packed w.block (w.pending.toList ++ words) := by
  induction words generalizing w with
  | nil =>
    refine ⟨w, rfl, ?_⟩
    rw [List.append_nil]
    unfold finish
    cases hp : w.pending.isEmpty with
    | true =>
      rw [Array.isEmpty_iff.1 hp]
      simp
    | false =>
      have hne : w.pending.toList ≠ [] := by
        intro h
        rw [Array.toList_eq_nil_iff] at h
        rw [h] at hp
        cases hp
      rw [packed_of_length_lt _ hne (by simpa using few)]
      rfl
  | cons word rest ih =>
    rw [List.length_cons] at room
    have hroom := room_eq_ok inside (w := w) (by omega)
    have hstep : w.pushAll (word :: rest) = (w.push word).bind fun t => t.pushAll rest := rfl
    rw [hstep, push_eq hroom, Array.size_push]
    by_cases hfull : w.pending.size + 1 = wordsPerBlock
    · rw [if_pos hfull]
      have few' : (#[] : Array UInt64).size < wordsPerBlock := by decide
      have room' : (#[] : Array UInt64).size + rest.length ≤
          (w.stop - (w.block + 1)) * wordsPerBlock := by
        show 0 + rest.length ≤ _
        unfold wordsPerBlock at hfull room ⊢
        omega
      obtain ⟨t, ht, hfinish⟩ := ih (w := ⟨w.device, w.stop, w.block + 1, #[], _⟩) inside few' room'
      refine ⟨t, ht, ?_⟩
      rw [hfinish]
      have hlen : (w.pending.toList ++ [word]).length = wordsPerBlock := by
        rw [List.length_append, List.length_singleton, Array.length_toList]
        exact hfull
      rw [show w.pending.toList ++ word :: rest = w.pending.toList ++ [word] ++ rest by simp,
        packed_append _ hlen]
      simp
    · rw [if_neg hfull]
      have few' : (w.pending.push word).size < wordsPerBlock := by
        rw [Array.size_push]
        omega
      have room' : (w.pending.push word).size + rest.length ≤
          (w.stop - w.block) * wordsPerBlock := by
        rw [Array.size_push]
        omega
      obtain ⟨t, ht, hfinish⟩ :=
        ih (w := ⟨w.device, w.stop, w.block, w.pending.push word, _⟩) inside few' room'
      refine ⟨t, ht, ?_⟩
      rw [hfinish]
      simp

end WordWriter

/-! ## Reading -/

namespace WordReader

/-- A reader stands in front of some words, which are all that the blocks before `stop` still
hold. -/
structure Faces (image : Image) (r : WordReader) (stop : Nat) (words : List UInt64) : Prop where
  stop_eq : r.stop = stop
  place_lt : r.place < wordsPerBlock
  content : ∀ content, r.content = some content →
    r.block < stop ∧ image.block? r.block = some content
  block_le : r.block ≤ stop
  device : stop ≤ r.device.blockCount
  inside : stop ≤ image.blockCount
  words_eq : (image.words ⟨r.block, stop⟩).drop r.place = words

/-- A reader of a region in front of all of its words. -/
theorem faces_ofRegion {device : Device} {region : Region} {image : Image}
    (wide : region.start ≤ region.stop) (device_le : region.stop ≤ device.blockCount)
    (inside : region.stop ≤ image.blockCount) :
    (ofRegion device region).Faces image region.stop (image.words region) where
  stop_eq := rfl
  place_lt := by show 0 < wordsPerBlock; decide
  content := fun _ hc => by cases hc
  block_le := wide
  device := device_le
  inside := inside
  words_eq := rfl

variable {image : Image} {r : WordReader} {stop : Nat} {word : UInt64} {rest : List UInt64}

/-- The block that the next word is in. -/
theorem load_of_faces (h : r.Faces image stop (word :: rest)) :
    r.block < stop ∧ ∃ content, r.load image = .ok content ∧
      image.block? r.block = some content := by
  have hlt : r.block < stop := by
    apply Nat.lt_of_not_le
    intro hle
    have hwords := h.words_eq
    rw [Image.words_of_le image hle, List.drop_nil] at hwords
    cases hwords
  have hinside := h.inside
  have hdevice := h.device
  refine ⟨hlt, ?_⟩
  unfold WordReader.load
  cases hc : r.content with
  | some content => exact ⟨content, rfl, (h.content content hc).2⟩
  | none =>
    obtain ⟨content, held⟩ := Image.exists_block (show r.block < image.blockCount by omega)
    refine ⟨content, ?_, held⟩
    have hstop := h.stop_eq
    simp only
    rw [if_neg (by omega), Device.get_eq_ok (by omega) held]
    rfl

/-- **The next word** is handed out, and the reader stands in front of the others. -/
theorem next_of_faces (h : r.Faces image stop (word :: rest)) :
    ∃ t, r.next image = .ok (word, t) ∧ t.Faces image stop rest := by
  obtain ⟨hblock, content, load, held⟩ := load_of_faces h
  have hplace := h.place_lt
  have hwords := h.words_eq
  rw [Image.words_cons hblock held,
    List.drop_append_of_le_length (by rw [Block.length_words]; omega),
    Block.drop_words content hplace, List.cons_append, List.cons.injEq] at hwords
  obtain ⟨hword, hrest⟩ := hwords
  unfold WordReader.next
  rw [load]
  simp only [hword]
  by_cases hlast : r.place + 1 = wordsPerBlock
  · rw [if_pos hlast]
    rw [List.drop_of_length_le (by rw [Block.length_words]; omega), List.nil_append] at hrest
    refine ⟨_, rfl, ?_⟩
    exact {
      stop_eq := h.stop_eq
      place_lt := by show 0 < wordsPerBlock; decide
      content := fun _ hc => by cases hc
      block_le := hblock
      device := h.device
      inside := h.inside
      words_eq := hrest }
  · rw [if_neg hlast]
    refine ⟨_, rfl, ?_⟩
    exact {
      stop_eq := h.stop_eq
      place_lt := by show r.place + 1 < wordsPerBlock; omega
      content := by
        intro c hc
        cases hc
        exact ⟨hblock, held⟩
      block_le := h.block_le
      device := h.device
      inside := h.inside
      words_eq := by
        show (image.words ⟨r.block, stop⟩).drop (r.place + 1) = rest
        rw [Image.words_cons hblock held,
          List.drop_append_of_le_length (by rw [Block.length_words]; omega)]
        exact hrest }

/-- **Behind the last word** there is nothing to read. -/
theorem next_of_faces_nil (h : r.Faces image stop []) :
    r.next image = .error (.truncated stop) := by
  have hplace := h.place_lt
  have hlen := congrArg List.length h.words_eq
  rw [List.length_drop, Image.length_words h.inside, List.length_nil] at hlen
  have hblock : r.block = stop := by
    have := h.block_le
    unfold wordsPerBlock at *
    omega
  have hnone : r.content = none := by
    cases hc : r.content with
    | none => rfl
    | some content =>
      have := (h.content content hc).1
      omega
  unfold WordReader.next WordReader.load
  rw [hnone]
  simp only [h.stop_eq, hblock, Nat.le_refl, if_true]

/-- A reader in a region reads nothing else. -/
structure Within (region : Region) (r : WordReader) : Prop where
  start_le : region.start ≤ r.block
  stop_eq : r.stop = region.stop

theorem within_ofRegion (device : Device) (region : Region) :
    (ofRegion device region).Within region := ⟨Nat.le_refl _, rfl⟩

theorem Within.next_congr {region : Region} {r : WordReader} (h : r.Within region) {a b : Image}
    (same : Image.SameOn region a b) : r.next a = r.next b := by
  have hload : r.load a = r.load b := by
    unfold WordReader.load
    cases r.content with
    | some content => rfl
    | none =>
      simp only
      split
      · rfl
      · have := h.stop_eq
        rw [Device.get_eq_of_block? (same _ h.start_le (by omega))]
  unfold WordReader.next
  rw [hload]

theorem Within.next {region : Region} {r t : WordReader} {image : Image} {word : UInt64}
    (h : r.Within region) (ok : r.next image = .ok (word, t)) : t.Within region := by
  have hstart := h.start_le
  unfold WordReader.next at ok
  cases hload : r.load image with
  | error e =>
    rw [hload] at ok
    cases ok
  | ok content =>
    rw [hload] at ok
    simp only at ok
    split at ok
    · cases ok
      exact ⟨Nat.le_succ_of_le hstart, h.stop_eq⟩
    · cases ok
      exact ⟨hstart, h.stop_eq⟩

/-- A reader that goes on stays on its device. -/
theorem device_next {r t : WordReader} {image : Image} {word : UInt64}
    (ok : r.next image = .ok (word, t)) : t.device = r.device := by
  unfold WordReader.next at ok
  cases hload : r.load image with
  | error e =>
    rw [hload] at ok
    cases ok
  | ok content =>
    rw [hload] at ok
    simp only at ok
    split at ok
    · cases ok
      rfl
    · cases ok
      rfl

end WordReader

end DurableGraph
