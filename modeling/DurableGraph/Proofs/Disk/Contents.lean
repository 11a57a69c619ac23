import DurableGraph.Proofs.Disk.Writes

/-!
# The words of a region

The blocks of a region, read word by word as one list: what it holds, told without a cursor.

    image.words region = words of the first block ++ words of the blocks behind it
    (image.words region).length = 512 * (region.stop - region.start)       inside of the image
-/

namespace DurableGraph

namespace Block

/-- All words of a block. -/
def words (b : Block) : List UInt64 := (List.range wordsPerBlock).map b.word

@[simp] theorem length_words (b : Block) : b.words.length = wordsPerBlock := by
  simp [words]

theorem getElem_words (b : Block) {i : Nat} (h : i < b.words.length) : b.words[i] = b.word i := by
  simp [words]

/-- The words from a place on: the one in that place, and those behind it. -/
theorem drop_words (b : Block) {i : Nat} (h : i < wordsPerBlock) :
    b.words.drop i = b.word i :: b.words.drop (i + 1) := by
  have hlt : i < b.words.length := by rw [length_words]; exact h
  rw [List.drop_eq_getElem_cons hlt, getElem_words]

/-- A block that was made from words tells them, and zeros up to its end. -/
theorem words_ofWords {ws : List UInt64} (few : ws.length ≤ wordsPerBlock) :
    (ofWords ws).words = ws ++ List.replicate (wordsPerBlock - ws.length) 0 := by
  apply List.ext_getElem
  · simp only [length_words, List.length_append, List.length_replicate]
    omega
  · intro i hi hi'
    rw [getElem_words, word_ofWords ws few]
    by_cases h : i < ws.length
    · rw [List.getElem_append_left h]
      simp [h]
    · rw [List.getElem_append_right (Nat.le_of_not_lt h)]
      simp [h]

end Block

namespace Image

/-- The words of the blocks of a region, one block after the other. -/
def words (image : Image) (region : Region) : List UInt64 :=
  (List.range' region.start (region.stop - region.start)).flatMap fun n =>
    ((image.block? n).map Block.words).getD []

variable {image a b : Image} {start stop : Nat}

theorem words_of_le (image : Image) (h : stop ≤ start) : image.words ⟨start, stop⟩ = [] := by
  show (List.range' start (stop - start)).flatMap _ = []
  rw [Nat.sub_eq_zero_of_le h]
  rfl

/-- The first block, and the blocks behind it. -/
theorem words_cons {content : Block} (h : start < stop) (held : image.block? start = some content) :
    image.words ⟨start, stop⟩ = content.words ++ image.words ⟨start + 1, stop⟩ := by
  have hcount : stop - start = stop - (start + 1) + 1 := by omega
  simp only [words, hcount, List.range'_succ, List.flatMap_cons, held, Option.map_some,
    Option.getD_some]

/-- A block inside of the image is there. -/
theorem exists_block {n : Nat} (h : n < image.blockCount) :
    ∃ content, image.block? n = some content :=
  Option.isSome_iff_exists.1 ((block?_isSome_iff image n).2 h)

theorem length_words (inside : stop ≤ image.blockCount) :
    (image.words ⟨start, stop⟩).length = wordsPerBlock * (stop - start) := by
  induction hn : stop - start generalizing start with
  | zero => rw [words_of_le image (by omega)]; rfl
  | succ n ih =>
    obtain ⟨content, held⟩ := exists_block (show start < image.blockCount by omega)
    rw [words_cons (by omega) held, List.length_append, Block.length_words,
      ih (show stop - (start + 1) = n by omega), Nat.mul_succ, Nat.add_comm]

/-- Blocks beside the region do not matter. -/
theorem words_congr {region : Region} (same : SameOn region a b) :
    a.words region = b.words region := by
  unfold words
  rw [List.flatMap_def, List.flatMap_def]
  congr 1
  apply List.map_congr_left
  intro n hn
  obtain ⟨hstart, hstop⟩ := List.mem_range'_1.1 hn
  rw [same n hstart (by omega)]

end Image

end DurableGraph
