import DurableGraph.Disk.Word

/-!
# Blocks

A block is 4096 bytes, or 512 words: the unit in which a device is read and written.  A
buffer is a block that knows its place on the device.

    (b.setWord i w).word j = if j = i then w else b.word j         (word_setWord, i < 512)
    blocks with the same words are equal                            (ext_word)
-/

namespace DurableGraph

/-- The bytes in a block. -/
def blockSize : Nat := 4096

/-- The words in a block. -/
def wordsPerBlock : Nat := 512

structure Block where
  bytes : ByteArray
  size_eq : bytes.size = blockSize

/-- A block together with its number on the device. -/
structure Buffer where
  number : Nat
  content : Block

namespace Block

/-! ## Algorithm -/

def zero : Block := ⟨⟨Array.replicate blockSize 0⟩, by simp [ByteArray.size]⟩

instance : Inhabited Block := ⟨zero⟩

/-- Word `i` of a block, for `i` below 512. -/
def word (b : Block) (i : Nat) : UInt64 := readWord b.bytes i

/-- Changes word `i` of a block, for `i` below 512. -/
def setWord (b : Block) (i : Nat) (w : UInt64) : Block :=
  ⟨writeWord b.bytes i w, by rw [size_writeWord, b.size_eq]⟩

/-- Stores words one after the other from place `i` on. -/
def fill (b : Block) (i : Nat) : List UInt64 → Block
  | [] => b
  | w :: rest => (b.setWord i w).fill (i + 1) rest

/-- The block that starts with some words and is zero after them. -/
def ofWords (words : List UInt64) : Block := zero.fill 0 words

/-! ## Lemmas -/

theorem ext_bytes {a b : Block} (h : a.bytes = b.bytes) : a = b := by
  cases a; cases b; simp_all

theorem fits (b : Block) {i : Nat} (h : i < wordsPerBlock) : 8 * i + 8 ≤ b.bytes.size := by
  rw [b.size_eq]; unfold wordsPerBlock at h; unfold blockSize; omega

theorem word_setWord (b : Block) {i : Nat} (h : i < wordsPerBlock) (w : UInt64) (j : Nat) :
    (b.setWord i w).word j = if j = i then w else b.word j :=
  readWord_writeWord (b.fits h) w j

@[simp] theorem word_setWord_self (b : Block) {i : Nat} (h : i < wordsPerBlock) (w : UInt64) :
    (b.setWord i w).word i = w := by
  rw [word_setWord b h, if_pos rfl]

theorem word_setWord_ne (b : Block) {i j : Nat} (h : i < wordsPerBlock) (w : UInt64)
    (ne : j ≠ i) : (b.setWord i w).word j = b.word j := by
  rw [word_setWord b h, if_neg ne]

theorem ext_word {a b : Block} (same : ∀ i < wordsPerBlock, a.word i = b.word i) : a = b := by
  have h : blockSize = 8 * wordsPerBlock := rfl
  exact ext_bytes (ext_readWord (h ▸ a.size_eq) (h ▸ b.size_eq) same)

@[simp] theorem word_zero (i : Nat) : zero.word i = 0 := by
  unfold word readWord
  split
  · rename_i h
    have key : ∀ k < zero.bytes.size, zero.bytes[k]! = 0 := by
      intro k hk
      rw [getElem!_pos _ k hk]
      exact Array.getElem_replicate ..
    rw [key _ (by omega), key _ (by omega), key _ (by omega), key _ (by omega),
      key _ (by omega), key _ (by omega), key _ (by omega), key _ (by omega)]
    rfl
  · rfl

theorem word_fill (words : List UInt64) (b : Block) (i : Nat)
    (h : i + words.length ≤ wordsPerBlock) (j : Nat) :
    (b.fill i words).word j =
      if i ≤ j ∧ j < i + words.length then words.getD (j - i) 0 else b.word j := by
  induction words generalizing b i with
  | nil => rw [fill, if_neg (by rw [List.length_nil]; omega)]
  | cons w rest ih =>
    simp only [List.length_cons] at h
    rw [fill, ih _ _ (by omega), word_setWord b (by omega), List.length_cons]
    by_cases hj : j = i
    · subst hj
      rw [if_neg (by omega), if_pos rfl, if_pos (by omega)]
      simp
    · by_cases hr : i + 1 ≤ j ∧ j < i + 1 + rest.length
      · rw [if_pos hr, if_pos (by omega), show j - i = (j - (i + 1)) + 1 by omega]
        simp
      · rw [if_neg hr, if_neg hj, if_neg (by omega)]

/-- A block holds the words it was made from, and zeros after them. -/
theorem word_ofWords (words : List UInt64) (h : words.length ≤ wordsPerBlock) (j : Nat) :
    (ofWords words).word j = words.getD j 0 := by
  rw [ofWords, word_fill _ _ _ (by omega), word_zero]
  by_cases hj : j < words.length
  · rw [if_pos (by omega)]; simp
  · rw [if_neg (by omega)]; simp [hj]

end Block

end DurableGraph
