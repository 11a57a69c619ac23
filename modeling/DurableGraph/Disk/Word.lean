/-!
# Words in bytes

A byte array read and written as little-endian 64-bit words, word `i` standing in the bytes
from `8 * i` on.

    readWord (writeWord bytes i w) j = if j = i then w else readWord bytes j
    bytes of whole words are determined by their words             (ext_readWord)
-/

namespace DurableGraph

/-! ## Algorithm -/

/-- The word with the given bytes, the least significant first. -/
def wordOfBytes (b₀ b₁ b₂ b₃ b₄ b₅ b₆ b₇ : UInt8) : UInt64 :=
  b₀.toUInt64 + b₁.toUInt64 * 0x100 + b₂.toUInt64 * 0x10000 + b₃.toUInt64 * 0x1000000 +
    b₄.toUInt64 * 0x100000000 + b₅.toUInt64 * 0x10000000000 +
    b₆.toUInt64 * 0x1000000000000 + b₇.toUInt64 * 0x100000000000000

/-- Word `i` of some bytes; zero where they end before it does. -/
def readWord (bytes : ByteArray) (i : Nat) : UInt64 :=
  if 8 * i + 8 ≤ bytes.size then
    wordOfBytes bytes[8 * i]! bytes[8 * i + 1]! bytes[8 * i + 2]! bytes[8 * i + 3]!
      bytes[8 * i + 4]! bytes[8 * i + 5]! bytes[8 * i + 6]! bytes[8 * i + 7]!
  else 0

/-- Stores a word at place `i`, which must lie inside the bytes. -/
def writeWord (bytes : ByteArray) (i : Nat) (w : UInt64) : ByteArray :=
  if 8 * i + 8 ≤ bytes.size then
    ((((((((bytes.set! (8 * i) w.toUInt8).set! (8 * i + 1) (w / 0x100).toUInt8).set!
      (8 * i + 2) (w / 0x10000).toUInt8).set! (8 * i + 3) (w / 0x1000000).toUInt8).set!
      (8 * i + 4) (w / 0x100000000).toUInt8).set! (8 * i + 5) (w / 0x10000000000).toUInt8).set!
      (8 * i + 6) (w / 0x1000000000000).toUInt8).set! (8 * i + 7) (w / 0x100000000000000).toUInt8)
  else bytes

/-- The low half of a word. -/
def lowHalf (w : UInt64) : UInt32 := w.toUInt32

/-- The high half of a word. -/
def highHalf (w : UInt64) : UInt32 := (w / 0x100000000).toUInt32

def wordOfHalves (low high : UInt32) : UInt64 := low.toUInt64 + high.toUInt64 * 0x100000000

/-- The exclusive or of `count` words from place `first` on. -/
def xorWords (word : Nat → UInt64) (first : Nat) : (count : Nat) → UInt64
  | 0 => 0
  | count + 1 => xorWords word first count ^^^ word (first + count)

/-- The exclusive or of the whole words of some bytes; a shorter rest is left out. -/
def checksum (bytes : ByteArray) : UInt64 := xorWords (readWord bytes) 0 (bytes.size / 8)

/-! ## Lemmas -/

theorem toNat_wordOfBytes (b₀ b₁ b₂ b₃ b₄ b₅ b₆ b₇ : UInt8) :
    (wordOfBytes b₀ b₁ b₂ b₃ b₄ b₅ b₆ b₇).toNat =
      b₀.toNat + 0x100 * (b₁.toNat + 0x100 * (b₂.toNat + 0x100 * (b₃.toNat + 0x100 *
        (b₄.toNat + 0x100 * (b₅.toNat + 0x100 * (b₆.toNat + 0x100 * b₇.toNat)))))) := by
  have := b₀.toNat_lt; have := b₁.toNat_lt; have := b₂.toNat_lt; have := b₃.toNat_lt
  have := b₄.toNat_lt; have := b₅.toNat_lt; have := b₆.toNat_lt; have := b₇.toNat_lt
  simp only [wordOfBytes, UInt64.toNat_add, UInt64.toNat_mul, UInt8.toNat_toUInt64,
    UInt64.reduceToNat, Nat.reducePow] at *
  -- no sum leaves the word
  simp (disch := omega) only [Nat.mod_eq_of_lt]
  omega

/-- A digit and the digits above it. -/
private theorem digit_join (n d : Nat) :
    n / d % 0x100 + 0x100 * (n / (d * 0x100)) = n / d := by
  rw [← Nat.div_div_eq_div_mul]
  exact Nat.mod_add_div _ _

/-- A word is put together again from its bytes. -/
theorem wordOfBytes_bytes (w : UInt64) :
    wordOfBytes w.toUInt8 (w / 0x100).toUInt8 (w / 0x10000).toUInt8 (w / 0x1000000).toUInt8
      (w / 0x100000000).toUInt8 (w / 0x10000000000).toUInt8 (w / 0x1000000000000).toUInt8
      (w / 0x100000000000000).toUInt8 = w := by
  apply UInt64.toNat_inj.mp
  have hlast : w.toNat / 0x100000000000000 < 0x100 := by
    have := w.toNat_lt
    omega
  rw [toNat_wordOfBytes]
  simp only [UInt64.toNat_toUInt8, UInt64.toNat_div, UInt64.reduceToNat, Nat.reducePow,
    Nat.mod_eq_of_lt hlast]
  have h1 := digit_join w.toNat 0x100
  have h2 := digit_join w.toNat 0x10000
  have h3 := digit_join w.toNat 0x1000000
  have h4 := digit_join w.toNat 0x100000000
  have h5 := digit_join w.toNat 0x10000000000
  have h6 := digit_join w.toNat 0x1000000000000
  simp only [Nat.reduceMul] at h1 h2 h3 h4 h5 h6
  rw [h6, h5, h4, h3, h2, h1]
  exact Nat.mod_add_div w.toNat 0x100

/-- Two numbers of bytes are equal digit by digit. -/
private theorem digit_inj {a b : UInt8} {m n : Nat}
    (h : a.toNat + 0x100 * m = b.toNat + 0x100 * n) : a = b ∧ m = n := by
  have := a.toNat_lt; have := b.toNat_lt
  rw [← UInt8.toNat_inj]
  simp only [Nat.reducePow] at *
  omega

/-- Equal words have equal bytes. -/
theorem wordOfBytes_inj {a₀ a₁ a₂ a₃ a₄ a₅ a₆ a₇ b₀ b₁ b₂ b₃ b₄ b₅ b₆ b₇ : UInt8}
    (h : wordOfBytes a₀ a₁ a₂ a₃ a₄ a₅ a₆ a₇ = wordOfBytes b₀ b₁ b₂ b₃ b₄ b₅ b₆ b₇) :
    (a₀ = b₀ ∧ a₁ = b₁ ∧ a₂ = b₂ ∧ a₃ = b₃) ∧ a₄ = b₄ ∧ a₅ = b₅ ∧ a₆ = b₆ ∧ a₇ = b₇ := by
  have h := congrArg UInt64.toNat h
  rw [toNat_wordOfBytes, toNat_wordOfBytes] at h
  obtain ⟨h0, h⟩ := digit_inj h
  obtain ⟨h1, h⟩ := digit_inj h
  obtain ⟨h2, h⟩ := digit_inj h
  obtain ⟨h3, h⟩ := digit_inj h
  obtain ⟨h4, h⟩ := digit_inj h
  obtain ⟨h5, h⟩ := digit_inj h
  obtain ⟨h6, h⟩ := digit_inj h
  exact ⟨⟨h0, h1, h2, h3⟩, h4, h5, h6, UInt8.toNat_inj.mp h⟩

@[simp] theorem size_writeWord (bytes : ByteArray) (i : Nat) (w : UInt64) :
    (writeWord bytes i w).size = bytes.size := by
  unfold writeWord
  split <;> simp

theorem readWord_writeWord {bytes : ByteArray} {i : Nat} (fits : 8 * i + 8 ≤ bytes.size)
    (w : UInt64) (j : Nat) :
    readWord (writeWord bytes i w) j = if j = i then w else readWord bytes j := by
  unfold readWord
  rw [size_writeWord]
  by_cases hj : 8 * j + 8 ≤ bytes.size
  · simp only [hj, if_true]
    unfold writeWord
    simp only [fits, if_true]
    by_cases h : j = i
    · subst h
      rw [if_pos rfl]
      simp (disch := (try simp only [ByteArray.size_set!]); omega) only
        [ByteArray.getElem!_set!_ne, ByteArray.getElem!_set!_self, wordOfBytes_bytes]
    · rw [if_neg h]
      simp (disch := omega) only [ByteArray.getElem!_set!_ne]
  · have : j ≠ i := by omega
    simp [hj, this]

/-- A word is decided by its bytes. -/
theorem readWord_congr {a b : ByteArray} {i : Nat} (size : a.size = b.size)
    (same : ∀ r < 8, a[8 * i + r]! = b[8 * i + r]!) : readWord a i = readWord b i := by
  have first := same 0 (by decide)
  rw [Nat.add_zero] at first
  unfold readWord
  rw [size, first, same 1 (by decide), same 2 (by decide), same 3 (by decide), same 4 (by decide),
    same 5 (by decide), same 6 (by decide), same 7 (by decide)]

/-- The bytes of a word are decided by it. -/
theorem getElem!_of_readWord_eq {a b : ByteArray} {i r : Nat} (ha : 8 * i + 8 ≤ a.size)
    (hb : 8 * i + 8 ≤ b.size) (same : readWord a i = readWord b i) (hr : r < 8) :
    a[8 * i + r]! = b[8 * i + r]! := by
  unfold readWord at same
  rw [if_pos ha, if_pos hb] at same
  obtain ⟨⟨h0, h1, h2, h3⟩, h4, h5, h6, h7⟩ := wordOfBytes_inj same
  match r with
  | 0 => exact h0
  | 1 => exact h1
  | 2 => exact h2
  | 3 => exact h3
  | 4 => exact h4
  | 5 => exact h5
  | 6 => exact h6
  | 7 => exact h7
  | n + 8 => omega

/-- Bytes that consist of whole words are equal if their words are. -/
theorem ext_readWord {a b : ByteArray} {count : Nat} (ha : a.size = 8 * count)
    (hb : b.size = 8 * count) (same : ∀ i < count, readWord a i = readWord b i) : a = b := by
  apply ByteArray.ext_getElem (by omega)
  intro k hk hk'
  have key := getElem!_of_readWord_eq (by omega) (by omega) (same (k / 8) (by omega))
    (Nat.mod_lt k (by decide))
  rw [Nat.div_add_mod] at key
  rwa [getElem!_pos a k hk, getElem!_pos b k hk'] at key

@[simp] theorem lowHalf_wordOfHalves (low high : UInt32) :
    lowHalf (wordOfHalves low high) = low := by
  apply UInt32.toNat_inj.mp
  have := low.toNat_lt; have := high.toNat_lt
  simp only [lowHalf, wordOfHalves, UInt64.toNat_toUInt32, UInt64.toNat_add, UInt64.toNat_mul,
    UInt32.toNat_toUInt64, UInt64.reduceToNat, Nat.reducePow] at *
  omega

@[simp] theorem highHalf_wordOfHalves (low high : UInt32) :
    highHalf (wordOfHalves low high) = high := by
  apply UInt32.toNat_inj.mp
  have := low.toNat_lt; have := high.toNat_lt
  simp only [highHalf, wordOfHalves, UInt64.toNat_toUInt32, UInt64.toNat_add, UInt64.toNat_mul,
    UInt64.toNat_div, UInt32.toNat_toUInt64, UInt64.reduceToNat, Nat.reducePow] at *
  omega

theorem wordOfHalves_halves (w : UInt64) : wordOfHalves (lowHalf w) (highHalf w) = w := by
  apply UInt64.toNat_inj.mp
  have := w.toNat_lt
  simp only [lowHalf, highHalf, wordOfHalves, UInt64.toNat_toUInt32, UInt64.toNat_add,
    UInt64.toNat_mul, UInt64.toNat_div, UInt32.toNat_toUInt64, UInt64.reduceToNat,
    Nat.reducePow] at *
  omega

theorem xorWords_congr {f g : Nat → UInt64} {first count : Nat}
    (same : ∀ i, first ≤ i → i < first + count → f i = g i) :
    xorWords f first count = xorWords g first count := by
  induction count with
  | zero => rfl
  | succ count ih =>
    simp only [xorWords]
    rw [ih fun i h h' => same i h (by omega), same (first + count) (by omega) (by omega)]

end DurableGraph
