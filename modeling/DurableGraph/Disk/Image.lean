import DurableGraph.Disk.Block

/-!
# Images

The bytes of a device file, of any length, seen as an array of blocks.  Bytes after the last
whole block belong to no block.

    (image.store b).block? n = if n = b.number then some b.content else image.block? n
    (image.store b).size = image.size                     where the block lies in the image
-/

namespace DurableGraph

structure Image where
  bytes : ByteArray

namespace Image

/-! ## Algorithm -/

def size (image : Image) : Nat := image.bytes.size

/-- The number of whole blocks. -/
def blockCount (image : Image) : Nat := image.size / blockSize

/-- Zeros of a given length. -/
def zeros (size : Nat) : Image := ⟨⟨Array.replicate size 0⟩⟩

/-- The content of a block, if the image holds the whole of it. -/
def block? (image : Image) (n : Nat) : Option Block :=
  if h : blockSize * n + blockSize ≤ image.size then
    some ⟨image.bytes.extract (blockSize * n) (blockSize * n + blockSize), by
      rw [ByteArray.size_extract]; unfold size at h; omega⟩
  else none

/-- Appends zeros up to a length. -/
def extendTo (image : Image) (size : Nat) : Image :=
  if image.size < size then ⟨image.bytes ++ (zeros (size - image.size)).bytes⟩ else image

/-- Stores a buffer in its place.  Past the end, zeros fill the space before it. -/
def store (image : Image) (buffer : Buffer) : Image :=
  let start := blockSize * buffer.number
  ⟨buffer.content.bytes.copySlice 0 (image.extendTo start).bytes start blockSize⟩

/-- Stores buffers one after the other. -/
def storeAll (image : Image) (buffers : List Buffer) : Image := buffers.foldl store image

/-! ## Lemmas -/

theorem ext_bytes {a b : Image} (h : a.bytes = b.bytes) : a = b := by
  cases a; cases b; simp_all

/-- The whole of a block lies in the image. -/
theorem le_size_iff {image : Image} {n : Nat} :
    blockSize * n + blockSize ≤ image.size ↔ n < image.blockCount := by
  unfold blockCount blockSize
  omega

theorem block?_isSome_iff (image : Image) (n : Nat) :
    (image.block? n).isSome ↔ n < image.blockCount := by
  rw [← le_size_iff]
  unfold block?
  split <;> simp_all

/-- The bytes of a stored image: what stood before the block, the block, what stood behind. -/
theorem bytes_store (image : Image) (buffer : Buffer)
    (h : blockSize * buffer.number + blockSize ≤ image.size) :
    (image.store buffer).bytes =
      image.bytes.extract 0 (blockSize * buffer.number) ++ buffer.content.bytes ++
        image.bytes.extract (blockSize * buffer.number + blockSize) image.size := by
  have whole : image.extendTo (blockSize * buffer.number) = image := by
    unfold extendTo; rw [if_neg (by omega)]
  have full : buffer.content.bytes.data.size = blockSize := buffer.content.size_eq
  simp only [store, whole, ByteArray.copySlice_eq_append, full, Nat.zero_add, Nat.sub_zero,
    Nat.min_self]
  have : buffer.content.bytes.extract 0 blockSize = buffer.content.bytes := by
    conv => lhs; rw [← buffer.content.size_eq]
    exact ByteArray.extract_zero_size
  rw [this, size, ByteArray.size_data]

@[simp] theorem size_store (image : Image) (buffer : Buffer)
    (h : blockSize * buffer.number + blockSize ≤ image.size) :
    (image.store buffer).size = image.size := by
  unfold size
  rw [bytes_store image buffer h]
  simp only [ByteArray.size_append, ByteArray.size_extract, buffer.content.size_eq]
  unfold size at *
  omega

theorem blockCount_store (image : Image) (buffer : Buffer) (h : buffer.number < image.blockCount) :
    (image.store buffer).blockCount = image.blockCount := by
  unfold blockCount
  rw [size_store _ _ (le_size_iff.2 h)]

/-- A byte of a part of some bytes. -/
theorem getElem!_extract {bytes : ByteArray} {start stop k : Nat} (h : start + k < stop)
    (hs : stop ≤ bytes.size) : (bytes.extract start stop)[k]! = bytes[start + k]! := by
  rw [getElem!_pos _ k (by rw [ByteArray.size_extract]; omega),
    getElem!_pos bytes (start + k) (by omega)]
  exact ByteArray.getElem_extract _

theorem ext_getElem! {a b : ByteArray} (size : a.size = b.size)
    (same : ∀ k < a.size, a[k]! = b[k]!) : a = b := by
  apply ByteArray.ext_getElem size
  intro k ha hb
  have := same k ha
  rwa [getElem!_pos a k ha, getElem!_pos b k hb] at this

/-- Byte by byte: a stored block covers its own bytes and no others. -/
theorem getElem!_store (image : Image) (buffer : Buffer)
    (h : blockSize * buffer.number + blockSize ≤ image.size) {k : Nat} (hk : k < image.size) :
    (image.store buffer).bytes[k]! =
      if blockSize * buffer.number ≤ k ∧ k < blockSize * buffer.number + blockSize then
        buffer.content.bytes[k - blockSize * buffer.number]!
      else image.bytes[k]! := by
  have hc := buffer.content.size_eq
  have hs := size_store image buffer h
  unfold size at h hk hs
  rw [getElem!_pos _ k (by omega)]
  simp only [bytes_store image buffer h, size]
  split
  · rename_i c
    rw [getElem!_pos buffer.content.bytes _ (by omega)]
    rw [ByteArray.getElem_append_left (by
      simp only [ByteArray.size_append, ByteArray.size_extract]; omega)]
    rw [ByteArray.getElem_append_right (by simp only [ByteArray.size_extract]; omega)]
    congr 1
    simp only [ByteArray.size_extract]; omega
  · rename_i c
    rw [getElem!_pos image.bytes k hk]
    by_cases hlt : k < blockSize * buffer.number
    · rw [ByteArray.getElem_append_left (by
        simp only [ByteArray.size_append, ByteArray.size_extract]; omega)]
      rw [ByteArray.getElem_append_left (by simp only [ByteArray.size_extract]; omega)]
      simp only [ByteArray.getElem_extract, Nat.zero_add]
    · rw [ByteArray.getElem_append_right (by
        simp only [ByteArray.size_append, ByteArray.size_extract]; omega)]
      simp only [ByteArray.getElem_extract, ByteArray.size_append, ByteArray.size_extract]
      congr 1
      omega

theorem block?_store (image : Image) (buffer : Buffer) (h : buffer.number < image.blockCount)
    (n : Nat) :
    (image.store buffer).block? n =
      if n = buffer.number then some buffer.content else image.block? n := by
  have hfit := le_size_iff.2 h
  have hsize := size_store image buffer hfit
  have hc := buffer.content.size_eq
  unfold block?
  by_cases hn : blockSize * n + blockSize ≤ image.size
  · rw [dif_pos (by omega)]
    have hs : (image.store buffer).bytes.size = image.bytes.size := hsize
    unfold size at hn
    by_cases he : n = buffer.number
    · rw [if_pos he]
      subst he
      congr 1
      apply Block.ext_bytes
      apply ext_getElem!
      · simp only [ByteArray.size_extract]; omega
      · intro k hk
        simp only [ByteArray.size_extract] at hk
        rw [getElem!_extract (by omega) (by omega), getElem!_store image buffer hfit (by
          unfold size; omega), if_pos (by omega)]
        congr 1
        omega
    · rw [if_neg he, dif_pos (by unfold size; omega)]
      congr 1
      apply Block.ext_bytes
      apply ext_getElem!
      · simp only [ByteArray.size_extract]; omega
      · intro k hk
        simp only [ByteArray.size_extract] at hk
        rw [getElem!_extract (by omega) (by omega), getElem!_extract (by omega) (by omega),
          getElem!_store image buffer hfit (by unfold size; omega), if_neg]
        unfold blockSize at *; omega
  · rw [dif_neg (by omega), dif_neg hn, if_neg]
    rintro rfl
    exact hn hfit

end Image

end DurableGraph
