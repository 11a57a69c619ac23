import DurableGraph.Disk.Image
import DurableGraph.Disk.Device

/-!
# What writes change

Buffers that lie in an image, stored one after the other, change the blocks they name and no
others; the last one decides what a block holds.

    (image.storeAll writes).block? n = image.block? n        where no write names n
    image.storeAll (writes.take k)                           the image after a crash
-/

namespace DurableGraph

namespace Image

/-- All buffers lie in the image. -/
def Fits (image : Image) (writes : List Buffer) : Prop :=
  ∀ buffer ∈ writes, buffer.number < image.blockCount

/-- Two images hold the same blocks in a region. -/
def SameOn (region : Region) (a b : Image) : Prop :=
  ∀ n, region.start ≤ n → n < region.stop → a.block? n = b.block? n

/-! ## Lemmas -/

@[simp] theorem storeAll_nil (image : Image) : image.storeAll [] = image := rfl

theorem blockCount_zeros (size : Nat) : (zeros size).blockCount = size / blockSize := by
  show (Array.replicate size 0).size / blockSize = size / blockSize
  rw [Array.size_replicate]

theorem storeAll_cons (image : Image) (buffer : Buffer) (writes : List Buffer) :
    image.storeAll (buffer :: writes) = (image.store buffer).storeAll writes := rfl

theorem storeAll_append (image : Image) (writes more : List Buffer) :
    image.storeAll (writes ++ more) = (image.storeAll writes).storeAll more :=
  List.foldl_append

theorem fits_nil (image : Image) : image.Fits [] := by
  intro buffer h
  cases h

theorem fits_cons {image : Image} {buffer : Buffer} {writes : List Buffer} :
    image.Fits (buffer :: writes) ↔ buffer.number < image.blockCount ∧ image.Fits writes := by
  simp [Fits]

theorem fits_append {image : Image} {writes more : List Buffer} :
    image.Fits (writes ++ more) ↔ image.Fits writes ∧ image.Fits more := by
  simp only [Fits, List.mem_append, or_imp, forall_and]

/-- A crash cuts writes short, and what is left of them still fits. -/
theorem Fits.take {image : Image} {writes : List Buffer} (h : image.Fits writes) (k : Nat) :
    image.Fits (writes.take k) :=
  fun buffer hb => h buffer (List.mem_of_mem_take hb)

theorem Fits.of_blockCount {a b : Image} {writes : List Buffer} (h : a.Fits writes)
    (same : b.blockCount = a.blockCount) : b.Fits writes := by
  intro buffer hb
  rw [same]
  exact h buffer hb

theorem size_storeAll {image : Image} {writes : List Buffer} (fits : image.Fits writes) :
    (image.storeAll writes).size = image.size := by
  induction writes generalizing image with
  | nil => rfl
  | cons buffer rest ih =>
    obtain ⟨first, others⟩ := fits_cons.1 fits
    have hc := blockCount_store image buffer first
    rw [storeAll_cons, ih (others.of_blockCount hc), size_store image buffer (le_size_iff.2 first)]

theorem blockCount_storeAll {image : Image} {writes : List Buffer} (fits : image.Fits writes) :
    (image.storeAll writes).blockCount = image.blockCount := by
  unfold blockCount
  rw [size_storeAll fits]

/-- A buffer that was stored can be read back. -/
theorem block?_store_self {image : Image} {buffer : Buffer} (h : buffer.number < image.blockCount) :
    (image.store buffer).block? buffer.number = some buffer.content := by
  rw [block?_store image buffer h, if_pos rfl]

/-- The last buffer covers whatever was stored before it. -/
theorem block?_storeAll_concat {image : Image} {writes : List Buffer} {buffer : Buffer}
    (fits : image.Fits (writes ++ [buffer])) (n : Nat) :
    (image.storeAll (writes ++ [buffer])).block? n =
      if n = buffer.number then some buffer.content else (image.storeAll writes).block? n := by
  obtain ⟨before, last⟩ := fits_append.1 fits
  rw [storeAll_append, storeAll_cons, storeAll_nil, block?_store]
  rw [blockCount_storeAll before]
  exact (fits_cons.1 last).1

/-- A block that no buffer names keeps its content. -/
theorem block?_storeAll_of_ne {image : Image} {writes : List Buffer} (fits : image.Fits writes)
    {n : Nat} (other : ∀ buffer ∈ writes, buffer.number ≠ n) :
    (image.storeAll writes).block? n = image.block? n := by
  induction writes generalizing image with
  | nil => rfl
  | cons buffer rest ih =>
    obtain ⟨first, others⟩ := fits_cons.1 fits
    have hc := blockCount_store image buffer first
    rw [storeAll_cons, ih (others.of_blockCount hc) fun b hb => other b (List.mem_cons_of_mem _ hb),
      block?_store image buffer first, if_neg]
    exact fun h => other buffer List.mem_cons_self h.symm

/-- Writes beside a region leave it as it is. -/
theorem sameOn_storeAll {image : Image} {writes : List Buffer} {region : Region}
    (fits : image.Fits writes)
    (beside : ∀ buffer ∈ writes, buffer.number < region.start ∨ region.stop ≤ buffer.number) :
    SameOn region (image.storeAll writes) image := by
  intro n hs he
  apply block?_storeAll_of_ne fits
  intro buffer hb h
  have := beside buffer hb
  omega

end Image

/-- What a device reads of a block is what the image holds there. -/
theorem Device.get_eq_of_block? {device : Device} {a b : Image} {n : Nat}
    (same : a.block? n = b.block? n) : device.get a n = device.get b n := by
  unfold Device.get
  rw [same]

/-- A block of the device that the image holds can be read. -/
theorem Device.get_eq_ok {device : Device} {image : Image} {n : Nat} {content : Block}
    (h : n < device.blockCount) (held : image.block? n = some content) :
    device.get image n = .ok ⟨n, content⟩ :=
  Device.get_eq_ok_iff.2 ⟨h, rfl, held⟩

/-- A block of the device fails to be read for the image only, which has become shorter. -/
theorem Device.get_error {device : Device} {image : Image} {n : Nat} {e : DeviceError}
    (h : n < device.blockCount) (failed : device.get image n = .error e) :
    e = .transferFailed n .shortRead := by
  unfold Device.get at failed
  rw [Device.check_eq_ok h] at failed
  cases held : image.block? n with
  | some content =>
    rw [held] at failed
    cases failed
  | none =>
    rw [held] at failed
    cases failed
    rfl

end DurableGraph
