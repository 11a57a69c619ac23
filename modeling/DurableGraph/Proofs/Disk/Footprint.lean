import Mathlib.Order.Interval.Set.Defs
import Mathlib.Data.Set.Insert
import DurableGraph.Proofs.Disk.Steps
import DurableGraph.Proofs.Record.Damage

/-!
# Footprints

Work that stores blocks of a set only, whatever becomes of it, and what that means for an image:
its length and every byte outside of those blocks stay as they are.

    x.WritesIn blocks → (∀ a, (f a).WritesIn blocks) → (x >>= f).WritesIn blocks
    all writes in blocks → image.AlteredIn (image.storeAll writes) blocks
-/

namespace DurableGraph

/-! ## Images -/

namespace Image

/-- An image of the same length that differs in some blocks at most.  Bytes behind the last whole
block belong to blocks that no write can name. -/
structure AlteredIn (image altered : Image) (blocks : Set Nat) : Prop where
  size_eq : altered.size = image.size
  inside : ∀ k, image.DiffersAt altered k → k / blockSize ∈ blocks

variable {a b c image altered : Image} {blocks : Set Nat}

theorem alteredIn_refl (image : Image) (blocks : Set Nat) : image.AlteredIn image blocks :=
  ⟨rfl, fun _ differs => absurd rfl differs⟩

theorem AlteredIn.mono (h : image.AlteredIn altered blocks) {more : Set Nat}
    (sub : blocks ⊆ more) : image.AlteredIn altered more :=
  ⟨h.size_eq, fun k differs => sub (h.inside k differs)⟩

theorem AlteredIn.trans (h : a.AlteredIn b blocks) (h' : b.AlteredIn c blocks) :
    a.AlteredIn c blocks := by
  refine ⟨h'.size_eq.trans h.size_eq, fun k differs => ?_⟩
  by_cases first : a.DiffersAt b k
  · exact h.inside k first
  · refine h'.inside k fun same => differs ?_
    exact same.trans (Classical.not_not.1 first)

theorem AlteredIn.blockCount_eq (h : image.AlteredIn altered blocks) :
    altered.blockCount = image.blockCount := by
  unfold blockCount
  rw [h.size_eq]

/-- Any other block is read as before. -/
theorem AlteredIn.block?_eq (h : image.AlteredIn altered blocks) {n : Nat} (out : n ∉ blocks) :
    altered.block? n = image.block? n := by
  refine block?_of_not_differsAt h.size_eq fun k differs same => out ?_
  rw [← same]
  exact h.inside k differs

/-- Bytes behind the last whole block stay, where only whole blocks are altered. -/
theorem AlteredIn.trailing (h : image.AlteredIn altered (Set.Iio image.blockCount)) {k : Nat}
    (behind : blockSize * image.blockCount ≤ k) : altered.bytes[k]! = image.bytes[k]! := by
  by_contra differs
  have lt : k / blockSize < image.blockCount := h.inside k differs
  unfold blockSize at behind lt
  omega

theorem alteredIn_store {buffer : Buffer} (inside : buffer.number < image.blockCount) :
    image.AlteredIn (image.store buffer) {buffer.number} := by
  have whole := le_size_iff.2 inside
  have hsize := size_store image buffer whole
  refine ⟨hsize, fun k differs => ?_⟩
  show k / blockSize = buffer.number
  by_contra other
  apply differs
  by_cases inner : k < image.size
  · rw [getElem!_store image buffer whole inner, if_neg]
    unfold blockSize at other ⊢
    omega
  · unfold size at hsize inner
    rw [getElem!_neg _ k (by omega), getElem!_neg _ k (by omega)]

/-- **Writes alter what they name.** -/
theorem alteredIn_storeAll {writes : List Buffer} (fits : image.Fits writes)
    (inside : ∀ buffer ∈ writes, buffer.number ∈ blocks) :
    image.AlteredIn (image.storeAll writes) blocks := by
  induction writes generalizing image with
  | nil => exact alteredIn_refl image blocks
  | cons buffer rest ih =>
    obtain ⟨first, others⟩ := fits_cons.1 fits
    have here := alteredIn_store first
    rw [storeAll_cons]
    refine (here.mono ?_).trans (ih (others.of_blockCount here.blockCount_eq)
      fun b hb => inside b (List.mem_cons_of_mem _ hb))
    rw [Set.singleton_subset_iff]
    exact inside buffer List.mem_cons_self

end Image

/-! ## Work -/

namespace Work

variable {σ τ ε δ α β : Type} {x : Work σ ε α} {blocks : Set Nat}

/-- Whatever becomes of the work, it stores blocks of a set only. -/
def WritesIn (blocks : Set Nat) (x : Work σ ε α) : Prop :=
  ∀ s, ∀ buffer ∈ (x s).writes, buffer.number ∈ blocks

theorem writesIn_of_quiet (quiet : ∀ s, (x s).writes = []) : WritesIn blocks x := by
  intro s buffer hb
  rw [quiet] at hb
  cases hb

/-- Work that stores nothing. -/
theorem WritesIn.writes_eq_nil (h : WritesIn ∅ x) (s : σ) : (x s).writes = [] :=
  List.eq_nil_iff_forall_not_mem.2 (h s)

theorem WritesIn.bind (h : WritesIn blocks x) {f : α → Work σ ε β}
    (h' : ∀ a, WritesIn blocks (f a)) : WritesIn blocks (x >>= f) := by
  intro s buffer hb
  have first := h s
  rcases hx : x s with ⟨e | a, t, writes, notices⟩
  · rw [hx] at first
    rw [bind_apply_error hx] at hb
    exact first buffer hb
  · rw [hx] at first
    rw [bind_apply_ok hx] at hb
    rcases List.mem_append.1 hb with hb | hb
    · exact first buffer hb
    · exact h' a t buffer hb

/-- A step without writes before other work. -/
theorem writesIn_then (quiet : ∀ s, (x s).writes = []) {f : α → Work σ ε β}
    (h : ∀ a, WritesIn blocks (f a)) : WritesIn blocks (x >>= f) :=
  (writesIn_of_quiet quiet).bind h

/-- What follows knows the value that was looked at. -/
theorem writesIn_ofExcept_bind {e : Except ε α} {f : α → Work σ ε β}
    (h : ∀ a, e = .ok a → WritesIn blocks (f a)) :
    WritesIn blocks ((ofExcept e : Work σ ε α) >>= f) := by
  cases e with
  | error e => exact writesIn_of_quiet fun _ => rfl
  | ok a => exact h a rfl

theorem WritesIn.onPart {x : Work τ δ α} (h : WritesIn blocks x) (get : σ → τ) (set : σ → τ → σ)
    (wrap : δ → ε) : WritesIn blocks (Work.onPart get set wrap x) :=
  fun s => h (get s)

end Work

end DurableGraph
