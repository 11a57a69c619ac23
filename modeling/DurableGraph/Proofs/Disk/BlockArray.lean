import DurableGraph.Proofs.Actions
import DurableGraph.Proofs.Disk.Footprint

/-!
# A device is an array of blocks

Buffers are obtained from a device, edited and written back, in any order, and held meanwhile.
Whatever is done, a block reads as it was written last, or as the file held it when it was opened.

    get n      the block as written last        n < size / 4096
    blank n    zeros, whatever the block holds
    write      alters the block of the buffer, and no other byte of the file
    any n      from size / 4096 on is refused, and nothing changes
-/

namespace DurableGraph

/-- A call on a device.  Buffers go by their place among those that were obtained, the latest at
zero, and stay there after they were written. -/
inductive DeviceCall where
  | get (n : Nat)
  | blank (n : Nat)
  | edit (i : Nat) (content : Block)
  | write (i : Nat)

/-- A device with the image that stands for its file, and the buffers that its user holds.  No
call looks at the record of what was written, the latest first. -/
structure DeviceSession where
  device : Device
  image : Image
  held : List Buffer
  written : List Buffer

namespace DeviceSession

/-! ## Calls -/

def ofImage (path : String) (image : Image) : DeviceSession :=
  ⟨Device.ofImage path image, image, [], []⟩

/-- Holds the buffer that was asked for. -/
def hold (s : DeviceSession) : Except DeviceError Buffer → Except DeviceError Unit × DeviceSession
  | .ok buffer => (.ok (), { s with held := buffer :: s.held })
  | .error e => (.error e, s)

/-- Goes on with a buffer that is held; without one nothing happens. -/
def withHeld (s : DeviceSession) (i : Nat)
    (f : Buffer → Except DeviceError Unit × DeviceSession) :
    Except DeviceError Unit × DeviceSession :=
  match s.held[i]? with
  | some buffer => f buffer
  | none => (.ok (), s)

/-- Editing changes what a buffer holds, never the block that it is for. -/
def perform (s : DeviceSession) : DeviceCall → Except DeviceError Unit × DeviceSession
  | .get n => s.hold (s.device.get s.image n)
  | .blank n => s.hold (s.device.blank n)
  | .edit i content => s.withHeld i fun buffer =>
    (.ok (), { s with held := s.held.set i { buffer with content } })
  | .write i => s.withHeld i fun buffer =>
    let step := (Work.store id s.device buffer : Work Unit DeviceError Unit) ()
    (step.result, { s with
      image := s.image.storeAll step.writes
      written := step.writes ++ s.written })

def run (s : DeviceSession) (calls : List DeviceCall) :
    List (Except DeviceError Unit) × DeviceSession := performAll perform s calls

/-- The bytes that were written last to a block, or those that an image holds there. -/
def latest (s : DeviceSession) (image : Image) (n : Nat) : ByteArray :=
  match s.written.find? fun buffer => buffer.number = n with
  | some buffer => buffer.content.bytes
  | none => image.bytes.extract (blockSize * n) (blockSize * n + blockSize)

/-- The session with a buffer in its block; all that are held stay as they are. -/
def stored (s : DeviceSession) (buffer : Buffer) : DeviceSession :=
  { s with image := s.image.store buffer, written := buffer :: s.written }

/-- An array of blocks over the bytes of an image, as it was opened. -/
structure IsArray (s : DeviceSession) (image : Image) : Prop where
  size : s.image.size = image.size
  trailing : ∀ k, blockSize * (image.size / blockSize) ≤ k →
    s.image.bytes[k]! = image.bytes[k]!
  get : ∀ n < image.size / blockSize, ∃ content,
    s.device.get s.image n = .ok ⟨n, content⟩ ∧ content.bytes = s.latest image n
  blank : ∀ n < image.size / blockSize, s.device.blank n = .ok ⟨n, .zero⟩
  write : ∀ i buffer, s.held[i]? = some buffer →
    s.perform (.write i) = (.ok (), s.stored buffer) ∧
    s.image.AlteredIn (s.stored buffer).image {buffer.number} ∧
    (s.stored buffer).image.block? buffer.number = some buffer.content
  beyond : ∀ n, image.size / blockSize ≤ n →
    s.perform (.get n) = (.error (.noSpace n (image.size / blockSize)), s) ∧
    s.perform (.blank n) = (.error (.noSpace n (image.size / blockSize)), s)

end DeviceSession

/-! ## Reading what was written -/

/-- The last write to a block decides what it holds. -/
theorem Image.block?_storeAll_reverse {image : Image} {writes : List Buffer}
    (fits : image.Fits writes) (n : Nat) :
    (image.storeAll writes.reverse).block? n =
      ((writes.find? fun buffer => buffer.number = n).map Buffer.content).or (image.block? n) := by
  induction writes with
  | nil => rfl
  | cons buffer rest ih =>
    obtain ⟨first, others⟩ := fits_cons.1 fits
    have fits' : image.Fits (rest.reverse ++ [buffer]) := by
      intro b hb
      rcases List.mem_append.1 hb with hb | hb
      · exact others b (List.mem_reverse.1 hb)
      · rw [List.mem_singleton.1 hb]
        exact first
    rw [List.reverse_cons, block?_storeAll_concat fits', ih others]
    by_cases here : buffer.number = n
    · simp [here]
    · simp [here, Ne.symm here]

theorem Image.block?_eq_extract {image : Image} {n : Nat} (inside : n < image.blockCount) :
    ∃ content, image.block? n = some content ∧
      content.bytes = image.bytes.extract (blockSize * n) (blockSize * n + blockSize) := by
  unfold block?
  rw [dif_pos (le_size_iff.2 inside)]
  exact ⟨_, rfl, rfl⟩

/-- A block beyond the device is refused before anything is read. -/
theorem Device.check_eq_error {device : Device} {n : Nat} (beyond : device.blockCount ≤ n) :
    device.check n = .error (.noSpace n device.blockCount) := if_neg (Nat.not_lt.2 beyond)

namespace DeviceSession

variable {s : DeviceSession} {image : Image}

/-! ## The invariant -/

/-- A session over an image that was opened: its image is that one with all that was written, and
every buffer, held or written, is for one of its blocks. -/
structure Over (s : DeviceSession) (image : Image) : Prop where
  count : s.device.blockCount = image.blockCount
  held : image.Fits s.held
  written : image.Fits s.written
  image_eq : s.image = image.storeAll s.written.reverse

theorem over_ofImage (path : String) (image : Image) : (ofImage path image).Over image where
  count := rfl
  held := Image.fits_nil image
  written := Image.fits_nil image
  image_eq := rfl

theorem Over.fits (h : s.Over image) : image.Fits s.written.reverse :=
  fun buffer hb => h.written buffer (List.mem_reverse.1 hb)

theorem Over.alteredIn (h : s.Over image) :
    image.AlteredIn s.image (Set.Iio image.blockCount) := by
  rw [h.image_eq]
  exact Image.alteredIn_storeAll h.fits h.fits

theorem Over.hold (h : s.Over image) {answer : Except DeviceError Buffer}
    (inside : ∀ buffer, answer = .ok buffer → buffer.number < s.device.blockCount) :
    (s.hold answer).2.Over image := by
  cases answer with
  | error e => exact h
  | ok buffer =>
    have here := inside buffer rfl
    rw [h.count] at here
    exact { h with held := Image.fits_cons.2 ⟨here, h.held⟩ }

theorem Over.withHeld (h : s.Over image) {i : Nat}
    {f : Buffer → Except DeviceError Unit × DeviceSession}
    (go : ∀ buffer, buffer.number < image.blockCount → (f buffer).2.Over image) :
    (s.withHeld i f).2.Over image := by
  unfold DeviceSession.withHeld
  split
  · next buffer held => exact go buffer (h.held buffer (List.mem_of_getElem? held))
  · exact h

/-- What a write does with a buffer for a block of the image. -/
theorem Over.store_apply (h : s.Over image) {buffer : Buffer}
    (inside : buffer.number < image.blockCount) :
    (Work.store id s.device buffer : Work Unit DeviceError Unit) () = ⟨.ok (), (), [buffer], []⟩ :=
  Work.store_apply () (by rwa [h.count])

theorem Over.stored (h : s.Over image) {buffer : Buffer}
    (inside : buffer.number < image.blockCount) : (s.stored buffer).Over image where
  count := h.count
  held := h.held
  written := Image.fits_cons.2 ⟨inside, h.written⟩
  image_eq := by
    show s.image.store buffer = image.storeAll (buffer :: s.written).reverse
    rw [List.reverse_cons, Image.storeAll_append, ← h.image_eq]
    rfl

/-- **Every call** keeps the session over the image that was opened. -/
theorem Over.perform (h : s.Over image) (call : DeviceCall) : (s.perform call).2.Over image := by
  cases call with
  | get n =>
    refine h.hold fun buffer ok => ?_
    obtain ⟨inside, rfl, -⟩ := Device.get_eq_ok_iff.1 ok
    exact inside
  | blank n =>
    refine h.hold fun buffer ok => ?_
    by_cases inside : n < s.device.blockCount
    · rw [Device.blank_eq_ok inside] at ok
      cases ok
      exact inside
    · unfold Device.blank at ok
      rw [Device.check_eq_error (Nat.not_lt.1 inside)] at ok
      cases ok
  | edit i content =>
    refine h.withHeld fun buffer inside => { h with held := fun b hb => ?_ }
    obtain old | rfl := List.mem_or_eq_of_mem_set hb
    · exact h.held b old
    · exact inside
  | write i =>
    refine h.withHeld fun buffer inside => ?_
    rw [h.store_apply inside]
    exact h.stored inside

theorem Over.run (h : s.Over image) (calls : List DeviceCall) : (s.run calls).2.Over image :=
  performAll_keeps (Over · image) (fun _ call h => h.perform call) h calls

/-! ## What is read -/

theorem Over.get (h : s.Over image) {n : Nat} (inside : n < image.blockCount) :
    ∃ content, s.device.get s.image n = .ok ⟨n, content⟩ ∧ content.bytes = s.latest image n := by
  have found := Image.block?_storeAll_reverse h.written n
  rw [← h.image_eq] at found
  have lies : n < s.device.blockCount := by rwa [h.count]
  unfold latest
  cases last : s.written.find? fun buffer => buffer.number = n with
  | some buffer =>
    rw [last] at found
    exact ⟨buffer.content, Device.get_eq_ok lies found, rfl⟩
  | none =>
    rw [last] at found
    obtain ⟨content, original, bytes⟩ := Image.block?_eq_extract inside
    exact ⟨content, Device.get_eq_ok lies (found.trans original), bytes⟩

theorem Over.isArray (h : s.Over image) : s.IsArray image where
  size := h.alteredIn.size_eq
  trailing _ behind := h.alteredIn.trailing behind
  get _ inside := h.get inside
  blank n inside := Device.blank_eq_ok (by rw [h.count]; exact inside)
  write i buffer held := by
    have inside := h.held buffer (List.mem_of_getElem? held)
    have inside' := inside
    rw [← h.alteredIn.blockCount_eq] at inside'
    refine ⟨?_, Image.alteredIn_store inside', Image.block?_store_self inside'⟩
    show s.withHeld i _ = _
    unfold DeviceSession.withHeld
    simp only [held]
    rw [h.store_apply inside]
    rfl
  beyond n out := by
    have refused := Device.check_eq_error (h.count.trans_le out)
    rw [h.count] at refused
    constructor
    · show s.hold (s.device.get s.image n) = _
      unfold Device.get
      rw [refused]
      rfl
    · show s.hold (s.device.blank n) = _
      unfold Device.blank
      rw [refused]
      rfl

/-! ## Top theorem -/

/-- **A device is an array of blocks** over the bytes of its file, whatever their number, and
whatever calls were made before. -/
theorem isArray_run (path : String) (image : Image) (calls : List DeviceCall) :
    ((ofImage path image).run calls).2.IsArray image :=
  ((over_ofImage path image).run calls).isArray

/-- Three blocks and a part of a fourth: a buffer that is held while another is written to the
same block covers that one, once it is written too. -/
theorem isArray_run_held :
    let image := Image.zeros 12388
    let seven := Block.zero.setWord 0 7
    let calls : List DeviceCall := [.blank 2, .blank 2, .edit 0 seven, .write 0]
    let more : List DeviceCall := calls ++ [.write 1]
    let s := ((ofImage "disk" image).run calls).2
    let t := ((ofImage "disk" image).run more).2
    s.device.get s.image 2 = .ok ⟨2, seven⟩ ∧ t.device.get t.image 2 = .ok ⟨2, .zero⟩ ∧
      t.perform (.get 3) = (.error (.noSpace 3 3), t) := by
  intro image seven calls more s t
  have count : image.size / blockSize = 3 := by
    show (Image.zeros 12388).blockCount = 3
    rw [Image.blockCount_zeros]
    rfl
  have lies : 2 < (Device.ofImage "disk" image).blockCount := by
    show 2 < image.size / blockSize
    rw [count]
    decide
  have blank := Device.blank_eq_ok lies
  have store (b : Block) : (Work.store id (Device.ofImage "disk" image) ⟨2, b⟩ :
      Work Unit DeviceError Unit) () = ⟨.ok (), (), [⟨2, b⟩], []⟩ := Work.store_apply () lies
  have array : s.IsArray image := isArray_run "disk" image calls
  have array' : t.IsArray image := isArray_run "disk" image more
  have written : s.written = [⟨2, seven⟩] := by
    simp [s, calls, run, performAll, perform, hold, withHeld, ofImage, blank, store]
  have written' : t.written = [⟨2, .zero⟩, ⟨2, seven⟩] := by
    simp [t, more, calls, run, performAll, perform, hold, withHeld, ofImage, blank, store]
  obtain ⟨content, got, bytes⟩ := array.get 2 (by rw [count]; decide)
  obtain ⟨content', got', bytes'⟩ := array'.get 2 (by rw [count]; decide)
  simp only [latest, written, List.find?_cons, decide_true] at bytes
  simp only [latest, written', List.find?_cons, decide_true] at bytes'
  obtain rfl : content = seven := Block.ext_bytes bytes
  obtain rfl : content' = .zero := Block.ext_bytes bytes'
  have refused := (array'.beyond 3 (Nat.le_of_eq count)).1
  rw [count] at refused
  exact ⟨got, got', refused⟩

end DeviceSession

end DurableGraph
