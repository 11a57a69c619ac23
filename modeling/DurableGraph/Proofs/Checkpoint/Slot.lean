import DurableGraph.Proofs.Checkpoint.Restoring
import DurableGraph.Proofs.Disk.Steps

/-!
# What the steps of a checkpoint write

A slot keeps the superblock of its region in memory.  `OnDisk` says that it is the one in the
image; then loading the image changes nothing, and restoring is decided by the region alone.

    commit v g     uncommitted superblock, packed words of g, committed superblock
    commit v g, then restore v into the empty graph           gives g  (gives_restore_commit)
-/

namespace DurableGraph

/-- A superblock on a block of its own. -/
def CheckpointSuperblock.buffer (s : CheckpointSuperblock) (n : Nat) : Buffer := ⟨n, s.encode .zero⟩

/-- The superblock before the body of a graph. -/
def CheckpointSuperblock.opening (generation : UInt64) (g : Graph) : CheckpointSuperblock :=
  ⟨false, generation, g.nodeCount.toUInt64⟩

/-- The superblock behind it. -/
def CheckpointSuperblock.closing (generation : UInt64) (g : Graph) : CheckpointSuperblock :=
  ⟨true, generation, g.nodeCount.toUInt64⟩

namespace CheckpointSlot

/-- A slot stands in a region of a device that the image fills. -/
structure Placed (slot : CheckpointSlot) (image : Image) : Prop where
  device_eq : slot.device.blockCount = image.blockCount
  wide : slot.region.start + 2 ≤ slot.region.stop
  inside : slot.region.stop ≤ image.blockCount
  small : slot.region.stop * wordsPerBlock < UInt64.size

/-- The superblock in memory is the one on the image. -/
def OnDisk (slot : CheckpointSlot) (image : Image) : Prop :=
  ∃ content, image.block? slot.region.start = some content ∧
    CheckpointSuperblock.decode content = slot.superblock

/-- Restoring the checkpoint of a generation into the empty graph gives a graph. -/
def Restores (slot : CheckpointSlot) (image : Image) (generation : UInt64) (g : Graph) : Prop :=
  ∃ count, (slot.restore image generation).Gives ∅ (.ok count) g []

/-- The slot with another superblock. -/
def withSuperblock (slot : CheckpointSlot) (superblock : CheckpointSuperblock) : CheckpointSlot :=
  { slot with superblock }

/-- All that is written for a checkpoint. -/
def commitWrites (slot : CheckpointSlot) (generation : UInt64) (g : Graph) : List Buffer :=
  (CheckpointSuperblock.opening generation g).buffer slot.region.start ::
    (packed slot.body.start g.words ++
      [(CheckpointSuperblock.closing generation g).buffer slot.region.start])

/-! ## Lemmas -/

variable {slot : CheckpointSlot} {image : Image}

/-- Neither what a slot holds in memory nor what its blocks hold matters. -/
theorem Placed.congr {slot other : CheckpointSlot} {a b : Image} (h : slot.Placed a)
    (device : other.device = slot.device) (region : other.region = slot.region)
    (count : b.blockCount = a.blockCount) : other.Placed b where
  device_eq := by rw [device, count]; exact h.device_eq
  wide := by rw [region]; exact h.wide
  inside := by rw [region, count]; exact h.inside
  small := by rw [region]; exact h.small

theorem ofRegion_eq_ok_iff {device : Device} {region : Region} :
    ofRegion device region = .ok slot ↔
      (region.stop ≤ device.blockCount ∧ region.start + 2 ≤ region.stop) ∧
        slot = ⟨device, region, .none⟩ := by
  unfold ofRegion
  split
  · next h =>
    constructor
    · intro h'
      cases h'
    · rintro ⟨h', -⟩
      omega
  · next h =>
    rw [Except.ok.injEq, eq_comm]
    constructor
    · intro h'
      exact ⟨by omega, h'⟩
    · exact And.right

theorem Placed.start_lt (placed : slot.Placed image) :
    slot.region.start < slot.device.blockCount := by
  have := placed.wide
  have := placed.inside
  rw [placed.device_eq]
  omega

/-- A superblock can be stored in its place. -/
theorem Placed.stop_le (placed : slot.Placed image) :
    slot.region.stop ≤ slot.device.blockCount := by
  rw [placed.device_eq]
  exact placed.inside

theorem Placed.fits_superblock (placed : slot.Placed image) (s : CheckpointSuperblock) :
    image.Fits [s.buffer slot.region.start] := by
  refine Image.fits_cons.2 ⟨?_, Image.fits_nil image⟩
  rw [← placed.device_eq]
  exact placed.start_lt

/-- Blocks beside the region do not matter. -/
theorem OnDisk.congr {after : Image} (h : slot.OnDisk image)
    (wide : slot.region.start < slot.region.stop)
    (same : Image.SameOn slot.region after image) : slot.OnDisk after := by
  obtain ⟨content, held, decoded⟩ := h
  exact ⟨content, (same _ (Nat.le_refl _) wide).trans held, decoded⟩

theorem Placed.exists_block (placed : slot.Placed image) :
    ∃ content, image.block? slot.region.start = some content :=
  Image.exists_block (by rw [← placed.device_eq]; exact placed.start_lt)

/-- A reader of the body stands in front of all of its words. -/
theorem Placed.faces_body (placed : slot.Placed image) :
    (WordReader.ofRegion slot.device slot.body).Faces image slot.region.stop
      (image.words slot.body) :=
  WordReader.faces_ofRegion (Nat.le_of_succ_le placed.wide)
    (by rw [placed.device_eq]; exact placed.inside) placed.inside

/-! ## Loading -/

/-- Loading takes up the superblock of the image. -/
theorem gives_load (placed : slot.Placed image) {content : Block}
    (held : image.block? slot.region.start = some content) :
    (load image).Gives slot (.ok ()) (slot.withSuperblock (.decode content)) [] := by
  unfold load
  refine (Work.gives_current slot).then ?_
  refine (Work.gives_ask (Device.get_eq_ok placed.start_lt held) slot).then ?_
  exact (Work.gives_replace slot _).then (Work.gives_note _ _)

/-- So the slot is given again where the image has its superblock. -/
theorem OnDisk.load (disk : slot.OnDisk image) (placed : slot.Placed image)
    {start : CheckpointSlot} (device : start.device = slot.device)
    (region : start.region = slot.region) :
    (CheckpointSlot.load image).Gives start (.ok ()) slot [] := by
  obtain ⟨content, held, decoded⟩ := disk
  have hload := gives_load (placed.congr device region rfl) (by rw [region]; exact held)
  have hslot : start.withSuperblock (.decode content) = slot := by
    rw [decoded]
    unfold withSuperblock
    rw [device, region]
  rw [hslot] at hload
  exact hload

/-! ## Restoring -/

/-- A slot that has no checkpoint of the generation leaves any graph alone. -/
theorem gives_restore_absent {generation : UInt64} (absent : slot.has generation = false)
    (g : Graph) : (slot.restore image generation).Gives g (.ok 0) g [] := by
  unfold restore
  simp only [absent, Bool.false_eq_true, if_false]
  split
  · exact (Work.gives_note _ _).then (Work.gives_pure _ _)
  · exact (Work.gives_note _ _).then (Work.gives_pure _ _)

theorem restores_empty {generation : UInt64} (absent : slot.has generation = false) :
    slot.Restores image generation ∅ := ⟨0, gives_restore_absent absent ∅⟩

theorem Restores.eq_empty {generation : UInt64} {g : Graph} (h : slot.Restores image generation g)
    (absent : slot.has generation = false) : g = ∅ := by
  obtain ⟨count, gives⟩ := h
  obtain ⟨count', empty⟩ := restores_empty absent
  exact (gives.unique empty).2.1

/-- Of a checkpoint that is there, what was read is kept, also where the reading fails. -/
theorem gives_restore_of_has {generation : UInt64} (present : slot.has generation = true)
    {result : Except CheckpointError WordReader} {g h : Graph}
    (records : restoreRecords image slot.superblock.nodeCount.toNat
      (WordReader.ofRegion slot.device slot.body) g = (result, h)) :
    (slot.restore image generation).Gives g (result.map fun _ => slot.superblock.nodeCount) h
      [] := by
  unfold restore
  simp only [present, if_true]
  refine (Work.gives_current _).then ?_
  simp only [records]
  refine (Work.gives_replace _ h).then ?_
  cases result with
  | ok t => exact (Work.gives_ofExcept rfl h).then (Work.gives_pure _ h)
  | error e => exact (Work.gives_ofExcept rfl h).bind_error _

/-- Restoring looks at the blocks behind the superblock only. -/
theorem restore_congr {a b : Image} (same : Image.SameOn slot.body a b) (generation : UInt64) :
    slot.restore a generation = slot.restore b generation := by
  unfold restore
  split
  · congr 1
    funext g
    rw [restoreRecords_congr same _ (WordReader.within_ofRegion slot.device slot.body)]
  · rfl

theorem Restores.congr {a b : Image} {generation : UInt64} {g : Graph}
    (h : slot.Restores a generation g) (same : Image.SameOn slot.body b a) :
    slot.Restores b generation g := by
  unfold Restores
  rw [restore_congr same]
  exact h

/-- Restoring writes nothing: it reads all records of the checkpoint, or there is none. -/
theorem gives_restore_inv {generation count : UInt64} {g : Graph} {w : List Buffer}
    (h : (slot.restore image generation).Gives ∅ (.ok count) g w) :
    w = [] ∧ if slot.has generation = true then
      ∃ t, restoreRecords image slot.superblock.nodeCount.toNat
        (WordReader.ofRegion slot.device slot.body) ∅ = (.ok t, g)
      else g = ∅ := by
  split
  · next present =>
    unfold restore at h
    simp only [present, if_true] at h
    have h₁ := h.of_current
    cases hr : restoreRecords image slot.superblock.nodeCount.toNat
        (WordReader.ofRegion slot.device slot.body) ∅ with
    | mk result k =>
      rw [hr] at h₁
      obtain ⟨t, rfl, h₂⟩ := h₁.of_replace.of_ofExcept
      obtain ⟨-, rfl, rfl⟩ := h₂.unique (Work.gives_pure _ _)
      exact ⟨rfl, t, rfl⟩
  · next absent =>
    obtain ⟨-, rfl, rfl⟩ := h.unique (gives_restore_absent (Bool.eq_false_iff.2 absent) ∅)
    exact ⟨rfl, rfl⟩

/-- Whatever the image holds, what is restored is simple. -/
theorem Restores.simple {generation : UInt64} {g : Graph} (h : slot.Restores image generation g) :
    g.Simple := by
  obtain ⟨count, hgives⟩ := h
  have restored := (gives_restore_inv hgives).2
  split at restored
  · obtain ⟨t, records⟩ := restored
    have simple := Graph.simple_empty.restoreRecords image slot.superblock.nodeCount.toNat
      (WordReader.ofRegion slot.device slot.body)
    rw [records] at simple
    exact simple
  · rw [restored]
    exact Graph.simple_empty

/-! ## Writing -/

theorem gives_storeSuperblock (placed : slot.Placed image) (s : CheckpointSuperblock) :
    (storeSuperblock s).Gives slot (.ok ()) (slot.withSuperblock s) [s.buffer slot.region.start] := by
  unfold storeSuperblock
  refine (Work.gives_current slot).then ?_
  refine (Work.gives_ask (Device.blank_eq_ok placed.start_lt) slot).then ?_
  exact (Work.gives_store placed.start_lt slot).bind (Work.gives_replace slot _)

/-- Buffers of the device are stored one after the other. -/
theorem gives_storeBuffers {device : Device} {buffers : List Buffer}
    (inside : ∀ buffer ∈ buffers, buffer.number < device.blockCount)
    {wrap : DeviceError → CheckpointError} :
    (buffers.forM (Work.store wrap device) : Work CheckpointSlot CheckpointError Unit).Gives slot
      (.ok ()) slot buffers := by
  induction buffers with
  | nil => exact Work.gives_pure () slot
  | cons buffer rest ih =>
    show (Work.store wrap device buffer >>= fun _ => rest.forM _).Gives slot _ _ _
    exact (Work.gives_store (inside buffer List.mem_cons_self) slot).bind
      (ih fun b hb => inside b (List.mem_cons_of_mem _ hb))

/-- The words of the graph are packed into blocks of the body. -/
theorem number_of_mem_body {g : Graph} (room : g.words.length ≤ slot.bodyWords) {buffer : Buffer}
    (h : buffer ∈ packed slot.body.start g.words) :
    slot.region.start < buffer.number ∧ buffer.number < slot.region.stop := by
  obtain ⟨hstart, hlt⟩ := number_of_mem_packed h
  have hroom : g.words.length ≤ (slot.region.stop - (slot.region.start + 1)) * wordsPerBlock := room
  have hstart' : slot.region.start + 1 ≤ buffer.number := hstart
  have hlt' : (buffer.number - (slot.region.start + 1)) * wordsPerBlock < g.words.length := hlt
  unfold wordsPerBlock at hroom hlt'
  omega

/-- A checkpoint is written in its region only. -/
theorem number_of_mem_commitWrites {generation : UInt64} {g : Graph} (placed : slot.Placed image)
    (room : g.words.length ≤ slot.bodyWords) {buffer : Buffer}
    (h : buffer ∈ slot.commitWrites generation g) :
    slot.region.start ≤ buffer.number ∧ buffer.number < slot.region.stop := by
  have hwide := placed.wide
  rcases List.mem_cons.1 h with rfl | h
  · show slot.region.start ≤ slot.region.start ∧ slot.region.start < slot.region.stop
    omega
  · rcases List.mem_append.1 h with h | h
    · have := number_of_mem_body room h
      omega
    · rw [List.mem_singleton.1 h]
      show slot.region.start ≤ slot.region.start ∧ slot.region.start < slot.region.stop
      omega

/-- A writer of the body takes all words of a graph that fits. -/
theorem exists_pushAll (placed : slot.Placed image) {g : Graph}
    (room : g.words.length ≤ slot.bodyWords) :
    ∃ writer, (WordWriter.ofRegion slot.device slot.body).pushAll g.words = .ok writer ∧
      writer.finish = packed slot.body.start g.words := by
  have inside : (WordWriter.ofRegion slot.device slot.body).stop ≤ slot.device.blockCount := by
    rw [placed.device_eq]
    exact placed.inside
  obtain ⟨writer, hpush, hfinish⟩ := WordWriter.pushAll_eq_ok inside (Nat.zero_lt_succ 511)
    (show 0 + g.words.length ≤ _ by rw [Nat.zero_add]; exact room)
  exact ⟨writer, hpush, hfinish⟩

theorem gives_commit (placed : slot.Placed image) (generation : UInt64) {g : Graph}
    (room : g.words.length ≤ slot.bodyWords) :
    (commit generation g).Gives slot (.ok ()) (slot.withSuperblock (.closing generation g))
      (slot.commitWrites generation g) := by
  have hinside := placed.inside
  have hdevice := placed.device_eq
  have placed' : (slot.withSuperblock (.opening generation g)).Placed image :=
    placed.congr rfl rfl rfl
  obtain ⟨writer, hpush, hbody⟩ := exists_pushAll placed room
  unfold commit
  refine (Work.gives_current slot).then ?_
  simp only
  rw [if_neg (by omega)]
  refine (gives_storeSuperblock placed _).bind ?_
  refine (Work.gives_ofExcept hpush _).then ?_
  rw [hbody]
  refine (gives_storeBuffers fun buffer hb => ?_).bind ?_
  · have := number_of_mem_body room hb
    omega
  · exact (gives_storeSuperblock placed' (.closing generation g)).bind (Work.gives_note _ _)

/-- A graph that does not fit is refused before anything is written. -/
theorem gives_commit_noSpace (generation : UInt64) {g : Graph}
    (full : slot.bodyWords < g.words.length) :
    (commit generation g).Gives slot (.error (.noSpace slot.region.stop)) slot [] := by
  unfold commit
  refine (Work.gives_current slot).then ?_
  simp only
  rw [if_pos full]
  exact Work.gives_fail _ _

/-! ## What the slot holds afterwards -/

/-- The block that was stored last is read back. -/
theorem onDisk_storeSuperblock {writes : List Buffer} {s : CheckpointSuperblock}
    (fits : image.Fits (writes ++ [s.buffer slot.region.start])) :
    (slot.withSuperblock s).OnDisk (image.storeAll (writes ++ [s.buffer slot.region.start])) := by
  refine ⟨s.encode .zero, ?_, CheckpointSuperblock.decode_encode s .zero⟩
  rw [Image.block?_storeAll_concat fits]
  exact if_pos rfl

theorem fits_commitWrites (placed : slot.Placed image) (generation : UInt64) {g : Graph}
    (room : g.words.length ≤ slot.bodyWords) : image.Fits (slot.commitWrites generation g) := by
  intro buffer hb
  have := (number_of_mem_commitWrites placed room hb).2
  have := placed.inside
  omega

theorem onDisk_commit (placed : slot.Placed image) (generation : UInt64) {g : Graph}
    (room : g.words.length ≤ slot.bodyWords) :
    (slot.withSuperblock (.closing generation g)).OnDisk
      (image.storeAll (slot.commitWrites generation g)) := by
  have fits := fits_commitWrites placed generation room
  unfold commitWrites at fits ⊢
  rw [← List.cons_append] at fits ⊢
  exact onDisk_storeSuperblock fits

/-- A checkpoint that was begun and not finished is not committed, whatever was. -/
theorem onDisk_commit_part (placed : slot.Placed image) (generation : UInt64) {g : Graph}
    (room : g.words.length ≤ slot.bodyWords) {k : Nat} (begun : 0 < k)
    (part : k < (slot.commitWrites generation g).length) :
    (slot.withSuperblock (.opening generation g)).OnDisk
      (image.storeAll ((slot.commitWrites generation g).take k)) := by
  obtain ⟨j, rfl⟩ := Nat.exists_eq_succ_of_ne_zero (Nat.ne_of_gt begun)
  have cut : j ≤ (packed slot.body.start g.words).length := by
    unfold commitWrites at part
    simp only [List.length_cons, List.length_append, List.length_nil] at part
    omega
  have htake : (slot.commitWrites generation g).take (j + 1) =
      (CheckpointSuperblock.opening generation g).buffer slot.region.start ::
        (packed slot.body.start g.words).take j := by
    unfold commitWrites
    rw [List.take_succ_cons, List.take_append_of_le_length cut]
  have fitsCut := (fits_commitWrites placed generation room).take (j + 1)
  rw [htake] at fitsCut ⊢
  obtain ⟨fitsFirst, fitsBody⟩ := Image.fits_cons.1 fitsCut
  refine ⟨_, ?_, CheckpointSuperblock.decode_encode _ .zero⟩
  rw [Image.storeAll_cons, Image.block?_storeAll_of_ne
    (fitsBody.of_blockCount (Image.blockCount_store image _ fitsFirst))]
  · exact Image.block?_store_self fitsFirst
  · intro buffer hb
    have := number_of_mem_body room (List.mem_of_mem_take hb)
    show buffer.number ≠ slot.region.start
    omega

/-- A checkpoint that was begun leaves its generation in the superblock, committed or not. -/
theorem onDisk_commit_cut (placed : slot.Placed image) (generation : UInt64) {g : Graph}
    (room : g.words.length ≤ slot.bodyWords) {k : Nat} (begun : 0 < k) :
    ∃ committed, (slot.withSuperblock ⟨committed, generation, g.nodeCount.toUInt64⟩).OnDisk
      (image.storeAll ((slot.commitWrites generation g).take k)) := by
  by_cases part : k < (slot.commitWrites generation g).length
  · exact ⟨false, onDisk_commit_part placed generation room begun part⟩
  · rw [List.take_of_length_le (Nat.le_of_not_lt part)]
    exact ⟨true, onDisk_commit placed generation room⟩

theorem has_closing (generation other : UInt64) (g : Graph) :
    (slot.withSuperblock (.closing generation g)).has other = true ↔ generation = other := by
  show (true && decide (generation = other)) = true ↔ _
  rw [Bool.true_and, decide_eq_true_iff]

/-- The words of a graph that fits can be counted in one word. -/
theorem Placed.length_words_lt (placed : slot.Placed image) {g : Graph}
    (room : g.words.length ≤ slot.bodyWords) : g.words.length < UInt64.size := by
  have hroom : g.words.length ≤ (slot.region.stop - (slot.region.start + 1)) * wordsPerBlock := room
  refine Nat.lt_of_le_of_lt (Nat.le_trans hroom ?_) placed.small
  exact Nat.mul_le_mul_right _ (by omega)

theorem Placed.toNat_nodeCount (placed : slot.Placed image) {g : Graph}
    (room : g.words.length ≤ slot.bodyWords) : g.nodeCount.toUInt64.toNat = g.nodeCount := by
  have few := placed.length_words_lt room
  have := g.nodeCount_le_length_words
  show g.nodeCount % UInt64.size = g.nodeCount
  exact Nat.mod_eq_of_lt (by omega)

/-- **What a commit leaves in the body**: the words of the graph, zeros up to the end of their last
block, and the words that stood behind it. -/
theorem words_commitWrites (placed : slot.Placed image) (generation : UInt64) {g : Graph}
    (room : g.words.length ≤ slot.bodyWords) :
    (image.storeAll (slot.commitWrites generation g)).words slot.body =
      g.words ++ List.replicate (wordsPerBlock * blocksFor g.words.length - g.words.length) 0 ++
        (image.words slot.body).drop (wordsPerBlock * blocksFor g.words.length) := by
  have fits := fits_commitWrites placed generation room
  unfold commitWrites at fits ⊢
  obtain ⟨fitsFirst, fitsRest⟩ := Image.fits_cons.1 fits
  have hcount := Image.blockCount_store image _ fitsFirst
  obtain ⟨fitsBody, fitsLast⟩ := Image.fits_append.1 (fitsRest.of_blockCount hcount)
  -- neither superblock stands in the body
  have before : Image.SameOn slot.body (image.store
      ((CheckpointSuperblock.opening generation g).buffer slot.region.start)) image := by
    intro n hn _
    rw [Image.block?_store image _ fitsFirst, if_neg]
    exact Nat.ne_of_gt hn
  have behind : Image.SameOn slot.body (((image.store
      ((CheckpointSuperblock.opening generation g).buffer slot.region.start)).storeAll
        (packed slot.body.start g.words)).storeAll
          [(CheckpointSuperblock.closing generation g).buffer slot.region.start]) _ :=
    Image.sameOn_storeAll (fitsLast.of_blockCount (Image.blockCount_storeAll fitsBody)) (by
      intro buffer hb
      rw [List.mem_singleton.1 hb]
      exact .inl (Nat.lt_succ_self _))
  rw [Image.storeAll_cons, Image.storeAll_append, Image.words_congr behind]
  refine (words_storeAll_packed (by rw [hcount]; exact placed.inside) room).trans ?_
  show _ ++ ((image.store _).words slot.body).drop _ = _
  rw [Image.words_congr before]

/-- **A checkpoint that was committed restores its graph**, and tells the number of its nodes. -/
theorem gives_restore_commit (placed : slot.Placed image) (generation : UInt64) {g : Graph}
    (simple : g.Simple) (room : g.words.length ≤ slot.bodyWords) :
    ((slot.withSuperblock (.closing generation g)).restore
      (image.storeAll (slot.commitWrites generation g)) generation).Gives ∅
        (.ok g.nodeCount.toUInt64) g [] := by
  have hcount := Image.blockCount_storeAll (fits_commitWrites placed generation room)
  have placed' : slot.Placed (image.storeAll (slot.commitWrites generation g)) :=
    placed.congr rfl rfl hcount
  have faces := placed'.faces_body
  rw [words_commitWrites placed generation room, List.append_assoc] at faces
  obtain ⟨t, hrecords⟩ := restoreRecords_words faces simple (placed.length_words_lt room)
  rw [← placed.toNat_nodeCount room] at hrecords
  have present : (slot.withSuperblock (.closing generation g)).has generation = true :=
    (has_closing generation generation g).2 rfl
  have hgives := gives_restore_of_has present hrecords
  exact hgives

theorem restores_commit (placed : slot.Placed image) (generation : UInt64) {g : Graph}
    (simple : g.Simple) (room : g.words.length ≤ slot.bodyWords) :
    (slot.withSuperblock (.closing generation g)).Restores
      (image.storeAll (slot.commitWrites generation g)) generation g :=
  ⟨_, gives_restore_commit placed generation simple room⟩

end CheckpointSlot

end DurableGraph
