import DurableGraph.Proofs.Store.Session
import DurableGraph.Proofs.Log.Session

/-!
# A store agrees with its image

`Agrees` is the invariant of a session.  Every store that was opened agrees with its image,
requests keep it so, and a store that agrees is opened again as it is.

    s.Agrees base older last → ofImage? again s.image = some s           (Agrees.reopen)
    ofImage? settings image = some s → s.Agrees base older last          (exists_agrees_of_ofImage?)
-/

namespace DurableGraph

/-- The version of the checkpoint that the log goes on from. -/
def Store.baseVersion (store : Store) : UInt64 :=
  if store.log.generation = 0 then 0 else store.log.generation - 1

theorem Store.toNat_baseVersion (store : Store) :
    store.baseVersion.toNat = store.log.superblock.generation.toNat - 1 := by
  have hgeneration := store.log.toNat_generation
  have hzero : (0 : UInt64).toNat = 0 := rfl
  have hone : (1 : UInt64).toNat = 1 := rfl
  unfold baseVersion
  split
  · next none =>
    rw [none] at hgeneration
    omega
  · next some =>
    have pos : store.log.generation.toNat ≠ 0 := fun h => some (UInt64.toNat_inj.1 h)
    rw [UInt64.toNat_sub_of_le _ _ (by
      rw [UInt64.le_iff_toNat_le]
      omega)]
    omega

namespace Session

/-- The store and the image agree: both superblocks and the tail of the log are those on the
image, the log tells `older` and `last`, and replaying them on `base`, the graph of the
checkpoint, gives the graph in memory. -/
structure Agrees (s : Session) (base : Graph) (older : List (List Mutation))
    (last : List Mutation) : Prop where
  named : s.store.device.path.isEmpty = false
  count : s.store.device.blockCount = s.image.blockCount
  enough : 10 ≤ s.store.device.blockCount
  logDevice : s.store.log.device = s.store.device
  logRegion : s.store.log.region = ⟨0, s.store.device.blockCount / 5⟩
  slotDevice : s.store.checkpoints.device = s.store.device
  slotRegion : s.store.checkpoints.region =
    ⟨s.store.device.blockCount / 5, s.store.device.blockCount⟩
  tells : s.store.log.Tells s.image older last
  onDisk : s.store.checkpoints.OnDisk s.image
  restores : s.store.checkpoints.Restores s.image s.store.baseVersion base
  graph : s.store.graph = base.replay (older.flatten ++ last)
  running : s.store.halted = false

variable {s : Session} {base : Graph} {older : List (List Mutation)} {last : List Mutation}

theorem Agrees.placed (h : s.Agrees base older last) : s.store.checkpoints.Placed s.image where
  device_eq := by rw [h.slotDevice, h.count]
  wide := by
    have := h.enough
    rw [h.slotRegion]
    show s.store.device.blockCount / 5 + 2 ≤ s.store.device.blockCount
    omega
  inside := Nat.le_of_eq (by rw [h.slotRegion]; exact h.count)
  small := by
    have hsmall := h.tells.placed.small
    rw [h.logRegion] at hsmall
    rw [h.slotRegion]
    have hsmall' : s.store.device.blockCount / 5 < 4294967296 := hsmall
    show s.store.device.blockCount * 512 < 18446744073709551616
    omega

/-- The graph of a session that agrees is simple. -/
theorem Agrees.simple (h : s.Agrees base older last) : s.store.graph.Simple := by
  rw [h.graph]
  exact h.restores.simple.replay _

theorem Agrees.start_eq (h : s.Agrees base older last) : s.store.log.region.start = 0 := by
  rw [h.logRegion]

/-- The first block of the image holds the superblock of the log. -/
theorem Agrees.exists_superblock (h : s.Agrees base older last) :
    ∃ content, s.image.block? 0 = some content ∧
      LogSuperblock.decode ⟨0, content⟩ = .ok s.store.log.superblock := by
  rw [← h.start_eq]
  exact h.tells.superblock

theorem Agrees.decode_superblock (h : s.Agrees base older last) {content : Block}
    (held : s.image.block? 0 = some content) :
    LogSuperblock.decode ⟨0, content⟩ = .ok s.store.log.superblock := by
  obtain ⟨found, held', decoded⟩ := h.exists_superblock
  rw [held] at held'
  cases held'
  exact decoded

/-- A format would begin the generation after that of the store. -/
theorem Agrees.nextGeneration_eq (h : s.Agrees base older last) :
    Log.nextGeneration s.image 0 = s.store.log.superblock.generation.toNat + 1 := by
  obtain ⟨content, held, decoded⟩ := h.exists_superblock
  exact Log.nextGeneration_found held decoded

/-! ## Reopening -/

/-- **A store that agrees with its image is opened as it is**, and nothing is written. -/
theorem Agrees.reopen (h : s.Agrees base older last) {again : Settings}
    (same : again.device = s.store.device.path) (kept : again.format = false) :
    ofImage? again s.image = some s := by
  have hdevice : Device.ofImage again.device s.image = s.store.device := by
    unfold Device.ofImage
    rw [same, ← h.count]
  have hsmall := h.tells.placed.small
  rw [h.logRegion, h.count] at hsmall
  have henough := h.enough
  rw [h.count] at henough
  have logRegion := h.logRegion
  have slotRegion := h.slotRegion
  rw [h.count] at logRegion slotRegion
  obtain ⟨c, cursor, read⟩ := h.tells.read
  obtain ⟨count, restore⟩ := h.restores
  have load : (Log.load s.image).Gives (Store.blank again.device s.image).log (.ok ())
      s.store.log [] := h.tells.load (hdevice.trans h.logDevice.symm) logRegion.symm
  have loadSlot : (CheckpointSlot.load s.image).Gives
      (Store.blank again.device s.image).checkpoints (.ok ()) s.store.checkpoints [] :=
    h.onDisk.load h.placed (hdevice.trans h.slotDevice.symm) slotRegion.symm
  refine ofImage?_eq_some_iff.2 ⟨by rw [same]; exact h.named, henough, hsmall, [], ?_, rfl⟩
  rw [kept]
  refine Store.gives_recover_iff.2 ⟨s.store.log, s.store.checkpoints, base, c,
    older.flatten ++ last, [], [], [], count, load, loadSlot, restore, cursor, read, ?_, rfl⟩
  have hgraph := h.graph
  have hrunning := h.running
  obtain ⟨⟨device, log, checkpoints, graph, halted⟩, image⟩ := s
  simp only at hdevice hgraph hrunning
  subst hdevice hgraph hrunning
  rfl

/-! ## Opening -/

theorem placed_blank_log (path : String) {image : Image} (enough : 10 ≤ image.blockCount)
    (small : image.blockCount / 5 < UInt32.size) : (Store.blank path image).log.Placed image where
  device_eq := rfl
  wide := by
    show 0 + 2 ≤ image.blockCount / 5
    omega
  inside := Nat.div_le_self image.blockCount 5
  small := small

theorem placed_blank_checkpoints (path : String) {image : Image} (enough : 10 ≤ image.blockCount)
    (small : image.blockCount / 5 < UInt32.size) :
    (Store.blank path image).checkpoints.Placed image where
  device_eq := rfl
  wide := by
    show image.blockCount / 5 + 2 ≤ image.blockCount
    omega
  inside := Nat.le_refl _
  small := by
    have hsmall : image.blockCount / 5 < 4294967296 := small
    show image.blockCount * 512 < 18446744073709551616
    omega

variable {path : String} {image : Image} {store : Store} {w : List Buffer}

theorem agrees_of_recover (named : path.isEmpty = false) (enough : 10 ≤ image.blockCount)
    (small : image.blockCount / 5 < UInt32.size)
    (recovered : (Store.recover image).Gives (Store.blank path image) (.ok ()) store w) :
    w = [] ∧ ∃ base older last, (Session.mk store image).Agrees base older last := by
  obtain ⟨log, slot, base, c, entries, w₁, w₂, w₃, count, load, loadSlot, restore, cursor, read,
    rfl, rfl⟩ := Store.gives_recover_iff.1 recovered
  obtain ⟨hdevice, hregion, older, last, tells, rfl⟩ :=
    Log.exists_tells_of_read (placed_blank_log path enough small) load cursor read
  obtain ⟨-, -, -, -, -, -, -, -, -, rfl⟩ := Log.load_inv load
  have placed := placed_blank_checkpoints path enough small
  obtain ⟨content, held⟩ := placed.exists_block
  obtain ⟨-, rfl, rfl⟩ := (CheckpointSlot.gives_load placed held).unique loadSlot
  obtain ⟨rfl, -⟩ := CheckpointSlot.gives_restore_inv restore
  refine ⟨rfl, base, older, last, ?_⟩
  exact {
    named := named
    count := rfl
    enough := enough
    logDevice := hdevice
    logRegion := hregion
    slotDevice := rfl
    slotRegion := rfl
    tells := tells
    onDisk := ⟨content, held, rfl⟩
    restores := ⟨count, restore⟩
    graph := rfl
    running := rfl }

theorem agrees_of_format (named : path.isEmpty = false) (enough : 10 ≤ image.blockCount)
    (small : image.blockCount / 5 < UInt32.size)
    (formatted : (Store.format image).Gives (Store.blank path image) (.ok ()) store w) :
    (Session.mk store (image.storeAll w)).Agrees ∅ [] [] ∧
      store.log.superblock.generation.toNat = Log.nextGeneration image 0 := by
  obtain ⟨generation, log, slot, w₁, w₂, hlog, hslot, rfl, rfl⟩ := Store.gives_format_inv formatted
  have placed := placed_blank_checkpoints path enough small
  obtain ⟨hdevice, hregion, tells, hgeneration⟩ :=
    Log.tells_format (placed_blank_log path enough small) hlog
  obtain ⟨-, rfl, rfl⟩ := (CheckpointSlot.gives_storeSuperblock placed .none).unique hslot
  refine ⟨?_, hgeneration⟩
  have fits₁ : image.Fits w₁ := by
    rw [← hlog.writes_eq]
    exact (Log.stays_format image _ rfl rfl).2.2
  have fits : image.Fits (w₁ ++ [CheckpointSuperblock.none.buffer (image.blockCount / 5)]) :=
    Image.fits_append.2 ⟨fits₁, placed.fits_superblock .none⟩
  have hcount := Image.blockCount_storeAll fits
  have same : Image.SameOn (Store.blank path image).log.region
      (image.storeAll (w₁ ++ [CheckpointSuperblock.none.buffer (image.blockCount / 5)]))
      (image.storeAll w₁) := by
    rw [Image.storeAll_append]
    refine Image.sameOn_storeAll
      ((Image.fits_append.1 fits).2.of_blockCount (Image.blockCount_storeAll fits₁)) ?_
    intro buffer hb
    rw [List.mem_singleton.1 hb]
    exact .inr (Nat.le_refl _)
  exact {
    named := named
    count := hcount.symm
    enough := enough
    logDevice := hdevice
    logRegion := hregion
    slotDevice := rfl
    slotRegion := rfl
    tells := tells.of_sameOn (hcount.trans (Image.blockCount_storeAll fits₁).symm) (by
      rw [hregion]
      exact same)
    onDisk := CheckpointSlot.onDisk_storeSuperblock fits
    restores := CheckpointSlot.restores_empty rfl
    graph := rfl
    running := rfl }

/-- A store that was opened by formatting is empty, in a generation of its own. -/
theorem agrees_of_ofImage?_format {settings : Settings} {s : Session}
    (opened : ofImage? settings image = some s) (format : settings.format = true) :
    s.Agrees ∅ [] [] ∧
      s.store.log.superblock.generation.toNat = Log.nextGeneration image 0 := by
  obtain ⟨named, enough, small, w, gives, himage⟩ := ofImage?_eq_some_iff.1 opened
  obtain ⟨store, after⟩ := s
  simp only at gives himage
  subst himage
  rw [format] at gives
  exact agrees_of_format named enough small gives

/-- Opening without a format writes nothing. -/
theorem agrees_of_ofImage?_recover {settings : Settings} {s : Session}
    (opened : ofImage? settings image = some s) (kept : settings.format = false) :
    s.image = image ∧ ∃ base older last, s.Agrees base older last := by
  obtain ⟨named, enough, small, w, gives, himage⟩ := ofImage?_eq_some_iff.1 opened
  obtain ⟨store, after⟩ := s
  simp only at gives himage
  subst himage
  rw [kept] at gives
  obtain ⟨rfl, agrees⟩ := agrees_of_recover named enough small gives
  exact ⟨rfl, agrees⟩

/-- **A store that was opened agrees with its image**, whatever the image held. -/
theorem exists_agrees_of_ofImage? {settings : Settings} {s : Session}
    (opened : ofImage? settings image = some s) : ∃ base older last, s.Agrees base older last := by
  cases format : settings.format with
  | true => exact ⟨∅, [], [], (agrees_of_ofImage?_format opened format).1⟩
  | false => exact (agrees_of_ofImage?_recover opened format).2

/-- Formatting succeeds on any image of ten blocks or more that is not in its last generation. -/
theorem exists_ofImage?_format {settings : Settings} (named : settings.device.isEmpty = false)
    (format : settings.format = true) (enough : 10 ≤ image.blockCount)
    (small : image.blockCount / 5 < UInt32.size)
    (room : Log.nextGeneration image 0 ≠ UInt32.size) :
    ∃ s, ofImage? settings image = some s := by
  obtain ⟨generation, log, w, hlog⟩ :=
    Log.exists_format (placed_blank_log settings.device enough small) room
  have hslot := CheckpointSlot.gives_storeSuperblock
    (placed_blank_checkpoints settings.device enough small) .none
  obtain ⟨store, writes, gives⟩ : ∃ store writes,
      (Store.format image).Gives (Store.blank settings.device image) (.ok ()) store writes :=
    ⟨_, _, Store.gives_format hlog hslot⟩
  refine ⟨⟨store, image.storeAll writes⟩,
    ofImage?_eq_some_iff.2 ⟨named, enough, small, writes, ?_, rfl⟩⟩
  rw [format]
  exact gives

/-- A store on any such image, opened by a format. -/
theorem exists_ofImage?_disk (enough : 10 ≤ image.blockCount)
    (small : image.blockCount / 5 < UInt32.size)
    (room : Log.nextGeneration image 0 ≠ UInt32.size) :
    ∃ s, ofImage? ⟨"disk", true, false, "warn"⟩ image = some s ∧ s.Agrees ∅ [] [] ∧
      s.store.log.superblock.generation.toNat = Log.nextGeneration image 0 := by
  have named : (⟨"disk", true, false, "warn"⟩ : Settings).device.isEmpty = false := by decide
  obtain ⟨s, opened⟩ := exists_ofImage?_format named rfl enough small room
  obtain ⟨agrees, generation⟩ := agrees_of_ofImage?_format opened rfl
  exact ⟨s, opened, agrees, generation⟩

theorem exists_ofImage?_reused : ∃ s, ofImage? ⟨"disk", true, false, "warn"⟩ .reused = some s ∧
    s.Agrees ∅ [] [] ∧ s.store.log.superblock.generation.toNat = 6 := by
  obtain ⟨s, opened, agrees, generation⟩ := exists_ofImage?_disk
    (Nat.le_of_eq Image.blockCount_reused.symm) (by rw [Image.blockCount_reused]; decide)
    (by rw [Image.nextGeneration_reused]; decide)
  exact ⟨s, opened, agrees, generation.trans Image.nextGeneration_reused⟩

end Session

end DurableGraph
