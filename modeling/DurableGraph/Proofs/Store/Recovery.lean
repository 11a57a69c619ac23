import DurableGraph.Proofs.Store.Serving

/-!
# What recovery finds on an image

An image says which store it holds: a superblock of the log, the entries of each block of its
segment, and a checkpoint.  Whatever an image holds, a store that is opened on it without a
format is the one that the image says, every entry carried out once and in order.

    Image.Tells log lists slot base       the image says all of this
    opened → graph = base.replay lists.flatten                             (recover_sound)
-/

namespace DurableGraph

namespace Image

/-- A block of the log is of a generation, and tells as many entries as its header counts. -/
def BlockTells (image : Image) (n : Nat) (generation : UInt64) (entries : List Mutation) : Prop :=
  ∃ content header, image.block? n = some content ∧ LogHeader.decode ⟨n, content⟩ = .ok header ∧
    header.generation = generation ∧ header.entryCount.toNat = entries.length ∧
    ∀ (k : Nat) (h : k < entries.length), Mutation.decode ⟨n, content⟩ k = .ok entries[k]

/-- The graph that a log goes on from: a committed checkpoint of just the version before, with
all of its records, else the empty graph. -/
def BaseTells (image : Image) (path : String) (slot : CheckpointSuperblock) (version : Nat)
    (base : Graph) : Prop :=
  if slot.committed = true ∧ slot.version.toNat = version then
    ∃ r, CheckpointSlot.restoreRecords image slot.nodeCount.toNat (WordReader.ofRegion
      (Device.ofImage path image) ⟨image.blockCount / 5 + 1, image.blockCount⟩) ∅ = (.ok r, base)
  else base = ∅

/-- What an image says of the store on it: the superblock of the log, a list of entries for each
block of its segment, the superblock of the checkpoint, and the graph that the log goes on from. -/
structure Tells (image : Image) (path : String) (log : LogSuperblock)
    (lists : List (List Mutation)) (slot : CheckpointSuperblock) (base : Graph) : Prop where
  superblock : ∃ content, image.block? 0 = some content ∧ LogSuperblock.decode ⟨0, content⟩ = .ok log
  start_eq : log.segmentStart.toNat = 1
  size_pos : 0 < log.segmentSize.toNat
  fits : log.segmentEnd ≤ image.blockCount / 5
  length_eq : lists.length = log.segmentSize.toNat
  blocks : ∀ (i : Nat) (h : i < lists.length),
    image.BlockTells (1 + i) log.generation.toUInt64 lists[i]
  checkpoint : ∃ content, image.block? (image.blockCount / 5) = some content ∧
    CheckpointSuperblock.decode content = slot
  restored : image.BaseTells path slot (max log.generation.toNat 1 - 1) base

/-! ## Lemmas -/

/-- The blocks of a segment tell their entries, and so does the image. -/
theorem BlockTells.of_segment {image : Image} {device : Device} {generation : UInt64}
    {first : Nat} {lists : List (List Mutation)}
    (h : SegmentTells device image generation first lists) {i : Nat} (hi : i < lists.length) :
    image.BlockTells (first + i) generation lists[i] := by
  obtain ⟨block, load, tells⟩ := h i hi
  obtain ⟨-, number, held, decoded, same⟩ := LogBlock.load_eq_ok_iff.1 load
  have hbuffer : (⟨first + i, block.buffer.content⟩ : Buffer) = block.buffer := by rw [← number]
  refine ⟨block.buffer.content, block.header, held, ?_, same, tells.count, ?_⟩
  · rw [hbuffer]
    exact decoded
  · rw [hbuffer]
    exact tells.slot

end Image

namespace Session

variable {settings : Settings} {image : Image} {s : Session} {base : Graph}
  {older : List (List Mutation)} {last : List Mutation}

/-- Restoring the version before found that version, or no checkpoint at all. -/
theorem Agrees.baseTells (h : s.Agrees base older last) {path : String}
    (device : s.store.device = Device.ofImage path s.image) :
    s.image.BaseTells path s.store.checkpoints.superblock
      (max s.store.log.superblock.generation.toNat 1 - 1) base := by
  have hversion : max s.store.log.superblock.generation.toNat 1 - 1 =
      s.store.baseVersion.toNat := by
    rw [s.store.toNat_baseVersion]
    omega
  have hhas : s.store.checkpoints.has s.store.baseVersion = true ↔
      s.store.checkpoints.superblock.committed = true ∧
        s.store.checkpoints.superblock.version.toNat = s.store.baseVersion.toNat := by
    unfold CheckpointSlot.has
    rw [Bool.and_eq_true, decide_eq_true_iff, UInt64.toNat_inj]
  have hregion : s.store.checkpoints.body = ⟨s.image.blockCount / 5 + 1, s.image.blockCount⟩ := by
    unfold CheckpointSlot.body
    rw [h.slotRegion, h.count]
  obtain ⟨count, restore⟩ := h.restores
  have restored := (CheckpointSlot.gives_restore_inv restore).2
  rw [hregion, h.slotDevice, device] at restored
  rw [hversion]
  unfold Image.BaseTells
  by_cases present : s.store.checkpoints.has s.store.baseVersion = true
  · rw [if_pos present] at restored
    rw [if_pos (hhas.1 present)]
    exact restored
  · rw [if_neg present] at restored
    rw [if_neg fun found => present (hhas.2 found)]
    exact restored

/-- **A store that agrees with its image** is the one that the image says. -/
theorem Agrees.image_tells (h : s.Agrees base older last) {path : String}
    (device : s.store.device = Device.ofImage path s.image) :
    s.image.Tells path s.store.log.superblock (older ++ [last]) s.store.checkpoints.superblock
      base := by
  have hstart : s.store.log.region.start = 0 := by rw [h.logRegion]
  have hstop : s.store.log.region.stop = s.image.blockCount / 5 := by rw [h.logRegion, h.count]
  have hborder : s.store.checkpoints.region.start = s.image.blockCount / 5 := by
    rw [h.slotRegion, h.count]
  have hfits := h.tells.fits
  have hend := h.tells.segmentEnd_eq
  have hsize := h.tells.size_eq
  have hblocks := h.tells.segmentTells
  have hfirst := h.tells.start_eq
  have hlog := h.tells.superblock
  have hslot := h.onDisk
  rw [hstart] at hblocks hfirst hlog
  exact {
    superblock := hlog
    start_eq := hfirst
    size_pos := by omega
    fits := by omega
    length_eq := by
      rw [hsize, List.length_append, List.length_singleton]
    blocks := fun i hi => Image.BlockTells.of_segment hblocks hi
    checkpoint := by
      rw [← hborder]
      exact hslot
    restored := h.baseTells device }

end Session

/-! ## Top theorem -/

/-- **Recovery is sound.**  Whatever the bytes of an image, a store that is opened on it without a
format shows the graph that the image says: all entries of all blocks of the segment, in order,
carried out on the graph of the checkpoint.  That graph is simple, and the image is left alone. -/
theorem recover_sound {settings : Settings} {image : Image} {s : Session}
    (opened : Session.ofImage? settings image = some s) (kept : settings.format = false) :
    ∃ log lists slot base, image.Tells settings.device log lists slot base ∧
      (Store.snapshot s.store).result = .ok (base.replay lists.flatten) ∧
      (base.replay lists.flatten).Simple ∧ s.image = image := by
  obtain ⟨rfl, base, older, last, agrees⟩ := Session.agrees_of_ofImage?_recover opened kept
  have tells := agrees.image_tells (Session.device_of_ofImage? opened)
  have shown := (Store.gives_snapshot agrees.running).result_eq
  have simple := agrees.simple
  have hgraph : s.store.graph = base.replay (older ++ [last]).flatten := by
    rw [agrees.graph, List.flatten_append, List.flatten_singleton]
  rw [hgraph] at shown simple
  exact ⟨_, older ++ [last], _, base, tells, shown, simple, rfl⟩

/-- An image with a node in its checkpoint and another one in its log. -/
theorem recover_sound_reused :
    ∃ (s t : Session) (again : Settings), s.serve (.mutation (.addNode 8)) = t ∧
      (Store.snapshot s.store).result = .ok ((∅ : Graph).after (.addNode 7)) ∧
      Session.ofImage? again t.image = some t ∧ again.format = false ∧
      ∃ log lists slot base, t.image.Tells again.device log lists slot base ∧
        (Store.snapshot t.store).result = .ok (base.replay lists.flatten) ∧
        base.replay lists.flatten = ((∅ : Graph).after (.addNode 7)).after (.addNode 8) ∧
        (base.replay lists.flatten).Simple := by
  obtain ⟨-, s, -, -, -, -, -, h, -, -, -, -⟩ := Session.exists_checkpointed_reused
  have before : s.store.graph = (∅ : Graph).after (.addNode 7) := h.graph
  have shownBefore := (Store.gives_snapshot h.running).result_eq
  -- the mutation finds an empty block
  obtain ⟨⟨older, last, agrees⟩, graph, -⟩ := h.mutation_of_append
    (h.tells.append_eq_ok (Nat.zero_lt_succ _) (.addNode 8))
  rw [before] at graph shownBefore
  have same : (Settings.forDevice (s.serve (.mutation (.addNode 8))).store.device.path).device =
    (s.serve (.mutation (.addNode 8))).store.device.path := rfl
  have opened := agrees.reopen same rfl
  obtain ⟨log, lists, slot, found, tells, shown, simple, -⟩ := recover_sound opened rfl
  refine ⟨s, _, _, rfl, shownBefore, opened, rfl, log, lists, slot, found, tells, shown, ?_, simple⟩
  rw [(Store.gives_snapshot agrees.running).result_eq, graph] at shown
  injection shown with hgraph
  exact hgraph.symm

end DurableGraph
