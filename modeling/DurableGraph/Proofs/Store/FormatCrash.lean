import DurableGraph.Proofs.Store.CheckpointCrash
import DurableGraph.Proofs.Store.Generations

/-!
# Crashes in a format

A format writes three blocks: the superblock of the log and its first block, in the generation
after the one found, then the superblock of the checkpoint.  Nothing of what stood there before
can be taken for a part of the new store, as it is of another generation.

    nothing is written           the graph
    the superblock of the log    no store at all
    the log                      the empty graph: the old checkpoint is too old for it
    everything                   the empty graph
-/

namespace DurableGraph

/-- The image that a crash leaves after the first `k` writes of opening it. -/
def Image.crashOpening (image : Image) (settings : Settings) (k : Nat) : Image :=
  image.storeAll ((Store.openFile settings (.ok image) ()).writes.take k)

namespace Session

variable {s : Session} {base : Graph} {older : List (List Mutation)} {last : List Mutation}
  {anew again : Settings}

/-- The blocks that a format of the image writes. -/
def formatWrites (s : Session) : List Buffer :=
  [s.store.log.rotated.superblock.buffer s.store.log.region.start, s.store.log.firstTail.buffer,
    CheckpointSuperblock.none.buffer s.store.checkpoints.region.start]

/-- The store that stands there after it. -/
def formatted (s : Session) : Store :=
  { s.store with
    log := s.store.log.rotated
    checkpoints := s.store.checkpoints.withSuperblock .none
    graph := ∅ }

/-! ## The writes -/

/-- Formatting the image of a store that agrees with it rotates the log of that store. -/
theorem Agrees.gives_format (h : s.Agrees base older last)
    (next : s.generation + 1 ≠ UInt32.size) (same : anew.device = s.store.device.path)
    (format : anew.format = true) :
    (Store.openFile anew (.ok s.image)).Gives () (.ok s.formatted) () s.formatWrites := by
  have enough := h.enough
  rw [h.count] at enough
  have small := h.tells.placed.small
  rw [h.logRegion, h.count] at small
  have hdevice : Device.ofImage anew.device s.image = s.store.device := by
    unfold Device.ofImage
    rw [same, ← h.count]
  -- the blank log that takes up the superblock is the log of the store without its tail
  have hlog : (Store.blank anew.device s.image).log.withSuperblock s.store.log.superblock =
      { s.store.log with tail := none } := by
    show Log.mk (Device.ofImage anew.device s.image) ⟨0, s.image.blockCount / 5⟩ _ none =
      Log.mk s.store.log.device s.store.log.region _ none
    rw [hdevice, h.logDevice, h.logRegion, h.count]
  have hstore : s.formatted = ⟨(Store.blank anew.device s.image).device, s.store.log.rotated,
      (Store.blank anew.device s.image).checkpoints.withSuperblock .none, ∅, false⟩ := by
    show Store.mk s.store.device _ ⟨s.store.checkpoints.device, s.store.checkpoints.region, .none⟩
      ∅ s.store.halted = Store.mk (Device.ofImage anew.device s.image) _
      ⟨Device.ofImage anew.device s.image, ⟨s.image.blockCount / 5, s.image.blockCount⟩, .none⟩
      ∅ false
    rw [hdevice, h.slotDevice, h.slotRegion, h.count, h.running]
  have hwrites : s.formatWrites = [s.store.log.rotated.superblock.buffer s.store.log.region.start,
      s.store.log.firstTail.buffer] ++
        [CheckpointSuperblock.none.buffer (s.image.blockCount / 5)] := by
    unfold formatWrites
    rw [h.slotRegion, h.count]
    rfl
  have rotated : Log.rotate.Gives
      ((Store.blank anew.device s.image).log.withSuperblock s.store.log.superblock)
      (.ok s.store.log.rotated.generation) s.store.log.rotated
      [s.store.log.rotated.superblock.buffer s.store.log.region.start,
        s.store.log.firstTail.buffer] := by
    rw [hlog]
    exact Log.gives_rotate (h.tells.placed.congr rfl rfl rfl) next
  obtain ⟨content, held, decoded⟩ := h.exists_superblock
  refine Store.gives_openFile_iff.2 ⟨by rw [same]; exact h.named, enough, small, ?_⟩
  rw [format, hstore, hwrites]
  exact Store.gives_format
    (Log.gives_format_found (placed_blank_log anew.device enough small) held decoded rotated)
    (CheckpointSlot.gives_storeSuperblock
      (placed_blank_checkpoints anew.device enough small) .none)

/-! ## Cuts -/

/-- Where the new log stands beside an old checkpoint, the log does not go on from it. -/
theorem Agrees.half_formatted (h : s.Agrees base older last)
    (next : s.generation + 1 ≠ UInt32.size)
    (absent : s.store.checkpoints.has s.store.log.generation = false) :
    (Session.mk { s.store with log := s.store.log.rotated, graph := ∅ } (s.image.storeAll
      [s.store.log.rotated.superblock.buffer s.store.log.region.start,
        s.store.log.firstTail.buffer])).Agrees ∅ [] [] := by
  obtain ⟨fits, same⟩ := h.beside h.tells.placed.number_lt
  exact {
    named := h.named
    count := h.count.trans (Image.blockCount_storeAll fits).symm
    enough := h.enough
    logDevice := h.logDevice
    logRegion := h.logRegion
    slotDevice := h.slotDevice
    slotRegion := h.slotRegion
    tells := Log.tells_rotated h.tells.placed
    onDisk := h.onDisk.congr (Nat.lt_of_succ_lt h.placed.wide) same
    restores := by
      apply CheckpointSlot.restores_empty
      rw [← absent]
      exact congrArg s.store.checkpoints.has (baseVersion_checkpointed next)
    graph := rfl
    running := h.running }

/-- A checkpoint of an earlier generation is not that of the generation of the log. -/
theorem Dated.has_generation (h : s.Dated) :
    s.store.checkpoints.has s.store.log.generation = false := by
  rw [Bool.eq_false_iff]
  intro has
  unfold CheckpointSlot.has at has
  obtain ⟨committed, version⟩ := Bool.and_eq_true_iff.1 has
  have earlier := h.earlier committed
  rw [of_decide_eq_true version, Log.toNat_generation] at earlier
  exact Nat.lt_irrefl _ earlier

/-- The images that a format leaves when it is cut, and what is found there. -/
theorem Dated.crash_format (h : s.Dated) (next : s.generation + 1 ≠ UInt32.size)
    (format : anew.format = true) (device : anew.device = s.store.device.path)
    (kept : again.format = false) (same : again.device = s.store.device.path) :
    (Store.openFile anew (.ok s.image) ()).writes = s.formatWrites ∧
      ofImage? again (s.image.crashOpening anew 0) = some s ∧
      ofImage? again (s.image.crashOpening anew 1) = none ∧
      ∀ k, 2 ≤ k → ∃ u, ofImage? again (s.image.crashOpening anew k) = some u ∧
        u.Agrees ∅ [] [] ∧ u.generation = s.generation + 1 := by
  obtain ⟨base, older, last, agrees⟩ := h.agrees
  have gives := agrees.gives_format next device format
  have opened : ofImage? anew s.image = some ⟨s.formatted, s.image.storeAll s.formatWrites⟩ := by
    unfold ofImage?
    simp only [gives.result_eq, gives.writes_eq]
  have hgeneration : s.store.log.rotated.superblock.generation.toNat = s.generation + 1 :=
    Log.toNat_generation_rotated next
  unfold Image.crashOpening
  rw [gives.writes_eq]
  refine ⟨rfl, agrees.reopen same kept, ?_, fun k begun => ?_⟩
  · have hstart := agrees.start_eq
    have fits : s.image.Fits ([] ++
        [s.store.log.rotated.superblock.buffer s.store.log.region.start]) :=
      (agrees.beside agrees.tells.placed.number_lt).1.take 1
    have hread := Image.block?_storeAll_concat fits
    refine agrees.stale next ((hread 0).trans (if_pos hstart.symm)) ?_ kept
    refine (hread 1).trans (if_neg ?_)
    show 1 ≠ s.store.log.region.start
    omega
  · obtain rfl | most := Nat.eq_or_lt_of_le begun
    · have half := agrees.half_formatted next h.has_generation
      exact ⟨_, half.reopen same kept, half, hgeneration⟩
    · have whole := (agrees_of_ofImage?_format opened format).1
      rw [List.take_of_length_le (show s.formatWrites.length ≤ k from most)]
      exact ⟨_, whole.reopen same kept, whole, hgeneration⟩

end Session

/-! ## Top theorem -/

/-- **A format never mixes two lives of a device.**  A store was formatted and then ran, and a
generation is left.  Its image is formatted again, which writes three blocks, and the format is cut
after any number of them.  Then the graph from before is opened if nothing was written, nothing can
be opened if only the superblock of the log was, and the store is empty otherwise. -/
theorem reopen_of_crash_format {settings anew again : Settings} {image : Image} {s t : Session}
    {events : List SessionEvent} (opened : Session.ofImage? settings image = some s)
    (format : settings.format = true) (run : Run s events t)
    (next : t.store.stats.generation + 1 < UInt32.size) (format' : anew.format = true)
    (device : anew.device = t.store.device.path) (kept : again.format = false)
    (same : again.device = t.store.device.path) :
    (Store.openFile anew (.ok t.image) ()).writes.map Buffer.number =
        [0, 1, t.image.blockCount / 5] ∧
      (Store.snapshot t.store).result = .ok t.store.graph ∧
      (∃ u, Session.ofImage? again (t.image.crashOpening anew 0) = some u ∧
        (Store.snapshot u.store).result = .ok t.store.graph) ∧
      (∃ e, (Store.openFile again (.ok (t.image.crashOpening anew 1)) ()).result = .error e) ∧
      ∀ k, 2 ≤ k → ∃ u, Session.ofImage? again (t.image.crashOpening anew k) = some u ∧
        (Store.snapshot u.store).result = .ok ∅ := by
  rw [t.stats_generation] at next
  have dated := run.dated (Session.dated_of_ofImage?_format opened format) (Nat.ne_of_lt next)
  obtain ⟨base, older, last, agrees⟩ := dated.agrees
  obtain ⟨hwrites, before, stale, empty⟩ :=
    dated.crash_format (Nat.ne_of_lt next) format' device kept same
  have shown := (Store.gives_snapshot agrees.running).result_eq
  refine ⟨?_, shown, ⟨t, before, shown⟩, Session.ofImage?_eq_none_iff.1 stale, fun k begun => ?_⟩
  · rw [hwrites]
    show [t.store.log.region.start, t.store.log.region.start + 1,
      t.store.checkpoints.region.start] = _
    rw [agrees.start_eq, agrees.slotRegion, agrees.count]
  · obtain ⟨u, found, agrees', -⟩ := empty k begun
    refine ⟨u, found, ?_⟩
    rw [(Store.gives_snapshot agrees'.running).result_eq, agrees'.graph]
    rfl

/-- A store with a node in its checkpoint is formatted. -/
theorem reopen_of_crash_format_reused :
    ∃ (s t : Session) (events : List SessionEvent) (anew again : Settings),
      Session.ofImage? ⟨"disk", true, false, "warn"⟩ .reused = some s ∧ Run s events t ∧
      t.store.stats.generation + 1 < UInt32.size ∧
      anew.format = true ∧ anew.device = t.store.device.path ∧
      again.format = false ∧ again.device = t.store.device.path ∧
      (∃ u, Session.ofImage? again (t.image.crashOpening anew 0) = some u ∧
        (Store.snapshot u.store).result = .ok ((∅ : Graph).after (.addNode 7))) ∧
      (∃ e, (Store.openFile again (.ok (t.image.crashOpening anew 1)) ()).result = .error e) ∧
      (∃ u, Session.ofImage? again (t.image.crashOpening anew 2) = some u ∧
        (Store.snapshot u.store).result = .ok ∅) ∧
      ∃ u, Session.ofImage? again (t.image.crashOpening anew 3) = some u ∧
        (Store.snapshot u.store).result = .ok ∅ := by
  obtain ⟨s, t, events, reply, opened, -, run, h, -, -, done, -⟩ :=
    Session.exists_checkpointed_reused
  -- the store has a generation left, as it has another checkpoint to go
  have left : t.generation + 1 ≠ UInt32.size := by
    obtain ⟨-, next, -⟩ | ⟨-, failed, -⟩ | ⟨-, failed, -⟩ := h.checkpoint
    · exact next
    · rw [done] at failed
      cases failed
    · rw [done] at failed
      cases failed
  have next : t.store.stats.generation + 1 < UInt32.size := by
    rw [t.stats_generation]
    exact Nat.lt_of_le_of_ne t.generation_lt left
  have graph : t.store.graph = (∅ : Graph).after (.addNode 7) := h.graph
  have format : (⟨t.store.device.path, true, false, "warn"⟩ : Settings).format = true := rfl
  have kept : (Settings.forDevice t.store.device.path).format = false := rfl
  obtain ⟨-, -, before, stale, empty⟩ :=
    reopen_of_crash_format opened rfl run next format rfl kept rfl
  rw [graph] at before
  exact ⟨s, t, events, _, _, opened, run, next, format, rfl, kept, rfl, before, stale,
    empty 2 (by decide), empty 3 (by decide)⟩

end DurableGraph
