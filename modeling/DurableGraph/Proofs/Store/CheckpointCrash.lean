import DurableGraph.Proofs.Store.Serving

/-!
# Crashes in a checkpoint

There is one slot, and the first write of a checkpoint takes it from the checkpoint before.  Until
the log is rotated, recovery looks for that one, finds none, and has only the log to go by.

    nothing is written           the graph
    a part of the commit         what the log tells to the empty graph
    the superblock of the log    no store at all
    everything                   the graph
-/

namespace DurableGraph

/-- The log on an image has left generation 0. -/
def Image.Begun (image : Image) : Prop :=
  ∃ content found, image.block? 0 = some content ∧
    LogSuperblock.decode ⟨0, content⟩ = .ok found ∧ 0 < found.generation.toNat

namespace Session

variable {s : Session} {base : Graph} {older : List (List Mutation)} {last : List Mutation}
  {image : Image}

/-! ## Generations -/

theorem Agrees.begun_iff (h : s.Agrees base older last) :
    s.image.Begun ↔ 0 < s.store.log.superblock.generation.toNat := by
  constructor
  · rintro ⟨content, found, held, decoded, pos⟩
    rw [h.decode_superblock held] at decoded
    cases decoded
    exact pos
  · intro pos
    obtain ⟨content, held, decoded⟩ := h.exists_superblock
    exact ⟨content, _, held, decoded, pos⟩

theorem Sound.begun_serve (sound : s.Sound) (begun : s.image.Begun) (request : Request) :
    (s.serve request).image.Begun := by
  obtain ⟨base, older, last, h⟩ | halted := sound
  · obtain goesOn | ⟨-, -, -, -, same⟩ := h.serve request
    · obtain ⟨base', older', last', h'⟩ := goesOn.agrees
      exact h'.begun_iff.2 (Nat.lt_of_lt_of_le (h.begun_iff.1 begun) goesOn.generation_le)
    · obtain ⟨content, found, held, decoded, pos⟩ := begun
      have henough := h.enough
      rw [h.logRegion] at same
      refine ⟨content, found, (same 0 (Nat.le_refl _) ?_).trans held, decoded, pos⟩
      show 0 < s.store.device.blockCount / 5
      omega
  · rw [serve_halted halted]
    exact begun

theorem begun_of_ofImage? {settings : Settings} (opened : ofImage? settings image = some s)
    (before : settings.format = true ∨ image.Begun) : s.image.Begun := by
  cases format : settings.format with
  | true =>
    obtain ⟨agrees, generation⟩ := agrees_of_ofImage?_format opened format
    rw [agrees.begun_iff, generation]
    exact Log.nextGeneration_pos image 0
  | false =>
    rw [(agrees_of_ofImage?_recover opened format).1]
    rw [format] at before
    exact before.resolve_left Bool.false_ne_true

end Session

theorem Run.begun {s t : Session} {events : List SessionEvent} (run : Run s events t)
    (sound : s.Sound) (begun : s.image.Begun) : t.image.Begun := by
  induction run with
  | nil => exact begun
  | serve request rest ih => exact ih (sound.serve request) (sound.begun_serve begun request)
  | reopen settings opened rest ih =>
    exact ih (.inl (Session.exists_agrees_of_ofImage? opened))
      (Session.begun_of_ofImage? opened (.inr begun))

namespace Session

variable {s : Session} {base : Graph} {older : List (List Mutation)} {last : List Mutation}
  {again : Settings}

/-! ## The commit -/

theorem baseVersion_ne (begun : 0 < s.store.log.superblock.generation.toNat) :
    s.store.log.generation ≠ s.store.baseVersion := by
  intro h
  have hnat := congrArg UInt64.toNat h
  rw [Log.toNat_generation, Store.toNat_baseVersion] at hnat
  omega

/-- A checkpoint that was begun has taken the slot, and the one before is not found. -/
theorem Agrees.crash_commit (h : s.Agrees base older last)
    (begun : 0 < s.store.log.superblock.generation.toNat)
    (room : s.store.graph.words.length ≤ s.store.checkpoints.bodyWords) {k : Nat} (pos : 0 < k)
    (same : again.device = s.store.device.path) (kept : again.format = false) :
    ∃ u, ofImage? again (s.image.storeAll
        ((s.store.checkpoints.commitWrites s.store.log.generation s.store.graph).take k)) = some u ∧
      (Store.snapshot u.store).result = .ok ((∅ : Graph).replay (older.flatten ++ last)) := by
  obtain ⟨committed, onDisk⟩ :=
    CheckpointSlot.onDisk_commit_cut h.placed s.store.log.generation room pos
  obtain ⟨fits, beside⟩ := h.beside_log
    (w := (s.store.checkpoints.commitWrites s.store.log.generation s.store.graph).take k)
    fun buffer hb => CheckpointSlot.number_of_mem_commitWrites h.placed room
      (List.mem_of_mem_take hb)
  have hcount := Image.blockCount_storeAll fits
  generalize s.image.storeAll _ = after at onDisk beside hcount
  have absent : (s.store.checkpoints.withSuperblock
      ⟨committed, s.store.log.generation, s.store.graph.nodeCount.toUInt64⟩).has
        s.store.baseVersion = false := by
    show (committed && decide (s.store.log.generation = s.store.baseVersion)) = false
    rw [decide_eq_false (baseVersion_ne begun), Bool.and_false]
  have agrees : (Session.mk { s.store with
      checkpoints := s.store.checkpoints.withSuperblock
        ⟨committed, s.store.log.generation, s.store.graph.nodeCount.toUInt64⟩
      graph := (∅ : Graph).replay (older.flatten ++ last) } after).Agrees ∅ older last := {
    named := h.named
    count := h.count.trans hcount.symm
    enough := h.enough
    logDevice := h.logDevice
    logRegion := h.logRegion
    slotDevice := h.slotDevice
    slotRegion := h.slotRegion
    tells := h.tells.of_sameOn hcount beside
    onDisk := onDisk
    restores := CheckpointSlot.restores_empty absent
    graph := rfl
    running := h.running }
  exact ⟨_, agrees.reopen same kept, (Store.gives_snapshot agrees.running).result_eq⟩

/-! ## The rotation -/

/-- The log begins in block 1, which is of its generation. -/
theorem Agrees.load_first (h : s.Agrees base older last) :
    ∃ block, LogBlock.load s.store.log.device s.image 1 s.store.log.generation = .ok block := by
  obtain ⟨block, loaded, -⟩ := h.tells.segmentTells 0 (by simp)
  rw [h.start_eq] at loaded
  exact ⟨block, loaded⟩

theorem Agrees.superblock_eq (h : s.Agrees base older last) {found : LogSuperblock}
    (held : s.image.block? 0 = some (found.encode .zero)) : s.store.log.superblock = found := by
  have decoded := h.decode_superblock held
  rw [LogSuperblock.decode_encode] at decoded
  exact (Except.ok.inj decoded).symm

/-- Where the log has a new superblock and no new block, the block is refused as stale. -/
theorem Agrees.stale (h : s.Agrees base older last)
    (next : s.store.log.superblock.generation.toNat + 1 ≠ UInt32.size) {after : Image}
    (head : after.block? 0 = some (s.store.log.rotated.superblock.encode .zero))
    (first : after.block? 1 = s.image.block? 1) (kept : again.format = false) :
    ofImage? again after = none := by
  rw [Option.eq_none_iff_forall_ne_some]
  intro u opened
  obtain ⟨rfl, base', older', last', agrees⟩ := agrees_of_ofImage?_recover opened kept
  have superblock := agrees.superblock_eq head
  obtain ⟨block, loaded⟩ := h.load_first
  obtain ⟨block', loaded'⟩ := agrees.load_first
  have hnat := congrArg UInt64.toNat (LogBlock.generation_unique first loaded' loaded)
  rw [Log.toNat_generation, Log.toNat_generation, superblock,
    Log.toNat_generation_rotated next] at hnat
  omega

/-- So it is in a checkpoint that is cut before its last write. -/
theorem Agrees.crash_rotation (h : s.Agrees base older last)
    (room : s.store.graph.words.length ≤ s.store.checkpoints.bodyWords)
    (next : s.store.log.superblock.generation.toNat + 1 ≠ UInt32.size)
    (kept : again.format = false) :
    ofImage? again (s.image.storeAll
      (s.store.checkpoints.commitWrites s.store.log.generation s.store.graph ++
        [s.store.log.rotated.superblock.buffer s.store.log.region.start])) = none := by
  have hstart := h.start_eq
  have hwide := h.tells.placed.wide
  obtain ⟨fits₁, beside⟩ := h.beside_log
    (w := s.store.checkpoints.commitWrites s.store.log.generation s.store.graph)
    fun buffer hb => CheckpointSlot.number_of_mem_commitWrites h.placed room hb
  have fits : s.image.Fits (s.store.checkpoints.commitWrites s.store.log.generation s.store.graph ++
      [s.store.log.rotated.superblock.buffer s.store.log.region.start]) := by
    refine Image.fits_append.2 ⟨fits₁, Image.fits_cons.2 ⟨?_, Image.fits_nil _⟩⟩
    have hinside := h.tells.placed.inside
    show s.store.log.region.start < s.image.blockCount
    omega
  have hread := Image.block?_storeAll_concat fits
  refine h.stale next ((hread 0).trans (if_pos hstart.symm)) ?_ kept
  rw [hread, if_neg (by show 1 ≠ s.store.log.region.start; omega)]
  exact beside 1 (by omega) (by omega)

/-! ## Any crash -/

/-- The image that a checkpoint leaves when it is cut: the old one, one with a part of the commit,
one with the superblock of the log, or the new one. -/
theorem crash_checkpoint_cases (hwrites : (s.step .checkpoint).writes = s.checkpointWrites)
    (k : Nat) :
    s.crash .checkpoint k = s.image ∨
    (∃ j, 0 < j ∧ s.crash .checkpoint k = s.image.storeAll
      ((s.store.checkpoints.commitWrites s.store.log.generation s.store.graph).take j)) ∨
    s.crash .checkpoint k = s.image.storeAll
      (s.store.checkpoints.commitWrites s.store.log.generation s.store.graph ++
        [s.store.log.rotated.superblock.buffer s.store.log.region.start]) ∨
    s.crash .checkpoint k = s.image.storeAll s.checkpointWrites := by
  unfold crash
  rw [hwrites]
  unfold checkpointWrites
  generalize s.store.checkpoints.commitWrites s.store.log.generation s.store.graph = commit
  by_cases part : k ≤ commit.length
  · rw [List.take_append_of_le_length part]
    cases k with
    | zero => exact .inl (by rw [List.take_zero, Image.storeAll_nil])
    | succ k => exact .inr (.inl ⟨k + 1, Nat.zero_lt_succ k, rfl⟩)
  · by_cases half : k = commit.length + 1
    · refine .inr (.inr (.inl ?_))
      rw [half, List.take_append, List.take_of_length_le (Nat.le_succ _), Nat.add_sub_cancel_left,
        List.take_succ_cons, List.take_zero]
    · refine .inr (.inr (.inr ?_))
      rw [List.take_of_length_le]
      simp only [List.length_append, List.length_cons, List.length_nil]
      omega

/-- A checkpoint can be cut anywhere without harm just if the log tells the whole graph. -/
theorem Agrees.cut_checkpoint_iff (h : s.Agrees base older last)
    (begun : 0 < s.store.log.superblock.generation.toNat) {reply : Reply}
    (done : (s.step .checkpoint).result = .ok reply)
    (same : again.device = s.store.device.path) (kept : again.format = false) :
    (∀ k u, ofImage? again (s.crash .checkpoint k) = some u →
        (Store.snapshot u.store).result = .ok s.store.graph) ↔
      (∅ : Graph).replay (older.flatten ++ last) = s.store.graph := by
  obtain ⟨room, next, -, hwrites, hserve, after⟩ | ⟨-, failed, -⟩ | ⟨-, failed, -⟩ := h.checkpoint
  · constructor
    · intro safe
      obtain ⟨u, opened, shown⟩ := h.crash_commit begun room Nat.zero_lt_one same kept
      have first : s.crash .checkpoint 1 = s.image.storeAll
          ((s.store.checkpoints.commitWrites s.store.log.generation s.store.graph).take 1) := by
        unfold crash
        rw [hwrites]
        rfl
      have told := safe 1 u (by rw [first]; exact opened)
      rw [shown] at told
      exact Except.ok.inj told
    · intro told k u opened
      obtain before | ⟨j, pos, part⟩ | half | whole := crash_checkpoint_cases hwrites k
      · rw [before, h.reopen same kept] at opened
        cases opened
        exact (Store.gives_snapshot h.running).result_eq
      · obtain ⟨v, opened', shown⟩ := h.crash_commit begun room pos same kept
        rw [part, opened'] at opened
        cases opened
        rw [shown, told]
      · rw [half, h.crash_rotation room next kept] at opened
        cases opened
      · have image_eq : (s.serve .checkpoint).image = s.image.storeAll s.checkpointWrites := by
          rw [hserve]
        have same' : again.device = (s.serve .checkpoint).store.device.path := by
          rw [hserve]
          exact same
        rw [whole, ← image_eq, after.reopen same' kept] at opened
        cases opened
        rw [(Store.gives_snapshot after.running).result_eq, after.graph]
        rfl
  · rw [failed] at done
    cases done
  · rw [failed] at done
    cases done

end Session

/-- **Where a checkpoint may be cut.**  A checkpoint that succeeds, after any run from a format,
is cut after any number of its writes: a store that then opens shows the graph for sure just if
the log tells the whole of it, as it does where no checkpoint stands before. -/
theorem crash_checkpoint_iff {settings again : Settings} {image : Image} {s t : Session}
    {events : List SessionEvent} {reply : Reply}
    (opened : Session.ofImage? settings image = some s) (format : settings.format = true)
    (run : Run s events t) (done : (t.step .checkpoint).result = .ok reply)
    (same : again.device = t.store.device.path) (kept : again.format = false) :
    ∃ c entries, t.store.log.cursor t.image = .ok c ∧ c.entries t.image = (entries, none) ∧
      ((∀ k u, Session.ofImage? again (t.crash .checkpoint k) = some u →
          (Store.snapshot u.store).result = .ok t.store.graph) ↔
        (∅ : Graph).replay entries = t.store.graph) ∧
      (t.store.checkpoints.has t.store.baseVersion = false →
        (∅ : Graph).replay entries = t.store.graph) := by
  have sound : s.Sound := .inl (Session.exists_agrees_of_ofImage? opened)
  obtain ⟨base, older, last, h⟩ | halted := run.sound sound
  · have begun := run.begun sound (Session.begun_of_ofImage? opened (.inl format))
    obtain ⟨c, cursor, read⟩ := h.tells.read
    refine ⟨c, _, cursor, read, h.cut_checkpoint_iff (h.begun_iff.1 begun) done same kept, ?_⟩
    intro absent
    rw [h.graph, h.restores.eq_empty absent]
  · have hcheckpoint : Store.checkpoint.Gives t.store _ t.store [] :=
      (Store.gives_running_halted halted).bind_error _
    rw [(Session.step_checkpoint hcheckpoint).1] at done
    cases done

/-- The second checkpoint of a store, cut behind its first write: the node is gone. -/
theorem crash_second_checkpoint :
    ∃ s t events reply again u,
      Session.ofImage? ⟨"disk", true, false, "warn"⟩ .reused = some s ∧
      s.serveAll [.mutation (.addNode 7), .checkpoint] = t ∧ Run s events t ∧
      (t.step .checkpoint).result = .ok reply ∧
      again.device = t.store.device.path ∧ again.format = false ∧
      Session.ofImage? again (t.crash .checkpoint 1) = some u ∧
      (Store.snapshot t.store).result = .ok ((∅ : Graph).after (.addNode 7)) ∧
      (Store.snapshot u.store).result = .ok ∅ ∧ (∅ : Graph).after (.addNode 7) ≠ ∅ := by
  obtain ⟨s, t, events, reply, opened, reached, run, h, begun, room, done, writes⟩ :=
    Session.exists_checkpointed_reused
  have same : (Settings.forDevice t.store.device.path).device = t.store.device.path := rfl
  obtain ⟨u, found, shown⟩ := h.crash_commit begun room Nat.zero_lt_one same rfl
  have hcrash : t.crash .checkpoint 1 = t.image.storeAll
      ((t.store.checkpoints.commitWrites t.store.log.generation t.store.graph).take 1) := by
    unfold Session.crash
    rw [writes]
    rfl
  rw [← hcrash] at found
  have before := (Store.gives_snapshot h.running).result_eq
  rw [show t.store.graph = (∅ : Graph).after (.addNode 7) from h.graph] at before
  exact ⟨s, t, events, reply, _, u, opened, reached, run, done, same, rfl, found, before, shown,
    by decide⟩

/-- There the log tells nothing of the node, and cutting is not safe. -/
theorem crash_checkpoint_iff_reused :
    ∃ s t events reply again,
      Session.ofImage? ⟨"disk", true, false, "warn"⟩ .reused = some s ∧ Run s events t ∧
      (t.step .checkpoint).result = .ok reply ∧
      again.device = t.store.device.path ∧ again.format = false ∧
      ¬ ∀ k u, Session.ofImage? again (t.crash .checkpoint k) = some u →
        (Store.snapshot u.store).result = .ok t.store.graph := by
  obtain ⟨s, t, events, reply, opened, -, run, h, -, -, done, -⟩ :=
    Session.exists_checkpointed_reused
  have same : (Settings.forDevice t.store.device.path).device = t.store.device.path := rfl
  obtain ⟨c, entries, cursor, read, safe_iff, -⟩ :=
    crash_checkpoint_iff opened rfl run done same rfl
  refine ⟨s, t, events, reply, _, opened, run, done, same, rfl, fun safe => ?_⟩
  obtain ⟨c', cursor', read'⟩ := h.tells.read
  rw [cursor] at cursor'
  cases cursor'
  rw [read] at read'
  cases read'
  have told := safe_iff.1 safe
  rw [show t.store.graph = (∅ : Graph).after (.addNode 7) from h.graph] at told
  revert told
  decide

end DurableGraph
