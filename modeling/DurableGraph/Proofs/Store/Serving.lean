import DurableGraph.Proofs.Log.Capacity
import DurableGraph.Proofs.Store.Agreement

/-!
# What requests do

Each request with its answer, the store it leaves and the blocks it stores, and that the store
goes on agreeing with its image.  Only a checkpoint in the last generation ends otherwise: its
rotation fails, and the store halts.

    mutation m     the log appends m, then the graph applies it; or nothing, for want of space
    checkpoint     the graph becomes the base, and the log is empty
    query          nothing
-/

namespace DurableGraph

/-- What a request is refused with by a store that has halted. -/
def Request.refusalHalted : Request → Refusal
  | .edgePart .. => .wrongPartition
  | .mutation _ | .query _ | .checkpoint => .halted

namespace Store

open Work

variable {s : Store}

/-! ## Steps -/

theorem gives_running (running : s.halted = false) : Store.running.Gives s (.ok ()) s [] := by
  unfold Store.running
  refine (gives_current s).then ?_
  rw [if_neg (by rw [running]; decide)]
  exact gives_pure () s

/-- A store that has halted refuses. -/
theorem gives_running_halted (halted : s.halted = true) :
    Store.running.Gives s (.error .halted) s [] := by
  unfold Store.running
  refine (gives_current s).then ?_
  rw [if_pos halted]
  exact gives_fail _ s

theorem gives_settle_noSpace {α : Type} {x : Work Store StoreError α} {t : Store} {e : StoreError}
    {w : List Buffer} (h : x.Gives s (.error e) t w) (space : e.isNoSpace = true) :
    (settle x).Gives s (.error .noSpace) t w := by
  unfold settle
  rw [← List.append_nil w]
  refine h.onError_error ?_
  rw [if_pos space]
  exact (gives_note _ t).then (gives_fail _ t)

theorem gives_settle_fault {α : Type} {x : Work Store StoreError α} {t : Store} {e : StoreError}
    {w : List Buffer} (h : x.Gives s (.error e) t w) (fault : e.isNoSpace = false) :
    (settle x).Gives s (.error e.refusal) { t with halted := true } w := by
  unfold settle
  rw [← List.append_nil w]
  refine h.onError_error ?_
  rw [if_neg (by rw [fault]; decide)]
  refine (gives_current t).then ?_
  refine (gives_replace t _).then ?_
  exact (gives_note _ _).then (gives_fail _ _)

/-- A mutation is appended first and applied then, refused or not. -/
theorem gives_mutate {m : Mutation} {log : Log} {w : List Buffer} (running : s.halted = false)
    (appended : (Log.append m).Gives s.log (.ok ()) log w) :
    (mutate m).Gives s (s.graph.answer m) { s with log, graph := s.graph.after m } w := by
  unfold mutate
  refine (gives_running running).then ?_
  rw [← List.append_nil w]
  refine ((gives_onLog appended).onError _).bind ?_
  refine (gives_current _).then ?_
  unfold Graph.answer Graph.after
  cases s.graph.apply m with
  | error refusal => exact gives_fail refusal _
  | ok done => exact (gives_replace _ _).then (gives_pure _ _)

theorem gives_mutate_noSpace {m : Mutation} {n : Nat} (running : s.halted = false)
    (spent : (Log.append m).Gives s.log (.error (.noSpace n)) s.log []) :
    (mutate m).Gives s (.error .noSpace) s [] := by
  unfold mutate
  refine (gives_running running).then ?_
  exact (gives_settle_noSpace (gives_onLog spent) rfl).bind_error _

/-- A checkpoint commits first and rotates then. -/
theorem gives_checkpoint {generation : UInt64} {log : Log} {slot : CheckpointSlot}
    {w w' : List Buffer} (running : s.halted = false)
    (committed : (CheckpointSlot.commit s.log.generation s.graph).Gives s.checkpoints (.ok ())
      slot w)
    (rotated : Log.rotate.Gives s.log (.ok generation) log w') :
    checkpoint.Gives s (.ok generation) { s with log, checkpoints := slot } (w ++ w') := by
  unfold checkpoint
  refine (gives_running running).then ?_
  refine Gives.onError ?_ _
  unfold commitAndRotate
  refine (gives_current s).then ?_
  refine (gives_onCheckpoints committed).bind ?_
  rw [← List.append_nil w']
  refine (gives_onLog (s := { s with checkpoints := slot }) rotated).bind ?_
  exact (gives_note _ _).then (gives_pure _ _)

theorem gives_checkpoint_noSpace {n : Nat} (running : s.halted = false)
    (spent : (CheckpointSlot.commit s.log.generation s.graph).Gives s.checkpoints
      (.error (.noSpace n)) s.checkpoints []) :
    checkpoint.Gives s (.error .noSpace) s [] := by
  have hspent : commitAndRotate.Gives s (.error (.checkpoint (.noSpace n))) s [] := by
    unfold commitAndRotate
    refine (gives_current s).then ?_
    exact (gives_onCheckpoints spent).bind_error _
  unfold checkpoint
  exact (gives_running running).then (gives_settle_noSpace hspent rfl)

/-- Where the rotation fails the checkpoint stands, and the store halts. -/
theorem gives_checkpoint_rotationFailed {slot : CheckpointSlot} {w : List Buffer}
    (running : s.halted = false)
    (committed : (CheckpointSlot.commit s.log.generation s.graph).Gives s.checkpoints (.ok ())
      slot w)
    (failed : Log.rotate.Gives s.log (.error .generationsExhausted) s.log []) :
    checkpoint.Gives s (.error (StoreError.rotationFailed .generationsExhausted).refusal)
      { s with checkpoints := slot, halted := true } w := by
  have hfailed : commitAndRotate.Gives s (.error (.rotationFailed .generationsExhausted))
      { s with checkpoints := slot } w := by
    unfold commitAndRotate
    refine (gives_current s).then ?_
    rw [← List.append_nil w]
    refine (gives_onCheckpoints committed).bind ?_
    exact (gives_onLog (s := { s with checkpoints := slot }) failed).bind_error _
  unfold checkpoint
  exact (gives_running running).then (gives_settle_fault hfailed rfl)

/-- Requests that only look leave the store alone. -/
theorem gives_look (running : s.halted = false) (q : Query) :
    (look q).Gives s (s.graph.look q) s [] := by
  unfold look
  refine (gives_running running).then ?_
  exact (gives_current s).then (gives_ofExcept rfl s)

theorem gives_snapshot (running : s.halted = false) : snapshot.Gives s (.ok s.graph) s [] := by
  unfold snapshot
  refine (gives_running running).then ?_
  exact (gives_current s).then (gives_pure s.graph s)

/-- What a store that has halted tells; halves of edges are refused by any store. -/
theorem gives_serve_halted (halted : s.halted = true) (request : Request) :
    (serve request).Gives s (.error request.refusalHalted) s [] := by
  have refused := gives_running_halted halted
  cases request with
  | mutation m => exact Gives.bind_error (Gives.bind_error refused _) _
  | query q => exact Gives.bind_error refused _
  | checkpoint => exact Gives.bind_error (Gives.bind_error refused _) _
  | edgePart access near far => exact gives_fail _ s

end Store

namespace Session

variable {s : Session} {base : Graph} {older : List (List Mutation)} {last : List Mutation}

theorem step_of_gives {request : Request} {r : Except Refusal Reply} {t : Store} {w : List Buffer}
    (h : (Store.serve request).Gives s.store r t w) :
    (s.step request).result = r ∧ (s.step request).writes = w ∧
      s.serve request = ⟨t, s.image.storeAll w⟩ := by
  obtain ⟨rfl, rfl, rfl⟩ := h
  exact ⟨rfl, rfl, rfl⟩

theorem step_mutation {m : Mutation} {r : Except Refusal Outcome} {t : Store} {w : List Buffer}
    (h : (Store.mutate m).Gives s.store r t w) :
    (s.step (.mutation m)).result = r.map .outcome ∧ (s.step (.mutation m)).writes = w ∧
      s.serve (.mutation m) = ⟨t, s.image.storeAll w⟩ := step_of_gives (h.map Reply.outcome)

theorem step_checkpoint {r : Except Refusal UInt64} {t : Store} {w : List Buffer}
    (h : Store.checkpoint.Gives s.store r t w) :
    (s.step .checkpoint).result = r.map .checkpointed ∧ (s.step .checkpoint).writes = w ∧
      s.serve .checkpoint = ⟨t, s.image.storeAll w⟩ := step_of_gives (h.map Reply.checkpointed)

/-! ## The log moves on -/

/-- Blocks of the log lie in the image and beside the checkpoint. -/
theorem Agrees.beside (h : s.Agrees base older last) {w : List Buffer}
    (inside : ∀ buffer ∈ w, buffer.number < s.store.log.region.stop) :
    s.image.Fits w ∧ Image.SameOn s.store.checkpoints.region (s.image.storeAll w) s.image := by
  have hstop : s.store.log.region.stop = s.store.checkpoints.region.start := by
    rw [h.logRegion, h.slotRegion]
  have hle := h.tells.placed.inside
  have fits : s.image.Fits w := fun buffer hb => Nat.lt_of_lt_of_le (inside buffer hb) hle
  refine ⟨fits, Image.sameOn_storeAll fits fun buffer hb => .inl ?_⟩
  rw [← hstop]
  exact inside buffer hb

/-- A log of the same generation with other entries, written beside the checkpoint. -/
theorem Agrees.withLog (h : s.Agrees base older last) {log : Log} {w : List Buffer}
    {older' : List (List Mutation)} {last' : List Mutation}
    (tells : log.Tells (s.image.storeAll w) older' last')
    (inside : ∀ buffer ∈ w, buffer.number < s.store.log.region.stop)
    (device : log.device = s.store.log.device) (region : log.region = s.store.log.region)
    (generation : log.superblock.generation = s.store.log.superblock.generation) :
    (Session.mk { s.store with log, graph := base.replay (older'.flatten ++ last') }
      (s.image.storeAll w)).Agrees base older' last' := by
  obtain ⟨fits, same⟩ := h.beside inside
  have hversion : (Store.mk s.store.device log s.store.checkpoints
      (base.replay (older'.flatten ++ last')) s.store.halted).baseVersion =
        s.store.baseVersion := by
    unfold Store.baseVersion Log.generation
    rw [generation]
  exact {
    named := h.named
    count := h.count.trans (Image.blockCount_storeAll fits).symm
    enough := h.enough
    logDevice := device.trans h.logDevice
    logRegion := region.trans h.logRegion
    slotDevice := h.slotDevice
    slotRegion := h.slotRegion
    tells := tells
    onDisk := h.onDisk.congr (Nat.lt_of_succ_lt h.placed.wide) same
    restores := by
      rw [hversion]
      exact h.restores.congr fun n hs he => same n (Nat.le_of_succ_le hs) he
    graph := rfl
    running := h.running }

theorem Agrees.after_eq (h : s.Agrees base older last) (m : Mutation) :
    s.store.graph.after m = base.replay (older.flatten ++ last ++ [m]) := by
  rw [Graph.replay_append, ← h.graph]
  rfl

/-- A mutation in a tail that has room stands behind its entries. -/
theorem Agrees.mutation_push (h : s.Agrees base older last) {m : Mutation} {tail : LogBlock}
    (htail : s.store.log.tail = some tail) (room : tail.header.isFull = false)
    (number : tail.buffer.number < s.store.log.region.stop)
    (gives : (Log.append m).Gives s.store.log (.ok ()) (s.store.log.withTail (tail.push m))
      [(tail.push m).buffer]) :
    (s.serve (.mutation m)).store.device = s.store.device ∧
      (s.serve (.mutation m)).Agrees base older (last ++ [m]) := by
  obtain ⟨-, -, hserve⟩ := step_mutation (Store.gives_mutate h.running gives)
  have hagrees := h.withLog (h.tells.withTail htail room m) (by
    intro buffer hb
    rw [List.mem_singleton.1 hb, LogBlock.number_push]
    exact number) rfl rfl rfl
  rw [hserve, h.after_eq, List.append_assoc]
  exact ⟨rfl, hagrees⟩

/-- A mutation is the last entry of the log and is applied, or there is no space and nothing
happens. -/
theorem Agrees.mutation_appends (h : s.Agrees base older last) (m : Mutation) :
    (∃ log older' last', older'.flatten ++ last' = older.flatten ++ last ++ [m] ∧
      log.superblock.generation = s.store.log.superblock.generation ∧
      log.capacity + 1 = s.store.log.capacity ∧
      (s.step (.mutation m)).result = (s.store.graph.answer m).map .outcome ∧
      (s.serve (.mutation m)).store = { s.store with log, graph := s.store.graph.after m } ∧
      (s.serve (.mutation m)).Agrees base older' last') ∨
    (s.store.log.capacity = 0 ∧ (∃ n, (Log.append m s.store.log).result = .error (.noSpace n)) ∧
      (s.step (.mutation m)).result = .error .noSpace ∧ s.serve (.mutation m) = s) := by
  obtain ⟨tail, htail, room, -, number, gives⟩ | ⟨full, room, gives⟩ | ⟨full, spent, gives⟩ :=
    h.tells.append_cases m
  · obtain ⟨hresult, -, hserve⟩ := step_mutation (Store.gives_mutate h.running gives)
    have hentries : older.flatten ++ (last ++ [m]) = older.flatten ++ last ++ [m] :=
      (List.append_assoc ..).symm
    exact .inl ⟨s.store.log.withTail (tail.push m), older, last ++ [m], hentries, rfl,
      (h.tells.started.push htail room m).2, hresult, by rw [hserve],
      (h.mutation_push htail room number gives).2⟩
  · obtain ⟨hresult, -, hserve⟩ := step_mutation (Store.gives_mutate h.running gives)
    obtain ⟨-, capacity⟩ := h.tells.started.extended_push room m
    have hentries : (older ++ [last]).flatten ++ [m] = older.flatten ++ last ++ [m] := by
      rw [List.flatten_append, List.flatten_singleton]
    refine .inl ⟨s.store.log.extended.withTail (s.store.log.nextTail.push m), older ++ [last], [m],
      hentries, rfl, capacity.trans (h.tells.capacity_of_full full).symm, hresult, by rw [hserve],
      ?_⟩
    have hagrees := h.withLog (h.tells.extended_withTail full room m) (h.tells.number_lt room m)
      rfl rfl rfl
    rw [hserve, h.after_eq, ← hentries]
    exact hagrees
  · obtain ⟨hresult, -, hserve⟩ := step_mutation (Store.gives_mutate_noSpace h.running gives)
    have zero := h.tells.capacity_of_full full
    rw [Nat.sub_eq_zero_of_le spent, Nat.zero_mul] at zero
    exact .inr ⟨zero, ⟨_, gives.result_eq⟩, hresult, hserve⟩

/-- **A mutation** is appended and applied, or there is no space and nothing happens. -/
theorem Agrees.mutation (h : s.Agrees base older last) (m : Mutation) :
    (∃ log older' last', log.superblock.generation = s.store.log.superblock.generation ∧
      log.capacity + 1 = s.store.log.capacity ∧
      (s.step (.mutation m)).result = (s.store.graph.answer m).map .outcome ∧
      (s.serve (.mutation m)).store = { s.store with log, graph := s.store.graph.after m } ∧
      (s.serve (.mutation m)).Agrees base older' last') ∨
    (s.store.log.capacity = 0 ∧ (∃ n, (Log.append m s.store.log).result = .error (.noSpace n)) ∧
      (s.step (.mutation m)).result = .error .noSpace ∧ s.serve (.mutation m) = s) := by
  obtain ⟨log, older', last', -, appended⟩ | spent := h.mutation_appends m
  · exact .inl ⟨log, older', last', appended⟩
  · exact .inr spent

/-- A mutation that is appended is applied, in the same generation. -/
theorem Agrees.mutation_of_append (h : s.Agrees base older last) {m : Mutation}
    (appended : (Log.append m s.store.log).result = .ok ()) :
    (∃ older' last', (s.serve (.mutation m)).Agrees base older' last') ∧
      (s.serve (.mutation m)).store.graph = s.store.graph.after m ∧
      (s.serve (.mutation m)).store.log.superblock.generation =
        s.store.log.superblock.generation := by
  obtain ⟨log, older', last', hgeneration, -, -, hstore, agrees⟩ | ⟨-, ⟨n, failed⟩, -⟩ :=
    h.mutation m
  · refine ⟨⟨older', last', agrees⟩, ?_, ?_⟩
    · rw [hstore]
    · rw [hstore, ← hgeneration]
  · rw [appended] at failed
    cases failed

/-- Mutations that the tail has room for stand behind its entries, one after the other. -/
theorem Agrees.serveAll_push (h : s.Agrees base older last) (ms : List Mutation)
    (room : last.length + ms.length ≤ entriesPerBlock) :
    (s.serveAll (ms.map .mutation)).store.device = s.store.device ∧
      (s.serveAll (ms.map .mutation)).Agrees base older (last ++ ms) := by
  induction ms generalizing s last with
  | nil =>
    rw [List.append_nil]
    exact ⟨rfl, h⟩
  | cons m rest ih =>
    rw [List.length_cons] at room
    obtain ⟨tail, htail, hfull, -, number, gives⟩ | ⟨full, -⟩ | ⟨full, -⟩ := h.tells.append_cases m
    · obtain ⟨device, pushed⟩ := h.mutation_push htail hfull number gives
      obtain ⟨device', agrees⟩ := ih pushed (by
        rw [List.length_append, List.length_singleton]
        omega)
      rw [List.append_assoc] at agrees
      exact ⟨device'.trans device, agrees⟩
    · omega
    · omega

/-! ## Checkpoints -/

/-- The blocks of a checkpoint that succeeds: those of the commit, then those of the rotation. -/
def checkpointWrites (s : Session) : List Buffer :=
  s.store.checkpoints.commitWrites s.store.log.generation s.store.graph ++
    [s.store.log.rotated.superblock.buffer s.store.log.region.start, s.store.log.firstTail.buffer]

/-- The store after a checkpoint that succeeds. -/
def checkpointed (s : Session) : Store :=
  { s.store with
    log := s.store.log.rotated
    checkpoints := s.store.checkpoints.withSuperblock
      (.closing s.store.log.generation s.store.graph) }

/-- The generation that a rotation begins goes on from the one before. -/
theorem baseVersion_checkpointed
    (room : s.store.log.superblock.generation.toNat + 1 ≠ UInt32.size) :
    s.checkpointed.baseVersion = s.store.log.generation := by
  apply UInt64.toNat_inj.1
  rw [Store.toNat_baseVersion, Log.toNat_generation]
  show s.store.log.rotated.superblock.generation.toNat - 1 = _
  rw [Log.toNat_generation_rotated room, Nat.add_sub_cancel]

/-- Blocks of the checkpoint lie in the image and beside the log. -/
theorem Agrees.beside_log (h : s.Agrees base older last) {w : List Buffer}
    (inside : ∀ buffer ∈ w, s.store.checkpoints.region.start ≤ buffer.number ∧
      buffer.number < s.store.checkpoints.region.stop) :
    s.image.Fits w ∧ Image.SameOn s.store.log.region (s.image.storeAll w) s.image := by
  have hstop : s.store.log.region.stop = s.store.checkpoints.region.start := by
    rw [h.logRegion, h.slotRegion]
  have hle := h.placed.inside
  have fits : s.image.Fits w := fun buffer hb => Nat.lt_of_lt_of_le (inside buffer hb).2 hle
  refine ⟨fits, Image.sameOn_storeAll fits fun buffer hb => .inr ?_⟩
  rw [hstop]
  exact (inside buffer hb).1

theorem Agrees.checkpointed (h : s.Agrees base older last)
    (room : s.store.graph.words.length ≤ s.store.checkpoints.bodyWords)
    (next : s.store.log.superblock.generation.toNat + 1 ≠ UInt32.size) :
    (Session.mk s.checkpointed (s.image.storeAll s.checkpointWrites)).Agrees s.store.graph [] [] := by
  have hplaced := h.placed
  have hstop : s.store.log.region.stop = s.store.checkpoints.region.start := by
    rw [h.logRegion, h.slotRegion]
  have fits₁ := CheckpointSlot.fits_commitWrites hplaced s.store.log.generation room
  have hcount₁ := Image.blockCount_storeAll fits₁
  have onDisk := CheckpointSlot.onDisk_commit hplaced s.store.log.generation room
  have restores := CheckpointSlot.restores_commit hplaced s.store.log.generation h.simple room
  have tells := Log.tells_rotated (h.tells.placed.congr rfl rfl hcount₁)
  unfold checkpointWrites
  rw [Image.storeAll_append]
  generalize s.image.storeAll (s.store.checkpoints.commitWrites s.store.log.generation
    s.store.graph) = between at hcount₁ onDisk restores tells
  -- the log writes its first two blocks, both beside the checkpoint
  have inside := h.tells.placed.number_lt
  have fits : between.Fits [s.store.log.rotated.superblock.buffer s.store.log.region.start,
      s.store.log.firstTail.buffer] := by
    intro buffer hb
    rw [hcount₁]
    exact Nat.lt_of_lt_of_le (inside buffer hb) h.tells.placed.inside
  have same : Image.SameOn s.store.checkpoints.region (between.storeAll _) between :=
    Image.sameOn_storeAll fits fun buffer hb => .inl (by rw [← hstop]; exact inside buffer hb)
  have hcount := Image.blockCount_storeAll fits
  generalize between.storeAll [s.store.log.rotated.superblock.buffer s.store.log.region.start,
    s.store.log.firstTail.buffer] = after at same hcount tells
  exact {
    named := h.named
    count := h.count.trans (hcount.trans hcount₁).symm
    enough := h.enough
    logDevice := h.logDevice
    logRegion := h.logRegion
    slotDevice := h.slotDevice
    slotRegion := h.slotRegion
    tells := tells
    onDisk := onDisk.congr (Nat.lt_of_succ_lt hplaced.wide) same
    restores := by
      rw [baseVersion_checkpointed next]
      exact restores.congr fun n hs he => same n (Nat.le_of_succ_le hs) he
    graph := rfl
    running := h.running }

/-- With room for the graph and a generation to come, a checkpoint succeeds. -/
theorem Agrees.checkpoint_of_room (h : s.Agrees base older last)
    (room : s.store.graph.words.length ≤ s.store.checkpoints.bodyWords)
    (next : s.store.log.superblock.generation.toNat + 1 ≠ UInt32.size) :
    (s.step .checkpoint).result = .ok (.checkpointed s.store.log.rotated.generation) ∧
      (s.step .checkpoint).writes = s.checkpointWrites ∧
      s.serve .checkpoint = ⟨s.checkpointed, s.image.storeAll s.checkpointWrites⟩ ∧
      (s.serve .checkpoint).Agrees s.store.graph [] [] := by
  obtain ⟨hresult, hwrites, hserve⟩ := step_checkpoint
    (Store.gives_checkpoint h.running
      (CheckpointSlot.gives_commit h.placed s.store.log.generation room)
      (Log.gives_rotate h.tells.placed next))
  refine ⟨hresult, hwrites, hserve, ?_⟩
  rw [hserve]
  exact h.checkpointed room next

/-- A graph that does not fit leaves everything as it was. -/
theorem Agrees.checkpoint_of_full (h : s.Agrees base older last)
    (full : s.store.checkpoints.bodyWords < s.store.graph.words.length) :
    (s.step .checkpoint).result = .error .noSpace ∧ (s.step .checkpoint).writes = [] ∧
      s.serve .checkpoint = s :=
  step_checkpoint (Store.gives_checkpoint_noSpace h.running
    (CheckpointSlot.gives_commit_noSpace s.store.log.generation full))

/-- In the last generation the checkpoint stands, the log stays as it is, and the store halts. -/
theorem Agrees.checkpoint_of_spent (h : s.Agrees base older last)
    (room : s.store.graph.words.length ≤ s.store.checkpoints.bodyWords)
    (spent : s.store.log.superblock.generation.toNat + 1 = UInt32.size) :
    (s.step .checkpoint).result =
        .error (StoreError.rotationFailed .generationsExhausted).refusal ∧
      (s.step .checkpoint).writes =
        s.store.checkpoints.commitWrites s.store.log.generation s.store.graph ∧
      s.serve .checkpoint =
        ⟨{ s.store with
            checkpoints := s.store.checkpoints.withSuperblock
              (.closing s.store.log.generation s.store.graph)
            halted := true },
          s.image.storeAll
            (s.store.checkpoints.commitWrites s.store.log.generation s.store.graph)⟩ :=
  step_checkpoint (Store.gives_checkpoint_rotationFailed h.running
    (CheckpointSlot.gives_commit h.placed s.store.log.generation room)
    (Log.gives_rotate_last spent))

/-- **A checkpoint** makes the graph the base of an empty log; or there is no space and nothing
happens; or the generations are spent, and the store halts. -/
theorem Agrees.checkpoint (h : s.Agrees base older last) :
    (s.store.graph.words.length ≤ s.store.checkpoints.bodyWords ∧
      s.store.log.superblock.generation.toNat + 1 ≠ UInt32.size ∧
      (s.step .checkpoint).result = .ok (.checkpointed s.store.log.rotated.generation) ∧
      (s.step .checkpoint).writes = s.checkpointWrites ∧
      s.serve .checkpoint = ⟨s.checkpointed, s.image.storeAll s.checkpointWrites⟩ ∧
      (s.serve .checkpoint).Agrees s.store.graph [] []) ∨
    (s.store.checkpoints.bodyWords < s.store.graph.words.length ∧
      (s.step .checkpoint).result = .error .noSpace ∧ s.serve .checkpoint = s) ∨
    (s.store.log.superblock.generation.toNat + 1 = UInt32.size ∧
      (s.step .checkpoint).result =
        .error (StoreError.rotationFailed .generationsExhausted).refusal ∧
      (s.serve .checkpoint).store.halted = true ∧
      (s.serve .checkpoint).store.log = s.store.log ∧
      Image.SameOn s.store.log.region (s.serve .checkpoint).image s.image) := by
  by_cases room : s.store.graph.words.length ≤ s.store.checkpoints.bodyWords
  · by_cases next : s.store.log.superblock.generation.toNat + 1 = UInt32.size
    · obtain ⟨hresult, -, hserve⟩ := h.checkpoint_of_spent room next
      have hbeside := h.beside_log
        (w := s.store.checkpoints.commitWrites s.store.log.generation s.store.graph)
        fun buffer hb => CheckpointSlot.number_of_mem_commitWrites h.placed room hb
      refine .inr (.inr ⟨next, hresult, ?_, ?_, ?_⟩)
      · rw [hserve]
      · rw [hserve]
      · simp only [hserve]
        exact hbeside.2
    · exact .inl ⟨room, next, h.checkpoint_of_room room next⟩
  · obtain ⟨hresult, -, hserve⟩ := h.checkpoint_of_full (Nat.lt_of_not_le room)
    exact .inr (.inl ⟨Nat.lt_of_not_le room, hresult, hserve⟩)

/-- A checkpoint has room for a block of words at least. -/
theorem Agrees.one_block (h : s.Agrees base older last) : 512 ≤ s.store.checkpoints.bodyWords := by
  have henough := h.enough
  unfold CheckpointSlot.bodyWords CheckpointSlot.body
  rw [h.slotRegion]
  show 512 ≤ (s.store.device.blockCount - (s.store.device.blockCount / 5 + 1)) * 512
  omega

/-! ## Any request -/

theorem step_query (running : s.store.halted = false) (q : Query) :
    (s.step (.query q)).result = s.store.graph.look q ∧ s.serve (.query q) = s := by
  have hlook : (Store.serve (.query q)).Gives s.store (s.store.graph.look q) s.store [] :=
    Store.gives_look running q
  obtain ⟨hresult, -, hserve⟩ := step_of_gives hlook
  exact ⟨hresult, hserve⟩

/-- A store that has halted stays as it is. -/
theorem serve_halted (halted : s.store.halted = true) (request : Request) :
    s.serve request = s := (step_of_gives (Store.gives_serve_halted halted request)).2.2

/-- A session goes on: it still agrees, at most one generation later, and no fault was told. -/
structure GoesOn (s : Session) (request : Request) : Prop where
  agrees : ∃ base older last, (s.serve request).Agrees base older last
  generation_le : s.store.log.superblock.generation.toNat ≤
    (s.serve request).store.log.superblock.generation.toNat
  generation_le_succ : (s.serve request).store.log.superblock.generation.toNat ≤
    s.store.log.superblock.generation.toNat + 1
  harmless : ∀ refusal, (s.step request).result = .error refusal → refusal.isFault = false

/-- What leaves a session as it is lets it go on. -/
theorem Agrees.goesOn_same (h : s.Agrees base older last) {request : Request}
    (same : s.serve request = s)
    (harmless : ∀ refusal, (s.step request).result = .error refusal → refusal.isFault = false) :
    s.GoesOn request where
  agrees := by
    rw [same]
    exact ⟨_, _, _, h⟩
  generation_le := Nat.le_of_eq (by rw [same])
  generation_le_succ := by
    rw [same]
    exact Nat.le_succ _
  harmless := harmless

/-- **One request.**  The session goes on, or a rotation failed in the last generation and the
store has halted. -/
theorem Agrees.serve (h : s.Agrees base older last) (request : Request) :
    s.GoesOn request ∨
    (s.store.log.superblock.generation.toNat + 1 = UInt32.size ∧
      (s.step request).result =
        .error (StoreError.rotationFailed .generationsExhausted).refusal ∧
      (s.serve request).store.halted = true ∧
      (s.serve request).store.log = s.store.log ∧
      Image.SameOn s.store.log.region (s.serve request).image s.image) := by
  cases request with
  | mutation m =>
    obtain ⟨log, older', last', hgeneration, -, hresult, hstore, agrees⟩ |
      ⟨-, -, hresult, hserve⟩ := h.mutation m
    · left
      exact {
        agrees := ⟨_, _, _, agrees⟩
        generation_le := Nat.le_of_eq (by rw [hstore, hgeneration])
        generation_le_succ := by
          rw [hstore, hgeneration]
          exact Nat.le_succ _
        harmless := by
          intro refusal hrefusal
          rw [hresult] at hrefusal
          exact (Graph.ofGraph_answer (Graph.map_eq_error_iff.1 hrefusal)).isFault }
    · refine .inl (h.goesOn_same hserve fun refusal hrefusal => ?_)
      rw [hresult] at hrefusal
      cases hrefusal
      rfl
  | query q =>
    obtain ⟨hresult, hserve⟩ := step_query h.running q
    refine .inl (h.goesOn_same hserve fun refusal hrefusal => ?_)
    rw [hresult] at hrefusal
    exact (Graph.ofGraph_look hrefusal).isFault
  | checkpoint =>
    obtain ⟨-, next, hresult, -, hserve, agrees⟩ | ⟨-, hresult, hserve⟩ | ⟨spent, hfailed⟩ :=
      h.checkpoint
    · have hgeneration : (s.serve .checkpoint).store.log.superblock.generation.toNat =
          s.store.log.superblock.generation.toNat + 1 := by
        rw [hserve]
        exact Log.toNat_generation_rotated next
      left
      exact {
        agrees := ⟨_, _, _, agrees⟩
        generation_le := by omega
        generation_le_succ := by omega
        harmless := by
          intro refusal hrefusal
          rw [hresult] at hrefusal
          cases hrefusal }
    · refine .inl (h.goesOn_same hserve fun refusal hrefusal => ?_)
      rw [hresult] at hrefusal
      cases hrefusal
      rfl
    · exact .inr ⟨spent, hfailed⟩
  | edgePart access near far =>
    refine .inl (h.goesOn_same rfl fun refusal hrefusal => ?_)
    cases hrefusal
    rfl

/-- A session is sound if its store agrees with its image or has halted. -/
def Sound (s : Session) : Prop :=
  (∃ base older last, s.Agrees base older last) ∨ s.store.halted = true

theorem Sound.serve (h : s.Sound) (request : Request) : (s.serve request).Sound := by
  obtain ⟨base, older, last, agrees⟩ | halted := h
  · obtain goesOn | ⟨-, -, halted, -⟩ := agrees.serve request
    · exact .inl goesOn.agrees
    · exact .inr halted
  · rw [serve_halted halted]
    exact .inr halted

end Session

/-! ## Runs -/

/-- **Any run** from a sound session ends in one, by induction on the run. -/
theorem Run.sound {s t : Session} {events : List SessionEvent} (run : Run s events t)
    (sound : s.Sound) : t.Sound := by
  induction run with
  | nil => exact sound
  | serve request rest ih => exact ih (sound.serve request)
  | reopen settings opened rest ih => exact ih (.inl (Session.exists_agrees_of_ofImage? opened))

/-- A run in which no rotation failed ends in a store that agrees with its image. -/
theorem Run.agrees {s t : Session} {events : List SessionEvent} (run : Run s events t)
    (agrees : ∃ base older last, s.Agrees base older last)
    (fine : ∀ request e,
      .served request (.error (StoreError.rotationFailed e).refusal) ∉ events) :
    ∃ base older last, t.Agrees base older last := by
  induction run with
  | nil => exact agrees
  | serve request rest ih =>
    obtain ⟨base, older, last, h⟩ := agrees
    obtain goesOn | ⟨-, failed, -, -⟩ := h.serve request
    · exact ih goesOn.agrees fun r e he => fine r e (List.mem_cons_of_mem _ he)
    · exact absurd (by rw [failed]; exact List.mem_cons_self) (fine request .generationsExhausted)
  | reopen settings opened rest ih =>
    exact ih (Session.exists_agrees_of_ofImage? opened)
      fun r e he => fine r e (List.mem_cons_of_mem _ he)

/-- No rotation fails while there are as many generations to come as there are requests. -/
theorem Session.Agrees.exists_run {s : Session} {base : Graph} {older : List (List Mutation)}
    {last : List Mutation} (h : s.Agrees base older last) (requests : List Request)
    (room : s.store.log.superblock.generation.toNat + requests.length < UInt32.size) :
    ∃ events, Run s events (s.serveAll requests) ∧
      ∀ request e, .served request (.error (StoreError.rotationFailed e).refusal) ∉ events := by
  induction requests generalizing s base older last with
  | nil => exact ⟨[], .nil s, fun _ _ => List.not_mem_nil⟩
  | cons request rest ih =>
    rw [List.length_cons] at room
    obtain goesOn | ⟨spent, -⟩ := h.serve request
    · obtain ⟨base', older', last', agrees⟩ := goesOn.agrees
      have hnext := goesOn.generation_le_succ
      obtain ⟨events, run, fine⟩ := ih agrees (by omega)
      refine ⟨_, .serve request run, fun request' e he => ?_⟩
      rcases List.mem_cons.1 he with heq | he
      · injection heq with _ hresult
        cases goesOn.harmless _ hresult.symm
      · exact fine request' e he
    · omega

/-! ## A store that was in use -/

/-- A store with one node, in its checkpoint and not in its log, that goes on to another one. -/
theorem Session.exists_checkpointed_reused :
    ∃ s t events reply, ofImage? ⟨"disk", true, false, "warn"⟩ .reused = some s ∧
      s.serveAll [.mutation (.addNode 7), .checkpoint] = t ∧ Run s events t ∧
      t.Agrees ((∅ : Graph).after (.addNode 7)) [] [] ∧
      0 < t.store.log.superblock.generation.toNat ∧
      t.store.graph.words.length ≤ t.store.checkpoints.bodyWords ∧
      (t.step .checkpoint).result = .ok reply ∧
      (t.step .checkpoint).writes = t.checkpointWrites := by
  obtain ⟨s, opened, h, generation⟩ := exists_ofImage?_reused
  obtain ⟨events, run, -⟩ := h.exists_run [.mutation (.addNode 7), .checkpoint]
    (by rw [generation]; decide)
  have few : ((∅ : Graph).after (.addNode 7)).words.length ≤ 512 := by decide
  have reached : s.serveAll [.mutation (.addNode 7), .checkpoint] =
    (s.serve (.mutation (.addNode 7))).serve .checkpoint := rfl
  -- the mutation finds an empty block
  obtain ⟨⟨older, last, h₁⟩, graph₁, generation₁⟩ := h.mutation_of_append
    (h.tells.append_eq_ok (Nat.zero_lt_succ _) (.addNode 7))
  rw [show s.store.graph = ∅ from h.graph] at graph₁
  rw [reached] at run
  refine ⟨s, (s.serve (.mutation (.addNode 7))).serve .checkpoint, events, ?_⟩
  rw [reached]
  generalize s.serve (.mutation (.addNode 7)) = s₁ at h₁ graph₁ generation₁ run ⊢
  -- the first checkpoint has room, and so has the second
  have next₁ : s₁.store.log.superblock.generation.toNat + 1 ≠ UInt32.size := by
    rw [generation₁, generation]
    decide
  obtain ⟨-, -, hserve, h₂⟩ := h₁.checkpoint_of_room (by
    rw [graph₁]
    exact Nat.le_trans few h₁.one_block) next₁
  have generation₂ : (s₁.serve .checkpoint).store.log.superblock.generation.toNat = 7 := by
    rw [hserve]
    exact (Log.toNat_generation_rotated next₁).trans (by rw [generation₁, generation])
  rw [graph₁] at h₂
  have room₂ : (s₁.serve .checkpoint).store.graph.words.length ≤
      (s₁.serve .checkpoint).store.checkpoints.bodyWords := by
    rw [show _ = (∅ : Graph).after (.addNode 7) from h₂.graph]
    exact Nat.le_trans few h₂.one_block
  obtain ⟨done, writes, -, -⟩ := h₂.checkpoint_of_room room₂ (by
    rw [generation₂]
    decide)
  exact ⟨_, opened, rfl, run, h₂, by omega, room₂, done, writes⟩

end DurableGraph
