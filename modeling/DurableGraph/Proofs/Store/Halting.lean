import DurableGraph.Proofs.Store.Generations
import DurableGraph.Proofs.Store.Refinement

/-!
# Halting

A store halts for one reason: a checkpoint that has room for its graph finds no generation to
go on to.  Want of space never halts it.  Once halted it refuses everything, and stays as it is
until it is opened again.

    halts on a request   ↔  a checkpoint, in the last generation, of a graph that fits
    halted               →  serveAll requests changes nothing
    Run s events t       →  generation of s ≤ generation of t
-/

namespace DurableGraph

/-- A session that has halted, for as long as its store is not opened again. -/
structure Session.Stopped (s : Session) : Prop where
  graph : ∀ request, (∀ access near far, request ≠ .edgePart access near far) →
    (s.step request).result = .error .halted
  edgePart : ∀ access near far,
    (s.step (.edgePart access near far)).result = .error .wrongPartition
  snapshot : (Store.snapshot s.store).result = .error .halted ∧
    (Store.snapshot s.store).state = s.store ∧ (Store.snapshot s.store).writes = []
  unchanged : ∀ requests, s.serveAll requests = s

/-- When a session halts, and how its generations go on. -/
structure Session.HaltsLast (s : Session) : Prop where
  /-- A graph fits if its words fit into the blocks behind the superblock of the checkpoint. -/
  halts_iff : s.store.stats.halted = false → ∀ request,
    (s.serve request).store.stats.halted = true ↔
      request = .checkpoint ∧ s.store.stats.generation + 1 = UInt32.size ∧
        s.store.graph.words.length ≤
          512 * (s.store.stats.deviceBlocks - s.store.stats.deviceBlocks / 5 - 1)
  told : s.store.stats.halted = false → ∀ request,
    (s.serve request).store.stats.halted = true →
      (s.step request).result =
        .error (.storage (StoreError.rotationFailed .generationsExhausted).message)
  mutation : ∀ m, (s.serve (.mutation m)).store.stats.halted = s.store.stats.halted
  noSpace : ∀ request, (s.step request).result = .error .noSpace → s.serve request = s
  /-- A checkpoint that succeeds begins the next generation, and tells it. -/
  checkpointed : ∀ reply, (s.step .checkpoint).result = .ok reply →
    ∃ generation, reply = .checkpointed generation ∧
      generation.toNat = s.store.stats.generation + 1 ∧
      (s.serve .checkpoint).store.stats.generation = s.store.stats.generation + 1
  generation_lt : s.store.stats.generation < UInt32.size
  generation_le : ∀ {events t}, Run s events t →
    s.store.stats.generation ≤ t.store.stats.generation
  stopped : s.store.stats.halted = true → s.Stopped

namespace Session

variable {s t : Session} {base : Graph} {older : List (List Mutation)} {last : List Mutation}

/-! ## Halted -/

theorem serveAll_halted (halted : s.store.halted = true) (requests : List Request) :
    s.serveAll requests = s := by
  induction requests with
  | nil => rfl
  | cons request rest ih =>
    show (s.serve request).serveAll rest = s
    rw [serve_halted halted]
    exact ih

/-- **A store that has halted** refuses everything and stays as it is. -/
theorem stopped_of_halted (halted : s.store.halted = true) : s.Stopped where
  graph request apart := by
    have refused := (step_of_gives (Store.gives_serve_halted halted request)).1
    cases request with
    | edgePart access near far => exact absurd rfl (apart access near far)
    | mutation m => exact refused
    | query q => exact refused
    | checkpoint => exact refused
  edgePart access near far := (step_of_gives (Store.gives_serve_halted halted _)).1
  snapshot := by
    have refused : Store.snapshot.Gives s.store (.error .halted) s.store [] :=
      (Store.gives_running_halted halted).bind_error _
    exact ⟨refused.result_eq, refused.state_eq, refused.writes_eq⟩
  unchanged := serveAll_halted halted

/-! ## Running -/

theorem Agrees.running_mutation (h : s.Agrees base older last) (m : Mutation) :
    (s.serve (.mutation m)).store.halted = false := by
  obtain ⟨_, _, _, -, -, -, -, agrees⟩ | ⟨-, -, -, hserve⟩ := h.mutation m
  · exact agrees.running
  · rw [hserve]
    exact h.running

theorem Agrees.bodyWords_eq (h : s.Agrees base older last) :
    s.store.checkpoints.bodyWords =
      512 * (s.store.device.blockCount - s.store.device.blockCount / 5 - 1) := by
  unfold CheckpointSlot.bodyWords CheckpointSlot.body
  rw [h.slotRegion, Nat.mul_comm, Nat.sub_sub]
  rfl

/-- **One request** halts a store in its last generation only, and only a checkpoint does. -/
theorem Agrees.halts_iff (h : s.Agrees base older last) (request : Request) :
    (s.serve request).store.halted = true ↔
      request = .checkpoint ∧ s.store.log.superblock.generation.toNat + 1 = UInt32.size ∧
        s.store.graph.words.length ≤ s.store.checkpoints.bodyWords := by
  have running : ∀ {t : Session}, t.store.halted = false → ¬ t.store.halted = true :=
    fun going halted => Bool.false_ne_true (going.symm.trans halted)
  cases request with
  | mutation m => exact iff_of_false (running (h.running_mutation m)) (by simp)
  | query q =>
    rw [(step_query h.running q).2]
    exact iff_of_false (running h.running) (by simp)
  | edgePart access near far => exact iff_of_false (running h.running) (by simp)
  | checkpoint =>
    by_cases room : s.store.graph.words.length ≤ s.store.checkpoints.bodyWords
    · by_cases spent : s.store.log.superblock.generation.toNat + 1 = UInt32.size
      · refine iff_of_true ?_ ⟨rfl, spent, room⟩
        rw [(h.checkpoint_of_spent room spent).2.2]
      · obtain ⟨-, -, -, agrees⟩ := h.checkpoint_of_room room spent
        exact iff_of_false (running agrees.running) fun all => spent all.2.1
    · rw [(h.checkpoint_of_full (Nat.lt_of_not_le room)).2.2]
      exact iff_of_false (running h.running) fun all => room all.2.2

/-- A store that tells of no space is as it was. -/
theorem Agrees.serve_of_noSpace (h : s.Agrees base older last) {request : Request}
    (spent : (s.step request).result = .error .noSpace) : s.serve request = s := by
  cases request with
  | mutation m =>
    obtain ⟨_, _, _, -, -, hresult, -, -⟩ | ⟨-, -, -, hserve⟩ := h.mutation m
    · -- the graph itself never lacks space
      rw [hresult, Graph.map_eq_error_iff] at spent
      exact absurd rfl (Graph.ofGraph_answer spent).ne_noSpace
    · exact hserve
  | query q => exact (step_query h.running q).2
  | edgePart access near far => rfl
  | checkpoint =>
    obtain ⟨-, -, hresult, -⟩ | ⟨-, -, hserve⟩ | ⟨-, hresult, -⟩ := h.checkpoint
    · rw [spent] at hresult
      cases hresult
    · exact hserve
    · rw [spent] at hresult
      cases hresult

/-! ## In step -/

theorem Agrees.haltsLast (h : s.Agrees base older last) : s.HaltsLast where
  halts_iff _ request := by
    have halts := h.halts_iff request
    rw [h.bodyWords_eq] at halts
    rw [stats_generation]
    exact halts
  told _ request halted := by
    obtain ⟨rfl, spent, room⟩ := (h.halts_iff request).1 halted
    exact (h.checkpoint_of_spent room spent).1
  mutation m := (h.running_mutation m).trans h.running.symm
  noSpace _ := h.serve_of_noSpace
  checkpointed reply done := by
    obtain ⟨generation, heq, told, next, -⟩ := h.refines.checkpoint_ok reply done
    exact ⟨generation, heq, told, next⟩
  generation_lt := by
    rw [stats_generation]
    exact s.generation_lt
  generation_le run := by
    rw [stats_generation, stats_generation]
    exact (run.inStep h.inStep).2
  stopped := stopped_of_halted

theorem InStep.haltsLast_of_halted (h : s.InStep) (halted : s.store.halted = true) :
    s.HaltsLast where
  halts_iff running := absurd (running.symm.trans halted) Bool.false_ne_true
  told running := absurd (running.symm.trans halted) Bool.false_ne_true
  mutation m := by rw [serve_halted halted]
  noSpace request _ := serve_halted halted request
  checkpointed reply done := by
    have refused := (stopped_of_halted halted).graph .checkpoint fun _ _ _ => nofun
    rw [done] at refused
    cases refused
  generation_lt := by
    rw [stats_generation]
    exact s.generation_lt
  generation_le run := by
    rw [stats_generation, stats_generation]
    exact (run.inStep h).2
  stopped := stopped_of_halted

end Session

/-! ## Top theorem -/

/-- **A store halts at the end of its generations, and at no other time.**  Whatever image it
was opened on, with or without a format, and whatever has been served since, reopenings in
between. -/
theorem haltsLast_of_run {settings : Settings} {image : Image} {s t : Session}
    {events : List SessionEvent} (opened : Session.ofImage? settings image = some s)
    (run : Run s events t) : s.store.stats.halted = false ∧ t.HaltsLast := by
  obtain ⟨base, older, last, agrees⟩ := Session.exists_agrees_of_ofImage? opened
  obtain ⟨inStep, -⟩ := run.inStep agrees.inStep
  refine ⟨agrees.running, ?_⟩
  obtain ⟨base', older', last', agrees'⟩ | halted := inStep.sound
  · exact agrees'.haltsLast
  · exact inStep.haltsLast_of_halted halted

/-- Ten blocks, with the superblock of a log in its last generation but one. -/
@[irreducible]
def Image.worn : Image := (zeros 40960).store (LogSuperblock.buffer ⟨4294967294, 1, 1⟩ 0)

theorem Image.blockCount_worn : worn.blockCount = 10 := by
  unfold worn
  exact blockCount_first _ (by decide)

theorem Image.nextGeneration_worn : Log.nextGeneration worn 0 = 4294967295 := by
  unfold worn
  exact nextGeneration_first _ (by decide)

/-- The last generation begins with a format, and the first checkpoint halts the store. -/
theorem haltsLast_of_run_worn :
    ∃ s t events, Session.ofImage? ⟨"disk", true, false, "warn"⟩ .worn = some s ∧
      Run s events t ∧ s.store.stats.halted = false ∧ t.HaltsLast ∧
      s.serve .checkpoint = t ∧ t.store.stats.halted = true ∧
      t.store.stats.generation = 4294967295 ∧
      (t.step (.mutation (.addNode 7))).result = .error .halted := by
  obtain ⟨s, opened, agrees, generation⟩ := Session.exists_ofImage?_disk
    (Nat.le_of_eq Image.blockCount_worn.symm) (by rw [Image.blockCount_worn]; decide)
    (by rw [Image.nextGeneration_worn]; decide)
  rw [Image.nextGeneration_worn] at generation
  have run : Run s _ (s.serve .checkpoint) := .serve .checkpoint (.nil _)
  have room : s.store.graph.words.length ≤ s.store.checkpoints.bodyWords := by
    rw [show s.store.graph = ∅ from agrees.graph]
    exact Nat.zero_le _
  have spent : s.store.log.superblock.generation.toNat + 1 = UInt32.size := by
    rw [generation]
  have halted := (agrees.halts_iff .checkpoint).2 ⟨rfl, spent, room⟩
  have same : (s.serve .checkpoint).store.log = s.store.log := by
    rw [(agrees.checkpoint_of_spent room spent).2.2]
  obtain ⟨running, last⟩ := haltsLast_of_run opened run
  refine ⟨s, _, _, opened, run, running, last, rfl, halted, ?_,
    (last.stopped halted).graph _ fun _ _ _ => nofun⟩
  rw [Session.stats_generation, Session.generation, same, generation]

end DurableGraph
