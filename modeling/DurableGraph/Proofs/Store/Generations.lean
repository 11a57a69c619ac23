import DurableGraph.Proofs.Store.Serving

/-!
# Generations

The generation of a store is that of its image, also where the store has halted, and it only
ever grows: by one with a checkpoint that succeeds and with a format, and by nothing else.

    opened                                → s.InStep               (inStep_of_ofImage?)
    s.InStep → Run s events t             → t.InStep, s ≤ t        (Run.inStep)

A checkpoint that can be restored is of an earlier generation than the log.  This is what keeps
it from being found under a generation that has not begun.
-/

namespace DurableGraph

namespace Session

/-- The generation that the log counts. -/
def generation (s : Session) : Nat := s.store.log.superblock.generation.toNat

/-- A sound session whose store is of the generation of its image. -/
structure InStep (s : Session) : Prop where
  sound : s.Sound
  next_eq : Log.nextGeneration s.image 0 = s.generation + 1

/-- A session that agrees, with a checkpoint of an earlier generation if there is one. -/
structure Dated (s : Session) : Prop where
  agrees : ∃ base older last, s.Agrees base older last
  earlier : s.store.checkpoints.superblock.committed = true →
    s.store.checkpoints.superblock.version.toNat < s.generation

variable {s t : Session} {base : Graph} {older : List (List Mutation)} {last : List Mutation}
  {settings : Settings} {image : Image}

/-! ## One step -/

/-- It is the one that is told. -/
theorem stats_generation (s : Session) : s.store.stats.generation = s.generation :=
  Log.toNat_generation s.store.log

theorem generation_lt (s : Session) : s.generation < UInt32.size := UInt32.toNat_lt_size _

theorem Agrees.inStep (h : s.Agrees base older last) : s.InStep where
  sound := .inl ⟨_, _, _, h⟩
  next_eq := h.nextGeneration_eq

theorem inStep_of_ofImage? (opened : ofImage? settings image = some s) : s.InStep := by
  obtain ⟨base, older, last, agrees⟩ := exists_agrees_of_ofImage? opened
  exact agrees.inStep

/-- Where only the log's region is the same, so is the generation of the image. -/
theorem Agrees.nextGeneration_of_sameOn (h : s.Agrees base older last) {after : Image}
    (same : Image.SameOn s.store.log.region after s.image) :
    Log.nextGeneration after 0 = Log.nextGeneration s.image 0 := by
  have hstart := h.start_eq
  have hwide := h.tells.placed.wide
  unfold Log.nextGeneration
  rw [same 0 (by omega) (by omega)]

/-- **A request** leaves the session in step, and the generation does not fall. -/
theorem InStep.serve (h : s.InStep) (request : Request) :
    (s.serve request).InStep ∧ s.generation ≤ (s.serve request).generation := by
  obtain ⟨base, older, last, agrees⟩ | halted := h.sound
  · obtain goesOn | ⟨-, -, halted, log, same⟩ := agrees.serve request
    · obtain ⟨base', older', last', agrees'⟩ := goesOn.agrees
      exact ⟨agrees'.inStep, goesOn.generation_le⟩
    · have hgeneration : (s.serve request).generation = s.generation := by
        unfold generation
        rw [log]
      refine ⟨⟨.inr halted, ?_⟩, Nat.le_of_eq hgeneration.symm⟩
      rw [agrees.nextGeneration_of_sameOn same, hgeneration]
      exact h.next_eq
  · rw [serve_halted halted]
    exact ⟨h, Nat.le_refl _⟩

/-- **Reopening** goes on in the same generation, and formatting in the next one. -/
theorem InStep.reopen (h : s.InStep) (opened : ofImage? settings s.image = some t) :
    t.InStep ∧ t.generation = if settings.format then s.generation + 1 else s.generation := by
  refine ⟨inStep_of_ofImage? opened, ?_⟩
  cases format : settings.format with
  | true => exact (agrees_of_ofImage?_format opened format).2.trans h.next_eq
  | false =>
    have himage := (agrees_of_ofImage?_recover opened format).1
    have hnext := (inStep_of_ofImage? opened).next_eq
    rw [himage, h.next_eq] at hnext
    exact (Nat.succ.inj hnext).symm

end Session

/-- **Any run** leaves a session in step, and the generation never falls. -/
theorem Run.inStep {s t : Session} {events : List SessionEvent} (run : Run s events t)
    (h : s.InStep) : t.InStep ∧ s.generation ≤ t.generation := by
  induction run with
  | nil => exact ⟨h, Nat.le_refl _⟩
  | serve request rest ih =>
    obtain ⟨inStep, le⟩ := h.serve request
    obtain ⟨inStep', le'⟩ := ih inStep
    exact ⟨inStep', Nat.le_trans le le'⟩
  | reopen settings opened rest ih =>
    obtain ⟨inStep, generation⟩ := h.reopen opened
    obtain ⟨inStep', le'⟩ := ih inStep
    refine ⟨inStep', Nat.le_trans ?_ le'⟩
    rw [generation]
    split <;> omega

/-! ## Checkpoints of earlier generations -/

namespace Session

variable {s t : Session} {base base' : Graph} {older older' : List (List Mutation)}
  {last last' : List Mutation} {settings : Settings} {image : Image}

/-- The superblock of the checkpoint is decided by the image. -/
theorem Agrees.checkpoints_superblock_eq (h : s.Agrees base older last)
    (h' : t.Agrees base' older' last') (same : t.image = s.image) :
    t.store.checkpoints.superblock = s.store.checkpoints.superblock := by
  obtain ⟨content, held, decoded⟩ := h.onDisk
  obtain ⟨content', held', decoded'⟩ := h'.onDisk
  rw [h.slotRegion, h.count] at held
  rw [h'.slotRegion, h'.count, same] at held'
  rw [held] at held'
  cases held'
  exact decoded'.symm.trans decoded

/-- A format leaves no checkpoint. -/
theorem checkpoints_of_ofImage?_format (opened : ofImage? settings image = some s)
    (format : settings.format = true) : s.store.checkpoints.superblock = .none := by
  obtain ⟨-, enough, small, w, gives, -⟩ := ofImage?_eq_some_iff.1 opened
  rw [format] at gives
  obtain ⟨generation, log, slot, w₁, w₂, -, hslot, hstore, -⟩ := Store.gives_format_inv gives
  have placed := placed_blank_checkpoints settings.device enough small
  obtain ⟨-, rfl, -⟩ := (CheckpointSlot.gives_storeSuperblock placed .none).unique hslot
  rw [hstore]
  rfl

theorem dated_of_ofImage?_format (opened : ofImage? settings image = some s)
    (format : settings.format = true) : s.Dated where
  agrees := ⟨_, _, _, (agrees_of_ofImage?_format opened format).1⟩
  earlier := by
    rw [checkpoints_of_ofImage?_format opened format]
    intro committed
    cases committed

/-- **A request** leaves the checkpoint earlier than the log, unless the generations are spent. -/
theorem Dated.serve (h : s.Dated) (request : Request) :
    (s.serve request).Dated ∨ s.generation + 1 = UInt32.size := by
  obtain ⟨base, older, last, agrees⟩ := h.agrees
  cases request with
  | mutation m =>
    obtain ⟨log, older', last', hgeneration, -, -, hstore, agrees'⟩ | ⟨-, -, -, hserve⟩ :=
      agrees.mutation m
    · refine .inl ⟨⟨_, _, _, agrees'⟩, ?_⟩
      unfold generation
      rw [hstore, hgeneration]
      exact h.earlier
    · rw [hserve]
      exact .inl h
  | query q =>
    rw [(step_query agrees.running q).2]
    exact .inl h
  | checkpoint =>
    obtain ⟨-, next, -, -, hserve, agrees'⟩ | ⟨-, -, hserve⟩ | ⟨spent, -⟩ := agrees.checkpoint
    · refine .inl ⟨⟨_, _, _, agrees'⟩, fun _ => ?_⟩
      unfold generation
      rw [hserve]
      show s.store.log.generation.toNat < s.store.log.rotated.superblock.generation.toNat
      rw [Log.toNat_generation_rotated next, Log.toNat_generation]
      exact Nat.lt_succ_self _
    · rw [hserve]
      exact .inl h
    · exact .inr spent
  | edgePart access near far => exact .inl h

/-- Reopening and formatting keep it so. -/
theorem Dated.reopen (h : s.Dated) (opened : ofImage? settings s.image = some t) : t.Dated := by
  cases format : settings.format with
  | true => exact dated_of_ofImage?_format opened format
  | false =>
    obtain ⟨base, older, last, agrees⟩ := h.agrees
    obtain ⟨himage, base', older', last', agrees'⟩ := agrees_of_ofImage?_recover opened format
    have hgeneration := (agrees.inStep.reopen opened).2
    rw [format] at hgeneration
    refine ⟨⟨_, _, _, agrees'⟩, ?_⟩
    rw [agrees.checkpoints_superblock_eq agrees' himage, hgeneration]
    exact h.earlier

end Session

/-- **Any run** that has generations left keeps the checkpoint earlier than the log. -/
theorem Run.dated {s t : Session} {events : List SessionEvent} (run : Run s events t)
    (h : s.Dated) (left : t.generation + 1 ≠ UInt32.size) : t.Dated := by
  induction run with
  | nil => exact h
  | @serve s t events request rest ih =>
    obtain dated | spent := h.serve request
    · exact ih dated left
    · -- the generation does not fall from there, and there is no later one
      obtain ⟨base, older, last, agrees⟩ := h.agrees
      obtain ⟨inStep, le⟩ := agrees.inStep.serve request
      obtain ⟨-, le'⟩ := rest.inStep inStep
      have := t.generation_lt
      omega
  | reopen settings opened rest ih => exact ih (h.reopen opened) left

end DurableGraph
