import DurableGraph.Proofs.Store.Serving

/-!
# A store is a graph in memory

To its clients an open store is the graph that it holds, as long as there is space.  A mutation
takes a place in the log and is carried out, refused or not; without a place nothing happens.

    mutation m     answers as the graph does, leaves graph.after m, takes one place
    query q        answers as the graph does
    checkpoint     leaves the graph, and gives back all places
-/

namespace DurableGraph

namespace Store

variable {ε α β : Type} {x : Work Store ε α}

/-- Work that leaves the live graph as it is, whatever becomes of log and checkpoint. -/
def KeepsGraph (x : Work Store ε α) : Prop := ∀ s, (x s).state.graph = s.graph

/-! ## The live graph -/

theorem keepsGraph_current : KeepsGraph (Work.current : Work Store ε Store) := fun _ => rfl

theorem keepsGraph_pure (a : α) : KeepsGraph (pure a : Work Store ε α) := fun _ => rfl

theorem keepsGraph_fail (e : ε) : KeepsGraph (Work.fail e : Work Store ε α) := fun _ => rfl

theorem keepsGraph_note (notice : Notice) : KeepsGraph (Work.note notice : Work Store ε Unit) :=
  fun _ => rfl

theorem keepsGraph_onLog (wrap : LogError → StoreError) (x : Work Log LogError α) :
    KeepsGraph (onLog wrap x) := fun _ => rfl

theorem keepsGraph_onCheckpoints (x : Work CheckpointSlot CheckpointError α) :
    KeepsGraph (onCheckpoints x) := fun _ => rfl

theorem KeepsGraph.bind (h : KeepsGraph x) {f : α → Work Store ε β}
    (h' : ∀ a, KeepsGraph (f a)) : KeepsGraph (x >>= f) := by
  intro s
  have hx := h s
  rcases e : x s with ⟨_ | a, t, writes, notices⟩
  · rw [e] at hx
    rw [Work.bind_apply_error e]
    exact hx
  · rw [e] at hx
    rw [Work.bind_apply_ok e]
    exact (h' a t).trans hx

/-- A fault halts the store and leaves its graph. -/
theorem KeepsGraph.settle {x : Work Store StoreError α} (h : KeepsGraph x) :
    KeepsGraph (settle x) := by
  intro s
  have hx := Work.gives_self x s
  cases hr : (x s).result with
  | ok a =>
    rw [hr] at hx
    unfold Store.settle
    rw [(hx.onError _).state_eq]
    exact h s
  | error e =>
    rw [hr] at hx
    cases space : e.isNoSpace with
    | true =>
      rw [(gives_settle_noSpace hx space).state_eq]
      exact h s
    | false =>
      rw [(gives_settle_fault hx space).state_eq]
      exact h s

theorem keepsGraph_running : KeepsGraph running := by
  refine keepsGraph_current.bind fun store => ?_
  split
  · exact keepsGraph_fail _
  · exact keepsGraph_pure _

theorem keepsGraph_commitAndRotate : KeepsGraph commitAndRotate := by
  refine keepsGraph_current.bind fun store => ?_
  refine (keepsGraph_onCheckpoints _).bind fun _ => ?_
  refine (keepsGraph_onLog _ _).bind fun next => ?_
  exact (keepsGraph_note _).bind fun _ => keepsGraph_pure next

theorem keepsGraph_checkpoint : KeepsGraph checkpoint :=
  keepsGraph_running.bind fun _ => keepsGraph_commitAndRotate.settle

end Store

namespace Session

/-- What every client of a store finds: the graph that a snapshot shows is the one that decides
all answers, and the places of the log are the only limit. -/
structure Refines (s : Session) : Prop where
  snapshot : (Store.snapshot s.store).result = .ok s.store.graph
  mutation : ∀ m, 0 < s.store.stats.capacity →
    (s.step (.mutation m)).result = (s.store.graph.answer m).map .outcome ∧
      (Store.snapshot (s.serve (.mutation m)).store).result = .ok (s.store.graph.after m) ∧
      (s.serve (.mutation m)).store.stats.capacity + 1 = s.store.stats.capacity
  mutation_full : ∀ m, s.store.stats.capacity = 0 →
    (s.step (.mutation m)).result = .error .noSpace ∧ s.serve (.mutation m) = s
  query : ∀ q, (s.step (.query q)).result = s.store.graph.look q ∧ s.serve (.query q) = s
  checkpoint_graph : (s.serve .checkpoint).store.graph = s.store.graph
  checkpoint_ok : ∀ reply, (s.step .checkpoint).result = .ok reply →
    ∃ generation, reply = .checkpointed generation ∧
      generation.toNat = s.store.stats.generation + 1 ∧
      (s.serve .checkpoint).store.stats.generation = s.store.stats.generation + 1 ∧
      (Store.snapshot (s.serve .checkpoint).store).result = .ok s.store.graph ∧
      (s.serve .checkpoint).store.stats.capacity = 169 * (s.store.stats.deviceBlocks / 5 - 1) ∧
      ∃ c, (s.serve .checkpoint).store.log.cursor (s.serve .checkpoint).image = .ok c ∧
        c.entries (s.serve .checkpoint).image = ([], none)
  checkpoint_noSpace : (s.step .checkpoint).result = .error .noSpace → s.serve .checkpoint = s

variable {s : Session} {base : Graph} {older : List (List Mutation)} {last : List Mutation}

/-! ## Refinement -/

theorem graph_checkpoint (s : Session) : (s.serve .checkpoint).store.graph = s.store.graph :=
  (Store.keepsGraph_checkpoint.bind fun _ => Store.keepsGraph_pure _) s.store

/-- A mutation that finds a place answers as the graph does and takes the place. -/
theorem Agrees.mutation_of_capacity (h : s.Agrees base older last) (m : Mutation)
    (places : 0 < s.store.log.capacity) :
    (s.step (.mutation m)).result = (s.store.graph.answer m).map .outcome ∧
      (Store.snapshot (s.serve (.mutation m)).store).result = .ok (s.store.graph.after m) ∧
      (s.serve (.mutation m)).store.log.capacity + 1 = s.store.log.capacity := by
  obtain ⟨log, older', last', -, taken, hresult, hstore, agrees⟩ | ⟨none, -⟩ := h.mutation m
  · have shown := (Store.gives_snapshot agrees.running).result_eq
    rw [hstore] at shown ⊢
    exact ⟨hresult, shown, taken⟩
  · omega

theorem Agrees.mutation_of_full (h : s.Agrees base older last) (m : Mutation)
    (none : s.store.log.capacity = 0) :
    (s.step (.mutation m)).result = .error .noSpace ∧ s.serve (.mutation m) = s := by
  obtain ⟨log, -, -, -, taken, -⟩ | ⟨-, -, hresult, hserve⟩ := h.mutation m
  · omega
  · exact ⟨hresult, hserve⟩

/-- An empty log has a place for every entry that its blocks hold. -/
theorem Agrees.capacity_empty (h : s.Agrees base [] []) :
    s.store.log.capacity = 169 * (s.store.device.blockCount / 5 - 1) := by
  have henough := h.enough
  rw [h.tells.capacity_eq, h.logRegion]
  show (s.store.device.blockCount / 5 - (0 + 1 + 0 + 1)) * 169 + (169 - 0) = _
  omega

/-- **A store that agrees with its image** is to its clients the graph that it holds. -/
theorem Agrees.refines (h : s.Agrees base older last) : s.Refines where
  snapshot := (Store.gives_snapshot h.running).result_eq
  mutation := h.mutation_of_capacity
  mutation_full := h.mutation_of_full
  query := step_query h.running
  checkpoint_graph := s.graph_checkpoint
  checkpoint_ok := by
    intro reply done
    obtain ⟨-, next, hresult, -, hserve, after⟩ | ⟨-, failed, -⟩ | ⟨-, failed, -⟩ := h.checkpoint
    · rw [done] at hresult
      cases hresult
      have hgeneration : s.store.log.rotated.generation.toNat =
          s.store.log.generation.toNat + 1 := by
        rw [Log.toNat_generation, Log.toNat_generation, Log.toNat_generation_rotated next]
      have shown := (Store.gives_snapshot after.running).result_eq
      rw [s.graph_checkpoint] at shown
      have capacity := after.capacity_empty
      obtain ⟨c, cursor, read⟩ := after.tells.read
      refine ⟨_, rfl, hgeneration, ?_, shown, ?_, c, cursor, read⟩
      · rw [hserve]
        exact hgeneration
      · rw [hserve] at capacity ⊢
        exact capacity
    · rw [done] at failed
      cases failed
    · rw [done] at failed
      cases failed
  checkpoint_noSpace := by
    intro full
    obtain ⟨-, -, hresult, -⟩ | ⟨-, -, hserve⟩ | ⟨-, failed, -⟩ := h.checkpoint
    · rw [full] at hresult
      cases hresult
    · exact hserve
    · rw [full] at failed
      cases failed

end Session

/-! ## Top theorem -/

/-- **The store refines the graph.**  Whatever image it was opened on, with or without a format,
and whatever has been served since, reopenings in between: as long as the store has not halted,
its clients find the graph in memory. -/
theorem refines_of_run {settings : Settings} {image : Image} {s t : Session}
    {events : List SessionEvent} (opened : Session.ofImage? settings image = some s)
    (run : Run s events t) (running : t.store.halted = false) : t.Refines := by
  obtain ⟨base, older, last, agrees⟩ | halted :=
    run.sound (.inl (Session.exists_agrees_of_ofImage? opened))
  · exact agrees.refines
  · rw [running] at halted
    cases halted

/-- A store with one node, behind a checkpoint: an edge from the node to itself is refused, and
takes a place of the log all the same. -/
theorem refines_of_run_reused :
    ∃ s t events, Session.ofImage? ⟨"disk", true, false, "warn"⟩ .reused = some s ∧
      Run s events t ∧ t.store.halted = false ∧ t.Refines ∧ 0 < t.store.stats.capacity ∧
      (t.step (.mutation (.addEdge 7 7))).result =
        .error (.invalid "edge endpoints must differ") ∧
      (Store.snapshot (t.serve (.mutation (.addEdge 7 7))).store).result =
        .ok ((∅ : Graph).after (.addNode 7)) ∧
      (t.serve (.mutation (.addEdge 7 7))).store.stats.capacity + 1 = t.store.stats.capacity := by
  obtain ⟨s, t, events, reply, opened, -, run, h, -, -, -, -⟩ :=
    Session.exists_checkpointed_reused
  have refines := refines_of_run opened run h.running
  have graph : t.store.graph = (∅ : Graph).after (.addNode 7) := h.graph
  have places : 0 < t.store.stats.capacity := by
    have henough := h.enough
    show 0 < t.store.log.capacity
    rw [h.capacity_empty]
    omega
  obtain ⟨answer, shown, taken⟩ := refines.mutation (.addEdge 7 7) places
  rw [graph] at answer shown
  exact ⟨s, t, events, opened, run, h.running, refines, places, answer, shown, taken⟩

end DurableGraph
