import DurableGraph.Proofs.Store.Serving

/-!
# Durability

A store can be dropped at any time: opened again, it is the store that it was.

    Run s events t, no rotation failed → ofImage? again t.image = some t       (Run.reopen_eq)
-/

namespace DurableGraph

section Durability

variable {settings again : Settings} {image : Image} {s t : Session} {events : List SessionEvent}

/-- Opening the image that a run leaves gives the session at its end. -/
theorem Run.reopen_eq (opened : Session.ofImage? settings image = some s) (run : Run s events t)
    (fine : ∀ request e,
      .served request (.error (StoreError.rotationFailed e).refusal) ∉ events)
    (same : again.device = t.store.device.path) (kept : again.format = false) :
    t.store.halted = false ∧ Session.ofImage? again t.image = some t := by
  obtain ⟨base, older, last, agrees⟩ :=
    run.agrees (Session.exists_agrees_of_ofImage? opened) fine
  exact ⟨agrees.running, agrees.reopen same kept⟩

/-- **Nothing is lost.**  After any run of requests and reopenings on a store that was opened,
whatever its image held and however it was opened, the image is opened again, and graph and
figures are those from before. -/
theorem reopen_of_run (opened : Session.ofImage? settings image = some s) (run : Run s events t)
    (fine : ∀ request e,
      .served request (.error (StoreError.rotationFailed e).refusal) ∉ events)
    (same : again.device = t.store.device.path) (kept : again.format = false) :
    ∃ u, Session.ofImage? again t.image = some u ∧
      (Store.snapshot t.store).result = .ok t.store.graph ∧
      (Store.snapshot u.store).result = .ok t.store.graph ∧
      u.store.stats = t.store.stats ∧ u.store.stats.halted = false := by
  obtain ⟨running, reopened⟩ := run.reopen_eq opened fine same kept
  have snapshot := (Store.gives_snapshot running).result_eq
  exact ⟨t, reopened, snapshot, snapshot, rfl, running⟩

/-- A store that was formatted over another one serves a node, a checkpoint and an edge that it
refuses, and is reopened. -/
theorem reopen_of_run_reused :
    ∃ s t events again u,
      Session.ofImage? ⟨"disk", true, false, "warn"⟩ .reused = some s ∧
      s.serveAll [.mutation (.addNode 7), .checkpoint, .mutation (.addEdge 7 7)] = t ∧
      Run s events t ∧
      (∀ request e, .served request (.error (StoreError.rotationFailed e).refusal) ∉ events) ∧
      again.device = t.store.device.path ∧ again.format = false ∧
      Session.ofImage? again t.image = some u ∧
      (Store.snapshot u.store).result = .ok t.store.graph ∧ u.store.stats = t.store.stats := by
  obtain ⟨s, opened, agrees, generation⟩ := Session.exists_ofImage?_reused
  obtain ⟨events, run, fine⟩ := agrees.exists_run
    [.mutation (.addNode 7), .checkpoint, .mutation (.addEdge 7 7)] (by rw [generation]; decide)
  obtain ⟨t, reached⟩ : ∃ t, s.serveAll
    [.mutation (.addNode 7), .checkpoint, .mutation (.addEdge 7 7)] = t := ⟨_, rfl⟩
  rw [reached] at run
  have same : (Settings.forDevice t.store.device.path).device = t.store.device.path := rfl
  obtain ⟨u, reopened, -, snapshot, stats, -⟩ := reopen_of_run opened run fine same rfl
  exact ⟨s, t, events, _, u, opened, reached, run, fine, same, rfl, reopened, snapshot, stats⟩

end Durability

end DurableGraph
