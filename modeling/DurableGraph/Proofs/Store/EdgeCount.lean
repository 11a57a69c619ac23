import DurableGraph.Proofs.Graph.Degrees
import DurableGraph.Proofs.Store.Refinement

/-!
# The edge count is exact

The count is half of the sum of all degrees, rounded down.  Nothing is lost to rounding on a
simple graph, and whatever a graph goes through on its way, it stays simple: actions in memory,
a checkpoint that is restored, in part or as a whole, and a log that is replayed.

    addEdge a b      success: one edge more, no action: as many
    removeEdge a b   one edge less
    removeNode a     as many edges less as the degree of a
    served stores    hold graphs that were reached                 (Session.reached_of_run)
-/

namespace DurableGraph

namespace SetGraph

variable {s : SetGraph} {a b : NodeId}

theorem card_addEdge (added : (s.addEdge a b).1 = .ok .success) :
    (s.addEdge a b).2.edges.card = s.edges.card + 1 := by
  unfold addEdge at added ⊢
  split_ifs at added ⊢ with same held joined
  · cases added
  · exact Finset.card_insert_of_notMem joined

theorem card_removeEdge {outcome : Outcome} (removed : (s.removeEdge a b).1 = .ok outcome) :
    (s.removeEdge a b).2.edges.card + 1 = s.edges.card := by
  unfold removeEdge at removed ⊢
  split_ifs at removed ⊢ with same joined
  exact Finset.card_erase_add_one joined

/-- The edges at a node go with it. -/
theorem card_removeNode {outcome : Outcome} (removed : (s.removeNode a).1 = .ok outcome) :
    (s.removeNode a).2.edges.card + (s.edgesAt a).card = s.edges.card := by
  unfold removeNode at removed ⊢
  split_ifs at removed ⊢ with held
  rw [Nat.add_comm]
  exact Finset.card_filter_add_card_filter_not (a ∈ ·)

end SetGraph

namespace Graph

/-! ## Counting -/

/-- The edge count is the number of the pairs that a look for an edge finds, and follows them
through every change. -/
structure CountsEdges (g : Graph) : Prop where
  even : Even (totalDegree g.nodes)
  pairs : ∃ pairs : Finset (Sym2 NodeId),
    (∀ a b, s(a, b) ∈ pairs ↔ ∃ found, g.edge a b = .ok found) ∧ g.edgeCount = pairs.card
  addEdge : ∀ a b h, g.addEdge a b = .ok (.success, h) → h.edgeCount = g.edgeCount + 1
  addEdge_again : ∀ a b h, g.addEdge a b = .ok (.noAction, h) → h.edgeCount = g.edgeCount
  removeEdge : ∀ a b outcome h, g.removeEdge a b = .ok (outcome, h) →
    h.edgeCount + 1 = g.edgeCount
  removeNode : ∀ a outcome h, g.removeNode a = .ok (outcome, h) →
    ∃ n, g.node a = .ok n ∧ h.edgeCount + n.degree = g.edgeCount

variable {g h : Graph} {s : SetGraph} {a b : NodeId}

theorem Matches.edge_eq_ok_iff (matching : g.Matches s) :
    (∃ found, g.edge a b = .ok found) ↔ s(a, b) ∈ s.edges := by
  rw [matching.edge_eq]
  unfold SetGraph.edge
  split
  · next same =>
    subst same
    constructor
    · rintro ⟨found, ok⟩
      cases ok
    · exact fun joined => absurd (Sym2.mk_isDiag_iff.2 rfl) (s.proper _ joined)
  · split
    · next joined => exact ⟨fun _ => joined, fun _ => ⟨_, rfl⟩⟩
    · next apart =>
      constructor
      · rintro ⟨found, ok⟩
        cases ok
      · exact fun joined => absurd joined apart

/-- A node that is removed was found before, with its degree. -/
theorem Matches.edgeCount_removeNode (matching : g.Matches s) {outcome : Outcome}
    (removed : g.removeNode a = .ok (outcome, h)) :
    ∃ n, g.node a = .ok n ∧ h.edgeCount + n.degree = g.edgeCount := by
  obtain ⟨answer, next⟩ := matching.removeNode a
  rw [removed] at answer next
  obtain ⟨edges, held⟩ : ∃ edges, g.neighbors? a = some edges := by
    unfold Graph.removeNode at removed
    split at removed
    · next edges held => exact ⟨edges, held⟩
    · cases removed
  have found : g.node a = .ok ⟨a, edges⟩ := by
    unfold Graph.node
    rw [held]
  have degree := matching.degree_eq (mem_nodes_iff.2 held : (⟨a, edges⟩ : Node) ∈ g.nodes)
  refine ⟨_, found, ?_⟩
  rw [next.edgeCount_eq, matching.edgeCount_eq, degree]
  exact SetGraph.card_removeNode answer.symm

/-- **Simple graphs count their edges.** -/
theorem Simple.countsEdges (simple : g.Simple) : g.CountsEdges := by
  have matching := simple.matches_sets
  exact {
    even := by
      rw [matching.totalDegree_eq]
      exact even_two_mul _
    pairs := ⟨simple.sets.edges, fun _ _ => matching.edge_eq_ok_iff.symm, matching.edgeCount_eq⟩
    addEdge := by
      intro a b h added
      obtain ⟨answer, next⟩ := matching.addEdge a b
      rw [added] at answer next
      rw [next.edgeCount_eq, matching.edgeCount_eq]
      exact SetGraph.card_addEdge answer.symm
    addEdge_again := by
      intro a b h again
      have applied : g.apply (.addEdge a b) = .ok (.noAction, h) := again
      have unchanged := matching.unchanged (.addEdge a b)
      unfold Graph.answer Graph.after at unchanged
      rw [applied] at unchanged
      obtain success | same := unchanged
      · cases success
      · rw [show h = g from same]
    removeEdge := by
      intro a b outcome h removed
      obtain ⟨answer, next⟩ := matching.removeEdge a b
      rw [removed] at answer next
      rw [next.edgeCount_eq, matching.edgeCount_eq]
      exact SetGraph.card_removeEdge answer.symm
    removeNode := fun _ _ _ removed => matching.edgeCount_removeNode removed }

/-! ## Reaching -/

/-- The graphs that a store in memory can come to hold.  Restoring ends anywhere, as an image may
hold any words; what was restored before stays. -/
inductive Reached : Graph → Prop
  | empty : Reached ∅
  | perform {g : Graph} (action : GraphAction) (reached : Reached g) :
      Reached (g.perform action).2
  | restore {g : Graph} (slot : CheckpointSlot) (image : Image) (generation : UInt64)
      (reached : Reached g) : Reached (slot.restore image generation g).state
  | replay {g : Graph} (entries : List Mutation) (reached : Reached g) :
      Reached (g.replay entries)

theorem Simple.perform (simple : g.Simple) (action : GraphAction) :
    (g.perform action).2.Simple := by
  cases action with
  | mutation m => exact simple.after m
  | clear => exact simple_empty

theorem Simple.restore (simple : g.Simple) (slot : CheckpointSlot) (image : Image)
    (generation : UInt64) : (slot.restore image generation g).state.Simple := by
  unfold CheckpointSlot.restore
  split
  · have restored := simple.restoreRecords image slot.superblock.nodeCount.toNat
      (WordReader.ofRegion slot.device slot.body)
    rw [Work.bind_apply_ok (Work.current_apply g)]
    rcases read : CheckpointSlot.restoreRecords image slot.superblock.nodeCount.toNat
      (WordReader.ofRegion slot.device slot.body) g with ⟨_ | r, next⟩
    · rw [read] at restored
      exact restored
    · rw [read] at restored
      exact restored
  · split
    · exact simple
    · exact simple

/-- **Reached graphs are simple**, by induction on how they were reached. -/
theorem Reached.simple (reached : g.Reached) : g.Simple := by
  induction reached with
  | empty => exact simple_empty
  | perform action _ ih => exact ih.perform action
  | restore slot image generation _ ih => exact ih.restore slot image generation
  | replay entries _ ih => exact ih.replay entries

theorem Reached.run (reached : g.Reached) (actions : List GraphAction) :
    (g.run actions).2.Reached :=
  performAll_keeps Reached (fun _ action reached => reached.perform action) reached actions

end Graph

/-! ## Served stores -/

namespace Store

variable {ε α β : Type} {x : Work Store ε α}

/-- Work goes on with the graph that it has been left. -/
theorem KeepsGraph.state_bind (h : KeepsGraph x) {f : α → Work Store ε β} {P : Graph → Prop}
    {s : Store} (stop : P s.graph) (go : ∀ a t, t.graph = s.graph → P (f a t).state.graph) :
    P ((x >>= f) s).state.graph := by
  have hx := h s
  rcases e : x s with ⟨_ | a, t, writes, notices⟩
  · rw [e] at hx
    rw [Work.bind_apply_error e]
    exact (show t.graph = s.graph from hx) ▸ stop
  · rw [e] at hx
    rw [Work.bind_apply_ok e]
    exact go a t hx

theorem graph_mutate (m : Mutation) (s : Store) :
    (mutate m s).state.graph = s.graph ∨ (mutate m s).state.graph = s.graph.after m := by
  unfold mutate
  refine keepsGraph_running.state_bind (P := fun g => g = s.graph ∨ g = s.graph.after m)
    (.inl rfl) fun _ t ht => ?_
  refine (keepsGraph_onLog _ _).settle.state_bind (P := fun g => g = s.graph ∨ g = s.graph.after m)
    (.inl ht) fun _ u hu => ?_
  rw [Work.bind_apply_ok (Work.current_apply u), ← ht, ← hu]
  unfold Graph.after
  cases u.graph.apply m with
  | error refusal => exact .inl rfl
  | ok done => exact .inr rfl

/-- Only mutations change the graph. -/
theorem graph_serve (request : Request) (s : Store) :
    (serve request s).state.graph = s.graph ∨
      ∃ m, (serve request s).state.graph = s.graph.after m := by
  cases request with
  | mutation m =>
    have state : (serve (.mutation m) s).state = (mutate m s).state :=
      ((Work.gives_self (mutate m) s).map Reply.outcome).state_eq
    rw [state]
    exact (graph_mutate m s).imp_right fun after => ⟨m, after⟩
  | query q =>
    refine .inl (keepsGraph_running.bind (fun _ => ?_) s)
    exact keepsGraph_current.bind fun _ _ => rfl
  | checkpoint => exact .inl (keepsGraph_checkpoint.bind (fun _ => keepsGraph_pure _) s)
  | edgePart access near far => exact .inl rfl

end Store

namespace Session

variable {settings : Settings} {image : Image} {s t : Session} {events : List SessionEvent}

theorem reached_of_ofImage? (opened : ofImage? settings image = some s) :
    s.store.graph.Reached := by
  obtain ⟨base, older, last, agrees⟩ := exists_agrees_of_ofImage? opened
  obtain ⟨count, restored⟩ := agrees.restores
  rw [agrees.graph, ← restored.state_eq]
  exact (Graph.Reached.empty.restore _ _ _).replay _

/-- The graph of a store in use is reached, whatever it was opened on and has served. -/
theorem reached_of_run (opened : ofImage? settings image = some s) (run : Run s events t) :
    t.store.graph.Reached := by
  have start := reached_of_ofImage? opened
  clear opened
  induction run with
  | nil s => exact start
  | @serve s t events request rest ih =>
    apply ih
    show (Store.serve request s.store).state.graph.Reached
    obtain same | ⟨m, after⟩ := Store.graph_serve request s.store
    · rw [same]
      exact start
    · rw [after]
      exact start.perform (.mutation m)
  | reopen settings opened rest ih => exact ih (reached_of_ofImage? opened)

end Session

/-! ## Top theorem -/

/-- **The edge count of a graph that was reached is exact**: the degrees add up to an even number,
and half of it is the number of the unordered pairs that are joined, before and after any
change. -/
theorem countsEdges_of_reached {g : Graph} (reached : g.Reached) : g.CountsEdges :=
  reached.simple.countsEdges

/-- The graph of a store behind a checkpoint, grown by two nodes and two edges: the node in the
middle takes both edges with it. -/
theorem countsEdges_of_reached_path :
    let actions : List GraphAction := [.mutation (.addNode 8), .mutation (.addNode 9),
      .mutation (.addEdge 7 8), .mutation (.addEdge 8 9)]
    ∃ s t events g h, Session.ofImage? ⟨"disk", true, false, "warn"⟩ .reused = some s ∧
      Run s events t ∧ (t.store.graph.run actions).2 = g ∧ g.Reached ∧ g.CountsEdges ∧
      g.edgeCount = 2 ∧ g.removeNode 8 = .ok (.success, h) ∧ h.edgeCount = 0 := by
  intro actions
  obtain ⟨s, t, events, -, opened, -, run, agrees, -⟩ := Session.exists_checkpointed_reused
  have reached := (Session.reached_of_run opened run).run actions
  have counts := countsEdges_of_reached reached
  have graph : t.store.graph = (∅ : Graph).after (.addNode 7) := agrees.graph
  rw [graph] at reached counts
  have two : (((∅ : Graph).after (.addNode 7)).run actions).2.edgeCount = 2 := by
    subst actions
    decide
  have middle : ((((∅ : Graph).after (.addNode 7)).run actions).2.node 8).map Node.degree =
      .ok 2 := by rfl
  obtain ⟨n, found, fewer⟩ := counts.removeNode 8 .success _ rfl
  rw [found] at middle
  rw [two, Except.ok.inj middle] at fewer
  exact ⟨s, t, events, _, _, opened, run, by rw [graph], reached, counts, two, rfl,
    Nat.add_right_cancel fewer⟩

end DurableGraph
