import Mathlib.Data.Fintype.BigOperators
import DurableGraph.Proofs.Graph.Clients
import DurableGraph.Proofs.Graph.SetGraph
import DurableGraph.Proofs.Store.Refinement

/-!
# Clients of a store

Clients that keep apart share a store as they share a graph in memory, as long as the log has a
place for every mutation that they send.

    graph in memory        one answer list for each client, one graph at the end
    store                  the same, shown by a snapshot and found when the store is opened again
    store that has halted  refuses everything, and stays as it is
-/

namespace DurableGraph

section Schedules

variable {ι α β : Type} [DecidableEq ι]

theorem ofClient_map (f : α → β) (i : ι) (items : List (ι × α)) :
    ofClient i (items.map fun item => (item.1, f item.2)) = (ofClient i items).map f := by
  induction items with
  | nil => rfl
  | cons item rest ih =>
    obtain ⟨j, a⟩ := item
    rw [List.map_cons, ofClient_cons, ofClient_cons, ih]
    split <;> rfl

/-- A schedule is as long as all that the clients send. -/
theorem length_eq_sum [Fintype ι] (schedule : List (ι × α)) :
    schedule.length = ∑ i, (ofClient i schedule).length := by
  induction schedule with
  | nil => simp [ofClient]
  | cons item rest ih =>
    obtain ⟨j, a⟩ := item
    have turn (i : ι) : (ofClient i ((j, a) :: rest)).length =
        (ofClient i rest).length + if j = i then 1 else 0 := by
      rw [ofClient_cons]
      split <;> rfl
    simp only [turn, Finset.sum_add_distrib, ← ih, Finset.sum_ite_eq, Finset.mem_univ, if_true,
      List.length_cons]

/-- A single client at work. -/
theorem ofClient_turn (i j : ι) (items : List α) :
    ofClient i (items.map (Prod.mk j)) = if j = i then items else [] := by
  induction items with
  | nil => simp [ofClient]
  | cons a rest ih =>
    rw [List.map_cons, ofClient_cons, ih]
    split <;> rfl

/-- The clients of a list, served one after the other. -/
theorem ofClient_turns (clients : ι → List α) (i : ι) {order : List ι} (once : order.Nodup) :
    ofClient i (order.flatMap fun j => (clients j).map (Prod.mk j)) =
      if i ∈ order then clients i else [] := by
  induction order with
  | nil => simp [ofClient]
  | cons j rest ih =>
    obtain ⟨absent, once⟩ := List.nodup_cons.1 once
    have turn := ofClient_turn i j (clients j)
    have turns := ih once
    unfold ofClient at turn turns ⊢
    rw [List.flatMap_cons, List.filterMap_append, turn, turns]
    by_cases here : j = i
    · subst here
      simp [absent]
    · simp [here, Ne.symm here]

/-- Clients can always take turns, for one in the order of their labels. -/
theorem exists_interleaves [Fintype ι] (clients : ι → List α) :
    ∃ schedule, Interleaves clients schedule := by
  refine ⟨_, fun i => (ofClient_turns clients i (Finset.univ : Finset ι).nodup_toList).trans ?_⟩
  rw [if_pos (Finset.mem_toList.2 (Finset.mem_univ i))]

end Schedules

namespace Session

variable {ι : Type} {s : Session} {base : Graph} {older : List (List Mutation)}
  {last : List Mutation}

/-- A mutation with its answer. -/
def mutate (s : Session) (m : Mutation) : Except Refusal Reply × Session :=
  ((s.step (.mutation m)).result, s.serve (.mutation m))

/-- The mutations of all clients, as the schedule has them. -/
def serveClients (s : Session) (schedule : List (ι × Mutation)) :
    List (ι × Except Refusal Reply) × Session := performAll (performFor mutate) s schedule

theorem serveClients_cons (s : Session) (j : ι) (m : Mutation) (rest : List (ι × Mutation)) :
    s.serveClients ((j, m) :: rest) =
      ((j, (s.step (.mutation m)).result) :: ((s.serve (.mutation m)).serveClients rest).1,
        ((s.serve (.mutation m)).serveClients rest).2) := rfl

/-- **With a place for every mutation**, by induction on the schedule, the store answers as its
graph does and holds it afterwards. -/
theorem Agrees.serveClients (h : s.Agrees base older last) {schedule : List (ι × Mutation)}
    (places : schedule.length ≤ s.store.log.capacity) :
    (s.serveClients schedule).1 = (s.store.graph.serveClients schedule).1.map
        (fun item => (item.1, item.2.map Reply.outcome)) ∧
      (s.serveClients schedule).2.store.graph = (s.store.graph.serveClients schedule).2 ∧
      (s.serveClients schedule).2.store.device = s.store.device ∧
      ∃ older' last', (s.serveClients schedule).2.Agrees base older' last' := by
  induction schedule generalizing s older last with
  | nil => exact ⟨rfl, rfl, rfl, _, _, h⟩
  | cons item rest ih =>
    obtain ⟨j, m⟩ := item
    rw [List.length_cons] at places
    obtain ⟨log, older', last', -, taken, hresult, hstore, agrees⟩ | ⟨none, -⟩ := h.mutation m
    · obtain ⟨answers, graph, device, agrees'⟩ := ih agrees (by
        rw [hstore]
        show rest.length ≤ log.capacity
        omega)
      rw [hstore] at answers graph device
      rw [serveClients_cons, Graph.serveClients_cons, hresult, answers]
      exact ⟨rfl, graph, device, agrees'⟩
    · omega

/-- A store that has halted answers nothing else. -/
theorem serveClients_halted (halted : s.store.halted = true) (schedule : List (ι × Mutation)) :
    s.serveClients schedule = (schedule.map fun item => (item.1, .error .halted), s) := by
  induction schedule with
  | nil => rfl
  | cons item rest ih =>
    obtain ⟨j, m⟩ := item
    have refused : (Store.mutate m).Gives s.store (.error .halted) s.store [] :=
      (Store.gives_running_halted halted).bind_error _
    rw [serveClients_cons, serve_halted halted, (step_mutation refused).1, ih]
    rfl

end Session

/-! ## Top theorem -/

section Serves

variable {ι : Type} [DecidableEq ι]

/-- However clients take turns, each of them gets the answers that it gets alone on the graph, and
the graph at the end is one and the same. -/
structure Graph.Serves (g : Graph) (clients : ι → List Mutation) (last : Graph) : Prop where
  answers : ∀ schedule, Interleaves clients schedule →
    ∀ i, ofClient i (g.serveClients schedule).1 = (g.mutateAll (clients i)).1
  last : ∀ schedule, Interleaves clients schedule → (g.serveClients schedule).2 = last

/-- So it is with a store, whose graph is shown and is found again when it is reopened. -/
structure Session.Serves (t : Session) (clients : ι → List Mutation) (last : Graph) : Prop where
  answers : ∀ schedule, Interleaves clients schedule →
    ∀ i, ofClient i (t.serveClients schedule).1 =
      (t.store.graph.mutateAll (clients i)).1.map fun answer => answer.map Reply.outcome
  shown : ∀ schedule, Interleaves clients schedule →
    (Store.snapshot (t.serveClients schedule).2.store).result = .ok last
  reopened : ∀ schedule, Interleaves clients schedule →
    ∀ again : Settings, again.device = t.store.device.path → again.format = false →
      ∃ u, Session.ofImage? again (t.serveClients schedule).2.image = some u ∧
        (Store.snapshot u.store).result = .ok last

variable [Fintype ι] {clients : ι → List Mutation}

theorem Apart.exists_serves (apart : Apart clients) {g : Graph} (simple : g.Simple) :
    ∃ last, g.Serves clients last := by
  obtain ⟨serial, h⟩ := exists_interleaves clients
  exact ⟨_, fun schedule h' i => (apart.alone simple h' i).1,
    fun schedule h' => apart.last simple h' h⟩

/-- Where the log has a place for every mutation, the store serves as its graph does. -/
theorem Session.Agrees.serves {t : Session} {base : Graph} {older : List (List Mutation)}
    {entries : List Mutation} (h : t.Agrees base older entries) {last : Graph}
    (serves : t.store.graph.Serves clients last)
    (places : ∑ i, (clients i).length ≤ t.store.stats.capacity) : t.Serves clients last := by
  have room {schedule : List (ι × Mutation)} (h' : Interleaves clients schedule) :
      schedule.length ≤ t.store.log.capacity := by
    rw [length_eq_sum]
    simp only [h' _]
    exact places
  refine ⟨fun schedule h' i => ?_, fun schedule h' => ?_, fun schedule h' again same kept => ?_⟩
  · rw [(h.serveClients (room h')).1, ofClient_map, serves.answers schedule h']
  · obtain ⟨-, graph, -, older', entries', agrees⟩ := h.serveClients (room h')
    rw [(Store.gives_snapshot agrees.running).result_eq, graph, serves.last schedule h']
  · obtain ⟨-, graph, device, older', entries', agrees⟩ := h.serveClients (room h')
    refine ⟨_, agrees.reopen (by rw [device]; exact same) kept, ?_⟩
    rw [(Store.gives_snapshot agrees.running).result_eq, graph, serves.last schedule h']

/-- **Clients that keep apart do not notice each other.**  Finitely many clients send mutations,
no two of them name the same node, and they take turns in any way.  Whatever actions led to a
graph in memory, which may well have edges between nodes of different clients, each client gets
the answers that it gets alone, and the graph at the end does not depend on the turns.  So it is
with a store that was opened and has run, if its log has a place for every mutation; and a store
that has halted refuses them all and stays as it is. -/
theorem serves_of_apart (apart : Apart clients) :
    (∀ actions, ∃ last, ((∅ : Graph).run actions).2.Serves clients last) ∧
    ∀ (settings : Settings) (image : Image) (s t : Session) (events : List SessionEvent),
      Session.ofImage? settings image = some s → Run s events t →
      (t.store.halted = false → ∑ i, (clients i).length ≤ t.store.stats.capacity →
        ∃ last, t.Serves clients last) ∧
      (t.store.halted = true → ∀ schedule, Interleaves clients schedule →
        (t.serveClients schedule).2 = t ∧
        ∀ i, ofClient i (t.serveClients schedule).1 =
          (clients i).map fun _ => .error .halted) := by
  refine ⟨fun actions => apart.exists_serves (Graph.simple_run actions),
    fun settings image s t events opened run => ⟨fun running places => ?_, fun halted => ?_⟩⟩
  · obtain ⟨base, older, entries, agrees⟩ | halted :=
      run.sound (.inl (Session.exists_agrees_of_ofImage? opened))
    · obtain ⟨last, serves⟩ := apart.exists_serves agrees.simple
      exact ⟨last, agrees.serves serves places⟩
    · rw [running] at halted
      cases halted
  · intro schedule h
    rw [Session.serveClients_halted halted]
    refine ⟨rfl, fun i => ?_⟩
    rw [← h i]
    exact ofClient_map (fun _ => Except.error Refusal.halted) i schedule

end Serves

/-- One client removes a node that another one's node is joined to, in memory and on a store, where
there is no such node. -/
theorem serves_of_apart_reused :
    ∃ (clients : Bool → List Mutation) (s t : Session) (events : List SessionEvent),
      clients false = [.removeNode 7, .addNode 5] ∧
      clients true = [.addNode 8, .addEdge 8 3] ∧ Apart clients ∧
      (∃ last, ((∅ : Graph).run [.mutation (.addNode 3), .mutation (.addNode 7),
        .mutation (.addEdge 3 7)]).2.Serves clients last) ∧
      Session.ofImage? ⟨"disk", true, false, "warn"⟩ .reused = some s ∧ Run s events t ∧
      t.store.graph = (∅ : Graph).after (.addNode 7) ∧ t.store.halted = false ∧
      ∑ i, (clients i).length ≤ t.store.stats.capacity ∧ ∃ last, t.Serves clients last := by
  obtain ⟨s, t, events, reply, opened, -, run, h, -⟩ := Session.exists_checkpointed_reused
  obtain ⟨clients, first, second⟩ : ∃ clients : Bool → List Mutation,
      clients false = [.removeNode 7, .addNode 5] ∧ clients true = [.addNode 8, .addEdge 8 3] :=
    ⟨fun i => if i then [.addNode 8, .addEdge 8 3] else [.removeNode 7, .addNode 5], rfl, rfl⟩
  have different : ∀ m ∈ [Mutation.removeNode 7, .addNode 5],
      ∀ n ∈ [Mutation.addNode 8, .addEdge 8 3], ∀ x ∈ m.ids, x ∉ n.ids := by
    simp [Mutation.ids, Mutation.removeNode, Mutation.addNode, Mutation.addEdge]
  rw [← first, ← second] at different
  have apart : Apart clients := by
    rintro (_ | _) (_ | _) x ⟨m, sent, named⟩ ⟨n, sent', named'⟩
    · rfl
    · exact absurd named' (different m sent n sent' x named)
    · exact absurd named (different n sent' m sent x named')
    · rfl
  have places : ∑ i, (clients i).length ≤ t.store.stats.capacity := by
    have henough := h.enough
    have hcapacity : t.store.stats.capacity = _ := h.capacity_empty
    rw [hcapacity, Fintype.sum_bool, first, second]
    show 4 ≤ _
    omega
  obtain ⟨memory, stores⟩ := serves_of_apart apart
  exact ⟨clients, s, t, events, first, second, apart, memory _, opened, run, h.graph, h.running,
    places, (stores _ _ s t events opened run).1 h.running places⟩

end DurableGraph
