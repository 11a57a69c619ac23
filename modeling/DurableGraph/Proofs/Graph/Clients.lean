import DurableGraph.Proofs.Actions
import DurableGraph.Proofs.Graph.Locality

/-!
# Clients that keep apart

Clients send mutations, each its own in order, and a schedule says whose turn it is.  Where no
two clients name the same node, none of them notices the others, and the graph at the end does
not depend on the schedule.

    answers to client i           those that it gets alone on the graph     (Apart.answers)
    two schedules of the same     leave the same graph                      (Apart.last)
-/

namespace DurableGraph

section Clients

variable {ι α β σ : Type}

/-- Performs what the clients send, and labels every answer with the client it goes to. -/
def performFor (perform : σ → α → β × σ) (s : σ) (item : ι × α) : (ι × β) × σ :=
  ((item.1, (perform s item.2).1), (perform s item.2).2)

variable [DecidableEq ι]

/-- What a list of labelled items has for one of its labels, in order. -/
def ofClient (i : ι) (items : List (ι × α)) : List α :=
  items.filterMap fun item => if item.1 = i then some item.2 else none

/-- A schedule has all that every client sends, each in its own order. -/
def Interleaves (clients : ι → List α) (schedule : List (ι × α)) : Prop :=
  ∀ i, ofClient i schedule = clients i

theorem ofClient_cons (i j : ι) (a : α) (rest : List (ι × α)) :
    ofClient i ((j, a) :: rest) = if j = i then a :: ofClient i rest else ofClient i rest := by
  unfold ofClient
  rw [List.filterMap_cons]
  by_cases own : j = i
  · simp [own]
  · simp [own]

theorem mem_ofClient {i : ι} {a : α} {items : List (ι × α)} :
    a ∈ ofClient i items ↔ (i, a) ∈ items := by
  unfold ofClient
  rw [List.mem_filterMap]
  constructor
  · rintro ⟨⟨j, b⟩, held, same⟩
    split at same
    · next own =>
      cases same
      rw [← show j = i from own]
      exact held
    · cases same
  · intro held
    exact ⟨(i, a), held, if_pos rfl⟩

/-- What stands in a schedule was sent by a client, and stands in any other schedule of theirs. -/
theorem Interleaves.mem_iff {clients : ι → List α} {schedule : List (ι × α)}
    (h : Interleaves clients schedule) {a : α} :
    a ∈ schedule.map Prod.snd ↔ ∃ i, a ∈ clients i := by
  rw [List.mem_map]
  constructor
  · rintro ⟨⟨i, a⟩, held, rfl⟩
    rw [← mem_ofClient, h i] at held
    exact ⟨i, held⟩
  · rintro ⟨i, sent⟩
    rw [← h i, mem_ofClient] at sent
    exact ⟨(i, a), sent, rfl⟩

end Clients

/-- Some of these mutations names a node. -/
def Names (ms : List Mutation) (x : NodeId) : Prop := ∃ m ∈ ms, x ∈ m.ids

/-- No node is named by two clients. -/
def Apart {ι : Type} (clients : ι → List Mutation) : Prop :=
  ∀ i j x, Names (clients i) x → Names (clients j) x → i = j

namespace Graph

variable {ι : Type} {clients : ι → List Mutation} {g h : Graph} {schedule : List (ι × Mutation)}

/-- A mutation with its answer. -/
def mutate (g : Graph) (m : Mutation) : Except Refusal Outcome × Graph := (g.answer m, g.after m)

/-- The mutations of a single client, one after the other. -/
def mutateAll (g : Graph) (ms : List Mutation) : List (Except Refusal Outcome) × Graph :=
  performAll mutate g ms

/-- The mutations of all clients, as the schedule has them. -/
def serveClients (g : Graph) (schedule : List (ι × Mutation)) :
    List (ι × Except Refusal Outcome) × Graph := performAll (performFor mutate) g schedule

theorem serveClients_cons (g : Graph) (j : ι) (m : Mutation) (rest : List (ι × Mutation)) :
    g.serveClients ((j, m) :: rest) =
      ((j, g.answer m) :: ((g.after m).serveClients rest).1, ((g.after m).serveClients rest).2) :=
  rfl

theorem mutateAll_cons (g : Graph) (m : Mutation) (rest : List Mutation) :
    g.mutateAll (m :: rest) =
      (g.answer m :: ((g.after m).mutateAll rest).1, ((g.after m).mutateAll rest).2) := rfl

theorem graph_serveClients (g : Graph) (schedule : List (ι × Mutation)) :
    (g.serveClients schedule).2 = g.replay (schedule.map Prod.snd) := by
  induction schedule generalizing g with
  | nil => rfl
  | cons item rest ih => exact ih (g.after item.2)

/-! ## One client among others -/

variable [DecidableEq ι]

/-- By induction on the schedule: a graph that is served to all and one that is served to a single
client stay the same on the nodes of that client. -/
theorem SameOn.serveClients {ids : NodeId → Prop} (same : SameOn ids g h) (hg : g.Simple)
    (hh : h.Simple) {i : ι} (own : ∀ m ∈ ofClient i schedule, ∀ x ∈ m.ids, ids x)
    (others : ∀ j m, (j, m) ∈ schedule → j ≠ i → ∀ x ∈ m.ids, ¬ ids x) :
    ofClient i (g.serveClients schedule).1 = (h.mutateAll (ofClient i schedule)).1 ∧
      SameOn ids (g.serveClients schedule).2 (h.mutateAll (ofClient i schedule)).2 := by
  induction schedule generalizing g h with
  | nil => exact ⟨rfl, same⟩
  | cons item rest ih =>
    obtain ⟨j, m⟩ := item
    have others' : ∀ j m, (j, m) ∈ rest → j ≠ i → ∀ x ∈ m.ids, ¬ ids x :=
      fun j m held => others j m (List.mem_cons_of_mem _ held)
    rw [ofClient_cons] at own ⊢
    rw [serveClients_cons, ofClient_cons]
    by_cases turn : j = i
    · rw [if_pos turn] at own ⊢
      rw [if_pos turn, mutateAll_cons]
      obtain ⟨first, own'⟩ := List.forall_mem_cons.1 own
      obtain ⟨answers, last⟩ := ih (same.after hg hh m) (hg.after m) (hh.after m) own' others'
      refine ⟨?_, last⟩
      rw [same.answer first, answers]
    · rw [if_neg turn] at own ⊢
      rw [if_neg turn]
      have beside := sameOn_after hg (others j m List.mem_cons_self turn)
      exact ih (beside.trans same) (hg.after m) hh own others'

end Graph

/-! ## All clients -/

section Apart

variable {ι : Type} [DecidableEq ι] {clients : ι → List Mutation} {g : Graph}
  {schedule : List (ι × Mutation)}

/-- **A client does not notice the others**: it gets the answers that it gets alone. -/
theorem Apart.alone (apart : Apart clients) (simple : g.Simple)
    (interleaves : Interleaves clients schedule) (i : ι) :
    ofClient i (g.serveClients schedule).1 = (g.mutateAll (clients i)).1 ∧
      Graph.SameOn (Names (clients i)) (g.serveClients schedule).2 (g.mutateAll (clients i)).2 := by
  rw [← interleaves i]
  apply (Graph.sameOn_refl (Names (ofClient i schedule)) g).serveClients simple simple
  · intro m held x named
    exact ⟨m, held, named⟩
  · rintro j m held other x named ⟨m', held', named'⟩
    rw [← mem_ofClient, interleaves j] at held
    rw [interleaves i] at held'
    exact other (apart j i x ⟨m, held, named⟩ ⟨m', held', named'⟩)

/-- **The graph at the end** is the same.  A node that is added, and two nodes that are joined,
are named by a single client, and stand as that client alone would leave them; of any other node
or pair of nodes it only matters whether it is dropped or cut, and not when. -/
theorem Apart.last (apart : Apart clients) (simple : g.Simple) {first second : List (ι × Mutation)}
    (h₁ : Interleaves clients first) (h₂ : Interleaves clients second) :
    (g.serveClients first).2 = (g.serveClients second).2 := by
  have alike {i : ι} {m : Mutation} (sent : m ∈ clients i) :
      Graph.SameOn (· ∈ m.ids) (g.serveClients first).2 (g.serveClients second).2 := by
    have same := (apart.alone simple h₁ i).2.trans (apart.alone simple h₂ i).2.symm
    exact {
      contains := fun x hx => same.contains x ⟨m, sent, hx⟩
      adj := fun x y hx hy => same.adj x y ⟨m, sent, hx⟩ ⟨m, sent, hy⟩ }
  rw [Graph.graph_serveClients, Graph.graph_serveClients] at alike ⊢
  apply Graph.ext_contains_adj
  · intro x
    by_cases added : ∃ m ∈ first.map Prod.snd, m.Adds x
    · obtain ⟨m, held, adds⟩ := added
      obtain ⟨i, sent⟩ := h₁.mem_iff.1 held
      exact (alike sent).contains x adds.mem_ids
    · have never : ∀ m ∈ first.map Prod.snd, ¬ m.Adds x := fun m held adds => added ⟨m, held, adds⟩
      rw [Bool.eq_iff_iff, Graph.contains_replay never]
      simp only [h₁.mem_iff, ← h₂.mem_iff] at never ⊢
      rw [Graph.contains_replay never]
  · intro x y
    by_cases joined : ∃ m ∈ first.map Prod.snd, m.Joins x y
    · obtain ⟨m, held, joins⟩ := joined
      obtain ⟨i, sent⟩ := h₁.mem_iff.1 held
      exact (alike sent).adj x y joins.mem_ids.1 joins.mem_ids.2
    · have never : ∀ m ∈ first.map Prod.snd, ¬ m.Joins x y :=
        fun m held joins => joined ⟨m, held, joins⟩
      rw [Graph.adj_replay simple never]
      simp only [h₁.mem_iff, ← h₂.mem_iff] at never ⊢
      rw [Graph.adj_replay simple never]

end Apart

end DurableGraph
