import DurableGraph.Proofs.Graph.Simple

/-!
# Mutations are local

A mutation names one node or two.  Whether a node stands afterwards, whether two nodes are joined,
and what the mutation answers, depends on the nodes that it names alone.

    x stands after m            m adds x, or x stood and m does not drop it
    x, y are joined after m     m joins two standing nodes, or they were and m does not cut them
    g, h are the same on ids    then they stay the same there, and answer alike to what names ids
-/

namespace DurableGraph

namespace Mutation

/-- The nodes that a mutation names. -/
def ids (m : Mutation) : List NodeId :=
  match m.kind with
  | .addNode | .removeNode => [m.a]
  | .addEdge | .removeEdge => [m.a, m.b]

/-- The ends of the edge that a mutation of an edge speaks of, either way round. -/
def Between (m : Mutation) (x y : NodeId) : Prop := x = m.a ∧ y = m.b ∨ x = m.b ∧ y = m.a

def Adds (m : Mutation) (x : NodeId) : Prop := m.kind = .addNode ∧ x = m.a

def Drops (m : Mutation) (x : NodeId) : Prop := m.kind = .removeNode ∧ x = m.a

/-- The mutation joins two nodes, provided that they stand. -/
def Joins (m : Mutation) (x y : NodeId) : Prop := m.kind = .addEdge ∧ m.a ≠ m.b ∧ m.Between x y

/-- After the mutation no edge is left between two nodes. -/
def Cuts (m : Mutation) (x y : NodeId) : Prop :=
  m.kind = .removeNode ∧ (x = m.a ∨ y = m.a) ∨ m.kind = .removeEdge ∧ m.Between x y

variable {m : Mutation} {x y : NodeId}

/-! ## What is named -/

theorem Adds.mem_ids (h : m.Adds x) : x ∈ m.ids := by
  obtain ⟨kind, rfl⟩ := h
  simp [ids, kind]

theorem Drops.mem_ids (h : m.Drops x) : x ∈ m.ids := by
  obtain ⟨kind, rfl⟩ := h
  simp [ids, kind]

theorem Joins.mem_ids (h : m.Joins x y) : x ∈ m.ids ∧ y ∈ m.ids := by
  obtain ⟨kind, -, ⟨rfl, rfl⟩ | ⟨rfl, rfl⟩⟩ := h
  · simp [ids, kind]
  · simp [ids, kind]

theorem Cuts.mem_ids (h : m.Cuts x y) : x ∈ m.ids ∨ y ∈ m.ids := by
  obtain ⟨kind, rfl | rfl⟩ | ⟨kind, ⟨rfl, rfl⟩ | ⟨rfl, rfl⟩⟩ := h
  · simp [ids, kind]
  · simp [ids, kind]
  · simp [ids, kind]
  · simp [ids, kind]

end Mutation

namespace Graph

variable {g h : Graph} {m : Mutation} {x y : NodeId}

/-! ## One mutation -/

theorem after_of_ok {o : Outcome} (ok : g.apply m = .ok (o, h)) : g.after m = h := by
  unfold after
  rw [ok]

theorem after_of_error {e : Refusal} (no : g.apply m = .error e) : g.after m = g := by
  unfold after
  rw [no]

/-- Only a missing node cannot be removed. -/
theorem contains_of_removeNode_error {a : NodeId} {e : Refusal} (no : g.removeNode a = .error e) :
    g.contains a = false := by
  unfold removeNode at no
  split at no
  · cases no
  · next missing =>
    rw [contains_eq, missing]
    rfl

/-- Only ends that are the same or missing cannot be joined. -/
theorem not_ends_of_addEdge_error {a b : NodeId} {e : Refusal} (no : g.addEdge a b = .error e) :
    ¬ (a ≠ b ∧ g.contains a = true ∧ g.contains b = true) := by
  rintro ⟨ne, ha, hb⟩
  obtain ⟨o, h, ok⟩ := exists_addEdge ne ha hb
  rw [ok] at no
  cases no

/-- Only an edge that is missing cannot be removed. -/
theorem not_adj_of_removeEdge_error (simple : g.Simple) {a b : NodeId} {e : Refusal}
    (no : g.removeEdge a b = .error e) : ¬ g.Adj a b := by
  intro joined
  have ends : g.checkEnds a b = .ok () := by
    refine checkEnds_eq_ok_iff.2 ⟨?_, joined.contains, simple.closed a b joined⟩
    rintro rfl
    exact simple.irrefl a joined
  unfold removeEdge at no
  rw [ends] at no
  simp only [bind, Except.bind, hasEdge_iff.2 joined, if_true] at no
  cases no

/-- **Nodes** after a mutation, refused ones included. -/
theorem contains_after (m : Mutation) (x : NodeId) :
    (g.after m).contains x = true ↔ g.contains x = true ∧ ¬ m.Drops x ∨ m.Adds x := by
  obtain ⟨kind, a, b⟩ := m
  unfold Mutation.Drops Mutation.Adds
  cases done : g.apply ⟨kind, a, b⟩ with
  | ok result =>
    obtain ⟨o, h⟩ := result
    rw [after_of_ok done]
    cases kind with
    | addNode =>
      rw [contains_addNode done]
      simp [or_comm]
    | removeNode =>
      rw [contains_removeNode done]
      simp [and_comm]
    | addEdge =>
      rw [contains_addEdge done]
      simp
    | removeEdge =>
      obtain ⟨ne, rfl⟩ := removeEdge_inv done
      rw [contains_unlink ne]
      simp
  | error e =>
    rw [after_of_error done]
    cases kind with
    | addNode =>
      obtain ⟨o, ok⟩ := g.exists_addNode a
      rw [show g.apply ⟨.addNode, a, b⟩ = g.addNode a from rfl, ok] at done
      cases done
    | removeNode =>
      have missing := contains_of_removeNode_error done
      have other : g.contains x = true → x ≠ a := by
        rintro stands rfl
        rw [missing] at stands
        cases stands
      simpa using other
    | addEdge => simp
    | removeEdge => simp

/-- **Edges** after a mutation, refused ones included. -/
theorem adj_after (simple : g.Simple) (m : Mutation) (x y : NodeId) :
    (g.after m).Adj x y ↔ g.Adj x y ∧ ¬ m.Cuts x y ∨
      m.Joins x y ∧ g.contains x = true ∧ g.contains y = true := by
  obtain ⟨kind, a, b⟩ := m
  unfold Mutation.Cuts Mutation.Joins Mutation.Between
  cases done : g.apply ⟨kind, a, b⟩ with
  | ok result =>
    obtain ⟨o, h⟩ := result
    rw [after_of_ok done]
    cases kind with
    | addNode =>
      rw [adj_addNode done]
      simp
    | removeNode =>
      rw [adj_removeNode simple done]
      simp
    | addEdge =>
      obtain ⟨ne, ha, hb, -⟩ := addEdge_inv done
      rw [adj_addEdge done]
      simp only [reduceCtorEq, false_and, or_self, not_false_eq_true, and_true, ne_eq, ne,
        true_and]
      constructor
      · rintro (joined | ⟨rfl, rfl⟩ | ⟨rfl, rfl⟩)
        · exact .inl joined
        · exact .inr ⟨.inl ⟨rfl, rfl⟩, ha, hb⟩
        · exact .inr ⟨.inr ⟨rfl, rfl⟩, hb, ha⟩
      · rintro (joined | ⟨between, -⟩)
        · exact .inl joined
        · exact .inr between
    | removeEdge =>
      obtain ⟨ne, rfl⟩ := removeEdge_inv done
      rw [adj_unlink ne]
      simp
  | error e =>
    rw [after_of_error done]
    cases kind with
    | addNode => simp
    | removeNode =>
      have missing := contains_of_removeNode_error done
      have other : g.Adj x y → ¬ (x = a ∨ y = a) := by
        rintro joined (rfl | rfl)
        · rw [joined.contains] at missing
          cases missing
        · rw [simple.closed x y joined] at missing
          cases missing
      simpa using other
    | addEdge =>
      have refused := not_ends_of_addEdge_error done
      simp only [reduceCtorEq, false_and, or_self, not_false_eq_true, and_true, true_and,
        iff_self_or]
      rintro ⟨⟨ne, ⟨rfl, rfl⟩ | ⟨rfl, rfl⟩⟩, hx, hy⟩
      · exact absurd ⟨ne, hx, hy⟩ refused
      · exact absurd ⟨ne, hy, hx⟩ refused
    | removeEdge =>
      have missing := not_adj_of_removeEdge_error simple done
      have other : g.Adj x y → ¬ (x = a ∧ y = b ∨ x = b ∧ y = a) := by
        rintro joined (⟨rfl, rfl⟩ | ⟨rfl, rfl⟩)
        · exact missing joined
        · exact missing (simple.symm _ _ joined)
      simpa using other

/-! ## Many mutations -/

/-- A node that no mutation adds stands as long as none drops it. -/
theorem contains_replay {ms : List Mutation} (never : ∀ m ∈ ms, ¬ m.Adds x) :
    (g.replay ms).contains x = true ↔ g.contains x = true ∧ ∀ m ∈ ms, ¬ m.Drops x := by
  induction ms generalizing g with
  | nil => simp [replay]
  | cons m rest ih =>
    obtain ⟨first, others⟩ := List.forall_mem_cons.1 never
    show ((g.after m).replay rest).contains x = true ↔ _
    rw [ih others, contains_after, List.forall_mem_cons]
    simp [first, and_assoc]

/-- Nodes that no mutation joins are joined as long as none cuts them. -/
theorem adj_replay (simple : g.Simple) {ms : List Mutation} (never : ∀ m ∈ ms, ¬ m.Joins x y) :
    (g.replay ms).Adj x y ↔ g.Adj x y ∧ ∀ m ∈ ms, ¬ m.Cuts x y := by
  induction ms generalizing g with
  | nil => simp [replay]
  | cons m rest ih =>
    obtain ⟨first, others⟩ := List.forall_mem_cons.1 never
    show ((g.after m).replay rest).Adj x y ↔ _
    rw [ih (simple.after m) others, adj_after simple, List.forall_mem_cons]
    simp [first, and_assoc]

/-! ## Parts of a graph -/

/-- Two graphs have the same nodes among some ids, and the same edges between these. -/
structure SameOn (ids : NodeId → Prop) (g h : Graph) : Prop where
  contains : ∀ x, ids x → g.contains x = h.contains x
  adj : ∀ x y, ids x → ids y → (g.Adj x y ↔ h.Adj x y)

variable {ids : NodeId → Prop}

theorem sameOn_refl (ids : NodeId → Prop) (g : Graph) : SameOn ids g g where
  contains _ _ := rfl
  adj _ _ _ _ := Iff.rfl

theorem SameOn.symm (same : SameOn ids g h) : SameOn ids h g where
  contains x hx := (same.contains x hx).symm
  adj x y hx hy := (same.adj x y hx hy).symm

theorem SameOn.trans {k : Graph} (first : SameOn ids g h) (second : SameOn ids h k) :
    SameOn ids g k where
  contains x hx := (first.contains x hx).trans (second.contains x hx)
  adj x y hx hy := (first.adj x y hx hy).trans (second.adj x y hx hy)

theorem SameOn.hasEdge (same : SameOn ids g h) (hx : ids x) (hy : ids y) :
    g.hasEdge x y = h.hasEdge x y := by
  rw [Bool.eq_iff_iff, hasEdge_iff, hasEdge_iff]
  exact same.adj x y hx hy

theorem SameOn.checkEnds (same : SameOn ids g h) (hx : ids x) (hy : ids y) :
    g.checkEnds x y = h.checkEnds x y := by
  unfold Graph.checkEnds
  rw [same.contains x hx, same.contains y hy]

/-- **The answer** to a mutation that names ids only is the same. -/
theorem SameOn.answer (same : SameOn ids g h) (inside : ∀ x ∈ m.ids, ids x) :
    g.answer m = h.answer m := by
  obtain ⟨kind, a, b⟩ := m
  unfold Graph.answer Graph.apply
  cases kind with
  | addNode =>
    have ha := inside a (by simp [Mutation.ids])
    simp only [addNode, same.contains a ha]
    split <;> rfl
  | removeNode =>
    have ha := same.contains a (inside a (by simp [Mutation.ids]))
    rw [contains_eq, contains_eq] at ha
    simp only [removeNode]
    cases hg : g.neighbors? a <;> cases hh : h.neighbors? a
    · rfl
    · rw [hg, hh] at ha
      cases ha
    · rw [hg, hh] at ha
      cases ha
    · rfl
  | addEdge =>
    have ha := inside a (by simp [Mutation.ids])
    have hb := inside b (by simp [Mutation.ids])
    simp only [addEdge, same.checkEnds ha hb, same.hasEdge ha hb]
    cases h.checkEnds a b <;> rfl
  | removeEdge =>
    have ha := inside a (by simp [Mutation.ids])
    have hb := inside b (by simp [Mutation.ids])
    simp only [removeEdge, same.checkEnds ha hb, same.hasEdge ha hb]
    cases h.checkEnds a b with
    | error e => rfl
    | ok _ => cases h.hasEdge a b <;> rfl

/-- It leaves graphs that are the same there the same there. -/
theorem SameOn.after (same : SameOn ids g h) (hg : g.Simple) (hh : h.Simple) (m : Mutation) :
    SameOn ids (g.after m) (h.after m) where
  contains x hx := by
    rw [Bool.eq_iff_iff, contains_after, contains_after, same.contains x hx]
  adj x y hx hy := by
    rw [adj_after hg, adj_after hh, same.adj x y hx hy, same.contains x hx, same.contains y hy]

/-- **A mutation that names other nodes** leaves a part of a graph as it is. -/
theorem sameOn_after (simple : g.Simple) (beside : ∀ x ∈ m.ids, ¬ ids x) :
    SameOn ids (g.after m) g where
  contains x hx := by
    have drops : ¬ m.Drops x := fun h => beside x h.mem_ids hx
    have adds : ¬ m.Adds x := fun h => beside x h.mem_ids hx
    rw [Bool.eq_iff_iff, contains_after]
    simp [drops, adds]
  adj x y hx hy := by
    have cuts : ¬ m.Cuts x y := by
      intro h
      obtain named | named := h.mem_ids
      · exact beside x named hx
      · exact beside y named hy
    have joins : ¬ m.Joins x y := fun h => beside x h.mem_ids.1 hx
    rw [adj_after simple]
    simp [cuts, joins]

end Graph

end DurableGraph
