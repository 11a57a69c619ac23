import DurableGraph.Proofs.Checkpoint.Packing
import DurableGraph.Proofs.Graph.Simple
import DurableGraph.Checkpoint.Slot

/-!
# Restoring a graph

What is restored is decided by the blocks behind the superblock, it is simple whatever they
hold, and it is the graph whose words were stored there.

    restoreRecords_congr       images that agree on the body restore alike
    Simple.restoreRecords      a simple graph stays simple, also where the body breaks off
    restoreRecords_append      records that stand first in the body are joined to the graph
    restoreRecords_words       the words of a simple graph restore that graph
-/

namespace DurableGraph

namespace CheckpointSlot

/-! ## What is read -/

theorem restoreEdges_congr {a b : Image} {region : Region} (same : Image.SameOn region a b)
    (id : NodeId) (count : Nat) {r : WordReader} (within : r.Within region) (g : Graph) :
    restoreEdges a id count r g = restoreEdges b id count r g ∧
      ∀ t h, restoreEdges b id count r g = (.ok t, h) → t.Within region := by
  induction count generalizing r g with
  | zero =>
    refine ⟨rfl, fun t h ok => ?_⟩
    cases ok
    exact within
  | succ count ih =>
    unfold restoreEdges
    rw [within.next_congr same]
    cases hnext : r.next b with
    | error e => exact ⟨rfl, fun t h ok => by cases ok⟩
    | ok found =>
      obtain ⟨neighbor, t⟩ := found
      simp only
      cases (g.after (.addNode neighbor)).addEdge id neighbor with
      | error refusal => exact ⟨rfl, fun t h ok => by cases ok⟩
      | ok done => exact ih (within.next hnext) done.2

theorem restoreRecords_congr {a b : Image} {region : Region} (same : Image.SameOn region a b)
    (count : Nat) {r : WordReader} (within : r.Within region) (g : Graph) :
    restoreRecords a count r g = restoreRecords b count r g := by
  induction count generalizing r g with
  | zero => rfl
  | succ count ih =>
    unfold restoreRecords
    rw [within.next_congr same]
    cases hid : r.next b with
    | error e => rfl
    | ok found =>
      obtain ⟨id, t⟩ := found
      have within' := within.next hid
      simp only
      rw [within'.next_congr same]
      cases hdegree : t.next b with
      | error e => rfl
      | ok found' =>
        obtain ⟨degree, u⟩ := found'
        have hedges := restoreEdges_congr same id degree.toNat (within'.next hdegree)
          (g.after (.addNode id))
        simp only
        rw [hedges.1]
        cases hr : restoreEdges b id degree.toNat u (g.after (.addNode id)) with
        | mk result h =>
          cases result with
          | error e => rfl
          | ok v => exact ih (hedges.2 v h hr) h

end CheckpointSlot

/-! ## Simple graphs -/

namespace Graph

theorem Simple.restoreEdges {g : Graph} (simple : g.Simple) (image : Image) (id : NodeId)
    (count : Nat) (r : WordReader) : (CheckpointSlot.restoreEdges image id count r g).2.Simple := by
  induction count generalizing r g with
  | zero => exact simple
  | succ count ih =>
    unfold CheckpointSlot.restoreEdges
    cases r.next image with
    | error e => exact simple
    | ok found =>
      have simple' := simple.after (.addNode found.1)
      simp only
      cases hedge : (g.after (.addNode found.1)).addEdge id found.1 with
      | error refusal => exact simple'
      | ok done => exact ih (simple'.addEdge hedge) found.2

theorem Simple.restoreRecords {g : Graph} (simple : g.Simple) (image : Image) (count : Nat)
    (r : WordReader) : (CheckpointSlot.restoreRecords image count r g).2.Simple := by
  induction count generalizing r g with
  | zero => exact simple
  | succ count ih =>
    unfold CheckpointSlot.restoreRecords
    cases r.next image with
    | error e => exact simple
    | ok found =>
      have simple' := simple.after (.addNode found.1)
      simp only
      cases found.2.next image with
      | error e => exact simple'
      | ok found' =>
        have hedges := simple'.restoreEdges image found.1 found'.1.toNat found'.2
        simp only
        cases hr : CheckpointSlot.restoreEdges image found.1 found'.1.toNat found'.2
            (g.after (.addNode found.1)) with
        | mk result h =>
          rw [hr] at hedges
          cases result with
          | error e => exact hedges
          | ok t => exact ih hedges t

end Graph

/-! ## Records -/

/-- A record of the body: the id of a node, its degree, and so many neighbours. -/
structure BodyRecord where
  id : NodeId
  degree : UInt64
  neighbors : List NodeId
  length_eq : neighbors.length = degree.toNat

namespace BodyRecord

def words (record : BodyRecord) : List UInt64 :=
  record.id :: record.degree :: record.neighbors

/-- A node that some records name, as their own or as a neighbour. -/
def Named (records : List BodyRecord) (x : NodeId) : Prop :=
  ∃ r ∈ records, x = r.id ∨ x ∈ r.neighbors

/-- Two nodes that some record joins, whichever of them it is a record of. -/
def Joined (records : List BodyRecord) (x y : NodeId) : Prop :=
  ∃ r ∈ records, (x = r.id ∧ y ∈ r.neighbors) ∨ (y = r.id ∧ x ∈ r.neighbors)

end BodyRecord

/-- One graph holds what another one does, and some nodes and edges. -/
structure Graph.Gains (g h : Graph) (nodes : NodeId → Prop) (edges : NodeId → NodeId → Prop) :
    Prop where
  simple : h.Simple
  contains : ∀ x, h.contains x = true ↔ g.contains x = true ∨ nodes x
  adj : ∀ x y, h.Adj x y ↔ g.Adj x y ∨ edges x y

/-- What a graph holds already is not gained again. -/
theorem Graph.Gains.eq_of_again {g h k : Graph} {nodes : NodeId → Prop}
    {edges : NodeId → NodeId → Prop} (first : g.Gains h nodes edges)
    (second : h.Gains k nodes edges) : k = h := by
  apply ext_contains_adj
  · intro x
    rw [Bool.eq_iff_iff, second.contains, first.contains]
    exact or_iff_left_of_imp .inr
  · intro x y
    rw [second.adj, first.adj]
    exact or_iff_left_of_imp .inr

namespace CheckpointSlot

open DurableGraph.Graph

variable {image : Image} {stop : Nat} {id : NodeId} {rest : List UInt64} {r : WordReader}

/-- Joined to each of a list of neighbours, a node is ready for more of them. -/
theorem restoreEdges_append {neighbors : List NodeId}
    (faces : r.Faces image stop (neighbors ++ rest)) {g : Graph} (simple : g.Simple)
    (here : g.contains id = true) (others : id ∉ neighbors) (more : Nat) :
    ∃ t h, restoreEdges image id (neighbors.length + more) r g = restoreEdges image id more t h ∧
      t.Faces image stop rest ∧
      g.Gains h (· ∈ neighbors) fun x y =>
        (x = id ∧ y ∈ neighbors) ∨ (y = id ∧ x ∈ neighbors) := by
  induction neighbors generalizing r g with
  | nil => exact ⟨r, g, by rw [List.length_nil, Nat.zero_add], faces, simple, by simp, by simp⟩
  | cons n later ih =>
    obtain ⟨t, hnext, faces'⟩ := WordReader.next_of_faces faces
    obtain ⟨o, hadd⟩ := exists_addNode g n
    have hid : (g.after (.addNode n)).contains id = true := (contains_addNode hadd).2 (.inr here)
    have hn : (g.after (.addNode n)).contains n = true := (contains_addNode hadd).2 (.inl rfl)
    rw [List.mem_cons, not_or] at others
    obtain ⟨o', k, hedge⟩ := exists_addEdge others.1 hid hn
    have hsimple := simple.addNode hadd
    obtain ⟨u, h, hrest, faces'', gains⟩ := ih faces' (hsimple.addEdge hedge)
      (by rw [contains_addEdge hedge]; exact hid) others.2
    refine ⟨u, h, ?_, faces'', gains.simple, fun x => ?_, fun x y => ?_⟩
    · rw [List.length_cons, Nat.succ_add, restoreEdges, hnext]
      simp only [hedge]
      exact hrest
    · rw [gains.contains, contains_addEdge hedge, contains_addNode hadd, List.mem_cons]
      grind
    · rw [gains.adj, adj_addEdge hedge, adj_addNode hadd, List.mem_cons, List.mem_cons]
      grind

/-- With records that stand first joined to it, record by record, a graph is ready for more. -/
theorem restoreRecords_append {records : List BodyRecord}
    (faces : r.Faces image stop (records.flatMap BodyRecord.words ++ rest)) {g : Graph}
    (simple : g.Simple) (others : ∀ record ∈ records, record.id ∉ record.neighbors) (more : Nat) :
    ∃ t h, restoreRecords image (records.length + more) r g = restoreRecords image more t h ∧
      t.Faces image stop rest ∧
      g.Gains h (BodyRecord.Named records) (BodyRecord.Joined records) := by
  unfold BodyRecord.Named BodyRecord.Joined
  induction records generalizing r g with
  | nil => exact ⟨r, g, by rw [List.length_nil, Nat.zero_add], faces, simple, by simp, by simp⟩
  | cons record later ih =>
    rw [List.flatMap_cons, List.append_assoc] at faces
    obtain ⟨t, hid, faces₁⟩ := WordReader.next_of_faces faces
    obtain ⟨u, hdegree, faces₂⟩ := WordReader.next_of_faces faces₁
    obtain ⟨o, hadd⟩ := exists_addNode g record.id
    have hsimple := simple.addNode hadd
    obtain ⟨v, k, hedges, faces₃, gains⟩ := restoreEdges_append faces₂ hsimple
      ((contains_addNode hadd).2 (.inl rfl)) (others record List.mem_cons_self) 0
    obtain ⟨w, h, hrest, faces₄, gains'⟩ := ih faces₃ gains.simple
      fun n hn => others n (List.mem_cons_of_mem _ hn)
    rw [Nat.add_zero, record.length_eq] at hedges
    refine ⟨w, h, ?_, faces₄, gains'.simple, fun x => ?_, fun x y => ?_⟩
    · rw [List.length_cons, Nat.succ_add, restoreRecords, hid]
      simp only [hdegree, hedges]
      exact hrest
    · rw [gains'.contains, gains.contains, contains_addNode hadd]
      simp only [List.mem_cons]
      grind
    · rw [gains'.adj, gains.adj, adj_addNode hadd]
      simp only [List.mem_cons]
      grind

end CheckpointSlot

/-! ## The words of a graph -/

/-- The record of a node, whose neighbours one word can count. -/
def Node.record (n : Node) (small : n.degree < UInt64.size) : BodyRecord where
  id := n.id
  degree := n.degree.toUInt64
  neighbors := n.neighbors
  length_eq := by
    show n.edges.toList.length = n.degree % UInt64.size
    rw [Nat.mod_eq_of_lt small]
    exact Std.ExtTreeSet.length_toList

namespace Graph

/-- Each node takes two words, and each of its neighbours one. -/
theorem length_words (g : Graph) : g.words.length = 2 * g.nodeCount + totalDegree g.nodes := by
  unfold words
  rw [nodeCount_eq]
  induction g.nodes with
  | nil => rfl
  | cons n rest ih =>
    have hn : n.neighbors.length = n.degree := Std.ExtTreeSet.length_toList
    rw [List.flatMap_cons, List.length_append, List.length_cons, List.length_cons, ih,
      List.length_cons, totalDegree, hn]
    omega

theorem degree_lt_length_words {g : Graph} {n : Node} (h : n ∈ g.nodes) :
    n.degree < g.words.length := by
  have hcount := List.length_pos_of_mem h
  have hdegree := degree_le_totalDegree h
  rw [length_words, nodeCount_eq]
  omega

theorem nodeCount_le_length_words (g : Graph) : g.nodeCount ≤ g.words.length := by
  rw [length_words]
  omega

/-- The records of a graph, one for each node. -/
def records (g : Graph) (few : g.words.length < UInt64.size) : List BodyRecord :=
  g.nodes.pmap Node.record fun _ hn => Nat.lt_trans (degree_lt_length_words hn) few

variable {g h : Graph} {few : g.words.length < UInt64.size}

theorem words_eq (few : g.words.length < UInt64.size) :
    g.words = (g.records few).flatMap BodyRecord.words := by
  unfold records
  rw [List.flatMap_def, List.map_pmap]
  show g.words = (List.pmap (fun (n : Node) _ => n.id :: n.degree.toUInt64 :: n.neighbors)
    g.nodes _).flatten
  rw [List.pmap_eq_map]
  rfl

@[simp] theorem length_records : (g.records few).length = g.nodes.length := by
  unfold records
  exact List.length_pmap

/-- A record tells the neighbours of a node of the graph. -/
theorem neighbors_of_mem_records {r : BodyRecord} (hr : r ∈ g.records few) :
    ∃ edges, g.neighbors? r.id = some edges ∧ ∀ x, x ∈ r.neighbors ↔ x ∈ edges := by
  obtain ⟨n, hn, rfl⟩ := List.mem_pmap.1 hr
  exact ⟨n.edges, mem_nodes_iff.1 hn, fun x => Std.ExtTreeSet.mem_toList⟩

/-- Every node has a record. -/
theorem exists_record (few : g.words.length < UInt64.size) {x : NodeId}
    (held : g.contains x = true) : ∃ r ∈ g.records few, r.id = x := by
  rw [contains_eq] at held
  obtain ⟨edges, hedges⟩ := Option.isSome_iff_exists.1 held
  exact ⟨_, List.mem_pmap.2 ⟨⟨x, edges⟩, mem_nodes_iff.2 hedges, rfl⟩, rfl⟩

/-- A node is no neighbour of its own in the records of a simple graph. -/
theorem Simple.not_mem_neighbors (simple : g.Simple) {r : BodyRecord} (hr : r ∈ g.records few) :
    r.id ∉ r.neighbors := by
  obtain ⟨edges, held, hmem⟩ := neighbors_of_mem_records hr
  intro hself
  exact simple.irrefl r.id ((adj_iff held).2 ((hmem _).1 hself))

/-- What the records of a simple graph tell is the graph. -/
theorem Gains.eq_of_records (simple : g.Simple)
    (gains : (∅ : Graph).Gains h (BodyRecord.Named (g.records few))
      (BodyRecord.Joined (g.records few))) : h = g := by
  have hadj : ∀ r ∈ g.records few, ∀ y, y ∈ r.neighbors → g.Adj r.id y := by
    intro r hr y hy
    obtain ⟨edges, held, hmem⟩ := neighbors_of_mem_records hr
    exact (adj_iff held).2 ((hmem y).1 hy)
  apply ext_contains_adj
  · intro x
    rw [Bool.eq_iff_iff, gains.contains]
    constructor
    · rintro (hx | ⟨r, hr, rfl | hx⟩)
      · rw [contains_eq, neighbors?_empty] at hx
        cases hx
      · obtain ⟨edges, held, -⟩ := neighbors_of_mem_records hr
        rw [contains_eq, held]
        rfl
      · exact simple.closed _ _ (hadj r hr x hx)
    · intro hx
      obtain ⟨r, hr, rfl⟩ := exists_record few hx
      exact .inr ⟨r, hr, .inl rfl⟩
  · intro x y
    rw [gains.adj]
    constructor
    · rintro (hxy | ⟨r, hr, ⟨rfl, hy⟩ | ⟨rfl, hx⟩⟩)
      · exact absurd hxy (not_adj_of_none (neighbors?_empty x))
      · exact hadj r hr y hy
      · exact simple.symm _ _ (hadj r hr x hx)
    · intro hxy
      obtain ⟨r, hr, rfl⟩ := exists_record few hxy.contains
      obtain ⟨edges, held, hmem⟩ := neighbors_of_mem_records hr
      exact .inr ⟨r, hr, .inl ⟨rfl, (hmem y).2 ((adj_iff held).1 hxy)⟩⟩

end Graph

/-- **Round trip.**  Where the words of a simple graph stand first, that graph is restored. -/
theorem CheckpointSlot.restoreRecords_words {image : Image} {stop : Nat} {g : Graph}
    {r : WordReader} {rest : List UInt64} (faces : r.Faces image stop (g.words ++ rest))
    (simple : g.Simple) (few : g.words.length < UInt64.size) :
    ∃ t, restoreRecords image g.nodeCount r ∅ = (.ok t, g) := by
  rw [Graph.words_eq few] at faces
  obtain ⟨t, h, hrecords, -, gains⟩ := restoreRecords_append faces Graph.simple_empty
    (fun _ hr => simple.not_mem_neighbors hr) 0
  rw [gains.eq_of_records simple, Nat.add_zero, Graph.length_records, ← g.nodeCount_eq] at hrecords
  exact ⟨t, hrecords⟩

end DurableGraph
