import DurableGraph.Proofs.Checkpoint.Size
import DurableGraph.Proofs.Graph.Locality

/-!
# How long the words of a graph become

A mutation adds two words at most.  So does each of the two that a word of a checkpoint leads to
when it is restored, whatever the checkpoint holds.

    (g.after m).words.length ≤ g.words.length + 2
    (g.replay ms).words.length ≤ g.words.length + 2 * ms.length
    restored from n words      at most 4 * n words more
-/

namespace DurableGraph

/-! ## Mutations -/

namespace SetGraph

variable {s : SetGraph}

theorem wordCount_insertNode_le (a : NodeId) : (s.insertNode a).wordCount ≤ s.wordCount + 2 := by
  have nodes := Finset.card_insert_le a s.nodes
  show 2 * (insert a s.nodes).card + 2 * s.edges.card ≤ 2 * s.nodes.card + 2 * s.edges.card + 2
  omega

theorem wordCount_eraseNode_le (a : NodeId) : (s.eraseNode a).wordCount ≤ s.wordCount :=
  Nat.add_le_add (Nat.mul_le_mul_left 2 Finset.card_erase_le)
    (Nat.mul_le_mul_left 2 (Finset.card_filter_le _ _))

theorem wordCount_insertEdge_le {a b : NodeId} (ne : a ≠ b) (ha : a ∈ s.nodes) (hb : b ∈ s.nodes) :
    (s.insertEdge ne ha hb).wordCount ≤ s.wordCount + 2 := by
  have edges := Finset.card_insert_le s(a, b) s.edges
  show 2 * s.nodes.card + 2 * (insert s(a, b) s.edges).card ≤
    2 * s.nodes.card + 2 * s.edges.card + 2
  omega

theorem wordCount_eraseEdge_le (a b : NodeId) : (s.eraseEdge a b).wordCount ≤ s.wordCount :=
  Nat.add_le_add_left (Nat.mul_le_mul_left 2 Finset.card_erase_le) _

theorem wordCount_mutate_le (s : SetGraph) (m : Mutation) :
    (s.mutate m).2.wordCount ≤ s.wordCount + 2 := by
  unfold mutate
  cases m.kind with
  | addNode =>
    simp only
    unfold addNode
    split
    · exact Nat.le_add_right _ 2
    · exact wordCount_insertNode_le m.a
  | removeNode =>
    simp only
    unfold removeNode
    split
    · exact Nat.le_add_right_of_le (wordCount_eraseNode_le m.a)
    · exact Nat.le_add_right _ 2
  | addEdge =>
    simp only
    unfold addEdge
    split
    · exact Nat.le_add_right _ 2
    · next ne =>
      split
      · next held =>
        split
        · exact Nat.le_add_right _ 2
        · exact wordCount_insertEdge_le ne held.1 held.2
      · exact Nat.le_add_right _ 2
  | removeEdge =>
    simp only
    unfold removeEdge
    split
    · exact Nat.le_add_right _ 2
    · split
      · exact Nat.le_add_right_of_le (wordCount_eraseEdge_le m.a m.b)
      · exact Nat.le_add_right _ 2

end SetGraph

namespace Graph

variable {g : Graph}

theorem Simple.length_words_after (simple : g.Simple) (m : Mutation) :
    (g.after m).words.length ≤ g.words.length + 2 := by
  have sets := simple.matches_sets
  rw [sets.length_words, (sets.mutate m).2.length_words]
  exact SetGraph.wordCount_mutate_le _ m

/-- **Any mutations**, by induction on them. -/
theorem Simple.length_words_replay (simple : g.Simple) (ms : List Mutation) :
    (g.replay ms).words.length ≤ g.words.length + 2 * ms.length := by
  induction ms generalizing g with
  | nil => exact Nat.le_refl _
  | cons m rest ih =>
    have first := simple.length_words_after m
    have later : (g.replay (m :: rest)).words.length ≤ _ := ih (simple.after m)
    rw [List.length_cons]
    omega

end Graph

/-! ## Restoring -/

namespace CheckpointSlot

variable {image : Image} {r t : WordReader} {stop : Nat} {words : List UInt64} {g h : Graph}

theorem restoreEdges_grows (faces : r.Faces image stop words) (simple : g.Simple) (id : NodeId)
    (count : Nat) (ok : restoreEdges image id count r g = (.ok t, h)) :
    ∃ rest, t.Faces image stop rest ∧ t.device = r.device ∧
      h.words.length + 4 * rest.length ≤ g.words.length + 4 * words.length := by
  induction count generalizing r g words with
  | zero =>
    cases ok
    exact ⟨words, faces, rfl, Nat.le_refl _⟩
  | succ count ih =>
    unfold restoreEdges at ok
    cases words with
    | nil =>
      rw [WordReader.next_of_faces_nil faces] at ok
      cases ok
    | cons word words =>
      obtain ⟨u, hnext, faces'⟩ := WordReader.next_of_faces faces
      rw [hnext] at ok
      simp only at ok
      cases hedge : (g.after (.addNode word)).addEdge id word with
      | error refusal =>
        rw [hedge] at ok
        cases ok
      | ok done =>
        rw [hedge] at ok
        have simple' := simple.after (.addNode word)
        have after : (g.after (.addNode word)).after (.addEdge id word) = done.2 :=
          Graph.after_of_ok hedge
        have node := simple.length_words_after (.addNode word)
        have edge := simple'.length_words_after (.addEdge id word)
        rw [after] at edge
        obtain ⟨rest, faces'', device, few⟩ := ih faces' (simple'.addEdge hedge) ok
        refine ⟨rest, faces'', device.trans (WordReader.device_next hnext), ?_⟩
        rw [List.length_cons]
        omega

/-- **Any records**, by induction on them: four words for each that was read. -/
theorem restoreRecords_grows (faces : r.Faces image stop words) (simple : g.Simple)
    (count : Nat) (ok : restoreRecords image count r g = (.ok t, h)) :
    h.words.length ≤ g.words.length + 4 * words.length := by
  induction count generalizing r g words with
  | zero =>
    cases ok
    omega
  | succ count ih =>
    unfold restoreRecords at ok
    cases words with
    | nil =>
      rw [WordReader.next_of_faces_nil faces] at ok
      cases ok
    | cons id words =>
      obtain ⟨u, hid, faces'⟩ := WordReader.next_of_faces faces
      rw [hid] at ok
      simp only at ok
      cases words with
      | nil =>
        rw [WordReader.next_of_faces_nil faces'] at ok
        cases ok
      | cons degree words =>
        obtain ⟨v, hdegree, faces''⟩ := WordReader.next_of_faces faces'
        rw [hdegree] at ok
        simp only at ok
        have node := simple.length_words_after (.addNode id)
        have simple' := simple.after (.addNode id)
        cases hr : restoreEdges image id degree.toNat v (g.after (.addNode id)) with
        | mk result k =>
          rw [hr] at ok
          cases result with
          | error e => cases ok
          | ok z =>
            obtain ⟨rest, faces₃, -, few⟩ := restoreEdges_grows faces'' simple' id _ hr
            have simple'' : k.Simple := by
              have edges := simple'.restoreEdges image id degree.toNat v
              rw [hr] at edges
              exact edges
            have later := ih faces₃ simple'' ok
            rw [List.length_cons, List.length_cons]
            omega

/-- What was restored from a region has at most four words for each that the region holds. -/
theorem Restores.length_words_le {slot : CheckpointSlot} {generation : UInt64}
    (placed : slot.Placed image) (h : slot.Restores image generation g) :
    g.words.length ≤ 4 * slot.bodyWords := by
  obtain ⟨count, gives⟩ := h
  have restored := (gives_restore_inv gives).2
  split at restored
  · obtain ⟨t, records⟩ := restored
    have few := restoreRecords_grows placed.faces_body Graph.simple_empty _ records
    have none : (∅ : Graph).words.length = 0 := rfl
    have body : (image.words slot.body).length = slot.bodyWords :=
      (Image.length_words placed.inside).trans (Nat.mul_comm _ _)
    rw [none, Nat.zero_add, body] at few
    exact few
  · rw [restored]
    exact Nat.zero_le _

end CheckpointSlot

end DurableGraph
