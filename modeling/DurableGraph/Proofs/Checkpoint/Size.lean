import DurableGraph.Proofs.Checkpoint.VersionedSlot
import DurableGraph.Proofs.Graph.Degrees

/-!
# The size of a checkpoint

A node takes two words, and an edge one at each of its ends.  So whether a graph fits into a region
is known before anything is written, and a graph that does not fit leaves no trace.

    g.words.length = s.wordCount = 2 * nodes + 2 * edges              (Matches.length_words)
    fits         its records, zeros up to the end of a block, what stood behind
    too long     noSpace at the end of the region; neither slot nor image changes
-/

namespace DurableGraph

namespace SetGraph

/-- The words that tell a graph: an id and a degree for every node, two neighbours for every
edge. -/
def wordCount (s : SetGraph) : Nat := 2 * s.nodes.card + 2 * s.edges.card

/-- The nodes as records, in ascending order, each with its neighbours in ascending order. -/
structure ListedBy (s : SetGraph) (records : List BodyRecord) : Prop where
  ascending : (records.map BodyRecord.id).Pairwise (· < ·)
  mem_ids : ∀ a, a ∈ records.map BodyRecord.id ↔ a ∈ s.nodes
  neighbors_ascending : ∀ r ∈ records, r.neighbors.Pairwise (· < ·)
  mem_neighbors : ∀ r ∈ records, ∀ b, b ∈ r.neighbors ↔ s(r.id, b) ∈ s.edges

/-- What a checkpoint leaves behind the superblock of a region: the records, and zeros up to the
end of the last block that holds a word of them.  The other blocks hold what they held before. -/
structure FillsBody (s : SetGraph) (region : Region) (before after : Image) : Prop where
  words_eq : ∃ records, s.ListedBy records ∧
    after.words ⟨region.start + 1, region.stop⟩ = records.flatMap BodyRecord.words ++
      List.replicate (wordsPerBlock * blocksFor s.wordCount - s.wordCount) 0 ++
        (before.words ⟨region.start + 1, region.stop⟩).drop (wordsPerBlock * blocksFor s.wordCount)
  behind : ∀ n, region.start + 1 + blocksFor s.wordCount ≤ n → after.block? n = before.block? n

end SetGraph

namespace Graph

variable {g : Graph} {s : SetGraph}

theorem Matches.length_words (h : g.Matches s) : g.words.length = s.wordCount := by
  rw [Graph.length_words, h.nodeCount_eq, h.totalDegree_eq]
  rfl

theorem map_id_records {few : g.words.length < UInt64.size} :
    (g.records few).map BodyRecord.id = g.nodes.map Node.id := by
  unfold records
  rw [List.map_pmap]
  exact List.pmap_eq_map fun _ hn => Nat.lt_trans (degree_lt_length_words hn) few

/-- The records of a graph list its nodes and edges. -/
theorem Matches.listedBy (h : g.Matches s) (few : g.words.length < UInt64.size) :
    s.ListedBy (g.records few) where
  ascending := by
    rw [map_id_records]
    exact h.shows.ascending
  mem_ids a := by
    rw [map_id_records]
    exact h.shows.mem_nodes a
  neighbors_ascending r hr := by
    obtain ⟨n, hn, rfl⟩ := List.mem_pmap.1 hr
    exact h.shows.neighbors_ascending n hn
  mem_neighbors r hr b := by
    obtain ⟨n, hn, rfl⟩ := List.mem_pmap.1 hr
    exact h.shows.mem_neighbors n hn b

end Graph

namespace CheckpointSlot

variable {slot : CheckpointSlot} {image : Image} {g : Graph} {s : SetGraph}

/-- A checkpoint touches no block behind its last word. -/
theorem block?_commitWrites (placed : slot.Placed image) (generation : UInt64)
    (room : g.words.length ≤ slot.bodyWords) {n : Nat}
    (behind : slot.region.start + 1 + blocksFor g.words.length ≤ n) :
    (image.storeAll (slot.commitWrites generation g)).block? n = image.block? n := by
  apply Image.block?_storeAll_of_ne (fits_commitWrites placed generation room)
  intro buffer hb
  rcases List.mem_cons.1 hb with rfl | hb
  · show slot.region.start ≠ n
    omega
  · rcases List.mem_append.1 hb with hb | hb
    · have := number_lt_of_mem_packed hb
      show buffer.number ≠ n
      have hstart : slot.body.start = slot.region.start + 1 := rfl
      omega
    · rw [List.mem_singleton.1 hb]
      show slot.region.start ≠ n
      omega

theorem fillsBody_commitWrites (placed : slot.Placed image) (generation : UInt64)
    (sets : g.Matches s) (room : g.words.length ≤ slot.bodyWords) :
    s.FillsBody slot.region image (image.storeAll (slot.commitWrites generation g)) := by
  have few := placed.length_words_lt room
  have hwords := words_commitWrites placed generation room
  have hbehind := fun n => block?_commitWrites placed generation room (n := n)
  rw [sets.length_words] at hwords hbehind
  rw [Graph.words_eq few] at hwords
  exact ⟨⟨_, sets.listedBy few, hwords⟩, hbehind⟩

end CheckpointSlot

/-- **A checkpoint of a graph is as long as its nodes and edges say.**  Whatever graph actions
led to, and with any superblock in memory: a commit succeeds where the words fit behind the
superblock, and then the writer of the body takes all of them; otherwise it is refused at the end
of the region, and nothing changes. -/
theorem commit_ok_iff {path : String} {image : Image} {region : Region} {fresh : CheckpointSlot}
    (sized : image.size < UInt64.size)
    (bound : CheckpointSlot.ofRegion (Device.ofImage path image) region = .ok fresh)
    (superblock : CheckpointSuperblock) (generation : UInt64) {g : Graph} (simple : g.Simple) :
    let s : SlotSession := ⟨fresh.withSuperblock superblock, image⟩
    let done := s.perform (.commit generation g simple)
    ∃ sets : SetGraph, g.Matches sets ∧
      (done.1 = .ok () ↔ 2 * sets.nodes.card + 2 * sets.edges.card ≤
        wordsPerBlock * (region.stop - region.start - 1)) ∧
      (done.1 = .ok () → sets.FillsBody region image done.2.image ∧
        ∃ writer, (WordWriter.ofRegion s.slot.device s.slot.body).pushAll g.words = .ok writer) ∧
      (done.1 ≠ .ok () → done = (.error (.noSpace region.stop), s)) := by
  intro s done
  have placed : s.slot.Placed image :=
    (CheckpointSlot.placed_of_ofRegion sized bound).congr rfl rfl rfl
  have hregion : s.slot.region = region := by
    show fresh.region = region
    rw [(CheckpointSlot.ofRegion_eq_ok_iff.1 bound).2]
  have hwords : g.words.length = 2 * simple.sets.nodes.card + 2 * simple.sets.edges.card :=
    simple.matches_sets.length_words
  refine ⟨simple.sets, simple.matches_sets, ?_⟩
  show (done.1 = .ok () ↔ _ ≤ region.wordBound) ∧ _
  rw [← hwords]
  by_cases room : g.words.length ≤ region.wordBound
  · have room' : g.words.length ≤ s.slot.region.wordBound := by rw [hregion]; exact room
    have hdone : done = (.ok (), ⟨s.slot.withSuperblock (.closing generation g),
        image.storeAll (s.slot.commitWrites generation g)⟩) :=
      SlotSession.perform_of_gives (SlotSession.gives_commit placed room')
    rw [← SlotSession.bodyWords_eq] at room'
    have fills := CheckpointSlot.fillsBody_commitWrites placed generation simple.matches_sets room'
    rw [hregion] at fills
    rw [hdone]
    dsimp only
    refine ⟨⟨fun _ => room, fun _ => rfl⟩, fun _ => ⟨?_, ?_⟩, fun h => (h rfl).elim⟩
    · exact fills
    · obtain ⟨writer, hpush, -⟩ := CheckpointSlot.exists_pushAll placed room'
      exact ⟨writer, hpush⟩
  · have full : s.slot.region.wordBound < g.words.length := by rw [hregion]; omega
    have hdone : done = (.error (.noSpace region.stop), s) := by
      rw [← hregion]
      exact SlotSession.perform_noSpace full
    rw [hdone]
    refine ⟨⟨fun h => ?_, fun h => absurd h room⟩, fun h => ?_, fun _ => rfl⟩
    · cases h
    · cases h

/-- Two nodes and an edge take six words behind the superblock of a region of two blocks. -/
theorem commit_ok_iff_zeros :
    let image := Image.zeros 40960
    let actions : List GraphAction := [.mutation (.addNode 7), .mutation (.addNode 3),
      .mutation (.addEdge 7 3)]
    let commit : SlotAction := .commit 5 ((∅ : Graph).run actions).2 (Graph.simple_run actions)
    let sets := ((∅ : SetGraph).run actions).2
    ∃ fresh, image.size < UInt64.size ∧
      CheckpointSlot.ofRegion (Device.ofImage "disk" image) ⟨2, 4⟩ = .ok fresh ∧
      sets.wordCount = 6 ∧
      (SlotSession.perform ⟨fresh.withSuperblock ⟨true, 4, 9⟩, image⟩ commit).1 = .ok () ∧
      sets.FillsBody ⟨2, 4⟩ image
        (SlotSession.perform ⟨fresh.withSuperblock ⟨true, 4, 9⟩, image⟩ commit).2.image := by
  intro image actions commit sets
  have hsize : image.size = 40960 := Array.size_replicate
  have sized : image.size < UInt64.size := by
    rw [hsize]
    decide
  have hcount : image.blockCount = 10 := Image.blockCount_zeros 40960
  have bound : CheckpointSlot.ofRegion (Device.ofImage "disk" image) ⟨2, 4⟩ = .ok _ :=
    CheckpointSlot.ofRegion_eq_ok_iff.2
      ⟨⟨Nat.le_trans (by decide) (Nat.le_of_eq hcount.symm), by decide⟩, rfl⟩
  obtain ⟨found, matched, iff, fills, -⟩ :=
    commit_ok_iff sized bound ⟨true, 4, 9⟩ 5 (Graph.simple_run actions)
  obtain rfl : found = sets := matched.unique_sets (Graph.matches_empty.run actions).2
  have words : SetGraph.wordCount sets = 6 := by decide
  have done := iff.2 (Nat.le_trans (Nat.le_of_eq words) (by decide))
  exact ⟨_, sized, bound, words, done, (fills done).1⟩

end DurableGraph
