import DurableGraph.Proofs.Checkpoint.Slot

/-!
# The grammar of a checkpoint

The superblock says how many records the body starts with.  Whatever the words of the body are,
restoring reads them to the first offence, and what it answers tells which one that was.

    record ++ … ++ record ++ rest                     ok: the graph gains all records
    … ++ id :: degree :: (before ++ id :: rest)       invalid: a node that neighbours itself
    … ++ the start of a record                        truncated: the words run out

The number of records and every degree are words of the image, so neither can be trusted; that
is why the cases are told by what stands in the words, and not by what was once written there.
-/

namespace DurableGraph

namespace CheckpointBody

/-! ## What words can hold -/

/-- The words start with so many records, and none of them names itself as a neighbour. -/
structure Holds (count : Nat) (words : List UInt64) (records : List BodyRecord) : Prop where
  length_eq : records.length = count
  proper : ∀ record ∈ records, record.id ∉ record.neighbors
  first : ∃ rest, words = records.flatMap BodyRecord.words ++ rest

/-- The words start with a record that comes to its own node among the neighbours. -/
inductive StartsWithLoop : List UInt64 → Prop
  | loop (id degree : UInt64) (before rest : List UInt64) (early : before.length < degree.toNat)
      (first : id ∉ before) : StartsWithLoop (id :: degree :: (before ++ id :: rest))

/-- The words end before a record does, and before it came to its own node. -/
inductive Unfinished : List UInt64 → Prop
  | nothing : Unfinished []
  | id (id : UInt64) : Unfinished [id]
  | neighbors (id degree : UInt64) (before : List UInt64) (short : before.length < degree.toNat)
      (proper : id ∉ before) : Unfinished (id :: degree :: before)

/-- Behind fewer than `count` records the words go on as told. -/
def GoesOn (count : Nat) (words : List UInt64) (next : List UInt64 → Prop) : Prop :=
  ∃ n < count, ∃ records rest, Holds n words records ∧
    words = records.flatMap BodyRecord.words ++ rest ∧ next rest

/-- **How restoring ends**, told by the words of a body that ends before the block `stop`. -/
structure Parses (words : List UInt64) (stop : Nat) (count : UInt64) (g : Graph)
    (result : Except CheckpointError UInt64) (h : Graph) : Prop where
  ok_iff : result = .ok count ↔ ∃ records, Holds count.toNat words records
  invalid_iff : result = .error (.restore (.invalid "edge endpoints must differ")) ↔
    GoesOn count.toNat words StartsWithLoop
  truncated_iff : result = .error (.truncated stop) ↔ GoesOn count.toNat words Unfinished
  only : result = .ok count ∨ result = .error (.restore (.invalid "edge endpoints must differ")) ∨
    result = .error (.truncated stop)
  gains : ∀ records, Holds count.toNat words records →
    g.Gains h (BodyRecord.Named records) (BodyRecord.Joined records)
  simple : h.Simple

/-! ## One of the three -/

/-- The record that words start with, or what is wrong with it. -/
theorem first_record (words : List UInt64) :
    (∃ record : BodyRecord, ∃ rest, words = record.words ++ rest ∧
      record.id ∉ record.neighbors) ∨ StartsWithLoop words ∨ Unfinished words := by
  match words with
  | [] => exact .inr (.inr .nothing)
  | [id] => exact .inr (.inr (.id id))
  | id :: degree :: more =>
    by_cases hloop : id ∈ more.take degree.toNat
    · -- the neighbours up to the first that is the node itself
      obtain ⟨before, behind, htake, hfirst⟩ := List.eq_append_cons_of_mem hloop
      have hlen := congrArg List.length htake
      rw [List.length_take, List.length_append, List.length_cons] at hlen
      have hmore : more = before ++ id :: (behind ++ more.drop degree.toNat) := by
        have hsplit := List.take_append_drop degree.toNat more
        rw [htake, List.append_assoc, List.cons_append] at hsplit
        exact hsplit.symm
      rw [hmore]
      exact .inr (.inl (.loop id degree before _ (by omega) hfirst))
    · by_cases hlong : degree.toNat ≤ more.length
      · refine .inl ⟨⟨id, degree, more.take degree.toNat, ?_⟩, more.drop degree.toNat, ?_, hloop⟩
        · rw [List.length_take, Nat.min_eq_left hlong]
        · show id :: degree :: more = id :: degree :: (more.take degree.toNat ++ _)
          rw [List.take_append_drop]
      · rw [List.take_of_length_le (by omega)] at hloop
        exact .inr (.inr (.neighbors id degree more (by omega) hloop))

theorem holds_zero (words : List UInt64) : Holds 0 words [] :=
  ⟨rfl, fun _ h => absurd h List.not_mem_nil, words, rfl⟩

theorem Holds.cons {count : Nat} {words : List UInt64} {records : List BodyRecord}
    {record : BodyRecord} (h : Holds count words records)
    (proper : record.id ∉ record.neighbors) :
    Holds (count + 1) (record.words ++ words) (record :: records) where
  length_eq := by rw [List.length_cons, h.length_eq]
  proper r hr := by
    rcases List.mem_cons.1 hr with rfl | hr
    · exact proper
    · exact h.proper r hr
  first := by
    obtain ⟨rest, hwords⟩ := h.first
    exact ⟨rest, by rw [List.flatMap_cons, List.append_assoc, ← hwords]⟩

theorem GoesOn.cons {count : Nat} {words : List UInt64} {next : List UInt64 → Prop}
    {record : BodyRecord} (h : GoesOn count words next) (proper : record.id ∉ record.neighbors) :
    GoesOn (count + 1) (record.words ++ words) next := by
  obtain ⟨n, hn, records, rest, holds, hwords, hnext⟩ := h
  refine ⟨n + 1, by omega, record :: records, rest, holds.cons proper, ?_, hnext⟩
  rw [List.flatMap_cons, List.append_assoc, ← hwords]

/-- The first record decides where it is missing or wrong. -/
theorem goesOn_of_first {count : Nat} {words : List UInt64} {next : List UInt64 → Prop}
    (h : next words) : GoesOn (count + 1) words next :=
  ⟨0, Nat.zero_lt_succ _, [], words, holds_zero words, rfl, h⟩

/-- **Every body is one of the three**, by induction on the records that it should hold. -/
theorem holds_or_goesOn (count : Nat) (words : List UInt64) :
    (∃ records, Holds count words records) ∨ GoesOn count words StartsWithLoop ∨
      GoesOn count words Unfinished := by
  induction count generalizing words with
  | zero => exact .inl ⟨[], holds_zero words⟩
  | succ count ih =>
    obtain ⟨record, rest, rfl, proper⟩ | loop | unfinished := first_record words
    · obtain ⟨records, holds⟩ | loop | unfinished := ih rest
      · exact .inl ⟨_, holds.cons proper⟩
      · exact .inr (.inl (loop.cons proper))
      · exact .inr (.inr (unfinished.cons proper))
    · exact .inr (.inl (goesOn_of_first loop))
    · exact .inr (.inr (goesOn_of_first unfinished))

end CheckpointBody

/-! ## What is restored -/

namespace CheckpointSlot

open CheckpointBody DurableGraph.Graph

variable {image : Image} {stop count : Nat} {words : List UInt64} {r : WordReader} {g : Graph}

theorem restoreRecords_of_holds (faces : r.Faces image stop words) (simple : g.Simple)
    {records : List BodyRecord} (holds : Holds count words records) :
    ∃ t h, restoreRecords image count r g = (.ok t, h) ∧
      g.Gains h (BodyRecord.Named records) (BodyRecord.Joined records) := by
  obtain ⟨rest, hwords⟩ := holds.first
  rw [hwords] at faces
  obtain ⟨t, h, hrecords, -, gains⟩ := restoreRecords_append faces simple holds.proper 0
  rw [Nat.add_zero, holds.length_eq] at hrecords
  exact ⟨t, h, hrecords, gains⟩

/-- What ends the first record ends the restoring of any records. -/
theorem restoreRecords_of_goesOn {next : List UInt64 → Prop} {e : CheckpointError}
    (ends : ∀ more {r : WordReader} {g : Graph} {words : List UInt64}, next words →
      r.Faces image stop words → g.Simple →
        ∃ h, restoreRecords image (more + 1) r g = (.error e, h))
    (faces : r.Faces image stop words) (simple : g.Simple) (goesOn : GoesOn count words next) :
    ∃ h, restoreRecords image count r g = (.error e, h) := by
  obtain ⟨n, hn, records, rest, holds, hwords, hnext⟩ := goesOn
  obtain ⟨more, rfl⟩ : ∃ more, count = n + (more + 1) := ⟨count - n - 1, by omega⟩
  rw [hwords] at faces
  obtain ⟨t, h, hrecords, faces', gains⟩ :=
    restoreRecords_append faces simple holds.proper (more + 1)
  rw [holds.length_eq] at hrecords
  rw [hrecords]
  exact ends more hnext faces' gains.simple

/-- What ends the reading of the neighbours, behind some that can be restored, ends the record. -/
theorem restoreRecords_of_edges (more : Nat) {id degree : UInt64} {before rest : List UInt64}
    {e : CheckpointError} (faces : r.Faces image stop (id :: degree :: (before ++ rest)))
    (simple : g.Simple) (fits : before.length ≤ degree.toNat) (proper : id ∉ before)
    (ends : ∀ {v : WordReader} (h : Graph), v.Faces image stop rest →
      ∃ k, restoreEdges image id (degree.toNat - before.length) v h = (.error e, k)) :
    ∃ h, restoreRecords image (more + 1) r g = (.error e, h) := by
  obtain ⟨t, hid, faces₁⟩ := WordReader.next_of_faces faces
  obtain ⟨u, hdegree, faces₂⟩ := WordReader.next_of_faces faces₁
  obtain ⟨o, hadd⟩ := exists_addNode g id
  obtain ⟨v, h, hedges, faces₃, -⟩ := restoreEdges_append faces₂ (simple.addNode hadd)
    ((contains_addNode hadd).2 (.inl rfl)) proper (degree.toNat - before.length)
  obtain ⟨k, hended⟩ := ends h faces₃
  rw [Nat.add_sub_cancel' fits, hended] at hedges
  refine ⟨k, ?_⟩
  rw [restoreRecords, hid]
  simp only [hdegree, hedges]

/-- A node that is its own neighbour is refused. -/
theorem restoreRecords_of_loop (more : Nat) (loop : StartsWithLoop words)
    (faces : r.Faces image stop words) (simple : g.Simple) :
    ∃ h, restoreRecords image (more + 1) r g =
      (.error (.restore (.invalid "edge endpoints must differ")), h) := by
  obtain ⟨id, degree, before, rest, early, first⟩ := loop
  refine restoreRecords_of_edges more faces simple (Nat.le_of_lt early) first fun h faces' => ?_
  obtain ⟨t, hself, -⟩ := WordReader.next_of_faces faces'
  have hleft : degree.toNat - before.length = degree.toNat - before.length - 1 + 1 := by omega
  refine ⟨h.after (.addNode id), ?_⟩
  rw [hleft, restoreEdges, hself]
  simp only [addEdge_self]

/-- Words that run out end the reading at the end of the body. -/
theorem restoreRecords_of_unfinished (more : Nat) (unfinished : Unfinished words)
    (faces : r.Faces image stop words) (simple : g.Simple) :
    ∃ h, restoreRecords image (more + 1) r g = (.error (.truncated stop), h) := by
  cases unfinished with
  | nothing =>
    refine ⟨g, ?_⟩
    rw [restoreRecords, WordReader.next_of_faces_nil faces]
  | id id =>
    obtain ⟨t, hid, faces₁⟩ := WordReader.next_of_faces faces
    refine ⟨g.after (.addNode id), ?_⟩
    rw [restoreRecords, hid]
    simp only [WordReader.next_of_faces_nil faces₁]
  | neighbors id degree before short proper =>
    rw [← List.append_nil before] at faces
    refine restoreRecords_of_edges more faces simple (Nat.le_of_lt short) proper
      fun h faces' => ⟨h, ?_⟩
    have hleft : degree.toNat - before.length = degree.toNat - before.length - 1 + 1 := by omega
    rw [hleft, restoreEdges, WordReader.next_of_faces_nil faces']

/-- Restoring the records of a body, as many as a word counts. -/
theorem parses_restoreRecords (faces : r.Faces image stop words) (simple : g.Simple)
    (count : UInt64) :
    ∃ result h, restoreRecords image count.toNat r g = (result, h) ∧
      Parses words stop count g (result.map fun _ => count) h := by
  have hsimple := simple.restoreRecords image count.toNat r
  -- one of the three answers, told by one of the three bodies
  have hok := fun records (holds : Holds count.toNat words records) =>
    restoreRecords_of_holds faces simple holds
  have hloop := fun goesOn : GoesOn count.toNat words StartsWithLoop =>
    restoreRecords_of_goesOn (fun more _ _ _ loop faces simple =>
      restoreRecords_of_loop more loop faces simple) faces simple goesOn
  have hended := fun goesOn : GoesOn count.toNat words Unfinished =>
    restoreRecords_of_goesOn (fun more _ _ _ unfinished faces simple =>
      restoreRecords_of_unfinished more unfinished faces simple) faces simple goesOn
  have hone := holds_or_goesOn count.toNat words
  rcases hres : restoreRecords image count.toNat r g with ⟨result, h⟩
  rw [hres] at hsimple
  simp only [hres, Prod.mk.injEq] at hok hloop hended
  refine ⟨result, h, rfl, ?_⟩
  exact {
    ok_iff := by grind [Except.map]
    invalid_iff := by grind [Except.map]
    truncated_iff := by grind [Except.map]
    only := by grind [Except.map]
    gains := by
      intro records holds
      obtain ⟨t, h', ⟨-, rfl⟩, gains⟩ := hok records holds
      exact gains
    simple := hsimple }

end CheckpointSlot

open CheckpointSlot CheckpointBody in
/-- **Restoring parses the body**, into any simple graph and for any superblock of the generation.
A body that was parsed once is parsed again, and then nothing is new. -/
theorem restore_parses {path : String} {image : Image} {region : Region} {fresh : CheckpointSlot}
    (bound : ofRegion (Device.ofImage path image) region = .ok fresh) (generation count : UInt64)
    {g : Graph} (simple : g.Simple) :
    let slot := fresh.withSuperblock ⟨true, generation, count⟩
    (image.words slot.body).length = wordsPerBlock * (region.stop - region.start - 1) ∧
      ∃ result h, (slot.restore image generation).Gives g result h [] ∧
        Parses (image.words slot.body) region.stop count g result h ∧
        (result = .ok count → (slot.restore image generation).Gives h (.ok count) h []) := by
  obtain ⟨⟨inside, wide⟩, rfl⟩ := ofRegion_eq_ok_iff.1 bound
  intro slot
  have inside' : region.stop ≤ image.blockCount := inside
  have present : slot.has generation = true := by
    show (true && decide (generation = generation)) = true
    simp
  have faces : (WordReader.ofRegion slot.device slot.body).Faces image region.stop
      (image.words slot.body) :=
    WordReader.faces_ofRegion (Nat.le_of_succ_le wide) inside inside'
  obtain ⟨result, h, hrecords, parses⟩ := parses_restoreRecords faces simple count
  refine ⟨?_, _, h, gives_restore_of_has present hrecords, parses, fun ok => ?_⟩
  · show (image.words ⟨region.start + 1, region.stop⟩).length = _
    rw [Image.length_words inside', Nat.sub_sub]
  · -- the same words hold the same records, and h has gained them
    obtain ⟨records, holds⟩ := parses.ok_iff.1 ok
    obtain ⟨t, k, hagain, gains⟩ := restoreRecords_of_holds faces parses.simple holds
    rw [(parses.gains records holds).eq_of_again gains] at hagain
    have hgives := gives_restore_of_has present hagain
    exact hgives

/-- Two records, the zeros behind them, and a graph that has one of their nodes. -/
theorem restore_parses_packed :
    let image := (Image.zeros 40960).storeAll (packed 3 [1, 1, 9, 5, 0])
    let g := (∅ : Graph).after (.addNode 9)
    ∃ fresh, CheckpointSlot.ofRegion (Device.ofImage "disk" image) ⟨2, 10⟩ = .ok fresh ∧
      g.Simple ∧
      ∃ h, ((fresh.withSuperblock ⟨true, 7, 2⟩).restore image 7).Gives g (.ok 2) h [] ∧
        h.contains 5 = true ∧ h.Adj 9 1 ∧ ¬ h.Adj 5 1 ∧
        ((fresh.withSuperblock ⟨true, 7, 2⟩).restore image 7).Gives h (.ok 2) h [] := by
  intro image g
  have hcount : (Image.zeros 40960).blockCount = 10 := Image.blockCount_zeros 40960
  have fits : (Image.zeros 40960).Fits (packed 3 [1, 1, 9, 5, 0]) :=
    fits_packed (show 10 ≤ _ from Nat.le_of_eq hcount.symm) (by decide)
  have hdevice : (Device.ofImage "disk" image).blockCount = 10 := by
    show image.blockCount = 10
    rw [Image.blockCount_storeAll fits, hcount]
  have hwords : image.words ⟨3, 10⟩ = _ :=
    words_storeAll_packed (Nat.le_of_eq hcount.symm) (by decide)
  have bound : CheckpointSlot.ofRegion (Device.ofImage "disk" image) ⟨2, 10⟩ = .ok _ :=
    CheckpointSlot.ofRegion_eq_ok_iff.2 ⟨⟨Nat.le_of_eq hdevice.symm, by decide⟩, rfl⟩
  have simple : g.Simple := Graph.simple_empty.after _
  obtain ⟨-, result, h, gives, parses, again⟩ := restore_parses bound 7 2 simple
  have holds : CheckpointBody.Holds 2 (image.words ⟨3, 10⟩)
      [⟨1, 1, [9], rfl⟩, ⟨5, 0, [], rfl⟩] :=
    ⟨rfl, by decide, _, by rw [hwords, List.append_assoc]; rfl⟩
  have ok := parses.ok_iff.2 ⟨_, holds⟩
  have gains := parses.gains _ holds
  obtain ⟨o, hadd⟩ := Graph.exists_addNode ∅ 9
  have hg : ∀ x y, ¬ g.Adj x y := by
    intro x y
    rw [Graph.adj_addNode hadd]
    exact Graph.not_adj_of_none (Graph.neighbors?_empty x)
  rw [ok] at gives
  refine ⟨_, bound, simple, h, gives, ?_, ?_, ?_, again ok⟩
  · exact (gains.contains 5).2 (.inr ⟨_, .tail _ (.head _), .inl rfl⟩)
  · exact (gains.adj 9 1).2 (.inr ⟨_, .head _, .inr ⟨rfl, .head _⟩⟩)
  · rw [gains.adj]
    rintro (h | h)
    · exact hg _ _ h
    · revert h
      unfold BodyRecord.Joined
      decide

end DurableGraph
