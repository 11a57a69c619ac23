import DurableGraph.Proofs.Store.Serving

/-!
# Crashes

A crash keeps the first writes of a request and loses the others.  `Finds` says what the store
that is opened on the image shows.

    k writes of a mutation     the graph before it, or after it if k is all
    k writes of a checkpoint   the graph, or only what the log tells of it, or no store at all
-/

namespace DurableGraph

namespace Session

variable {s : Session} {base : Graph} {older : List (List Mutation)} {last : List Mutation}
  {again : Settings}

/-- The store that is opened on an image shows a graph; it is in the generation of the session
and has the same checkpoint. -/
def Finds (s : Session) (again : Settings) (image : Image) (g : Graph) : Prop :=
  ∃ u, ofImage? again image = some u ∧ (Store.snapshot u.store).result = .ok g ∧
    u.store.log.generation = s.store.log.generation ∧
    u.store.checkpoints.superblock = s.store.checkpoints.superblock

/-! ## Mutations -/

/-- What the log of a generation tells is found, whatever else it wrote. -/
theorem Agrees.finds (h : s.Agrees base older last) {log : Log} {w : List Buffer}
    {older' : List (List Mutation)} {last' : List Mutation} {g : Graph}
    (graph : g = base.replay (older'.flatten ++ last'))
    (tells : log.Tells (s.image.storeAll w) older' last')
    (inside : ∀ buffer ∈ w, buffer.number < s.store.log.region.stop)
    (device : log.device = s.store.log.device) (region : log.region = s.store.log.region)
    (generation : log.superblock.generation = s.store.log.superblock.generation)
    (same : again.device = s.store.device.path) (kept : again.format = false) :
    s.Finds again (s.image.storeAll w) g := by
  have agrees := h.withLog tells inside device region generation
  refine ⟨_, agrees.reopen same kept, ?_, ?_, rfl⟩
  · rw [graph]
    exact (Store.gives_snapshot agrees.running).result_eq
  · unfold Log.generation
    rw [generation]

/-- The only write of a mutation whose block has room. -/
theorem Agrees.finds_crash_push (h : s.Agrees base older last) {m : Mutation} {tail : LogBlock}
    (htail : s.store.log.tail = some tail) (room : tail.header.isFull = false)
    (number : tail.buffer.number < s.store.log.region.stop)
    (same : again.device = s.store.device.path) (kept : again.format = false) (k : Nat) :
    s.Finds again (s.image.storeAll ([(tail.push m).buffer].take k))
      (if k < 1 then s.store.graph else s.store.graph.after m) := by
  cases k with
  | zero =>
    rw [List.take_zero, if_pos Nat.zero_lt_one]
    exact h.finds h.graph h.tells (fun _ hb => absurd hb List.not_mem_nil) rfl rfl rfl same kept
  | succ k =>
    rw [List.take_succ_cons, List.take_nil, if_neg (by omega)]
    refine h.finds ?_ (h.tells.withTail htail room m) ?_ rfl rfl rfl same kept
    · rw [← List.append_assoc]
      exact h.after_eq m
    · intro buffer hb
      rw [List.mem_singleton.1 hb, LogBlock.number_push]
      exact number

/-- The three writes of a mutation that needs a new block: the empty block is not counted yet,
then it is counted and empty, then it holds the mutation. -/
theorem Agrees.finds_crash_extended (h : s.Agrees base older last) {m : Mutation}
    (full : last.length = entriesPerBlock)
    (room : s.store.log.superblock.segmentEnd < s.store.log.region.stop)
    (same : again.device = s.store.device.path) (kept : again.format = false) (k : Nat) :
    s.Finds again (s.image.storeAll (List.take k [s.store.log.nextTail.buffer,
        s.store.log.extended.superblock.buffer s.store.log.region.start,
        (s.store.log.nextTail.push m).buffer]))
      (if k < 3 then s.store.graph else s.store.graph.after m) := by
  have ne : last ≠ [] := by
    rintro rfl
    cases full
  have hentries : older.flatten ++ last = (older ++ [last]).flatten ++ [] := by
    rw [List.flatten_append, List.flatten_singleton, List.append_nil]
  have inside : ∀ buffer ∈ List.take k [s.store.log.nextTail.buffer,
      s.store.log.extended.superblock.buffer s.store.log.region.start,
      (s.store.log.nextTail.push m).buffer], buffer.number < s.store.log.region.stop :=
    fun buffer hb => h.tells.number_lt room m buffer (List.mem_of_mem_take hb)
  match k with
  | 0 =>
    rw [List.take_zero] at inside ⊢
    rw [if_pos (by omega)]
    exact h.finds h.graph h.tells inside rfl rfl rfl same kept
  | 1 =>
    rw [List.take_succ_cons, List.take_zero] at inside ⊢
    rw [if_pos (by omega)]
    exact h.finds h.graph (h.tells.nextTail room) inside rfl rfl rfl same kept
  | 2 =>
    rw [List.take_succ_cons, List.take_succ_cons, List.take_zero] at inside ⊢
    rw [if_pos (by omega)]
    refine h.finds ?_ (h.tells.extended ne room) inside rfl rfl rfl same kept
    rw [← hentries]
    exact h.graph
  | k + 3 =>
    rw [List.take_succ_cons, List.take_succ_cons, List.take_succ_cons, List.take_nil] at inside ⊢
    rw [if_neg (by omega)]
    refine h.finds ?_ (h.tells.extended_withTail full room m) inside rfl rfl rfl same kept
    rw [h.after_eq, hentries, List.append_nil]

/-- A mutation that is appended: before its last write the graph is found as it was. -/
theorem Agrees.finds_crash_mutation (h : s.Agrees base older last) {m : Mutation}
    (appended : (Log.append m s.store.log).result = .ok ())
    (same : again.device = s.store.device.path) (kept : again.format = false) :
    ((∃ tail, s.store.log.tail = some tail ∧
        (s.step (.mutation m)).writes = [(tail.push m).buffer]) ∨
      (s.step (.mutation m)).writes = [s.store.log.nextTail.buffer,
        s.store.log.extended.superblock.buffer s.store.log.region.start,
        (s.store.log.nextTail.push m).buffer]) ∧
    ∀ k, s.Finds again (s.crash (.mutation m) k)
      (if k < (s.step (.mutation m)).writes.length then s.store.graph
        else (s.serve (.mutation m)).store.graph) := by
  unfold crash
  obtain ⟨tail, htail, room, -, number, gives⟩ | ⟨full, room, gives⟩ | ⟨-, -, gives⟩ :=
    h.tells.append_cases m
  · obtain ⟨-, hwrites, hserve⟩ := step_mutation (Store.gives_mutate h.running gives)
    refine ⟨.inl ⟨tail, htail, hwrites⟩, fun k => ?_⟩
    rw [hwrites, hserve]
    exact h.finds_crash_push htail room number same kept k
  · obtain ⟨-, hwrites, hserve⟩ := step_mutation (Store.gives_mutate h.running gives)
    refine ⟨.inr hwrites, fun k => ?_⟩
    rw [hwrites, hserve]
    exact h.finds_crash_extended full room same kept k
  · rw [gives.result_eq] at appended
    cases appended

end Session

/-- **A mutation happens or does not.**  However many of its writes are stored, the store that
was reached by any run from any opening is opened again, and shows the graph from before the
mutation if the last write is missing, and the graph after it otherwise. -/
theorem reopen_of_crash_mutation {settings again : Settings} {image : Image} {s t : Session}
    {events : List SessionEvent} (opened : Session.ofImage? settings image = some s)
    (run : Run s events t) (running : t.store.halted = false) {m : Mutation}
    (appended : (Log.append m t.store.log).result = .ok ())
    (same : again.device = t.store.device.path) (kept : again.format = false) :
    ((∃ tail, t.store.log.tail = some tail ∧
        (t.step (.mutation m)).writes = [(tail.push m).buffer]) ∨
      (t.step (.mutation m)).writes = [t.store.log.nextTail.buffer,
        t.store.log.extended.superblock.buffer t.store.log.region.start,
        (t.store.log.nextTail.push m).buffer]) ∧
    ∀ k, t.Finds again (t.crash (.mutation m) k)
      (if k < (t.step (.mutation m)).writes.length then t.store.graph
        else (t.serve (.mutation m)).store.graph) := by
  obtain ⟨base, older, last, agrees⟩ | halted :=
    run.sound (.inl (Session.exists_agrees_of_ofImage? opened))
  · exact agrees.finds_crash_mutation appended same kept
  · rw [running] at halted
    cases halted

/-- A store that was formatted on fifteen blocks or more and has served as many mutations as its
first block holds: the next one needs another block. -/
theorem Session.exists_full {image : Image} (enough : 15 ≤ image.blockCount)
    (small : image.blockCount / 5 < UInt32.size) {full : List Mutation}
    (many : full.length = entriesPerBlock)
    (young : Log.nextGeneration image 0 + full.length < UInt32.size) :
    ∃ s t events, ofImage? ⟨"disk", true, false, "warn"⟩ image = some s ∧
      s.serveAll (full.map .mutation) = t ∧ Run s events t ∧ t.Agrees ∅ [] full ∧
      ∀ m, (Log.append m t.store.log).result = .ok () ∧
        (t.step (.mutation m)).writes.length = 3 := by
  obtain ⟨s, opened, h, generation⟩ := exists_ofImage?_disk (by omega) small
    (Nat.ne_of_lt (Nat.lt_of_le_of_lt (Nat.le_add_right _ _) young))
  obtain ⟨events, run, -⟩ := h.exists_run (full.map .mutation) (by
    rw [generation, List.length_map]
    exact young)
  obtain ⟨device, agrees⟩ := h.serveAll_push full (by
    rw [many]
    exact Nat.le_of_eq (Nat.zero_add _))
  rw [List.nil_append] at agrees
  refine ⟨s, _, events, opened, rfl, run, agrees, fun m => ?_⟩
  -- the log has three blocks or more, and its segment ends behind the second
  have room : (s.serveAll (full.map .mutation)).store.log.superblock.segmentEnd <
      (s.serveAll (full.map .mutation)).store.log.region.stop := by
    rw [agrees.tells.segmentEnd_eq, agrees.logRegion, device, device_of_ofImage? opened]
    show 0 + 1 + 0 + 1 < image.blockCount / 5
    omega
  obtain ⟨_, _, _, few, -⟩ | ⟨-, -, gives⟩ | ⟨-, spent, -⟩ := agrees.tells.append_cases m
  · exact absurd many (Nat.ne_of_lt few)
  · refine ⟨gives.result_eq, ?_⟩
    rw [(step_mutation (Store.gives_mutate agrees.running gives)).2.1]
    rfl
  · exact absurd spent (Nat.not_le_of_lt room)

/-- The first mutation after a format, cut before its one write and behind it; and one behind a
full block, cut before each of its three writes and behind the last. -/
theorem reopen_of_crash_mutation_reused :
    (∃ s again, Session.ofImage? ⟨"disk", true, false, "warn"⟩ .reused = some s ∧
      Run s [] s ∧ s.store.halted = false ∧
      (Log.append (.addNode 7) s.store.log).result = .ok () ∧
      again.device = s.store.device.path ∧ again.format = false ∧
      s.Finds again (s.crash (.mutation (.addNode 7)) 0) ∅ ∧
      s.Finds again (s.crash (.mutation (.addNode 7))
        (s.step (.mutation (.addNode 7))).writes.length) ((∅ : Graph).after (.addNode 7))) ∧
    ∃ s again full t events, Session.ofImage? ⟨"disk", true, false, "warn"⟩ .roomy = some s ∧
      full = List.replicate 169 (.addNode 7) ∧ s.serveAll (full.map .mutation) = t ∧
      Run s events t ∧ t.store.halted = false ∧
      (Log.append (.addNode 8) t.store.log).result = .ok () ∧
      again.device = t.store.device.path ∧ again.format = false ∧
      (t.step (.mutation (.addNode 8))).writes.length = 3 ∧
      (∀ k < 3, t.Finds again (t.crash (.mutation (.addNode 8)) k) ((∅ : Graph).replay full)) ∧
      t.Finds again (t.crash (.mutation (.addNode 8)) 3)
        (((∅ : Graph).replay full).after (.addNode 8)) := by
  constructor
  · obtain ⟨s, opened, agrees, -⟩ := Session.exists_ofImage?_reused
    have appended : (Log.append (.addNode 7) s.store.log).result = .ok () :=
      agrees.tells.append_eq_ok (Nat.zero_lt_succ _) _
    have same : (Settings.forDevice s.store.device.path).device = s.store.device.path := rfl
    obtain ⟨writes, finds⟩ :=
      reopen_of_crash_mutation opened (.nil s) agrees.running appended same rfl
    have pos : 0 < (s.step (.mutation (.addNode 7))).writes.length := by
      obtain ⟨_, -, hwrites⟩ | hwrites := writes
      · rw [hwrites]
        exact Nat.zero_lt_succ _
      · rw [hwrites]
        exact Nat.zero_lt_succ _
    have before := finds 0
    have behind := finds (s.step (.mutation (.addNode 7))).writes.length
    rw [if_pos pos, show s.store.graph = ∅ from agrees.graph] at before
    rw [if_neg (Nat.lt_irrefl _), (agrees.mutation_of_append appended).2.1,
      show s.store.graph = ∅ from agrees.graph] at behind
    exact ⟨s, _, opened, .nil s, agrees.running, appended, same, rfl, before, behind⟩
  · obtain ⟨full, nodes⟩ : ∃ full, full = List.replicate 169 (Mutation.addNode 7) := ⟨_, rfl⟩
    have many : full.length = entriesPerBlock := by
      rw [nodes, List.length_replicate]
      rfl
    obtain ⟨s, t, events, opened, served, run, agrees, grows⟩ := Session.exists_full
      (Nat.le_of_eq Image.blockCount_roomy.symm) (by rw [Image.blockCount_roomy]; decide) many
      (by rw [Image.nextGeneration_roomy, many]; decide)
    obtain ⟨appended, three⟩ := grows (.addNode 8)
    have same : (Settings.forDevice t.store.device.path).device = t.store.device.path := rfl
    obtain ⟨-, finds⟩ := reopen_of_crash_mutation opened run agrees.running appended same rfl
    rw [three, (agrees.mutation_of_append appended).2.1, show t.store.graph = _ from agrees.graph]
      at finds
    refine ⟨s, _, full, t, events, opened, nodes, served, run, agrees.running, appended, same,
      rfl, three, fun k before => ?_, ?_⟩
    · have found := finds k
      rw [if_pos before] at found
      exact found
    · have found := finds 3
      rw [if_neg (Nat.lt_irrefl 3)] at found
      exact found

end DurableGraph
