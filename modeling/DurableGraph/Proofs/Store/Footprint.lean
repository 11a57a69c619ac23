import DurableGraph.Proofs.Disk.Footprint
import DurableGraph.Proofs.Store.Serving

/-!
# What the operations of a store write

The log and the checkpoint share a device of `n` blocks and stay out of each other's way, since
the log has the blocks below `L = n / 5` and the checkpoint has the others.

    opening, without a format     nothing
    opening, with a format        0, 1 and L
    query, snapshot               nothing
    mutation                      0, the segment and the block behind it, all below L
    checkpoint                    0, 1 and L to n

No operation changes the length of the image, or a byte behind its last whole block.  The
statistics are read off the store in memory.
-/

namespace DurableGraph

/-- The image after a store was opened on it, also where that failed. -/
def Image.afterOpen (image : Image) (settings : Settings) : Image :=
  image.storeAll (Store.openFile settings (.ok image) ()).writes

/-- The device has room for both regions, and opening it writes their first blocks at most. -/
structure Image.OpensInPlace (image : Image) : Prop where
  regions : regions image.blockCount =
    .ok (⟨0, image.blockCount / 5⟩, ⟨image.blockCount / 5, image.blockCount⟩)
  log_wide : 2 ≤ image.blockCount / 5
  checkpoint_wide : image.blockCount / 5 + 2 ≤ image.blockCount
  kept : ∀ settings, settings.format = false → image.afterOpen settings = image
  formatted : ∀ settings, settings.format = true →
    image.AlteredIn (image.afterOpen settings) {0, 1, image.blockCount / 5}

/-- Where the requests to a session on `n` blocks write. -/
structure Session.ServesInPlace (s : Session) (n : Nat) : Prop where
  snapshot : (Store.snapshot s.store).writes = []
  query : ∀ q, (s.serve (.query q)).image = s.image
  edgePart : ∀ access near far, (s.serve (.edgePart access near far)).image = s.image
  mutation : ∀ m, s.image.AlteredIn (s.serve (.mutation m)).image
    (({0} ∪ Set.Icc s.store.stats.segment.start s.store.stats.segment.stop) ∩ Set.Iio (n / 5))
  checkpoint : s.image.AlteredIn (s.serve .checkpoint).image ({0, 1} ∪ Set.Ico (n / 5) n)
  log_kept : ∀ k, 2 ≤ k → k < n / 5 → (s.serve .checkpoint).image.block? k = s.image.block? k

/-- A later image of a device: as long as before, and with the same bytes behind the last whole
block. -/
structure Image.SameFrame (image later : Image) : Prop where
  size_eq : later.size = image.size
  trailing : ∀ k, blockSize * image.blockCount ≤ k → later.bytes[k]! = image.bytes[k]!

/-! ## Reading -/

open Work

theorem Log.writesIn_load (image : Image) : WritesIn ∅ (Log.load image) := by
  unfold load
  refine writesIn_then (fun _ => rfl) fun log => ?_
  refine writesIn_then (fun _ => rfl) fun buffer => ?_
  refine writesIn_then (fun _ => rfl) fun superblock => ?_
  dsimp only
  split
  · exact writesIn_of_quiet fun _ => rfl
  · refine writesIn_then (fun _ => rfl) fun tail => ?_
    exact writesIn_of_quiet fun _ => rfl

theorem CheckpointSlot.writesIn_load (image : Image) : WritesIn ∅ (CheckpointSlot.load image) := by
  unfold load
  refine writesIn_then (fun _ => rfl) fun slot => ?_
  refine writesIn_then (fun _ => rfl) fun buffer => ?_
  exact writesIn_of_quiet fun _ => rfl

theorem CheckpointSlot.writesIn_restore (slot : CheckpointSlot) (image : Image)
    (generation : UInt64) : WritesIn ∅ (slot.restore image generation) := by
  unfold restore
  split
  · refine writesIn_then (fun _ => rfl) fun g => ?_
    split
    refine writesIn_then (fun _ => rfl) fun _ => ?_
    refine writesIn_then (fun _ => rfl) fun _ => ?_
    exact writesIn_of_quiet fun _ => rfl
  · dsimp only
    split
    · exact writesIn_of_quiet fun _ => rfl
    · exact writesIn_of_quiet fun _ => rfl

namespace Store

/-- **Recovery stores nothing**, whatever becomes of it. -/
theorem writesIn_recover (image : Image) : WritesIn ∅ (recover image) := by
  unfold recover
  refine ((Log.writesIn_load image).onPart _ _ _).bind fun _ => ?_
  refine ((CheckpointSlot.writesIn_load image).onPart _ _ _).bind fun _ => ?_
  refine writesIn_then (fun _ => rfl) fun store => ?_
  refine writesIn_then (fun _ => rfl) fun _ => ?_
  refine ((CheckpointSlot.writesIn_restore _ image _).onPart _ _ _).bind fun restored => ?_
  refine writesIn_then (fun _ => rfl) fun cursor => ?_
  refine writesIn_then (fun _ => rfl) fun now => ?_
  refine writesIn_then (fun _ => rfl) fun _ => ?_
  refine writesIn_then (fun _ => rfl) fun _ => ?_
  split
  · exact writesIn_of_quiet fun _ => rfl
  · exact writesIn_of_quiet fun _ => rfl

theorem writesIn_running : WritesIn ∅ running := by
  unfold running
  refine writesIn_then (fun _ => rfl) fun store => ?_
  split
  · exact writesIn_of_quiet fun _ => rfl
  · exact writesIn_of_quiet fun _ => rfl

theorem writesIn_look (q : Query) : WritesIn ∅ (look q) := by
  refine writesIn_running.bind fun _ => ?_
  exact writesIn_then (fun _ => rfl) fun _ => writesIn_of_quiet fun _ => rfl

theorem writesIn_snapshot : WritesIn ∅ snapshot := by
  refine writesIn_running.bind fun _ => ?_
  exact writesIn_then (fun _ => rfl) fun _ => writesIn_of_quiet fun _ => rfl

end Store

/-! ## Opening -/

variable {settings : Settings} {image : Image} {blocks : Set Nat}

theorem Log.Placed.number_of_mem_rotate {log : Log} (placed : log.Placed image) {buffer : Buffer}
    (h : buffer ∈ (rotate log).writes) :
    buffer.number = log.region.start ∨ buffer.number = log.region.start + 1 := by
  by_cases spent : log.superblock.generation.toNat + 1 = UInt32.size
  · rw [(gives_rotate_last spent).writes_eq] at h
    cases h
  · rw [(gives_rotate placed spent).writes_eq] at h
    simp only [List.mem_cons, List.not_mem_nil, or_false] at h
    obtain rfl | rfl := h
    · exact .inl rfl
    · exact .inr rfl

/-- A format writes the first two blocks of the log, whether it finds a superblock or not. -/
theorem Log.Placed.number_of_mem_format {log : Log} (placed : log.Placed image) {buffer : Buffer}
    (h : buffer ∈ (format image log).writes) :
    buffer.number = log.region.start ∨ buffer.number = log.region.start + 1 := by
  have hwide := placed.wide
  have hinside := placed.inside
  obtain ⟨content, held⟩ := Option.isSome_iff_exists.1
    ((Image.block?_isSome_iff image log.region.start).2 (by omega))
  cases decoded : LogSuperblock.decode ⟨log.region.start, content⟩ with
  | ok found =>
    rw [(gives_format_found placed held decoded (gives_self _ _)).writes_eq] at h
    have placed' : (log.withSuperblock found).Placed image := placed.congr rfl rfl rfl
    exact placed'.number_of_mem_rotate h
  | error e =>
    rw [(gives_format_fresh placed held decoded (gives_self _ _)).writes_eq, List.mem_cons] at h
    obtain rfl | h := h
    · exact .inl rfl
    · have placed' : (log.withSuperblock (.fresh log.firstBlock)).Placed image :=
        placed.congr rfl rfl rfl
      exact placed'.number_of_mem_rotate h

namespace Store

theorem number_of_mem_format {path : String} (enough : 10 ≤ image.blockCount)
    (small : image.blockCount / 5 < UInt32.size) {buffer : Buffer}
    (h : buffer ∈ (format image (blank path image)).writes) :
    buffer.number ∈ ({0, 1, image.blockCount / 5} : Set Nat) := by
  have first : ∀ b ∈ (Log.format image (blank path image).log).writes,
      b.number ∈ ({0, 1, image.blockCount / 5} : Set Nat) := by
    intro b hb
    obtain start | behind := (Session.placed_blank_log path enough small).number_of_mem_format hb
    · exact .inl start
    · exact .inr (.inl behind)
  have hlog := gives_self (Log.format image) (blank path image).log
  cases result : (Log.format image (blank path image).log).result with
  | error e =>
    rw [result] at hlog
    have failed : (format image).Gives (blank path image) _ _ _ := (gives_onLog hlog).bind_error _
    rw [failed.writes_eq] at h
    exact first buffer h
  | ok generation =>
    rw [result] at hlog
    have hslot := CheckpointSlot.gives_storeSuperblock
      (Session.placed_blank_checkpoints path enough small) .none
    rw [(gives_format hlog hslot).writes_eq, List.mem_append, List.mem_singleton] at h
    obtain h | rfl := h
    · exact first buffer h
    · exact .inr (.inr rfl)

/-- Opening stores what formatting or recovery stores, or fails before that. -/
theorem writesIn_openFile (h : 10 ≤ image.blockCount → image.blockCount / 5 < UInt32.size →
      ∀ buffer ∈ ((if settings.format then format image else recover image)
        (blank settings.device image)).writes, buffer.number ∈ blocks) :
    WritesIn blocks (openFile settings (.ok image)) := by
  unfold openFile openImage
  refine writesIn_ofExcept_bind fun _ _ => ?_
  refine writesIn_then (fun _ => rfl) fun _ => ?_
  refine writesIn_ofExcept_bind fun split hsplit => ?_
  obtain ⟨enough, rfl⟩ := regions_eq_ok_iff.1 hsplit
  refine writesIn_ofExcept_bind fun log hlog => ?_
  obtain ⟨⟨-, -, small⟩, rfl⟩ := Log.ofRegion_eq_ok_iff.1 (Work.mapError_eq_ok_iff.1 hlog)
  refine writesIn_ofExcept_bind fun slot hslot => ?_
  obtain ⟨-, rfl⟩ := CheckpointSlot.ofRegion_eq_ok_iff.1 (Work.mapError_eq_ok_iff.1 hslot)
  exact fun _ => h enough small

end Store

/-- **Opening** writes in place. -/
theorem Image.opensInPlace (enough : 10 ≤ image.blockCount) : image.OpensInPlace where
  regions := regions_eq_ok_iff.2 ⟨enough, rfl⟩
  log_wide := by omega
  checkpoint_wide := by omega
  kept settings kept := by
    have quiet : WritesIn ∅ (Store.openFile settings (.ok image)) := by
      refine Store.writesIn_openFile fun _ _ => ?_
      rw [kept]
      exact Store.writesIn_recover image _
    unfold afterOpen
    rw [quiet.writes_eq_nil]
    rfl
  formatted settings format := by
    have few : WritesIn {0, 1, image.blockCount / 5} (Store.openFile settings (.ok image)) := by
      refine Store.writesIn_openFile fun _ small buffer hb => ?_
      rw [format] at hb
      exact Store.number_of_mem_format enough small hb
    refine alteredIn_storeAll (fun buffer hb => ?_) (few ())
    have number := few () buffer hb
    simp only [Set.mem_insert_iff, Set.mem_singleton_iff] at number
    omega

/-! ## Serving -/

namespace Session

variable {s t : Session} {base : Graph} {older : List (List Mutation)} {last : List Mutation}

theorem serve_of_quiet {request : Request} (quiet : (s.step request).writes = []) :
    (s.serve request).image = s.image := by
  show s.image.storeAll (s.step request).writes = s.image
  rw [quiet]
  rfl

/-- A mutation stores what the log stores. -/
theorem Agrees.writes_mutation (h : s.Agrees base older last) (m : Mutation) :
    (s.step (.mutation m)).writes = (Log.append m s.store.log).writes := by
  obtain ⟨_, _, _, _, _, gives⟩ | ⟨_, _, gives⟩ | ⟨_, _, gives⟩ := h.tells.append_cases m
  · rw [(step_mutation (Store.gives_mutate h.running gives)).2.1, gives.writes_eq]
  · rw [(step_mutation (Store.gives_mutate h.running gives)).2.1, gives.writes_eq]
  · rw [(step_mutation (Store.gives_mutate_noSpace h.running gives)).2.1, gives.writes_eq]

/-- The tail, or the block behind it and the superblock. -/
theorem Agrees.number_of_mem_mutation (h : s.Agrees base older last) (m : Mutation)
    {buffer : Buffer} (hb : buffer ∈ (s.step (.mutation m)).writes) :
    (buffer.number = 0 ∨ s.store.log.segment.start ≤ buffer.number ∧
      buffer.number ≤ s.store.log.segment.stop) ∧ buffer.number < s.store.log.region.stop := by
  have hsegment := h.tells.segment_eq
  have hend := h.tells.segmentEnd_eq
  have hstart := h.start_eq
  have hwide := h.tells.placed.wide
  rw [h.writes_mutation] at hb
  rw [hsegment]
  obtain ⟨tail, htail, _, _, inside, gives⟩ | ⟨_, room, gives⟩ | ⟨_, _, gives⟩ :=
    h.tells.append_cases m
  · obtain ⟨tail', htail', -, number, -⟩ := h.tells.exists_tail
    rw [htail] at htail'
    cases htail'
    rw [gives.writes_eq, List.mem_singleton] at hb
    rw [hb, LogBlock.number_push]
    dsimp only
    omega
  · rw [gives.writes_eq] at hb
    simp only [List.mem_cons, List.not_mem_nil, or_false] at hb
    have behind : s.store.log.nextTail.buffer.number = s.store.log.superblock.segmentEnd := rfl
    obtain rfl | rfl | rfl := hb
    · rw [behind]
      dsimp only
      omega
    · exact ⟨.inl hstart, Nat.lt_of_succ_lt hwide⟩
    · rw [LogBlock.number_push, behind]
      dsimp only
      omega
  · rw [gives.writes_eq] at hb
    cases hb

/-- The blocks of the checkpoint, and the first two of the log. -/
theorem Agrees.number_of_mem_checkpoint (h : s.Agrees base older last) {buffer : Buffer}
    (hb : buffer ∈ (s.step .checkpoint).writes) :
    (buffer.number = 0 ∨ buffer.number = 1) ∨
      s.store.checkpoints.region.start ≤ buffer.number ∧
        buffer.number < s.store.checkpoints.region.stop := by
  by_cases room : s.store.graph.words.length ≤ s.store.checkpoints.bodyWords
  · have committed : ∀ b ∈ s.store.checkpoints.commitWrites s.store.log.generation s.store.graph,
        s.store.checkpoints.region.start ≤ b.number ∧ b.number < s.store.checkpoints.region.stop :=
      fun b => CheckpointSlot.number_of_mem_commitWrites h.placed room
    by_cases spent : s.store.log.superblock.generation.toNat + 1 = UInt32.size
    · rw [(h.checkpoint_of_spent room spent).2.1] at hb
      exact .inr (committed buffer hb)
    · rw [(h.checkpoint_of_room room spent).2.1, checkpointWrites, List.mem_append] at hb
      simp only [List.mem_cons, List.not_mem_nil, or_false] at hb
      have hstart := h.start_eq
      obtain hb | rfl | rfl := hb
      · exact .inr (committed buffer hb)
      · exact .inl (.inl hstart)
      · refine .inl (.inr ?_)
        show s.store.log.region.start + 1 = 1
        rw [hstart]
  · rw [(h.checkpoint_of_full (Nat.lt_of_not_le room)).2.1] at hb
    cases hb

/-- **Requests** to a store that agrees with its image write in place. -/
theorem Agrees.servesInPlace (h : s.Agrees base older last) :
    s.ServesInPlace s.image.blockCount := by
  have henough := h.enough
  have hcount := h.count
  have mutation (m : Mutation) : ∀ buffer ∈ (s.step (.mutation m)).writes, buffer.number ∈
      ({0} ∪ Set.Icc s.store.log.segment.start s.store.log.segment.stop) ∩
        Set.Iio (s.image.blockCount / 5) := by
    intro buffer hb
    have number := h.number_of_mem_mutation m hb
    rw [h.logRegion, hcount] at number
    exact number
  have checkpoint : ∀ buffer ∈ (s.step .checkpoint).writes, buffer.number ∈
      {0, 1} ∪ Set.Ico (s.image.blockCount / 5) s.image.blockCount := by
    intro buffer hb
    have number := h.number_of_mem_checkpoint hb
    rw [h.slotRegion, hcount] at number
    exact number
  have altered : s.image.AlteredIn (s.serve .checkpoint).image
      ({0, 1} ∪ Set.Ico (s.image.blockCount / 5) s.image.blockCount) := by
    refine Image.alteredIn_storeAll (fun buffer hb => ?_) checkpoint
    have number := checkpoint buffer hb
    simp only [Set.mem_union, Set.mem_insert_iff, Set.mem_singleton_iff, Set.mem_Ico] at number
    omega
  exact {
    snapshot := Store.writesIn_snapshot.writes_eq_nil _
    query := fun q => serve_of_quiet ((Store.writesIn_look q).writes_eq_nil _)
    edgePart := fun _ _ _ => rfl
    mutation := by
      intro m
      refine Image.alteredIn_storeAll (fun buffer hb => ?_) (mutation m)
      have lt : buffer.number < s.image.blockCount / 5 := (mutation m buffer hb).2
      omega
    checkpoint := altered
    log_kept := by
      intro k behind before
      apply altered.block?_eq
      simp only [Set.mem_union, Set.mem_insert_iff, Set.mem_singleton_iff, Set.mem_Ico]
      omega }

/-- A store that has halted writes nothing. -/
theorem servesInPlace_of_halted (halted : s.store.halted = true) (n : Nat) :
    s.ServesInPlace n where
  snapshot := Store.writesIn_snapshot.writes_eq_nil _
  query q := serve_of_quiet ((Store.writesIn_look q).writes_eq_nil _)
  edgePart _ _ _ := rfl
  mutation m := by
    rw [serve_halted halted]
    exact s.image.alteredIn_refl _
  checkpoint := by
    rw [serve_halted halted]
    exact s.image.alteredIn_refl _
  log_kept _ _ _ := by
    rw [serve_halted halted]

theorem Sound.servesInPlace (h : s.Sound) : s.ServesInPlace s.image.blockCount := by
  obtain ⟨base, older, last, agrees⟩ | halted := h
  · exact agrees.servesInPlace
  · exact servesInPlace_of_halted halted _

/-- Whatever the request, it alters whole blocks of the device. -/
theorem ServesInPlace.serve {n : Nat} (h : s.ServesInPlace n) (enough : 10 ≤ n)
    (request : Request) : s.image.AlteredIn (s.serve request).image (Set.Iio n) := by
  cases request with
  | query q =>
    rw [h.query]
    exact s.image.alteredIn_refl _
  | edgePart access near far =>
    rw [h.edgePart]
    exact s.image.alteredIn_refl _
  | mutation m =>
    refine (h.mutation m).mono fun k hk => ?_
    have lt : k < n / 5 := hk.2
    show k < n
    omega
  | checkpoint =>
    refine h.checkpoint.mono fun k hk => ?_
    simp only [Set.mem_union, Set.mem_insert_iff, Set.mem_singleton_iff, Set.mem_Ico] at hk
    show k < n
    omega

theorem image_of_ofImage? (opened : ofImage? settings image = some s) :
    s.image = image.afterOpen settings := by
  unfold ofImage? at opened
  dsimp only at opened
  split at opened
  · cases opened
    rfl
  · cases opened

end Session

/-- Whatever the settings, opening alters whole blocks of the device. -/
theorem Image.OpensInPlace.alteredIn (h : image.OpensInPlace) (settings : Settings) :
    image.AlteredIn (image.afterOpen settings) (Set.Iio image.blockCount) := by
  have hwide := h.checkpoint_wide
  have hlog := h.log_wide
  cases format : settings.format with
  | false =>
    rw [h.kept settings format]
    exact image.alteredIn_refl _
  | true =>
    refine (h.formatted settings format).mono fun k hk => ?_
    simp only [Set.mem_insert_iff, Set.mem_singleton_iff] at hk
    show k < image.blockCount
    omega

/-- **Any run** alters whole blocks of the device only. -/
theorem Run.alteredIn {s t : Session} {events : List SessionEvent} (run : Run s events t)
    (sound : s.Sound) (enough : 10 ≤ s.image.blockCount) :
    s.image.AlteredIn t.image (Set.Iio s.image.blockCount) := by
  induction run with
  | nil s => exact s.image.alteredIn_refl _
  | @serve s t events request rest ih =>
    have first := sound.servesInPlace.serve enough request
    have count := first.blockCount_eq
    have later := ih (sound.serve request) (by rw [count]; exact enough)
    rw [count] at later
    exact first.trans later
  | @reopen s t u events settings opened rest ih =>
    have first := (Image.opensInPlace enough).alteredIn settings
    rw [← Session.image_of_ofImage? opened] at first
    have count := first.blockCount_eq
    have later := ih (.inl (Session.exists_agrees_of_ofImage? opened)) (by rw [count]; exact enough)
    rw [count] at later
    exact first.trans later

/-! ## Top theorem -/

/-- **Every operation writes in its place.**  Opening does, on any image of ten blocks or more
and also where it fails; so does every request to a store that was opened on it, whatever has
been served since, reopenings in between; and the image keeps its length and the bytes behind
its last whole block. -/
theorem writesInPlace_of_run {image : Image} (enough : 10 ≤ image.blockCount) :
    image.OpensInPlace ∧
      ∀ settings s, Session.ofImage? settings image = some s →
        s.image = image.afterOpen settings ∧
        ∀ events t, Run s events t →
          t.ServesInPlace image.blockCount ∧ t.image.OpensInPlace ∧ image.SameFrame t.image := by
  have opens := Image.opensInPlace enough
  refine ⟨opens, fun settings s opened => ?_⟩
  have himage := Session.image_of_ofImage? opened
  refine ⟨himage, fun events t run => ?_⟩
  have sound : s.Sound := .inl (Session.exists_agrees_of_ofImage? opened)
  -- the image stays the same device, when it is opened and in the run
  have first := opens.alteredIn settings
  rw [← himage] at first
  have later := run.alteredIn sound (by rw [first.blockCount_eq]; exact enough)
  rw [first.blockCount_eq] at later
  have altered := first.trans later
  have count := altered.blockCount_eq
  have serves := (run.sound sound).servesInPlace
  rw [count] at serves
  exact ⟨serves, Image.opensInPlace (by rw [count]; exact enough), altered.size_eq,
    fun k behind => altered.trailing behind⟩

/-- Ten blocks, a node in the checkpoint, and the log in blocks 0 and 1. -/
theorem writesInPlace_of_run_reused :
    10 ≤ Image.reused.blockCount ∧ Image.reused.OpensInPlace ∧
      ∃ s t events, Session.ofImage? ⟨"disk", true, false, "warn"⟩ .reused = some s ∧
        Run s events t ∧ t.ServesInPlace 10 ∧ Image.reused.SameFrame t.image ∧
        t.store.graph = (∅ : Graph).after (.addNode 7) := by
  have count := Image.blockCount_reused
  obtain ⟨opens, opened_of⟩ := writesInPlace_of_run (show 10 ≤ Image.reused.blockCount by omega)
  obtain ⟨s, t, events, -, opened, -, run, h, -, -, -, -⟩ := Session.exists_checkpointed_reused
  obtain ⟨-, run_of⟩ := opened_of _ s opened
  obtain ⟨serves, -, frame⟩ := run_of events t run
  rw [count] at serves
  exact ⟨by omega, opens, s, t, events, opened, run, serves, frame, h.graph⟩

end DurableGraph
