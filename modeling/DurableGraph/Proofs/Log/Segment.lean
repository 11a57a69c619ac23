import DurableGraph.Proofs.Log.Reading

/-!
# What a log on an image tells

A log that was started keeps the superblock and the tail of its segment in memory.  `Tells`
says that both are those on the image, and which entries the blocks of the segment tell.

    log.Tells image older last → the cursor hands out older.flatten ++ last      (Tells.read)
    log.Tells image older last → loading the image gives this very log           (Tells.load)
    a log that loads and reads well tells what was read                 (exists_tells_of_read)
-/

namespace DurableGraph

namespace Log

/-- A log stands in a region of a device that the image fills. -/
structure Placed (log : Log) (image : Image) : Prop where
  device_eq : log.device.blockCount = image.blockCount
  wide : log.region.start + 2 ≤ log.region.stop
  inside : log.region.stop ≤ image.blockCount
  small : log.region.stop < UInt32.size

/-- A log and an image agree: the superblock and the tail are those on the image, the blocks
before the tail tell `older`, a list for each, and the tail tells `last`. -/
structure Tells (log : Log) (image : Image) (older : List (List Mutation))
    (last : List Mutation) : Prop where
  placed : log.Placed image
  start_eq : log.superblock.segmentStart.toNat = log.region.start + 1
  size_eq : log.superblock.segmentSize.toNat = older.length + 1
  fits : log.region.start + 1 + older.length < log.region.stop
  superblock : ∃ content, image.block? log.region.start = some content ∧
    LogSuperblock.decode ⟨log.region.start, content⟩ = .ok log.superblock
  blocks : SegmentTells log.device image log.generation (log.region.start + 1) older
  tail : ∃ tail, log.tail = some tail ∧
    LogBlock.load log.device image (log.region.start + 1 + older.length) log.generation =
      .ok tail ∧ tail.Tells last
  readable : Readable (older ++ [last])

/-! ## Lemmas -/

/-- Neither what a log holds in memory nor what its blocks hold matters. -/
theorem Placed.congr {log other : Log} {a b : Image} (h : log.Placed a)
    (device : other.device = log.device) (region : other.region = log.region)
    (count : b.blockCount = a.blockCount) : other.Placed b where
  device_eq := by rw [device, count]; exact h.device_eq
  wide := by rw [region]; exact h.wide
  inside := by rw [region, count]; exact h.inside
  small := by rw [region]; exact h.small

/-- A log that was bound to a region of a device stands there, not started. -/
theorem ofRegion_eq_ok_iff {device : Device} {region : Region} {log : Log} :
    ofRegion device region = .ok log ↔
      (region.stop ≤ device.blockCount ∧ region.start + 2 ≤ region.stop ∧
        region.stop < UInt32.size) ∧
        log = ⟨device, region, .fresh (region.start + 1).toUInt32, none⟩ := by
  unfold ofRegion
  split
  · next h =>
    constructor
    · intro h'
      cases h'
    · rintro ⟨h', -⟩
      omega
  · next h =>
    rw [Except.ok.injEq, eq_comm]
    constructor
    · intro h'
      exact ⟨by omega, h'⟩
    · exact And.right

theorem placed_of_ofRegion {path : String} {image : Image} {region : Region} {log : Log}
    (h : ofRegion (Device.ofImage path image) region = .ok log) : log.Placed image := by
  obtain ⟨⟨h1, h2, h3⟩, rfl⟩ := ofRegion_eq_ok_iff.1 h
  exact ⟨rfl, h2, h1, h3⟩

theorem Placed.toNat_firstBlock {log : Log} {image : Image} (h : log.Placed image) :
    log.firstBlock.toNat = log.region.start + 1 := by
  have := h.wide
  have := h.small
  show (log.region.start + 1) % UInt32.size = _
  rw [Nat.mod_eq_of_lt (by omega)]

/-- The blocks of the region are blocks of the device. -/
theorem Placed.lt_blockCount {log : Log} {image : Image} (h : log.Placed image) {n : Nat}
    (inside : n < log.region.stop) : n < log.device.blockCount := by
  rw [h.device_eq]
  exact Nat.lt_of_lt_of_le inside h.inside

theorem toNat_generation (log : Log) :
    log.generation.toNat = log.superblock.generation.toNat := UInt32.toNat_toUInt64 _

theorem Tells.segmentEnd_eq {log : Log} {image : Image} {older : List (List Mutation)}
    {last : List Mutation} (h : log.Tells image older last) :
    log.superblock.segmentEnd = log.region.start + 1 + older.length + 1 := by
  unfold LogSuperblock.segmentEnd
  rw [h.start_eq, h.size_eq]
  omega

theorem Tells.segment_eq {log : Log} {image : Image} {older : List (List Mutation)}
    {last : List Mutation} (h : log.Tells image older last) :
    log.segment = ⟨log.region.start + 1, log.region.start + 1 + older.length + 1⟩ := by
  unfold segment
  rw [h.start_eq, h.segmentEnd_eq]

/-- Entries fit into the blocks behind the segment and into the rest of its tail. -/
theorem Tells.capacity_eq {log : Log} {image : Image} {older : List (List Mutation)}
    {last : List Mutation} (h : log.Tells image older last) :
    log.capacity = (log.region.stop - (log.region.start + 1 + older.length + 1)) * entriesPerBlock +
      (entriesPerBlock - last.length) := by
  obtain ⟨tail, htail, -, tells⟩ := h.tail
  unfold capacity
  rw [htail, h.segmentEnd_eq, ← tells.count]

/-- All blocks of the segment, the tail among them. -/
theorem Tells.segmentTells {log : Log} {image : Image} {older : List (List Mutation)}
    {last : List Mutation} (h : log.Tells image older last) :
    SegmentTells log.device image log.generation (log.region.start + 1) (older ++ [last]) := by
  intro i hi
  by_cases hlt : i < older.length
  · rw [List.getElem_append_left hlt]
    exact h.blocks i hlt
  · obtain ⟨tail, -, load, tells⟩ := h.tail
    have hi' : i = older.length := by
      rw [List.length_append, List.length_singleton] at hi
      omega
    subst hi'
    refine ⟨tail, load, ?_⟩
    simpa using tells

/-- Blocks beside the superblock and the segment do not matter. -/
theorem Tells.frame {log : Log} {a b : Image} {older : List (List Mutation)}
    {last : List Mutation} (h : log.Tells a older last) (count : b.blockCount = a.blockCount)
    (same : Image.SameOn ⟨log.region.start, log.region.start + 1 + older.length + 1⟩ b a) :
    log.Tells b older last where
  placed := h.placed.congr rfl rfl count
  start_eq := h.start_eq
  size_eq := h.size_eq
  fits := h.fits
  superblock := by
    rw [same _ (Nat.le_refl _) (by
      show log.region.start < log.region.start + 1 + older.length + 1
      omega)]
    exact h.superblock
  blocks := by
    intro i hi
    rw [LogBlock.load_congr (same _ _ _)]
    · exact h.blocks i hi
    · show log.region.start ≤ _
      omega
    · show _ < log.region.start + 1 + older.length + 1
      omega
  tail := by
    rw [LogBlock.load_congr (same _ _ _)]
    · exact h.tail
    · show log.region.start ≤ _
      omega
    · show _ < log.region.start + 1 + older.length + 1
      omega
  readable := h.readable

/-- So do blocks beside the region. -/
theorem Tells.of_sameOn {log : Log} {a b : Image} {older : List (List Mutation)}
    {last : List Mutation} (h : log.Tells a older last) (count : b.blockCount = a.blockCount)
    (same : Image.SameOn log.region b a) : log.Tells b older last :=
  h.frame count fun n hs he => same n hs (Nat.lt_of_lt_of_le he h.fits)

/-! ## Reading -/

/-- Reading begins in front of the first entry of the first block. -/
theorem Tells.exists_cursor {log : Log} {image : Image} {older : List (List Mutation)}
    {last : List Mutation} (h : log.Tells image older last) :
    ∃ c here later, log.cursor image = .ok c ∧ c.slot = 0 ∧ c.stop = log.segment.stop ∧
      LogCursor.Faces image c here later ∧ Readable (here :: later) ∧
      here ++ later.flatten = older.flatten ++ last := by
  obtain ⟨tail, htail, -, tells⟩ := h.tail
  have hseg := h.segment_eq
  have hall := h.segmentTells
  have hread := h.readable
  have hflat : (older ++ [last]).flatten = older.flatten ++ last := by simp
  have hlen : (older ++ [last]).length = older.length + 1 := by simp
  have hlast : (older ++ [last]).getLast? = some last := by simp
  generalize older ++ [last] = lists at hall hread hflat hlen hlast
  cases lists with
  | nil => cases hlen
  | cons here later =>
    rw [List.length_cons] at hlen
    obtain ⟨⟨first, load, here_tells⟩, behind⟩ := segmentTells_cons.1 hall
    refine ⟨⟨log.device, log.generation, log.region.start + 1 + older.length + 1,
      tail.header.entryCount.toNat, log.region.start + 1, 0, some first⟩, here, later, ?_, rfl,
      by rw [hseg], ?_, hread, ?_⟩
    · simp only [cursor, htail, hseg, load, bind, Except.bind]
    · exact {
        content := ⟨first, rfl, here_tells⟩
        slot_le := Nat.zero_le _
        behind := behind
        stop_eq := by
          show log.region.start + 1 + older.length + 1 = log.region.start + 1 + 1 + later.length
          omega
        tail_eq := by
          intro l hl
          rw [hlast] at hl
          cases hl
          exact tells.count }
    · rw [← hflat, List.flatten_cons]

/-- Reading succeeds and hands out what the blocks tell. -/
theorem Tells.read {log : Log} {image : Image} {older : List (List Mutation)}
    {last : List Mutation} (h : log.Tells image older last) :
    ∃ c, log.cursor image = .ok c ∧ c.entries image = (older.flatten ++ last, none) := by
  obtain ⟨c, here, later, cursor, slot, -, faces, readable, entries⟩ := h.exists_cursor
  refine ⟨c, cursor, (LogCursor.entries_eq faces readable).trans ?_⟩
  rw [slot, List.drop_zero, entries]

/-! ## Loading -/

/-- Loading the image gives the log again, whatever manager of the region it is loaded into. -/
theorem Tells.load {log : Log} {image : Image} {older : List (List Mutation)}
    {last : List Mutation} (h : log.Tells image older last) {start : Log}
    (device : start.device = log.device) (region : start.region = log.region) :
    (Log.load image).Gives start (.ok ()) log [] := by
  obtain ⟨content, held, decoded⟩ := h.superblock
  obtain ⟨tail, htail, load, -⟩ := h.tail
  have hfits := h.fits
  have hinside := h.placed.inside
  have hdev := h.placed.device_eq
  have hlog : { start with superblock := log.superblock, tail := some tail } = log := by
    rw [← htail, device, region]
  have hload : LogBlock.load start.device image (log.superblock.segmentEnd - 1)
      log.superblock.generation.toUInt64 = .ok tail := by
    rw [device, h.segmentEnd_eq]
    exact load
  unfold Log.load
  refine (Work.gives_current start).then ?_
  refine (Work.gives_ask (Device.get_eq_ok (by rw [device, region]; omega)
    (by rw [region]; exact held)) _).then ?_
  refine (Work.gives_ofExcept (by rw [region, decoded]; rfl) _).then ?_
  rw [if_neg]
  · refine (Work.gives_ofExcept hload _).then ?_
    rw [hlog]
    exact (Work.gives_replace _ log).then (Work.gives_note _ _)
  · rw [h.start_eq, h.segmentEnd_eq, h.size_eq, region]
    omega

/-- What loading has checked: the superblock, the bounds of the segment, and its tail. -/
theorem load_inv {start log : Log} {image : Image} {w : List Buffer}
    (h : (Log.load image).Gives start (.ok ()) log w) :
    ∃ content tail, image.block? start.region.start = some content ∧
      LogSuperblock.decode ⟨start.region.start, content⟩ = .ok log.superblock ∧
      log.superblock.segmentStart.toNat = start.region.start + 1 ∧
      log.superblock.segmentSize.toNat ≠ 0 ∧
      log.superblock.segmentEnd ≤ start.region.stop ∧
      LogBlock.load start.device image (log.superblock.segmentEnd - 1) log.generation = .ok tail ∧
      log = { start with superblock := log.superblock, tail := some tail } ∧ w = [] := by
  unfold Log.load at h
  obtain ⟨buffer, hget, h₁⟩ := h.of_current.of_ask
  obtain ⟨-, hn, held⟩ := Device.get_eq_ok_iff.1 hget
  obtain ⟨superblock, hsb, h₂⟩ := h₁.of_ofExcept
  have hdecoded := Work.mapError_eq_ok_iff.1 hsb
  simp only at h₂
  split at h₂
  · cases (h₂.unique (Work.gives_fail _ _)).1
  · next hok =>
    obtain ⟨tail, htail, h₃⟩ := h₂.of_ofExcept
    obtain ⟨-, rfl, rfl⟩ :=
      h₃.unique ((Work.gives_replace start _).then (Work.gives_note _ _))
    have hbuffer : (⟨start.region.start, buffer.content⟩ : Buffer) = buffer := by rw [← hn]
    refine ⟨buffer.content, tail, held, by rw [hbuffer]; exact hdecoded, ?_, ?_, ?_, htail, rfl, rfl⟩
    · show superblock.segmentStart.toNat = _
      omega
    · show superblock.segmentSize.toNat ≠ 0
      omega
    · show superblock.segmentEnd ≤ _
      omega

/-- A cursor begins in front of the first block of the segment. -/
theorem cursor_inv {log : Log} {image : Image} {tail : LogBlock} {c : LogCursor}
    (htail : log.tail = some tail) (cursor : log.cursor image = .ok c) :
    ∃ first, LogBlock.load log.device image log.segment.start log.generation = .ok first ∧
      c = ⟨log.device, log.generation, log.segment.stop, tail.header.entryCount.toNat,
        log.segment.start, 0, some first⟩ := by
  cases hfirst : LogBlock.load log.device image log.segment.start log.generation with
  | error e =>
    simp only [Log.cursor, htail, hfirst, bind, Except.bind] at cursor
    cases cursor
  | ok first =>
    simp only [Log.cursor, htail, hfirst, bind, Except.bind, Except.ok.injEq] at cursor
    exact ⟨first, rfl, cursor.symm⟩

/-- A log that loads and reads well tells the entries that were read. -/
theorem exists_tells_of_read {start log : Log} {image : Image} {w : List Buffer} {c : LogCursor}
    {es : List Mutation} (placed : start.Placed image)
    (load : (Log.load image).Gives start (.ok ()) log w) (cursor : log.cursor image = .ok c)
    (read : c.entries image = (es, none)) :
    log.device = start.device ∧ log.region = start.region ∧
      ∃ older last, log.Tells image older last ∧ es = older.flatten ++ last := by
  obtain ⟨content, tail, held, decoded, hstart, hsize, hend, htail, hlog, -⟩ := load_inv load
  have hdevice : log.device = start.device := by rw [hlog]
  have hregion : log.region = start.region := by rw [hlog]
  have hltail : log.tail = some tail := by rw [hlog]
  refine ⟨hdevice, hregion, ?_⟩
  -- the cursor stands in the first block of the segment
  have hseg : log.segment = ⟨start.region.start + 1, log.superblock.segmentEnd⟩ := by
    unfold segment
    rw [hstart]
  have hsegEnd : log.superblock.segmentEnd =
      start.region.start + 1 + log.superblock.segmentSize.toNat := by
    unfold LogSuperblock.segmentEnd
    rw [hstart]
  obtain ⟨first, hfirst, rfl⟩ := cursor_inv hltail cursor
  have stands : LogCursor.Stands image ⟨log.device, log.generation, log.segment.stop,
      tail.header.entryCount.toNat, log.segment.start, 0, some first⟩ first := {
    content := rfl
    inside := by
      rw [hseg]
      show start.region.start + 1 < log.superblock.segmentEnd
      omega
    loaded := hfirst
    tail := ⟨tail, by rw [hseg, hdevice]; exact htail, rfl⟩ }
  obtain ⟨lists, tells, hstop, rfl, readable⟩ := stands.tells rfl read
  rw [hseg] at tells hstop
  have hlen : lists.length = log.superblock.segmentSize.toNat := by
    have : log.superblock.segmentEnd = start.region.start + 1 + lists.length := hstop
    omega
  -- the last list is that of the tail
  have hne : lists ≠ [] := by
    rintro rfl
    exact hsize hlen.symm
  obtain ⟨older, last, rfl⟩ : ∃ older last, lists = older ++ [last] :=
    ⟨lists.dropLast, lists.getLast hne, (List.dropLast_concat_getLast hne).symm⟩
  rw [List.length_append, List.length_singleton] at hlen
  refine ⟨older, last, ?_, by simp⟩
  obtain ⟨tail', htail', htells⟩ := tells older.length (by simp)
  rw [List.getElem_append_right (Nat.le_refl _)] at htells
  have hplace : log.superblock.segmentEnd - 1 = start.region.start + 1 + older.length := by omega
  rw [hplace, ← hdevice] at htail
  have hsame : tail' = tail := by
    have h' : LogBlock.load log.device image (start.region.start + 1 + older.length)
      log.generation = .ok tail' := htail'
    rw [htail] at h'
    cases h'
    rfl
  subst hsame
  exact {
    placed := placed.congr hdevice hregion rfl
    start_eq := by rw [hregion]; exact hstart
    size_eq := hlen.symm
    fits := by rw [hregion]; omega
    superblock := ⟨content, by rw [hregion]; exact held, by rw [hregion]; exact decoded⟩
    blocks := by
      intro i hi
      have := tells i (by rw [List.length_append]; omega)
      rw [List.getElem_append_left hi] at this
      rw [hregion]
      exact this
    tail := ⟨tail', hltail, by rw [hregion]; exact htail, by simpa using htells⟩
    readable := readable }

end Log

end DurableGraph
