import DurableGraph.Proofs.Log.Segment

/-!
# What the steps of a log write

Each step is given with its result, the log it leaves and the blocks it stores, and so is what
the log tells afterwards.

    rotate      superblock, empty block                      tells [] []
    extend      empty block, superblock                      tells (older ++ [last]) []
    append m    the tail with one more entry                 tells older (last ++ [m])
-/

namespace DurableGraph

/-- A superblock on a block of its own. -/
def LogSuperblock.buffer (s : LogSuperblock) (n : Nat) : Buffer := ⟨n, s.encode .zero⟩

namespace Log

/-- The block that a rotation begins with. -/
def firstTail (log : Log) : LogBlock :=
  .empty (log.superblock.generation + 1).toUInt64 ⟨log.region.start + 1, .zero⟩

/-- The log after a rotation. -/
def rotated (log : Log) : Log :=
  { log with
    superblock := ⟨log.superblock.generation + 1, log.firstBlock, 1⟩
    tail := some log.firstTail }

/-- The block that comes behind a segment. -/
def nextTail (log : Log) : LogBlock :=
  .empty log.generation ⟨log.superblock.segmentEnd, .zero⟩

/-- The log with a block more. -/
def extended (log : Log) : Log :=
  { log with
    superblock := { log.superblock with segmentSize := log.superblock.segmentSize + 1 }
    tail := some log.nextTail }

/-- The log with another tail. -/
def withTail (log : Log) (tail : LogBlock) : Log := { log with tail := some tail }

/-- The log with another superblock. -/
def withSuperblock (log : Log) (superblock : LogSuperblock) : Log := { log with superblock }

/-- The generation that a format begins: one more than that of the superblock found. -/
def nextGeneration (image : Image) (block : Nat) : Nat :=
  match image.block? block with
  | none => 1
  | some content =>
    match LogSuperblock.decode ⟨block, content⟩ with
    | .ok found => found.generation.toNat + 1
    | .error _ => 1

/-! ## Steps -/

variable {log : Log} {image : Image} {older : List (List Mutation)} {last : List Mutation}

theorem gives_storeSuperblock (placed : log.Placed image) (s : LogSuperblock) :
    (storeSuperblock s).Gives log (.ok ()) log [s.buffer log.region.start] := by
  have hlt : log.region.start < log.device.blockCount :=
    placed.lt_blockCount (Nat.lt_of_succ_lt placed.wide)
  unfold storeSuperblock
  refine (Work.gives_current log).then ?_
  refine (Work.gives_ask (Device.blank_eq_ok hlt) log).then ?_
  exact Work.gives_store hlt log

theorem gives_rotate (placed : log.Placed image)
    (room : log.superblock.generation.toNat + 1 ≠ UInt32.size) :
    rotate.Gives log (.ok log.rotated.generation) log.rotated
      [log.rotated.superblock.buffer log.region.start, log.firstTail.buffer] := by
  have hlt : log.region.start + 1 < log.device.blockCount := placed.lt_blockCount placed.wide
  have hfirst := placed.toNat_firstBlock
  have hplace :
      (⟨log.superblock.generation + 1, log.firstBlock, 1⟩ : LogSuperblock).segmentEnd - 1 =
        log.region.start + 1 := hfirst
  unfold rotate
  refine (Work.gives_current log).then ?_
  rw [if_neg room]
  refine (gives_storeSuperblock placed _).bind ?_
  refine (Work.gives_replace log _).then ?_
  refine (Work.gives_ask (by rw [hplace]; exact Device.blank_eq_ok hlt) _).then ?_
  refine (Work.gives_store hlt _).bind ?_
  refine (Work.gives_replace _ log.rotated).then ?_
  exact (Work.gives_note _ _).then (Work.gives_pure _ _)

/-- The last generation is not left. -/
theorem gives_rotate_last (spent : log.superblock.generation.toNat + 1 = UInt32.size) :
    rotate.Gives log (.error .generationsExhausted) log [] := by
  unfold rotate
  refine (Work.gives_current log).then ?_
  rw [if_pos spent]
  exact Work.gives_fail _ _

/-- A region that holds a superblock is rotated from there, whatever the image had when the device
was opened. -/
theorem gives_format_found {disk : Image} (placed : log.Placed disk) {content : Block}
    {found : LogSuperblock}
    (held : image.block? log.region.start = some content)
    (decoded : LogSuperblock.decode ⟨log.region.start, content⟩ = .ok found)
    {r : Except LogError UInt64} {t : Log} {w : List Buffer}
    (rotated : rotate.Gives (log.withSuperblock found) r t w) :
    (format image).Gives log r t w := by
  have hlt : log.region.start < log.device.blockCount :=
    placed.lt_blockCount (Nat.lt_of_succ_lt placed.wide)
  unfold format
  refine (Work.gives_current log).then ?_
  refine (Work.gives_ask (Device.get_eq_ok hlt held) log).then ?_
  rw [decoded]
  refine (Work.gives_note _ log).then ?_
  refine (Work.gives_replace log (log.withSuperblock found)).then ?_
  exact rotated

/-- Any other region is given a fresh superblock first. -/
theorem gives_format_fresh {disk : Image} (placed : log.Placed disk) {content : Block}
    {e : RecordError}
    (held : image.block? log.region.start = some content)
    (decoded : LogSuperblock.decode ⟨log.region.start, content⟩ = .error e)
    {r : Except LogError UInt64} {t : Log} {w : List Buffer}
    (rotated : rotate.Gives (log.withSuperblock (.fresh log.firstBlock)) r t w) :
    (format image).Gives log r t
      (LogSuperblock.buffer (.fresh log.firstBlock) log.region.start :: w) := by
  have hlt : log.region.start < log.device.blockCount :=
    placed.lt_blockCount (Nat.lt_of_succ_lt placed.wide)
  have placed' : (log.withSuperblock (.fresh log.firstBlock)).Placed disk :=
    placed.congr rfl rfl rfl
  unfold format
  refine (Work.gives_current log).then ?_
  refine (Work.gives_ask (Device.get_eq_ok hlt held) log).then ?_
  rw [decoded]
  refine (Work.gives_replace log (log.withSuperblock (.fresh log.firstBlock))).then ?_
  exact (gives_storeSuperblock placed' _).bind rotated

theorem gives_extend (placed : log.Placed image) (room : log.superblock.segmentEnd < log.region.stop) :
    extend.Gives log (.ok ()) log.extended
      [log.nextTail.buffer, log.extended.superblock.buffer log.region.start] := by
  have hlt : log.superblock.segmentEnd < log.device.blockCount := placed.lt_blockCount room
  unfold extend
  refine (Work.gives_current log).then ?_
  simp only
  rw [if_neg (by omega)]
  refine (Work.gives_ask (Device.blank_eq_ok hlt) _).then ?_
  refine (Work.gives_store hlt _).bind ?_
  refine (gives_storeSuperblock placed _).bind ?_
  exact (Work.gives_replace _ log.extended).then (Work.gives_note _ _)

theorem gives_extend_full (full : log.region.stop ≤ log.superblock.segmentEnd) :
    extend.Gives log (.error (.noSpace log.superblock.segmentEnd)) log [] := by
  unfold extend
  refine (Work.gives_current log).then ?_
  simp only
  rw [if_pos full]
  exact Work.gives_fail _ _

/-- A tail with room takes the entry. -/
theorem gives_append (placed : log.Placed image) {tail : LogBlock} (htail : log.tail = some tail)
    (room : tail.header.isFull = false) (inside : tail.buffer.number < image.blockCount)
    (m : Mutation) :
    (append m).Gives log (.ok ()) (log.withTail (tail.push m)) [(tail.push m).buffer] := by
  have hlt : (tail.push m).buffer.number < log.device.blockCount := by
    rw [LogBlock.number_push, placed.device_eq]
    exact inside
  unfold append
  refine (Work.gives_current log).then ?_
  simp only [htail, room, Bool.false_eq_true, if_false]
  refine (Work.gives_current log).then ?_
  simp only [htail]
  exact (Work.gives_store hlt log).bind (Work.gives_replace log _)

/-- A full tail gives way to the next block, which takes the entry. -/
theorem gives_append_full (placed : log.Placed image) {tail : LogBlock}
    (htail : log.tail = some tail) (full : tail.header.isFull = true)
    (room : log.superblock.segmentEnd < log.region.stop) (m : Mutation) :
    (append m).Gives log (.ok ()) (log.extended.withTail (log.nextTail.push m))
      [log.nextTail.buffer, log.extended.superblock.buffer log.region.start,
        (log.nextTail.push m).buffer] := by
  have hlt : (log.nextTail.push m).buffer.number < log.device.blockCount := by
    rw [LogBlock.number_push]
    exact placed.lt_blockCount room
  unfold append
  refine (Work.gives_current log).then ?_
  simp only [htail, full, if_true]
  refine (gives_extend placed room).bind ?_
  refine (Work.gives_current log.extended).then ?_
  exact (Work.gives_store hlt _).bind (Work.gives_replace _ _)

/-- At the end of the region nothing is appended, and nothing changes. -/
theorem gives_append_noSpace {tail : LogBlock} (htail : log.tail = some tail)
    (full : tail.header.isFull = true) (spent : log.region.stop ≤ log.superblock.segmentEnd)
    (m : Mutation) :
    (append m).Gives log (.error (.noSpace log.superblock.segmentEnd)) log [] := by
  unfold append
  refine (Work.gives_current log).then ?_
  simp only [htail, full, if_true]
  exact (gives_extend_full spent).bind_error _

/-! ## What the log tells afterwards -/

/-- The tail of a log that tells entries: its place, its content and its generation. -/
theorem Tells.exists_tail (h : log.Tells image older last) :
    ∃ tail, log.tail = some tail ∧ tail.Tells last ∧
      tail.buffer.number = log.region.start + 1 + older.length ∧
      tail.header.generation = log.generation := by
  obtain ⟨tail, htail, load, tells⟩ := h.tail
  obtain ⟨-, number, -, -, generation⟩ := LogBlock.load_eq_ok_iff.1 load
  exact ⟨tail, htail, tells, number, generation⟩

/-- A rotation writes in the region. -/
theorem Placed.number_lt (placed : log.Placed image) :
    ∀ buffer ∈ [log.rotated.superblock.buffer log.region.start, log.firstTail.buffer],
      buffer.number < log.region.stop := by
  intro buffer hb
  simp only [List.mem_cons, List.not_mem_nil, or_false] at hb
  obtain rfl | rfl := hb
  · exact Nat.lt_of_succ_lt placed.wide
  · exact placed.wide

theorem tells_rotated (placed : log.Placed image) :
    log.rotated.Tells (image.storeAll
      [log.rotated.superblock.buffer log.region.start, log.firstTail.buffer]) [] [] := by
  have hwide := placed.wide
  have hinside := placed.inside
  have fits : image.Fits ([log.rotated.superblock.buffer log.region.start] ++
      [log.firstTail.buffer]) :=
    fun buffer hb => Nat.lt_of_lt_of_le (placed.number_lt buffer hb) hinside
  have hcount := Image.blockCount_storeAll fits
  have hread := Image.block?_storeAll_concat fits
  rw [List.singleton_append] at hcount hread
  generalize image.storeAll [log.rotated.superblock.buffer log.region.start,
    log.firstTail.buffer] = after at hcount hread
  have hhead : after.block? log.region.start = some (log.rotated.superblock.encode .zero) := by
    rw [hread, if_neg (by show log.region.start ≠ log.region.start + 1; omega)]
    exact Image.block?_store_self (Image.fits_cons.1 fits).1
  exact {
    placed := placed.congr rfl rfl hcount
    start_eq := placed.toNat_firstBlock
    size_eq := rfl
    fits := by
      show log.region.start + 1 + 0 < log.region.stop
      omega
    superblock := ⟨_, hhead, LogSuperblock.decode_encode _ _ _⟩
    blocks := segmentTells_nil _ _ _ _
    tail := by
      refine ⟨log.firstTail, rfl, LogBlock.load_eq_ok_iff.2 ⟨?_, rfl, ?_, ?_, rfl⟩, ?_⟩
      · show log.region.start + 1 < log.device.blockCount
        rw [placed.device_eq]
        omega
      · exact (hread _).trans (if_pos rfl)
      · exact LogBlock.sealed_empty _ _
      · exact LogBlock.tells_empty _ _
    readable := by
      intro i hi
      exact absurd hi (by simp) }

/-- A generation that is not the last one is followed by the next. -/
theorem toNat_generation_rotated (room : log.superblock.generation.toNat + 1 ≠ UInt32.size) :
    log.rotated.superblock.generation.toNat = log.superblock.generation.toNat + 1 := by
  have hlt : log.superblock.generation.toNat < 4294967296 := UInt32.toNat_lt_size _
  have hne : log.superblock.generation.toNat + 1 ≠ 4294967296 := room
  show (log.superblock.generation.toNat + 1) % 4294967296 = _
  rw [Nat.mod_eq_of_lt (by omega)]

theorem nextGeneration_found {n : Nat} {content : Block} {found : LogSuperblock}
    (held : image.block? n = some content)
    (decoded : LogSuperblock.decode ⟨n, content⟩ = .ok found) :
    nextGeneration image n = found.generation.toNat + 1 := by
  simp only [nextGeneration, held, decoded]

theorem nextGeneration_fresh {n : Nat} {content : Block} {e : RecordError}
    (held : image.block? n = some content)
    (decoded : LogSuperblock.decode ⟨n, content⟩ = .error e) : nextGeneration image n = 1 := by
  simp only [nextGeneration, held, decoded]

theorem nextGeneration_pos (image : Image) (n : Nat) : 0 < nextGeneration image n := by
  unfold nextGeneration
  split
  · exact Nat.zero_lt_one
  · split
    · exact Nat.zero_lt_succ _
    · exact Nat.zero_lt_one

/-- A format that succeeds leaves an empty log of the next generation, whatever the region held
and whatever the log had in memory. -/
theorem tells_format (placed : log.Placed image) {g : UInt64} {t : Log} {w : List Buffer}
    (h : (format image).Gives log (.ok g) t w) :
    t.device = log.device ∧ t.region = log.region ∧ t.Tells (image.storeAll w) [] [] ∧
      t.superblock.generation.toNat = nextGeneration image log.region.start := by
  have hinside := placed.inside
  have hwide := placed.wide
  obtain ⟨content, held⟩ := Option.isSome_iff_exists.1
    ((Image.block?_isSome_iff image log.region.start).2 (by omega))
  cases decoded : LogSuperblock.decode ⟨log.region.start, content⟩ with
  | ok found =>
    have placed' : (log.withSuperblock found).Placed image := placed.congr rfl rfl rfl
    rw [nextGeneration_found held decoded]
    by_cases spent : found.generation.toNat + 1 = UInt32.size
    · cases (h.unique (gives_format_found placed held decoded (gives_rotate_last spent))).1
    · obtain ⟨-, rfl, rfl⟩ :=
        h.unique (gives_format_found placed held decoded (gives_rotate placed' spent))
      exact ⟨rfl, rfl, tells_rotated placed', toNat_generation_rotated spent⟩
  | error e =>
    have placed' : (log.withSuperblock (.fresh log.firstBlock)).Placed image :=
      placed.congr rfl rfl rfl
    rw [nextGeneration_fresh held decoded]
    have room : (log.withSuperblock (.fresh log.firstBlock)).superblock.generation.toNat + 1 ≠
        UInt32.size := by
      show (0 : UInt32).toNat + 1 ≠ UInt32.size
      decide
    obtain ⟨-, rfl, rfl⟩ :=
      h.unique (gives_format_fresh placed held decoded (gives_rotate placed' room))
    refine ⟨rfl, rfl, ?_, toNat_generation_rotated room⟩
    rw [Image.storeAll_cons]
    exact tells_rotated (placed'.congr rfl rfl (Image.blockCount_store _ _
      (show log.region.start < image.blockCount by omega)))

/-- A format succeeds unless the region is in its last generation. -/
theorem exists_format (placed : log.Placed image)
    (room : nextGeneration image log.region.start ≠ UInt32.size) :
    ∃ g t w, (format image).Gives log (.ok g) t w := by
  have hinside := placed.inside
  have hwide := placed.wide
  obtain ⟨content, held⟩ := Option.isSome_iff_exists.1
    ((Image.block?_isSome_iff image log.region.start).2 (by omega))
  cases decoded : LogSuperblock.decode ⟨log.region.start, content⟩ with
  | ok found =>
    rw [nextGeneration_found held decoded] at room
    have placed' : (log.withSuperblock found).Placed image := placed.congr rfl rfl rfl
    exact ⟨_, _, _, gives_format_found placed held decoded (gives_rotate placed' room)⟩
  | error e =>
    have placed' : (log.withSuperblock (.fresh log.firstBlock)).Placed image :=
      placed.congr rfl rfl rfl
    have room' : (log.withSuperblock (.fresh log.firstBlock)).superblock.generation.toNat + 1 ≠
        UInt32.size := by
      show (0 : UInt32).toNat + 1 ≠ UInt32.size
      decide
    exact ⟨_, _, _, gives_format_fresh placed held decoded (gives_rotate placed' room')⟩

/-- The block that comes behind the segment may be written before it is counted in. -/
theorem Tells.nextTail (h : log.Tells image older last)
    (room : log.superblock.segmentEnd < log.region.stop) :
    log.Tells (image.storeAll [log.nextTail.buffer]) older last := by
  have hinside := h.placed.inside
  have fits : image.Fits [log.nextTail.buffer] := by
    refine Image.fits_cons.2 ⟨?_, Image.fits_nil image⟩
    show log.superblock.segmentEnd < image.blockCount
    omega
  refine h.frame (Image.blockCount_storeAll fits) (Image.sameOn_storeAll fits ?_)
  intro buffer hb
  rw [List.mem_singleton] at hb
  subst hb
  exact .inr (Nat.le_of_eq h.segmentEnd_eq.symm)

/-- One more block is counted in 32 bits. -/
theorem Placed.toNat_segmentSize_extended (placed : log.Placed image)
    (room : log.superblock.segmentEnd < log.region.stop) :
    log.extended.superblock.segmentSize.toNat = log.superblock.segmentSize.toNat + 1 := by
  have hsmall : log.region.stop < 4294967296 := placed.small
  have hend : log.superblock.segmentEnd =
    log.superblock.segmentStart.toNat + log.superblock.segmentSize.toNat := rfl
  show (log.superblock.segmentSize + 1).toNat = _
  rw [UInt32.toNat_add]
  exact Nat.mod_eq_of_lt (show log.superblock.segmentSize.toNat + 1 < 4294967296 by omega)

theorem Placed.fits_extended (placed : log.Placed image)
    (room : log.superblock.segmentEnd < log.region.stop) :
    image.Fits [log.nextTail.buffer, log.extended.superblock.buffer log.region.start] := by
  have hwide := placed.wide
  have hinside := placed.inside
  refine Image.fits_cons.2 ⟨?_, Image.fits_cons.2 ⟨?_, Image.fits_nil image⟩⟩
  · show log.superblock.segmentEnd < image.blockCount
    omega
  · show log.region.start < image.blockCount
    omega

theorem Tells.extended (h : log.Tells image older last) (ne : last ≠ [])
    (room : log.superblock.segmentEnd < log.region.stop) :
    log.extended.Tells (image.storeAll
      [log.nextTail.buffer, log.extended.superblock.buffer log.region.start])
      (older ++ [last]) [] := by
  have hinside := h.placed.inside
  have hend := h.segmentEnd_eq
  have hfits := h.fits
  have hsize := h.placed.toNat_segmentSize_extended room
  rw [h.size_eq] at hsize
  have hlen : (older ++ [last]).length = older.length + 1 := by simp
  have fits : image.Fits ([log.nextTail.buffer] ++
      [log.extended.superblock.buffer log.region.start]) := h.placed.fits_extended room
  have hcount := Image.blockCount_storeAll fits
  have hread := Image.block?_storeAll_concat fits
  have hnext : (image.storeAll [log.nextTail.buffer]).block? log.superblock.segmentEnd =
      some log.nextTail.buffer.content := Image.block?_store_self (Image.fits_cons.1 fits).1
  have hold := (h.nextTail room).segmentTells
  rw [List.singleton_append] at hcount hread
  generalize image.storeAll [log.nextTail.buffer] = between at hread hnext hold
  generalize image.storeAll [log.nextTail.buffer,
    log.extended.superblock.buffer log.region.start] = after at hcount hread
  have hbehind : ∀ n, log.region.start + 1 ≤ n → after.block? n = between.block? n := by
    intro n hn
    rw [hread, if_neg]
    show n ≠ log.region.start
    omega
  exact {
    placed := h.placed.congr rfl rfl hcount
    start_eq := h.start_eq
    size_eq := by rw [hsize, hlen]
    fits := by
      show log.region.start + 1 + (older ++ [last]).length < log.region.stop
      omega
    superblock := ⟨_, (hread _).trans (if_pos rfl), LogSuperblock.decode_encode _ _ _⟩
    blocks := by
      intro i hi
      obtain ⟨block, load, tells⟩ := hold i hi
      refine ⟨block, ?_, tells⟩
      rw [LogBlock.load_congr (hbehind _ (by show _ ≤ log.region.start + 1 + i; omega))]
      exact load
    tail := by
      refine ⟨log.nextTail, rfl, LogBlock.load_eq_ok_iff.2 ⟨?_, ?_, ?_, ?_, rfl⟩, ?_⟩
      · show log.region.start + 1 + (older ++ [last]).length < log.device.blockCount
        rw [h.placed.device_eq]
        omega
      · show log.superblock.segmentEnd = log.region.start + 1 + (older ++ [last]).length
        omega
      · rw [hbehind _ (by show log.region.start + 1 ≤ log.region.start + 1 + _; omega), ← hnext]
        congr 1
        show log.region.start + 1 + (older ++ [last]).length = _
        omega
      · exact LogBlock.sealed_empty _ _
      · exact LogBlock.tells_empty _ _
    readable := readable_concat_nil older ne }

theorem Tells.withTail (h : log.Tells image older last) {tail : LogBlock}
    (htail : log.tail = some tail) (room : tail.header.isFull = false) (m : Mutation) :
    (log.withTail (tail.push m)).Tells (image.storeAll [(tail.push m).buffer]) older
      (last ++ [m]) := by
  obtain ⟨tail', htail', tells, number, generation⟩ := h.exists_tail
  rw [htail] at htail'
  cases htail'
  have hinside := h.placed.inside
  have hfits := h.fits
  have hlt : (tail.push m).buffer.number < image.blockCount := by
    rw [LogBlock.number_push]
    omega
  have hcount := Image.blockCount_store image _ hlt
  have hread := Image.block?_store image _ hlt
  show (log.withTail (tail.push m)).Tells (image.store (tail.push m).buffer) older (last ++ [m])
  generalize image.store (tail.push m).buffer = after at hcount hread
  rw [LogBlock.number_push, number] at hread
  have hother : ∀ n, n ≠ log.region.start + 1 + older.length → after.block? n = image.block? n := by
    intro n hn
    rw [hread, if_neg hn]
  exact {
    placed := h.placed.congr rfl rfl hcount
    start_eq := h.start_eq
    size_eq := h.size_eq
    fits := h.fits
    superblock := by
      obtain ⟨content, held, decoded⟩ := h.superblock
      exact ⟨content, (hother _ (by show log.region.start ≠ _; omega)).trans held, decoded⟩
    blocks := by
      intro i hi
      obtain ⟨block, load, told⟩ := h.blocks i hi
      refine ⟨block, ?_, told⟩
      rw [LogBlock.load_congr (hother _ (by show log.region.start + 1 + i ≠ _; omega))]
      exact load
    tail := by
      refine ⟨tail.push m, rfl, LogBlock.load_eq_ok_iff.2 ⟨?_, ?_, ?_, ?_, ?_⟩, tells.push room m⟩
      · show log.region.start + 1 + older.length < log.device.blockCount
        rw [h.placed.device_eq]
        omega
      · rw [LogBlock.number_push]
        exact number
      · exact (hread _).trans (if_pos rfl)
      · exact LogBlock.sealed_push room m
      · rw [LogBlock.generation_push]
        exact generation
    readable := readable_concat older (by simp) }

/-- The tail holds the entries that its list has. -/
theorem Tells.length_last_le (h : log.Tells image older last) : last.length ≤ entriesPerBlock := by
  obtain ⟨tail, -, load, tells⟩ := h.tail
  obtain ⟨-, -, -, hseal, -⟩ := LogBlock.load_eq_ok_iff.1 load
  rw [← tells.count]
  exact hseal.entryCount_le

/-- **Appending** writes one block, or three blocks where the tail is full, or nothing where the
region is full too. -/
theorem Tells.append_cases (h : log.Tells image older last) (m : Mutation) :
    (∃ tail, log.tail = some tail ∧ tail.header.isFull = false ∧ last.length < entriesPerBlock ∧
      tail.buffer.number < log.region.stop ∧
      (append m).Gives log (.ok ()) (log.withTail (tail.push m)) [(tail.push m).buffer]) ∨
    (last.length = entriesPerBlock ∧ log.superblock.segmentEnd < log.region.stop ∧
      (append m).Gives log (.ok ()) (log.extended.withTail (log.nextTail.push m))
        [log.nextTail.buffer, log.extended.superblock.buffer log.region.start,
          (log.nextTail.push m).buffer]) ∨
    (last.length = entriesPerBlock ∧ log.region.stop ≤ log.superblock.segmentEnd ∧
      (append m).Gives log (.error (.noSpace log.superblock.segmentEnd)) log []) := by
  obtain ⟨tail, htail, tells, number, -⟩ := h.exists_tail
  have hfits := h.fits
  have hinside := h.placed.inside
  have hle := h.length_last_le
  have hcount := tells.count
  cases full : tail.header.isFull with
  | false =>
    have hroom := LogBlock.entryCount_lt full
    exact .inl ⟨tail, htail, full, by omega, by omega,
      gives_append h.placed htail full (by omega) m⟩
  | true =>
    have hfull : last.length = entriesPerBlock := by
      have : entriesPerBlock ≤ tail.header.entryCount.toNat := of_decide_eq_true full
      omega
    by_cases room : log.superblock.segmentEnd < log.region.stop
    · exact .inr (.inl ⟨hfull, room, gives_append_full h.placed htail full room m⟩)
    · exact .inr (.inr ⟨hfull, Nat.le_of_not_lt room,
        gives_append_noSpace htail full (Nat.le_of_not_lt room) m⟩)

/-- The three blocks lie in the region. -/
theorem Tells.number_lt (h : log.Tells image older last)
    (room : log.superblock.segmentEnd < log.region.stop) (m : Mutation) :
    ∀ buffer ∈ [log.nextTail.buffer, log.extended.superblock.buffer log.region.start,
      (log.nextTail.push m).buffer], buffer.number < log.region.stop := by
  intro buffer hb
  simp only [List.mem_cons, List.not_mem_nil, or_false] at hb
  obtain rfl | rfl | rfl := hb
  · exact room
  · exact Nat.lt_of_succ_lt h.placed.wide
  · rw [LogBlock.number_push]
    exact room

/-- A tail that is not full takes any entry. -/
theorem Tells.append_eq_ok (h : log.Tells image older last) (room : last.length < entriesPerBlock)
    (m : Mutation) : (append m log).result = .ok () := by
  obtain ⟨_, _, _, _, _, gives⟩ | ⟨full, -, -⟩ | ⟨full, -, -⟩ := h.append_cases m
  · exact gives.result_eq
  · omega
  · omega

/-- A block with a new tail and its first entry behind a full one. -/
theorem Tells.extended_withTail (h : log.Tells image older last)
    (full : last.length = entriesPerBlock)
    (room : log.superblock.segmentEnd < log.region.stop) (m : Mutation) :
    (log.extended.withTail (log.nextTail.push m)).Tells (image.storeAll
      [log.nextTail.buffer, log.extended.superblock.buffer log.region.start,
        (log.nextTail.push m).buffer]) (older ++ [last]) [m] := by
  have ne : last ≠ [] := by
    rintro rfl
    cases full
  have hlast := (h.extended ne room).withTail rfl (LogBlock.isFull_empty _ _) m
  rw [← Image.storeAll_append] at hlast
  exact hlast

end Log

/-! ## Devices that were in use -/

/-- Ten blocks, with the superblock of a log in its fifth generation. -/
@[irreducible]
def Image.reused : Image := (zeros 40960).store (LogSuperblock.buffer ⟨5, 1, 1⟩ 0)

/-- Fifteen blocks, with the same superblock: the log of a store has two blocks behind it. -/
@[irreducible]
def Image.roomy : Image := (zeros 61440).store (LogSuperblock.buffer ⟨5, 1, 1⟩ 0)

namespace Image

theorem fits_first (s : LogSuperblock) {size : Nat} (whole : 0 < size / blockSize) :
    (s.buffer 0).number < (zeros size).blockCount := by
  rw [blockCount_zeros]
  exact whole

theorem blockCount_first (s : LogSuperblock) {size : Nat} (whole : 0 < size / blockSize) :
    ((zeros size).store (s.buffer 0)).blockCount = size / blockSize :=
  (blockCount_store _ _ (fits_first s whole)).trans (blockCount_zeros size)

theorem nextGeneration_first (s : LogSuperblock) {size : Nat} (whole : 0 < size / blockSize) :
    Log.nextGeneration ((zeros size).store (s.buffer 0)) 0 = s.generation.toNat + 1 :=
  Log.nextGeneration_found (block?_store_self (fits_first s whole))
    (LogSuperblock.decode_encode _ _ _)

theorem blockCount_reused : reused.blockCount = 10 := by
  unfold reused
  exact blockCount_first _ (by decide)

theorem nextGeneration_reused : Log.nextGeneration reused 0 = 6 := by
  unfold reused
  exact nextGeneration_first _ (by decide)

theorem blockCount_roomy : roomy.blockCount = 15 := by
  unfold roomy
  exact blockCount_first _ (by decide)

theorem nextGeneration_roomy : Log.nextGeneration roomy 0 = 6 := by
  unfold roomy
  exact nextGeneration_first _ (by decide)

/-- A log over its first four blocks is formatted. -/
theorem exists_format_reused :
    ∃ fresh g t w, Log.ofRegion (Device.ofImage "disk" reused) ⟨0, 4⟩ = .ok fresh ∧
      (Log.format reused).Gives fresh (.ok g) t w := by
  have hcount := blockCount_reused
  obtain ⟨fresh, bound⟩ : ∃ fresh, Log.ofRegion (Device.ofImage "disk" reused) ⟨0, 4⟩ =
      .ok fresh := ⟨_, Log.ofRegion_eq_ok_iff.2 ⟨⟨by
        show 4 ≤ reused.blockCount
        omega, by decide, by decide⟩, rfl⟩⟩
  have hregion : fresh.region = ⟨0, 4⟩ := by
    rw [(Log.ofRegion_eq_ok_iff.1 bound).2]
  obtain ⟨g, t, w, formatted⟩ := Log.exists_format (Log.placed_of_ofRegion bound) (by
    rw [hregion, nextGeneration_reused]
    decide)
  exact ⟨fresh, g, t, w, bound, formatted⟩

end Image

end DurableGraph
