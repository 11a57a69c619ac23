import DurableGraph.Proofs.Log.Steps

/-!
# Capacity

A log counts the entries that it still has room for from its superblock and its tail alone.  What
was checked when it was formatted or loaded is enough for the count to be right, whatever stands
in the blocks that were not looked at.

    append where capacity > 0       succeeds, and capacity is one less
    append where capacity = 0       noSpace at the end of the region, and nothing changes
-/

namespace DurableGraph

namespace Log

/-- What a log remembers is what was checked when it was formatted or loaded. -/
structure Started (log : Log) (image : Image) : Prop where
  placed : log.Placed image
  fits : log.superblock.segmentEnd ≤ log.region.stop
  tail : ∃ tail, log.tail = some tail ∧ tail.buffer.number < log.region.stop ∧
    tail.header.entryCount.toNat ≤ entriesPerBlock

variable {log t : Log} {image : Image} {older : List (List Mutation)} {last : List Mutation}
  {w : List Buffer}

/-! ## Starting -/

theorem Tells.started (h : log.Tells image older last) : log.Started image where
  placed := h.placed
  fits := by
    rw [h.segmentEnd_eq]
    exact h.fits
  tail := by
    obtain ⟨tail, htail, tells, number, -⟩ := h.exists_tail
    refine ⟨tail, htail, ?_, ?_⟩
    · rw [number]
      exact h.fits
    · rw [tells.count]
      exact h.length_last_le

theorem started_of_load (placed : log.Placed image) (h : (load image).Gives log (.ok ()) t w) :
    t.Started (image.storeAll w) ∧ t.region = log.region := by
  obtain ⟨content, tail, -, -, hstart, hsize, hend, htail, ht, rfl⟩ := load_inv h
  obtain ⟨-, number, -, hseal, -⟩ := LogBlock.load_eq_ok_iff.1 htail
  have hregion : t.region = log.region := by rw [ht]
  refine ⟨?_, hregion⟩
  exact {
    placed := placed.congr (by rw [ht]) hregion rfl
    fits := by rw [hregion]; exact hend
    tail := by
      refine ⟨tail, by rw [ht], ?_, hseal.entryCount_le⟩
      have : t.superblock.segmentEnd =
        t.superblock.segmentStart.toNat + t.superblock.segmentSize.toNat := rfl
      rw [number, hregion]
      omega }

theorem started_of_format (placed : log.Placed image) {g : UInt64}
    (h : (format image).Gives log (.ok g) t w) :
    t.Started (image.storeAll w) ∧ t.region = log.region := by
  obtain ⟨-, hregion, tells, -⟩ := tells_format placed h
  exact ⟨tells.started, hregion⟩

/-- A format or a rotation that succeeds leaves an empty log, whatever was in memory. -/
theorem tells_of_renewed (placed : log.Placed image) {g : UInt64}
    (h : (format image).Gives log (.ok g) t w ∨ rotate.Gives log (.ok g) t w) :
    t.region = log.region ∧ t.Tells (image.storeAll w) [] [] := by
  rcases h with h | h
  · obtain ⟨-, hregion, tells, -⟩ := tells_format placed h
    exact ⟨hregion, tells⟩
  · by_cases spent : log.superblock.generation.toNat + 1 = UInt32.size
    · cases (h.unique (gives_rotate_last spent)).1
    · obtain ⟨-, rfl, rfl⟩ := h.unique (gives_rotate placed spent)
      exact ⟨rfl, tells_rotated placed⟩

/-! ## Appending -/

theorem Started.push (h : log.Started image) {tail : LogBlock} (htail : log.tail = some tail)
    (room : tail.header.isFull = false) (m : Mutation) :
    (log.withTail (tail.push m)).Started (image.storeAll [(tail.push m).buffer]) ∧
      (log.withTail (tail.push m)).capacity + 1 = log.capacity := by
  obtain ⟨tail', htail', number, -⟩ := h.tail
  rw [htail] at htail'
  cases htail'
  have hlt : tail.header.entryCount.toNat < 169 := LogBlock.entryCount_lt room
  have hcount := LogBlock.entryCount_push room m
  have hinside := h.placed.inside
  have fits : image.Fits [(tail.push m).buffer] := by
    refine Image.fits_cons.2 ⟨?_, Image.fits_nil image⟩
    rw [LogBlock.number_push]
    omega
  constructor
  · exact {
      placed := h.placed.congr rfl rfl (Image.blockCount_storeAll fits)
      fits := h.fits
      tail := by
        refine ⟨tail.push m, rfl, ?_, ?_⟩
        · rw [LogBlock.number_push]
          exact number
        · rw [hcount]
          exact hlt }
  · unfold capacity
    rw [htail]
    show (log.region.stop - log.superblock.segmentEnd) * 169 +
      (169 - (tail.push m).header.entryCount.toNat) + 1 = _ * 169 + (169 - _)
    omega

theorem Started.extended (h : log.Started image)
    (room : log.superblock.segmentEnd < log.region.stop) :
    log.extended.Started (image.storeAll
      [log.nextTail.buffer, log.extended.superblock.buffer log.region.start]) ∧
      log.extended.capacity = (log.region.stop - log.superblock.segmentEnd) * entriesPerBlock := by
  have fits := h.placed.fits_extended room
  have hend : log.extended.superblock.segmentEnd = log.superblock.segmentEnd + 1 := by
    show log.superblock.segmentStart.toNat + log.extended.superblock.segmentSize.toNat = _
    rw [h.placed.toNat_segmentSize_extended room]
    rfl
  constructor
  · exact {
      placed := h.placed.congr rfl rfl (Image.blockCount_storeAll fits)
      fits := by
        rw [hend]
        exact room
      tail := ⟨log.nextTail, rfl, room, Nat.zero_le _⟩ }
  · show (log.region.stop - log.extended.superblock.segmentEnd) * 169 + (169 - 0) = _ * 169
    rw [hend]
    omega

/-- The first entry in it. -/
theorem Started.extended_push (h : log.Started image)
    (room : log.superblock.segmentEnd < log.region.stop) (m : Mutation) :
    (log.extended.withTail (log.nextTail.push m)).Started (image.storeAll
      [log.nextTail.buffer, log.extended.superblock.buffer log.region.start,
        (log.nextTail.push m).buffer]) ∧
      (log.extended.withTail (log.nextTail.push m)).capacity + 1 =
        (log.region.stop - log.superblock.segmentEnd) * entriesPerBlock := by
  obtain ⟨extended, hextended⟩ := h.extended room
  obtain ⟨started, capacity⟩ := extended.push rfl (LogBlock.isFull_empty _ _) m
  rw [← Image.storeAll_append] at started
  exact ⟨started, capacity.trans hextended⟩

/-- Behind a full tail only blocks are left. -/
theorem capacity_of_full {tail : LogBlock} (htail : log.tail = some tail)
    (full : tail.header.isFull = true) :
    log.capacity = (log.region.stop - log.superblock.segmentEnd) * entriesPerBlock := by
  have hfull : entriesPerBlock ≤ tail.header.entryCount.toNat := of_decide_eq_true full
  unfold capacity
  rw [htail]
  show _ * _ + (entriesPerBlock - tail.header.entryCount.toNat) = _
  rw [Nat.sub_eq_zero_of_le hfull, Nat.add_zero]

theorem Tells.capacity_of_full (h : log.Tells image older last)
    (full : last.length = entriesPerBlock) :
    log.capacity = (log.region.stop - log.superblock.segmentEnd) * entriesPerBlock := by
  rw [h.capacity_eq, h.segmentEnd_eq, full, Nat.sub_self, Nat.add_zero]

/-- **One append**, told by the count. -/
theorem Started.append_cases (h : log.Started image) (m : Mutation) :
    (0 < log.capacity ∧ ∃ t w, (append m).Gives log (.ok ()) t w ∧ t.region = log.region ∧
      t.Started (image.storeAll w) ∧ t.capacity + 1 = log.capacity) ∨
    (log.capacity = 0 ∧ (append m).Gives log (.error (.noSpace log.region.stop)) log []) := by
  obtain ⟨tail, htail, number, few⟩ := h.tail
  have hfits := h.fits
  have hinside := h.placed.inside
  cases full : tail.header.isFull with
  | false =>
    obtain ⟨started, capacity⟩ := h.push htail full m
    exact .inl ⟨by omega, _, _, gives_append h.placed htail full (by omega) m, rfl, started,
      capacity⟩
  | true =>
    have hcapacity := capacity_of_full htail full
    by_cases room : log.superblock.segmentEnd < log.region.stop
    · obtain ⟨started, capacity⟩ := h.extended_push room m
      rw [← hcapacity] at capacity
      exact .inl ⟨by omega, _, _, gives_append_full h.placed htail full room m, rfl, started,
        capacity⟩
    · have spent : log.superblock.segmentEnd = log.region.stop := by omega
      have gives := gives_append_noSpace htail full (Nat.le_of_not_lt room) m
      rw [spent] at gives hcapacity
      rw [Nat.sub_self, Nat.zero_mul] at hcapacity
      exact .inr ⟨hcapacity, gives⟩

end Log

end DurableGraph
