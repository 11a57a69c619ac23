import DurableGraph.Proofs.Checked.Log
import DurableGraph.Proofs.Log.Reading

/-!
# Reading the log in checked arithmetic

A cursor that is bounded stands in a block of its device and in front of a slot of that block, or
behind the last one that its header counts.  It stays so from entry to entry.

    a segment on the device    the cursor that begins is bounded
    c.Bounded                  hasNext, next and entries go through, with c.left entries at most
-/

namespace DurableGraph

open Checked

namespace Log

def cursorChecked (image : Image) (log : Log) : Checked (Except LogError LogCursor) :=
  match log.tail with
  | none => pure (.error .notStarted)
  | some tail => do
    let stop ← log.superblock.segmentEndChecked
    let first ← LogBlock.loadChecked log.device image log.segment.start log.generation
    pure (first.map fun first => ⟨log.device, log.generation, stop,
      tail.header.entryCount.toNat, log.segment.start, 0, some first⟩)

end Log

namespace LogCursor

def hasNextChecked (c : LogCursor) : Checked Bool :=
  match c.content with
  | none => pure false
  | some block =>
    if c.slot < block.header.entryCount.toNat then pure true
    else do
      let tail ← sub c.stop 1
      let next ← add64 c.block 1
      pure (next < tail || (c.block < tail && 0 < c.tailEntries))

def nextChecked (image : Image) (c : LogCursor) : Checked (Except LogError Mutation × LogCursor) :=
  match c.content with
  | none => pure (.error (.pastSegmentEnd c.block), c)
  | some block =>
    if c.slot < block.header.entryCount.toNat then do
      let _ ← slotStart c.slot
      match Mutation.decode block.buffer c.slot with
      | .ok m =>
        let _ ← narrow32 (c.slot + 1)
        pure (.ok m, { c with slot := c.slot + 1 })
      | .error e => pure (.error (.record e), c)
    else do
      let _ ← add64 c.block 1
      if c.stop ≤ c.block + 1 then pure (.error (.pastSegmentEnd (c.block + 1)), c)
      else
        match ← LogBlock.loadChecked c.device image (c.block + 1) c.generation with
        | .ok block =>
          nextChecked image { c with block := c.block + 1, slot := 0, content := some block }
        | .error e => pure (.error e, { c with content := none })
termination_by c.stop - c.block

/-- Where nothing goes wrong, the next entry is the next entry. -/
theorem next_of_checked {image : Image} {c : LogCursor} {r : Except LogError Mutation × LogCursor}
    (h : c.nextChecked image = .ok r) : c.next image = r := by
  fun_induction LogCursor.next image c generalizing r with
  | case1 c hc =>
    rw [nextChecked, hc] at h
    cases h
    rfl
  | case2 c block hc hlt m hm =>
    rw [nextChecked, hc] at h
    simp only [hlt, if_true] at h
    obtain ⟨_, -, h⟩ := bind_eq_ok_iff.1 h
    rw [hm] at h
    obtain ⟨_, -, h⟩ := bind_eq_ok_iff.1 h
    cases h
    rw [hc]
  | case3 c block hc hlt e he =>
    rw [nextChecked, hc] at h
    simp only [hlt, if_true] at h
    obtain ⟨_, -, h⟩ := bind_eq_ok_iff.1 h
    rw [he] at h
    cases h
    rfl
  | case4 c block hc hge last =>
    rw [nextChecked, hc] at h
    simp only [hge, if_false] at h
    obtain ⟨_, -, h⟩ := bind_eq_ok_iff.1 h
    rw [if_pos last] at h
    cases h
    rfl
  | case5 c block hc hge more block' hload ih =>
    rw [nextChecked, hc] at h
    simp only [hge, if_false] at h
    obtain ⟨_, -, h⟩ := bind_eq_ok_iff.1 h
    rw [if_neg more] at h
    obtain ⟨_, loaded, h⟩ := bind_eq_ok_iff.1 h
    rw [LogBlock.load_of_checked loaded, hload] at h
    exact ih h
  | case6 c block hc hge more e hload =>
    rw [nextChecked, hc] at h
    simp only [hge, if_false] at h
    obtain ⟨_, -, h⟩ := bind_eq_ok_iff.1 h
    rw [if_neg more] at h
    obtain ⟨_, loaded, h⟩ := bind_eq_ok_iff.1 h
    rw [LogBlock.load_of_checked loaded, hload] at h
    cases h
    rfl

def entriesChecked (image : Image) (c : LogCursor) : Checked (List Mutation × Option LogError) := do
  if ← c.hasNextChecked then
    match _h : c.nextChecked image with
    | .error fault => .error fault
    | .ok (.ok m, d) =>
      let (rest, failure) ← entriesChecked image d
      pure (m :: rest, failure)
    | .ok (.error e, _) => pure ([], some e)
  else pure ([], none)
termination_by c.remaining
decreasing_by exact next_lt (next_of_checked _h)

/-! ## Bounds -/

/-- A cursor stands in a block of its segment, on the device, and in front of a slot of that block
or behind the last one. -/
structure Bounded (c : LogCursor) : Prop where
  all : c.device.Addressable
  inside : c.stop ≤ c.device.blockCount
  block_lt : c.block < c.stop
  slot : ∀ block, c.content = some block →
    c.slot ≤ block.header.entryCount.toNat ∧ block.header.entryCount.toNat ≤ entriesPerBlock

/-- The entries that can be left at most. -/
def left (c : LogCursor) : Nat := c.unread + entriesPerBlock * (c.stop - (c.block + 1))

variable {image : Image} {c : LogCursor}

/-- A segment holds no more entries than a device of its blocks. -/
theorem Bounded.left_le (h : c.Bounded) : c.left ≤ entriesPerBlock * c.device.blockCount := by
  have hlt := h.block_lt
  have hinside := h.inside
  have few : c.unread ≤ entriesPerBlock := by
    unfold unread
    cases content : c.content with
    | none => exact Nat.zero_le _
    | some block => exact Nat.sub_le_of_le_add (Nat.le_add_right_of_le (h.slot block content).2)
  unfold left
  unfold entriesPerBlock at *
  omega

/-- So they can be counted. -/
theorem Bounded.lt_of_le_left (h : c.Bounded) {count : Nat} (few : count ≤ c.left) :
    count < UInt64.size := by
  have hleft := h.left_le
  have hall := h.all.blockCount_lt
  show count < 18446744073709551616
  unfold entriesPerBlock at hleft
  omega

theorem Bounded.add64_block (h : c.Bounded) : add64 c.block 1 = .ok (c.block + 1) :=
  h.all.add64_block (Nat.lt_of_lt_of_le h.block_lt h.inside)

theorem Bounded.hasNextChecked_eq_ok (h : c.Bounded) : c.hasNextChecked = .ok c.hasNext := by
  unfold hasNextChecked hasNext
  cases c.content with
  | none => rfl
  | some block =>
    simp only
    by_cases hlt : c.slot < block.header.entryCount.toNat
    · simp [hlt, pure, Except.pure]
    · have hpos : 1 ≤ c.stop := Nat.one_le_of_lt h.block_lt
      rw [if_neg hlt, sub_eq_ok hpos, ok_bind, h.add64_block, ok_bind]
      simp [hlt, pure, Except.pure]

/-- The start of the next block. -/
theorem Bounded.crossed (h : c.Bounded) {block : LogBlock} (more : c.block + 1 < c.stop)
    (load : LogBlock.load c.device image (c.block + 1) c.generation = .ok block) :
    (c.crossed block).Bounded where
  all := h.all
  inside := h.inside
  block_lt := more
  slot := by
    intro b hb
    cases hb
    obtain ⟨-, -, -, hseal, -⟩ := LogBlock.load_eq_ok_iff.1 load
    exact ⟨Nat.zero_le _, hseal.entryCount_le⟩

/-- **The next entry** is found without a fault.  A cursor that handed one out is bounded, and has
less left; a failure is not that of a block that the device does not have. -/
theorem Bounded.next (h : c.Bounded) (image : Image) :
    c.nextChecked image = .ok (c.next image) ∧
      (∀ m d, c.next image = (.ok m, d) → d.Bounded ∧ d.left < c.left) ∧
      (∀ e, (c.next image).1 = .error e → DeviceErrors.beyond e = false) := by
  fun_induction LogCursor.next image c with
  | case1 c hc =>
    refine ⟨?_, (fun _ _ hd => by cases hd), fun e he => ?_⟩
    · rw [nextChecked, hc]
      rfl
    · cases he
      rfl
  | case2 c block hc hlt m hm =>
    obtain ⟨-, few⟩ := h.slot block hc
    have small : c.slot + 1 < UInt32.size := by
      have few' : block.header.entryCount.toNat ≤ 169 := few
      show c.slot + 1 < 4294967296
      omega
    refine ⟨?_, fun m' d hd => ?_, fun _ he => by cases he⟩
    · rw [nextChecked, hc]
      simp only [hlt, if_true]
      rw [slotStart_eq_ok (by omega), ok_bind, hm]
      simp only
      rw [narrow32_eq_ok small]
      rfl
    · cases hd
      refine ⟨⟨h.all, h.inside, h.block_lt, fun b hb => ?_⟩, ?_⟩
      · rw [hc] at hb
        cases hb
        exact ⟨hlt, few⟩
      · unfold left unread
        simp only [hc]
        omega
  | case3 c block hc hlt e he =>
    obtain ⟨-, few⟩ := h.slot block hc
    refine ⟨?_, (fun _ _ hd => by cases hd), fun e' he' => ?_⟩
    · rw [nextChecked, hc]
      simp only [hlt, if_true]
      rw [slotStart_eq_ok (by omega), ok_bind, he]
      rfl
    · cases he'
      rfl
  | case4 c block hc hge last =>
    refine ⟨?_, (fun _ _ hd => by cases hd), fun e' he' => ?_⟩
    · rw [nextChecked, hc]
      simp only [hge, if_false]
      rw [h.add64_block, ok_bind, if_pos last]
      rfl
    · cases he'
      rfl
  | case5 c block hc hge more block' hload ih =>
    have crossed := h.crossed (Nat.lt_of_not_le more) hload
    obtain ⟨checked, bounded, beyond⟩ := ih crossed
    have hlt : c.block + 1 < c.device.blockCount :=
      Nat.lt_of_lt_of_le (Nat.lt_of_not_le more) h.inside
    refine ⟨?_, fun m d hd => ?_, beyond⟩
    · rw [nextChecked, hc]
      simp only [hge, if_false]
      rw [h.add64_block, ok_bind, if_neg more, LogBlock.loadChecked_eq_ok h.all hlt, ok_bind, hload]
      exact checked
    · obtain ⟨bounded, fewer⟩ := bounded m d hd
      refine ⟨bounded, Nat.lt_of_lt_of_le fewer ?_⟩
      obtain ⟨-, few⟩ := crossed.slot block' rfl
      unfold left unread entriesPerBlock at *
      simp only at few ⊢
      omega
  | case6 c block hc hge more e hload =>
    have hlt : c.block + 1 < c.device.blockCount :=
      Nat.lt_of_lt_of_le (Nat.lt_of_not_le more) h.inside
    refine ⟨?_, (fun _ _ hd => by cases hd), fun e' he' => ?_⟩
    · rw [nextChecked, hc]
      simp only [hge, if_false]
      rw [h.add64_block, ok_bind, if_neg more, LogBlock.loadChecked_eq_ok h.all hlt, ok_bind, hload]
      rfl
    · cases he'
      exact LogBlock.beyond_load hlt hload

/-- **All entries**, by induction on what is left. -/
theorem Bounded.entries (h : c.Bounded) (image : Image) :
    c.entriesChecked image = .ok (c.entries image) ∧ (c.entries image).1.length ≤ c.left ∧
      (∀ e, (c.entries image).2 = some e → DeviceErrors.beyond e = false) := by
  fun_induction LogCursor.entries image c with
  | case1 c has m d hd rest failure hrest ih =>
    obtain ⟨checked, bounded, -⟩ := h.next image
    obtain ⟨bounded, fewer⟩ := bounded m d hd
    obtain ⟨entries, few, beyond⟩ := ih bounded
    rw [hd] at checked
    rw [hrest] at entries few beyond
    refine ⟨?_, ?_, beyond⟩
    · rw [entriesChecked, h.hasNextChecked_eq_ok, ok_bind, if_pos has]
      split
      · next fault h' =>
        rw [checked] at h'
        cases h'
      · next m' d' h' =>
        rw [checked] at h'
        cases h'
        rw [entries]
        rfl
      · next e d' h' =>
        rw [checked] at h'
        cases h'
    · rw [List.length_cons]
      exact Nat.lt_of_le_of_lt few fewer
  | case2 c has e d hd =>
    obtain ⟨checked, -, beyond⟩ := h.next image
    rw [hd] at checked beyond
    refine ⟨?_, Nat.zero_le _, fun e' he => ?_⟩
    · rw [entriesChecked, h.hasNextChecked_eq_ok, ok_bind, if_pos has]
      split
      · next fault h' =>
        rw [checked] at h'
        cases h'
      · next m' d' h' =>
        rw [checked] at h'
        cases h'
      · next e' d' h' =>
        rw [checked] at h'
        cases h'
        rfl
    · cases he
      exact beyond e rfl
  | case3 c none =>
    refine ⟨?_, Nat.zero_le _, nofun⟩
    rw [entriesChecked, h.hasNextChecked_eq_ok, ok_bind, if_neg none]
    rfl

end LogCursor

/-- A log that was loaded begins to be read in front of the first block of its segment. -/
theorem Log.cursorChecked_eq_ok {log : Log} (all : log.device.Addressable)
    (inside : log.superblock.segmentEnd ≤ log.device.blockCount)
    (wide : log.superblock.segmentSize.toNat ≠ 0) (image : Image) :
    log.cursorChecked image = .ok (log.cursor image) ∧
      (∀ c, log.cursor image = .ok c → c.Bounded) ∧
      (∀ e, log.cursor image = .error e → DeviceErrors.beyond e = false) := by
  have hend : log.superblock.segmentEnd =
    log.superblock.segmentStart.toNat + log.superblock.segmentSize.toNat := rfl
  have hstart : log.segment.start = log.superblock.segmentStart.toNat := rfl
  have hlt : log.segment.start < log.device.blockCount := by omega
  unfold cursorChecked cursor
  cases htail : log.tail with
  | none =>
    refine ⟨rfl, nofun, fun e he => ?_⟩
    cases he
    rfl
  | some tail =>
    simp only
    rw [LogSuperblock.segmentEndChecked_eq_ok, ok_bind, LogBlock.loadChecked_eq_ok all hlt, ok_bind]
    cases hfirst : LogBlock.load log.device image log.segment.start log.generation with
    | error e =>
      refine ⟨rfl, nofun, fun e' he => ?_⟩
      cases he
      exact LogBlock.beyond_load hlt hfirst
    | ok first =>
      refine ⟨rfl, fun c hc => ?_, nofun⟩
      cases hc
      obtain ⟨-, -, -, hseal, -⟩ := LogBlock.load_eq_ok_iff.1 hfirst
      refine ⟨all, inside, ?_, fun block hblock => ?_⟩
      · show log.segment.start < log.superblock.segmentEnd
        omega
      · cases hblock
        exact ⟨Nat.zero_le _, hseal.entryCount_le⟩

/-- **What a log tells can be counted**: there are no more entries than the device has room for. -/
theorem Log.Tells.length_entries_le {log : Log} {image : Image} {older : List (List Mutation)}
    {last : List Mutation} (h : log.Tells image older last) (all : log.device.Addressable) :
    (older.flatten ++ last).length ≤ entriesPerBlock * log.device.blockCount := by
  have inside : log.superblock.segmentEnd ≤ log.device.blockCount := by
    rw [h.placed.device_eq]
    exact Nat.le_trans h.started.fits h.placed.inside
  have wide : log.superblock.segmentSize.toNat ≠ 0 := by
    rw [h.size_eq]
    exact Nat.succ_ne_zero _
  obtain ⟨-, bounded, -⟩ := cursorChecked_eq_ok all inside wide image
  obtain ⟨c, cursor, read⟩ := h.read
  obtain ⟨-, few, -⟩ := (bounded c cursor).entries image
  rw [read] at few
  obtain ⟨tail, htail, -⟩ := h.tail
  obtain ⟨first, -, rfl⟩ := cursor_inv htail cursor
  exact Nat.le_trans few (bounded _ cursor).left_le

end DurableGraph
