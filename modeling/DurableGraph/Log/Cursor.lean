import DurableGraph.Log.Basic

/-!
# Reading the log

A cursor hands out the entries of the active segment in the order in which they were
appended.  Blocks after the first are read when they are reached.

    c.next image = (.ok m, d)  →  d stands further on than c        (next_lt)
    c.entries image            =  everything up to the end or the first error
-/

namespace DurableGraph

structure LogCursor where
  device : Device
  generation : UInt64
  /-- One past the last block of the segment. -/
  stop : Nat
  /-- The entries of the tail, which the log knows without reading it. -/
  tailEntries : Nat
  /-- The block that is being read. -/
  block : Nat
  /-- The slot that comes next in it. -/
  slot : Nat
  /-- The content of the block; none after a failure. -/
  content : Option LogBlock

/-- A cursor at the start of the log. -/
def Log.cursor (image : Image) (log : Log) : Except LogError LogCursor :=
  match log.tail with
  | none => .error .notStarted
  | some tail => do
    let first ← LogBlock.load log.device image log.segment.start log.generation
    .ok ⟨log.device, log.generation, log.segment.stop, tail.header.entryCount.toNat,
      log.segment.start, 0, some first⟩

namespace LogCursor

/-! ## Algorithm -/

/-- The entries of the block that were not handed out. -/
def unread (c : LogCursor) : Nat :=
  match c.content with
  | none => 0
  | some block => block.header.entryCount.toNat - c.slot

/-- Whether an entry is left, here or in a later block.  Only the tail can be short, as blocks
are added once the last one is full; a tail that was just added is empty. -/
def hasNext (c : LogCursor) : Bool :=
  match c.content with
  | none => false
  | some block =>
    c.slot < block.header.entryCount.toNat || c.block + 1 < c.stop - 1 ||
      (c.block < c.stop - 1 && 0 < c.tailEntries)

/-- The next entry, and the cursor behind it. -/
def next (image : Image) (c : LogCursor) : Except LogError Mutation × LogCursor :=
  match c.content with
  | none => (.error (.pastSegmentEnd c.block), c)
  | some block =>
    if c.slot < block.header.entryCount.toNat then
      match Mutation.decode block.buffer c.slot with
      | .ok m => (.ok m, { c with slot := c.slot + 1 })
      | .error e => (.error (.record e), c)
    else if c.stop ≤ c.block + 1 then (.error (.pastSegmentEnd (c.block + 1)), c)
    else
      match LogBlock.load c.device image (c.block + 1) c.generation with
      | .ok block => next image { c with block := c.block + 1, slot := 0, content := some block }
      | .error e => (.error e, { c with content := none })
termination_by c.stop - c.block

/-- The next entry if one is left; the first failure is also the last. -/
def pull (image : Image) (c : LogCursor) : Option (Except LogError Mutation) × LogCursor :=
  if c.hasNext then
    match c.next image with
    | (.ok m, c) => (some (.ok m), c)
    | (.error e, c) => (some (.error e), { c with content := none })
  else (none, c)

/-- How far a cursor is from the end. -/
def remaining (c : LogCursor) : Nat × Nat := (c.stop - c.block, c.unread)

/-! ## Lemmas -/

/-- An entry that is handed out leaves less to read. -/
theorem next_lt {image : Image} {c d : LogCursor} {m : Mutation} (h : c.next image = (.ok m, d)) :
    Prod.Lex (· < ·) (· < ·) d.remaining c.remaining := by
  fun_induction next image c with
  | case1 => simp at h
  | case2 c block hc hlt m' hm =>
    simp only [Prod.mk.injEq, Except.ok.injEq] at h
    obtain ⟨-, rfl⟩ := h
    apply Prod.Lex.right
    simp only [unread, hc]
    omega
  | case3 => simp at h
  | case4 => simp at h
  | case5 c block hc hge hlt block' hload ih =>
    have ih := ih h
    have key : (c.stop - (c.block + 1)) < c.stop - c.block := by omega
    rcases Prod.lex_def.mp ih with ih | ⟨ih, -⟩
    · exact Prod.Lex.left _ _ (Nat.lt_trans ih key)
    · exact Prod.Lex.left _ _ (Nat.lt_of_le_of_lt (Nat.le_of_eq ih) key)
  | case6 => simp at h

/-! ## All entries -/

/-- The entries from a cursor on, up to the end or to a failure. -/
def entries (image : Image) (c : LogCursor) : List Mutation × Option LogError :=
  if c.hasNext then
    match _h : c.next image with
    | (.ok m, d) =>
      let (rest, failure) := entries image d
      (m :: rest, failure)
    | (.error e, _) => ([], some e)
  else ([], none)
termination_by c.remaining
decreasing_by exact next_lt _h

end LogCursor

end DurableGraph
