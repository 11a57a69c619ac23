import DurableGraph.Proofs.Log.Block

/-!
# Reading is complete and sound

A cursor hands out the entries of the block it stands in from its slot on, then those of every
later block, and it ends without an error exactly where all of them can be read.

    entries_eq          blocks that tell lists are handed out, none skipped and none twice
    tells_of_entries    a reading that ends well has seen blocks that tell lists

The cursor goes on from a count of the tail that it was given, so of three or more blocks one
of the last two must hold an entry (`Readable`).
-/

namespace DurableGraph

/-- The blocks from `first` on tell lists of entries, one list each. -/
def SegmentTells (device : Device) (image : Image) (generation : UInt64) (first : Nat)
    (lists : List (List Mutation)) : Prop :=
  ∀ (i : Nat) (h : i < lists.length), ∃ block,
    LogBlock.load device image (first + i) generation = .ok block ∧ block.Tells lists[i]

/-- Whoever stands in a block with two or more behind it has an entry left to read. -/
def Readable (lists : List (List Mutation)) : Prop :=
  ∀ i, i + 2 < lists.length → (lists.drop (i + 1)).flatten ≠ []

/-! ## Segments -/

theorem segmentTells_nil (device : Device) (image : Image) (generation : UInt64) (first : Nat) :
    SegmentTells device image generation first [] :=
  fun _ h => absurd h (Nat.not_lt_zero _)

theorem segmentTells_cons {device : Device} {image : Image} {generation : UInt64} {first : Nat}
    {here : List Mutation} {later : List (List Mutation)} :
    SegmentTells device image generation first (here :: later) ↔
      (∃ block, LogBlock.load device image first generation = .ok block ∧ block.Tells here) ∧
        SegmentTells device image generation (first + 1) later := by
  constructor
  · intro h
    refine ⟨h 0 (Nat.zero_lt_succ _), fun i hi => ?_⟩
    have := h (i + 1) (Nat.succ_lt_succ hi)
    rwa [show first + (i + 1) = first + 1 + i by omega] at this
  · rintro ⟨head, tail⟩ i hi
    cases i with
    | zero => exact head
    | succ i =>
      rw [show first + (i + 1) = first + 1 + i by omega]
      exact tail i (Nat.lt_of_succ_lt_succ hi)

theorem Readable.tail {here : List Mutation} {later : List (List Mutation)}
    (h : Readable (here :: later)) : Readable later := by
  intro i hi
  have := h (i + 1) (by rw [List.length_cons]; omega)
  rwa [List.drop_succ_cons] at this

/-- A tail with entries makes any segment readable. -/
theorem readable_concat {last : List Mutation} (older : List (List Mutation)) (ne : last ≠ []) :
    Readable (older ++ [last]) := by
  intro i hi h
  rw [List.length_append, List.length_singleton] at hi
  rw [List.drop_append_of_le_length (by omega), List.flatten_append, List.flatten_singleton,
    List.append_eq_nil_iff] at h
  exact ne h.2

/-- So does an empty tail behind a block with entries. -/
theorem readable_concat_nil {last : List Mutation} (older : List (List Mutation)) (ne : last ≠ []) :
    Readable (older ++ [last] ++ [[]]) := by
  intro i hi h
  rw [List.length_append, List.length_append, List.length_singleton, List.length_singleton] at hi
  rw [List.drop_append_of_le_length (by simp; omega),
    List.drop_append_of_le_length (by omega), List.flatten_append, List.flatten_append,
    List.flatten_singleton, List.append_eq_nil_iff, List.append_eq_nil_iff] at h
  exact ne h.1.2

namespace LogCursor

/-- The cursor moved to a slot of its block. -/
def atSlot (c : LogCursor) (slot : Nat) : LogCursor := { c with slot }

/-- The cursor moved to the start of the next block. -/
def crossed (c : LogCursor) (block : LogBlock) : LogCursor :=
  { c with block := c.block + 1, slot := 0, content := some block }

/-! ## Single steps -/

@[simp] theorem slot_atSlot (c : LogCursor) (slot : Nat) : (c.atSlot slot).slot = slot := rfl

theorem atSlot_self (c : LogCursor) : c.atSlot c.slot = c := rfl

/-- In front of a slot that the header counts, the cursor hands out its entry. -/
theorem next_of_slot (image : Image) {c : LogCursor} {block : LogBlock}
    (hc : c.content = some block) (h : c.slot < block.header.entryCount.toNat) :
    c.next image =
      match Mutation.decode block.buffer c.slot with
      | .ok m => (.ok m, c.atSlot (c.slot + 1))
      | .error e => (.error (.record e), c) := by
  rw [next]
  split
  · next hn =>
    rw [hc] at hn
    cases hn
  · next b hb =>
    rw [hc] at hb
    cases hb
    rw [if_pos h]
    rfl

/-- At the end of a block the cursor goes on as from the start of the next one. -/
theorem next_of_end {image : Image} {c : LogCursor} {block after : LogBlock}
    (hc : c.content = some block) (done : block.header.entryCount.toNat ≤ c.slot)
    (more : c.block + 1 < c.stop)
    (load : LogBlock.load c.device image (c.block + 1) c.generation = .ok after) :
    c.next image = (c.crossed after).next image := by
  conv => lhs; rw [next]
  split
  · next hn =>
    rw [hc] at hn
    cases hn
  · next b hb =>
    rw [hc] at hb
    cases hb
    rw [if_neg (by omega), if_neg (by omega), load]
    rfl

theorem next_of_end_error {image : Image} {c : LogCursor} {block : LogBlock} {e : LogError}
    (hc : c.content = some block) (done : block.header.entryCount.toNat ≤ c.slot)
    (more : c.block + 1 < c.stop)
    (load : LogBlock.load c.device image (c.block + 1) c.generation = .error e) :
    (c.next image).1 = .error e := by
  rw [next]
  split
  · next hn =>
    rw [hc] at hn
    cases hn
  · next b hb =>
    rw [hc] at hb
    cases hb
    rw [if_neg (by omega), if_neg (by omega), load]

/-- Behind the last block there is nothing to read. -/
theorem next_of_stop (image : Image) {c : LogCursor} {block : LogBlock}
    (hc : c.content = some block) (done : block.header.entryCount.toNat ≤ c.slot)
    (last : c.stop ≤ c.block + 1) :
    c.next image = (.error (.pastSegmentEnd (c.block + 1)), c) := by
  rw [next]
  split
  · next hn =>
    rw [hc] at hn
    cases hn
  · next b hb =>
    rw [hc] at hb
    cases hb
    rw [if_neg (by omega), if_pos last]

theorem entries_of_not_hasNext {image : Image} {c : LogCursor} (h : c.hasNext = false) :
    c.entries image = ([], none) := by
  rw [entries, h]
  rfl

theorem entries_of_next_ok {image : Image} {c d : LogCursor} {m : Mutation}
    (has : c.hasNext = true) (h : c.next image = (.ok m, d)) :
    c.entries image = (m :: (d.entries image).1, (d.entries image).2) := by
  rw [entries, if_pos has]
  split
  · next m' d' h' =>
    rw [h] at h'
    cases h'
    rfl
  · next e d' h' =>
    rw [h] at h'
    cases h'

theorem entries_of_next_error {image : Image} {c : LogCursor} {e : LogError}
    (has : c.hasNext = true) (h : (c.next image).1 = .error e) :
    c.entries image = ([], some e) := by
  rw [entries, if_pos has]
  split
  · next m' d' h' =>
    rw [h'] at h
    cases h
  · next e' d' h' =>
    rw [h'] at h
    cases h
    rfl

/-- Two cursors that go on alike read alike. -/
theorem entries_of_next_eq {image : Image} {c d : LogCursor} (hc : c.hasNext = true)
    (hd : d.hasNext = true) (h : c.next image = d.next image) :
    c.entries image = d.entries image := by
  rcases hn : d.next image with ⟨e | m, after⟩
  · rw [entries_of_next_error hd (by rw [hn]), entries_of_next_error hc (by rw [h, hn])]
  · rw [entries_of_next_ok hd hn, entries_of_next_ok hc (h.trans hn)]

theorem hasNext_of_slot {c : LogCursor} {block : LogBlock} (hc : c.content = some block)
    (h : c.slot < block.header.entryCount.toNat) : c.hasNext = true := by
  simp [hasNext, hc, h]

/-- Past the last slot of a block, the blocks behind it and the tail's count decide. -/
theorem hasNext_of_end {c : LogCursor} {block : LogBlock} (hc : c.content = some block)
    (done : block.header.entryCount.toNat ≤ c.slot) :
    c.hasNext = true ↔ c.block + 2 < c.stop ∨ (c.block + 1 < c.stop ∧ 0 < c.tailEntries) := by
  have : ¬ c.slot < block.header.entryCount.toNat := by omega
  simp only [hasNext, hc, this, decide_false, Bool.false_or, Bool.or_eq_true, Bool.and_eq_true,
    decide_eq_true_eq]
  omega

/-! ## Completeness -/

/-- A cursor stands in a block that tells `here`, and the blocks behind it tell `later`. -/
structure Faces (image : Image) (c : LogCursor) (here : List Mutation)
    (later : List (List Mutation)) : Prop where
  content : ∃ block, c.content = some block ∧ block.Tells here
  slot_le : c.slot ≤ here.length
  behind : SegmentTells c.device image c.generation (c.block + 1) later
  stop_eq : c.stop = c.block + 1 + later.length
  tail_eq : ∀ last, (here :: later).getLast? = some last → c.tailEntries = last.length

theorem Faces.atSlot {image : Image} {c : LogCursor} {here : List Mutation}
    {later : List (List Mutation)} (h : c.Faces image here later) {slot : Nat}
    (le : slot ≤ here.length) : (c.atSlot slot).Faces image here later :=
  { h with slot_le := le }

/-- An entry of its block is handed out. -/
theorem Faces.next_of_lt {image : Image} {c : LogCursor} {here : List Mutation}
    {later : List (List Mutation)} (h : c.Faces image here later) (hlt : c.slot < here.length) :
    c.hasNext = true ∧ c.next image = (.ok here[c.slot], c.atSlot (c.slot + 1)) := by
  obtain ⟨block, hc, tells⟩ := h.content
  have hcount : c.slot < block.header.entryCount.toNat := by rw [tells.count]; exact hlt
  have hnext := next_of_slot image hc hcount
  rw [tells.slot c.slot hlt] at hnext
  exact ⟨hasNext_of_slot hc hcount, hnext⟩

/-- The cursor at the start of the block behind, and that it goes on alike. -/
theorem Faces.cross {image : Image} {c : LogCursor} {here following : List Mutation}
    {later : List (List Mutation)} (h : c.Faces image here (following :: later))
    (done : c.slot = here.length) :
    ∃ d : LogCursor, d.Faces image following later ∧ d.slot = 0 ∧ d.stop = c.stop ∧
      c.next image = d.next image := by
  obtain ⟨block, hc, tells⟩ := h.content
  obtain ⟨⟨after, load, tells'⟩, rest⟩ := segmentTells_cons.1 h.behind
  have hstop := h.stop_eq
  rw [List.length_cons] at hstop
  refine ⟨c.crossed after, ?_, rfl, rfl, ?_⟩
  · exact {
      content := ⟨after, rfl, tells'⟩
      slot_le := Nat.zero_le _
      behind := rest
      stop_eq := by show c.stop = c.block + 1 + 1 + later.length; omega
      tail_eq := fun last hl => h.tail_eq last (by rwa [List.getLast?_cons_cons]) }
  · exact next_of_end hc (by rw [tells.count]; omega) (by omega) load

/-- At the end of a block, the cursor goes on exactly if an entry is left behind it. -/
theorem Faces.hasNext_iff {image : Image} {c : LogCursor} {here : List Mutation}
    {later : List (List Mutation)} (h : c.Faces image here later) (done : c.slot = here.length)
    (readable : Readable (here :: later)) : c.hasNext = true ↔ later.flatten ≠ [] := by
  obtain ⟨block, hc, tells⟩ := h.content
  have hstop := h.stop_eq
  rw [hasNext_of_end hc (by rw [tells.count]; omega)]
  match later, h, readable with
  | [], _, _ =>
    rw [List.length_nil] at hstop
    simp only [List.flatten_nil, ne_eq, not_true, iff_false]
    omega
  | [last], h, _ =>
    have hlast := h.tail_eq last rfl
    rw [List.length_singleton] at hstop
    simp only [List.flatten_cons, List.flatten_nil, List.append_nil]
    rw [hlast, ← List.length_pos_iff]
    omega
  | first :: second :: rest, _, readable =>
    have := readable 0 (by simp)
    rw [List.drop_succ_cons, List.drop_zero] at this
    simp only [List.length_cons] at hstop
    constructor
    · intro _
      exact this
    · intro _
      omega

/-- A cursor first hands out the rest of its block, then goes on from the end of it. -/
theorem Faces.entries_end {image : Image} {c : LogCursor} {here : List Mutation}
    {later : List (List Mutation)} (h : c.Faces image here later) :
    c.entries image = (here.drop c.slot ++ ((c.atSlot here.length).entries image).1,
      ((c.atSlot here.length).entries image).2) := by
  induction hk : here.length - c.slot generalizing c with
  | zero =>
    have done : here.length = c.slot := by have := h.slot_le; omega
    rw [List.drop_of_length_le (by omega), done, atSlot_self]
    rfl
  | succ k ih =>
    have hlt : c.slot < here.length := by omega
    obtain ⟨has, hnext⟩ := h.next_of_lt hlt
    rw [entries_of_next_ok has hnext, ih (h.atSlot hlt) (by rw [slot_atSlot]; omega),
      List.drop_eq_getElem_cons hlt]
    rfl

/-- At the end of a block the entries behind it are left, told by induction on their blocks. -/
theorem Faces.entries_of_end {image : Image} {c : LogCursor} {here : List Mutation}
    {later : List (List Mutation)} (h : c.Faces image here later)
    (readable : Readable (here :: later)) (done : c.slot = here.length) :
    c.entries image = (later.flatten, none) := by
  induction later generalizing c here with
  | nil =>
    apply entries_of_not_hasNext
    rw [Bool.eq_false_iff, ne_eq, h.hasNext_iff done readable]
    simp
  | cons following rest ih =>
    by_cases hn : (following :: rest).flatten = []
    · rw [hn]
      apply entries_of_not_hasNext
      rw [Bool.eq_false_iff, ne_eq, h.hasNext_iff done readable, hn]
      simp
    · obtain ⟨d, hd, hslot, -, hnext⟩ := h.cross done
      have hread : d.entries image = ((following :: rest).flatten, none) := by
        rw [hd.entries_end, ih (hd.atSlot (Nat.le_refl _)) readable.tail rfl, hslot,
          List.drop_zero, List.flatten_cons]
      rw [← hread]
      apply entries_of_next_eq ((h.hasNext_iff done readable).2 hn) _ hnext
      -- the cursor behind hands out an entry, so it has one
      cases hh : d.hasNext with
      | true => rfl
      | false =>
        rw [entries_of_not_hasNext hh, Prod.mk.injEq] at hread
        exact absurd hread.1.symm hn

/-- **Completeness.**  Everything from the cursor's slot on is handed out, block by block. -/
theorem entries_eq {image : Image} {c : LogCursor} {here : List Mutation}
    {later : List (List Mutation)} (h : c.Faces image here later)
    (readable : Readable (here :: later)) :
    c.entries image = (here.drop c.slot ++ later.flatten, none) := by
  rw [h.entries_end, (h.atSlot (Nat.le_refl _)).entries_of_end readable rfl]

/-! ## Soundness -/

/-- A cursor stands in a block that was read, and the tail of its segment has as many entries
as it counts there. -/
structure Stands (image : Image) (c : LogCursor) (block : LogBlock) : Prop where
  content : c.content = some block
  inside : c.block < c.stop
  loaded : LogBlock.load c.device image c.block c.generation = .ok block
  tail : ∃ tail, LogBlock.load c.device image (c.stop - 1) c.generation = .ok tail ∧
    tail.header.entryCount.toNat = c.tailEntries

/-- The slots of a block from `first` on tell a list of entries. -/
def SlotsTell (block : LogBlock) (first : Nat) (entries : List Mutation) : Prop :=
  first + entries.length = block.header.entryCount.toNat ∧
    ∀ (i : Nat) (h : i < entries.length),
      Mutation.decode block.buffer (first + i) = .ok entries[i]

theorem SlotsTell.cons {block : LogBlock} {first : Nat} {m : Mutation} {rest : List Mutation}
    (head : Mutation.decode block.buffer first = .ok m) (h : SlotsTell block (first + 1) rest) :
    SlotsTell block first (m :: rest) := by
  obtain ⟨count, slots⟩ := h
  refine ⟨by rw [List.length_cons]; omega, fun i hi => ?_⟩
  cases i with
  | zero => exact head
  | succ i =>
    rw [show first + (i + 1) = first + 1 + i by omega]
    exact slots i (Nat.lt_of_succ_lt_succ hi)

theorem SlotsTell.tells {block : LogBlock} {entries : List Mutation}
    (h : SlotsTell block 0 entries) : block.Tells entries where
  count := by have := h.1; omega
  slot := fun i hi => by have := h.2 i hi; rwa [Nat.zero_add] at this

/-- A reading that ends well has read all slots of the block, and ends well from its end on. -/
theorem Stands.split {image : Image} {c : LogCursor} {block : LogBlock} {es : List Mutation}
    (h : c.Stands image block) (few : c.slot ≤ block.header.entryCount.toNat)
    (read : c.entries image = (es, none)) :
    ∃ here rest, SlotsTell block c.slot here ∧ es = here ++ rest ∧
      (c.atSlot block.header.entryCount.toNat).entries image = (rest, none) := by
  induction hk : block.header.entryCount.toNat - c.slot generalizing c es with
  | zero =>
    have done : block.header.entryCount.toNat = c.slot := by omega
    refine ⟨[], es, ⟨done.symm, fun i hi => absurd hi (Nat.not_lt_zero _)⟩, rfl, ?_⟩
    rw [done, atSlot_self]
    exact read
  | succ k ih =>
    have hlt : c.slot < block.header.entryCount.toNat := by omega
    have has := hasNext_of_slot h.content hlt
    have hnext := next_of_slot image h.content hlt
    cases hm : Mutation.decode block.buffer c.slot with
    | error e =>
      rw [hm] at hnext
      rw [entries_of_next_error has (by rw [hnext])] at read
      cases read
    | ok m =>
      rw [hm] at hnext
      rcases hread : (c.atSlot (c.slot + 1)).entries image with ⟨es', failure⟩
      rw [entries_of_next_ok has hnext, hread, Prod.mk.injEq] at read
      obtain ⟨rfl, rfl⟩ := read
      have hstep : (c.atSlot (c.slot + 1)).Stands image block :=
        ⟨h.content, h.inside, h.loaded, h.tail⟩
      obtain ⟨here, rest, slots, rfl, hend⟩ := ih hstep hlt hread (by rw [slot_atSlot]; omega)
      exact ⟨m :: here, rest, slots.cons hm, rfl, hend⟩

/-- A cursor that reads well and has an entry left hands one out. -/
theorem ne_nil_of_hasNext {image : Image} {c : LogCursor} {es : List Mutation}
    (has : c.hasNext = true) (read : c.entries image = (es, none)) : es ≠ [] := by
  rintro rfl
  rcases hn : c.next image with ⟨e | m, d⟩
  · rw [entries_of_next_error has (by rw [hn])] at read
    cases read
  · rw [entries_of_next_ok has hn] at read
    cases read

/-- A block that can be read behind the cursor's: the cursor stands there next, and reads well
from there too. -/
theorem Stands.cross {image : Image} {c : LogCursor} {block after : LogBlock}
    {es : List Mutation} (h : c.Stands image block)
    (done : c.slot = block.header.entryCount.toNat) (has : c.hasNext = true)
    (more : c.block + 1 < c.stop)
    (load : LogBlock.load c.device image (c.block + 1) c.generation = .ok after)
    (read : c.entries image = (es, none)) :
    (c.crossed after).Stands image after ∧ (c.crossed after).entries image = (es, none) := by
  have hd : (c.crossed after).Stands image after := ⟨rfl, more, load, h.tail⟩
  have hnext := next_of_end h.content (Nat.le_of_eq done.symm) more load
  refine ⟨hd, ?_⟩
  cases hh : (c.crossed after).hasNext with
  | true => rw [← entries_of_next_eq has hh hnext, read]
  | false =>
    -- the next block is empty and so is all behind it, yet an entry was handed out
    exfalso
    have empty : after.header.entryCount.toNat = 0 := by
      apply Nat.eq_zero_of_not_pos
      intro pos
      rw [hasNext_of_slot hd.content pos] at hh
      cases hh
    have hnot : ¬ (c.block + 1 + 2 < c.stop ∨ (c.block + 1 + 1 < c.stop ∧ 0 < c.tailEntries)) := by
      rw [Bool.eq_false_iff, ne_eq, hasNext_of_end hd.content (Nat.le_of_eq empty)] at hh
      exact hh
    have hiff := (hasNext_of_end h.content (Nat.le_of_eq done.symm)).1 has
    obtain ⟨tail, htail, hcount⟩ := h.tail
    by_cases hstop : c.stop = c.block + 2
    · rw [hstop, show c.block + 2 - 1 = c.block + 1 by omega, load] at htail
      cases htail
      omega
    · have hlast : c.stop - 1 = c.block + 1 + 1 := by omega
      rw [hlast] at htail
      have hnext' := next_of_end hd.content (Nat.le_of_eq empty)
        (show c.block + 1 + 1 < c.stop by omega) htail
      have hpast := next_of_stop image (show ((c.crossed after).crossed tail).content = _ from rfl)
        (show tail.header.entryCount.toNat ≤ 0 by omega) (show c.stop ≤ c.block + 1 + 1 + 1 by omega)
      rw [entries_of_next_error has (by rw [hnext, hnext', hpast])] at read
      cases read

/-- The blocks behind a cursor that reads well from the end of its block. -/
theorem Stands.behind {image : Image} {c : LogCursor} {block : LogBlock} {es : List Mutation}
    (h : c.Stands image block) (done : c.slot = block.header.entryCount.toNat)
    (read : c.entries image = (es, none)) :
    ∃ later, SegmentTells c.device image c.generation (c.block + 1) later ∧
      c.stop = c.block + 1 + later.length ∧ es = later.flatten ∧
      ∀ i, i + 2 ≤ later.length → (later.drop i).flatten ≠ [] := by
  obtain ⟨n, hn⟩ : ∃ n, c.stop = c.block + 1 + n := ⟨c.stop - (c.block + 1), by
    have := h.inside
    omega⟩
  induction n generalizing c block es with
  | zero =>
    have hno : c.hasNext = false := by
      rw [Bool.eq_false_iff, ne_eq, hasNext_of_end h.content (Nat.le_of_eq done.symm)]
      omega
    rw [entries_of_not_hasNext hno] at read
    cases read
    exact ⟨[], segmentTells_nil _ _ _ _, hn, rfl, fun i hi => absurd hi (by simp)⟩
  | succ n ih =>
    cases has : c.hasNext with
    | false =>
      -- only the tail is left, and it is empty
      rw [entries_of_not_hasNext has] at read
      cases read
      rw [Bool.eq_false_iff, ne_eq, hasNext_of_end h.content (Nat.le_of_eq done.symm)] at has
      obtain ⟨tail, htail, hcount⟩ := h.tail
      rw [show c.stop - 1 = c.block + 1 by omega] at htail
      refine ⟨[[]], segmentTells_cons.2 ⟨⟨tail, htail, ?_⟩, segmentTells_nil _ _ _ _⟩, ?_, rfl, ?_⟩
      · exact ⟨by rw [List.length_nil]; omega, fun i hi => absurd hi (Nat.not_lt_zero _)⟩
      · rw [List.length_singleton]
        omega
      · intro i hi
        simp at hi
    | true =>
      have more : c.block + 1 < c.stop := by omega
      cases load : LogBlock.load c.device image (c.block + 1) c.generation with
      | error e =>
        have := next_of_end_error h.content (Nat.le_of_eq done.symm) more load
        rw [entries_of_next_error has this] at read
        cases read
      | ok after =>
        have hne := ne_nil_of_hasNext has read
        obtain ⟨hd, hread⟩ := h.cross done has more load read
        obtain ⟨here, rest, slots, rfl, hend⟩ := hd.split (Nat.zero_le _) hread
        have hdend : ((c.crossed after).atSlot after.header.entryCount.toNat).Stands image after :=
          ⟨hd.content, hd.inside, hd.loaded, hd.tail⟩
        obtain ⟨later, tells, hstop, rfl, readable⟩ := ih hdend rfl hend
          (show c.stop = c.block + 1 + 1 + n by omega)
        refine ⟨here :: later, segmentTells_cons.2 ⟨⟨after, load, slots.tells⟩, tells⟩, ?_, rfl, ?_⟩
        · have : c.stop = c.block + 1 + 1 + later.length := hstop
          rw [List.length_cons]
          omega
        · intro i hi
          cases i with
          | zero => exact hne
          | succ i => exact readable i (by rw [List.length_cons] at hi; omega)

/-- **Soundness.**  A reading that ends well from the start of a block has seen that this block
and every one behind it tell lists of entries, and has handed out all of them. -/
theorem Stands.tells {image : Image} {c : LogCursor} {block : LogBlock} {es : List Mutation}
    (h : c.Stands image block) (start : c.slot = 0) (read : c.entries image = (es, none)) :
    ∃ lists, SegmentTells c.device image c.generation c.block lists ∧
      c.stop = c.block + lists.length ∧ es = lists.flatten ∧ Readable lists := by
  obtain ⟨here, rest, slots, rfl, hend⟩ := h.split (by rw [start]; exact Nat.zero_le _) read
  have hdend : (c.atSlot block.header.entryCount.toNat).Stands image block :=
    ⟨h.content, h.inside, h.loaded, h.tail⟩
  obtain ⟨later, tells, hstop, rfl, readable⟩ := hdend.behind rfl hend
  rw [start] at slots
  refine ⟨here :: later, segmentTells_cons.2 ⟨⟨block, h.loaded, slots.tells⟩, tells⟩, ?_, rfl, ?_⟩
  · have : c.stop = c.block + 1 + later.length := hstop
    rw [List.length_cons]
    omega
  · intro i hi
    rw [List.length_cons] at hi
    rw [List.drop_succ_cons]
    exact readable i (by omega)

end LogCursor

end DurableGraph
