import DurableGraph.Proofs.Log.Interruption

/-!
# The protocol of a cursor

Whatever is asked of a cursor, and in whatever order, it answers as the list of the entries that
are left would.  It looks ahead at the count of the tail and moves from block to block, which
cannot be seen from its answers.

    hasNext    whether the list has an entry, which no block is loaded for
    next       its first entry, or pastSegmentEnd at the end of the segment
    pull       its first entry, or none
-/

namespace DurableGraph

/-- What is asked of a cursor. -/
inductive CursorCall where
  | hasNext
  | next
  | pull

inductive CursorAnswer where
  | hasNext (left : Bool)
  | next (entry : Except LogError Mutation)
  | pull (entry : Option (Except LogError Mutation))

/-- The entry that an answer hands out. -/
def CursorAnswer.handed : CursorAnswer → Option Mutation
  | .next (.ok m) => some m
  | .pull (some (.ok m)) => some m
  | _ => none

namespace CursorCall

/-- Taking the first entry of a list, in a segment that ends before `stop`. -/
def first (stop : Nat) : List Mutation → Except LogError Mutation
  | [] => .error (.pastSegmentEnd stop)
  | m :: _ => .ok m

/-- A call on the list of the entries that are left. -/
def onList (stop : Nat) (rest : List Mutation) : CursorCall → CursorAnswer × List Mutation
  | .hasNext => (.hasNext (!rest.isEmpty), rest)
  | .next => (.next (first stop rest), rest.tail)
  | .pull => (.pull (rest.head?.map .ok), rest.tail)

/-- What is answered once no entry is left. -/
def atEnd (stop : Nat) : CursorCall → CursorAnswer
  | .hasNext => .hasNext false
  | .next => .next (.error (.pastSegmentEnd stop))
  | .pull => .pull none

/-! ## Calls on a list -/

/-- An answer hands out the first entry of the list, or none. -/
theorem handed_onList (stop : Nat) (rest : List Mutation) (call : CursorCall) :
    (call.onList stop rest).1.handed.toList ++ (call.onList stop rest).2 = rest := by
  cases call with
  | hasNext => rfl
  | next => cases rest <;> rfl
  | pull => cases rest <;> rfl

/-- **What was handed out and what is left** are the list, by induction on the calls. -/
theorem entries_onList (stop : Nat) (rest : List Mutation) (calls : List CursorCall) :
    (performAll (onList stop) rest calls).1.filterMap CursorAnswer.handed ++
      (performAll (onList stop) rest calls).2 = rest := by
  induction calls generalizing rest with
  | nil => rfl
  | cons call more ih =>
    rw [performAll_cons]
    have hone := handed_onList stop rest call
    have hmore := ih (call.onList stop rest).2
    cases hentry : (call.onList stop rest).1.handed with
    | none =>
      rw [hentry, Option.toList_none, List.nil_append] at hone
      rw [List.filterMap_cons_none hentry, hmore, hone]
    | some m =>
      rw [hentry, Option.toList_some] at hone
      rw [List.filterMap_cons_some hentry, List.cons_append, hmore]
      exact hone

/-- The end is never left. -/
theorem onList_nil (stop : Nat) (calls : List CursorCall) :
    (performAll (onList stop) [] calls).1 = calls.map (atEnd stop) := by
  induction calls with
  | nil => rfl
  | cons call more ih =>
    have hcall : call.onList stop [] = (call.atEnd stop, []) := by cases call <;> rfl
    rw [performAll_cons, hcall, List.map_cons, ih]

end CursorCall

/-! ## Calls on a cursor -/

namespace LogCursor

def call (image : Image) (c : LogCursor) : CursorCall → CursorAnswer × LogCursor
  | .hasNext => (.hasNext c.hasNext, c)
  | .next => (.next (c.next image).1, (c.next image).2)
  | .pull => (.pull (c.pull image).1, (c.pull image).2)

/-- The entries that a cursor has left: the rest of its block and those behind it. -/
def Leaves (image : Image) (c : LogCursor) (stop : Nat) (rest : List Mutation) : Prop :=
  ∃ here later, c.Faces image here later ∧ Readable (here :: later) ∧ c.stop = stop ∧
    here.drop c.slot ++ later.flatten = rest

variable {image : Image} {c : LogCursor} {stop : Nat} {rest : List Mutation}

/-- Looking ahead is right: in a block, at its end, and in front of an empty tail. -/
theorem Leaves.hasNext_eq (h : c.Leaves image stop rest) : c.hasNext = !rest.isEmpty := by
  obtain ⟨here, later, faces, readable, -, rfl⟩ := h
  by_cases hlt : c.slot < here.length
  · rw [(faces.next_of_lt hlt).1, List.drop_eq_getElem_cons hlt]
    rfl
  · have done : c.slot = here.length := Nat.le_antisymm faces.slot_le (Nat.le_of_not_lt hlt)
    rw [Bool.eq_iff_iff, faces.hasNext_iff done readable, done, List.drop_length, List.nil_append]
    simp

/-- An entry of the cursor's own block. -/
theorem Faces.leaves_next_of_lt {here : List Mutation} {later : List (List Mutation)}
    (faces : c.Faces image here later) (readable : Readable (here :: later))
    (hlt : c.slot < here.length) :
    ∃ d, c.next image = (CursorCall.first c.stop (here.drop c.slot ++ later.flatten), d) ∧
      d.Leaves image c.stop (here.drop c.slot ++ later.flatten).tail := by
  rw [(faces.next_of_lt hlt).2, List.drop_eq_getElem_cons hlt]
  exact ⟨_, rfl, here, later, faces.atSlot hlt, readable, rfl, rfl⟩

/-- **The next entry**, by induction on the blocks behind the cursor: where its own block has none
left, it goes on as from the start of the next one, and ends at the last one. -/
theorem Faces.leaves_next {here : List Mutation} {later : List (List Mutation)}
    (faces : c.Faces image here later) (readable : Readable (here :: later)) :
    ∃ d, c.next image = (CursorCall.first c.stop (here.drop c.slot ++ later.flatten), d) ∧
      d.Leaves image c.stop (here.drop c.slot ++ later.flatten).tail := by
  induction later generalizing c here with
  | nil =>
    by_cases hlt : c.slot < here.length
    · exact faces.leaves_next_of_lt readable hlt
    · have done : c.slot = here.length := Nat.le_antisymm faces.slot_le (Nat.le_of_not_lt hlt)
      have hleft : here.drop c.slot ++ ([] : List (List Mutation)).flatten = [] := by
        rw [done, List.drop_length]
        rfl
      obtain ⟨block, hc, tells⟩ := faces.content
      have hstop := faces.stop_eq
      rw [List.length_nil, Nat.add_zero] at hstop
      rw [next_of_stop image hc (by rw [tells.count]; omega) (by omega), ← hstop, hleft]
      exact ⟨c, rfl, here, [], faces, readable, rfl, hleft⟩
  | cons following later ih =>
    by_cases hlt : c.slot < here.length
    · exact faces.leaves_next_of_lt readable hlt
    · have done : c.slot = here.length := Nat.le_antisymm faces.slot_le (Nat.le_of_not_lt hlt)
      obtain ⟨d, faces', slot, stop, hnext⟩ := faces.cross done
      have hmore := ih faces' readable.tail
      rw [slot, stop, List.drop_zero] at hmore
      rw [hnext, done, List.drop_length, List.nil_append, List.flatten_cons]
      exact hmore

theorem Leaves.next (h : c.Leaves image stop rest) :
    ∃ d, c.next image = (CursorCall.first stop rest, d) ∧ d.Leaves image stop rest.tail := by
  obtain ⟨here, later, faces, readable, rfl, rfl⟩ := h
  exact faces.leaves_next readable

/-- **One call.** -/
theorem Leaves.call (h : c.Leaves image stop rest) (call : CursorCall) :
    (c.call image call).1 = (call.onList stop rest).1 ∧
      (c.call image call).2.Leaves image stop (call.onList stop rest).2 := by
  obtain ⟨d, hnext, leaves⟩ := h.next
  cases call with
  | hasNext => exact ⟨congrArg CursorAnswer.hasNext h.hasNext_eq, h⟩
  | next =>
    show CursorAnswer.next (c.next image).1 = _ ∧ (c.next image).2.Leaves image stop rest.tail
    rw [hnext]
    exact ⟨rfl, leaves⟩
  | pull =>
    show CursorAnswer.pull (c.pull image).1 = _ ∧ (c.pull image).2.Leaves image stop rest.tail
    unfold pull
    rw [h.hasNext_eq, hnext]
    cases rest with
    | nil => exact ⟨rfl, h⟩
    | cons m more => exact ⟨rfl, leaves⟩

/-- **Any calls.** -/
theorem Leaves.calls (h : c.Leaves image stop rest) (calls : List CursorCall) :
    (performAll (LogCursor.call image) c calls).1 =
        (performAll (CursorCall.onList stop) rest calls).1 ∧
      (performAll (LogCursor.call image) c calls).2.Leaves image stop
        (performAll (CursorCall.onList stop) rest calls).2 :=
  performAll_follows (fun (d : LogCursor) more => d.Leaves image stop more)
    (fun _ _ call h => h.call call) h calls

/-- **What a cursor answers** to any calls, as the list of its entries does: it hands them out in
order, tells whether one is left, and stays at the end. -/
theorem Leaves.protocol (h : c.Leaves image stop rest) (calls : List CursorCall) :
    let done := performAll (LogCursor.call image) c calls
    let given := done.1.filterMap CursorAnswer.handed
    done.1 = (performAll (CursorCall.onList stop) rest calls).1 ∧
      given = rest.take given.length ∧ done.2.hasNext = decide (given.length < rest.length) ∧
      (given.length = rest.length → ∀ more,
        (performAll (LogCursor.call image) done.2 more).1 = more.map (CursorCall.atEnd stop)) := by
  intro done given
  obtain ⟨answers, leaves⟩ := h.calls calls
  have hsplit := CursorCall.entries_onList stop rest calls
  rw [← answers] at hsplit
  generalize (performAll (CursorCall.onList stop) rest calls).2 = left at hsplit leaves
  have hlen : given.length + left.length = rest.length := by
    rw [← hsplit, List.length_append]
  refine ⟨answers, ?_, ?_, fun all more => ?_⟩
  · show given = rest.take given.length
    rw [← hsplit]
    exact List.take_left.symm
  · rw [leaves.hasNext_eq, Bool.eq_iff_iff, decide_eq_true_iff]
    simp only [Bool.not_eq_true', List.isEmpty_eq_false_iff, ← List.length_pos_iff]
    omega
  · rw [(leaves.calls more).1, List.eq_nil_of_length_eq_zero (by omega : left.length = 0)]
    exact CursorCall.onList_nil stop more

end LogCursor

/-- A log that tells entries is read from the first of them on. -/
theorem Log.Tells.exists_leaves {log : Log} {image : Image} {older : List (List Mutation)}
    {last : List Mutation} (h : log.Tells image older last) :
    ∃ c, log.cursor image = .ok c ∧
      c.Leaves image log.segment.stop (older.flatten ++ last) := by
  obtain ⟨c, here, later, cursor, slot, stop, faces, readable, entries⟩ := h.exists_cursor
  refine ⟨c, cursor, here, later, faces, readable, stop, ?_⟩
  rw [slot, List.drop_zero, entries]

/-- **A cursor is a list of entries.**  Over any image, in any region that a log can be bound to
and whatever is in memory: behind a format that succeeds and any events, interrupted appends
included, a cursor answers any calls as the list does that the events led to. -/
theorem cursor_protocol {path : String} {image : Image} {region : Region} {fresh : Log}
    (bound : Log.ofRegion (Device.ofImage path image) region = .ok fresh)
    (superblock : LogSuperblock) (tail : Option LogBlock) {g : UInt64} {t : Log} {w : List Buffer}
    (formatted : (Log.format image).Gives { fresh with superblock, tail } (.ok g) t w)
    (events : List LogEvent) :
    let s := (LogSession.history ⟨t, image.storeAll w⟩ events).2
    let start : BoundedLog := ⟨Log.nextGeneration image region.start, []⟩
    let es := (start.history region.entryBound events).2.entries
    ∃ c, s.log.cursor s.image = .ok c ∧ ∀ calls : List CursorCall,
      let done := performAll (LogCursor.call s.image) c calls
      let given := done.1.filterMap CursorAnswer.handed
      done.1 = (performAll (CursorCall.onList s.log.segment.stop) es calls).1 ∧
        given = es.take given.length ∧ done.2.hasNext = decide (given.length < es.length) ∧
        (given.length = es.length → ∀ more, (performAll (LogCursor.call s.image) done.2 more).1 =
          more.map (CursorCall.atEnd s.log.segment.stop)) := by
  intro s start es
  obtain ⟨-, older, last, packs⟩ := LogSession.exists_packs bound formatted events
  obtain ⟨c, cursor, leaves⟩ := packs.tells.exists_leaves
  rw [← packs.entries] at leaves
  exact ⟨c, cursor, leaves.protocol⟩

/-- Two entries with an interrupted append between them, asked for in every way. -/
theorem cursor_protocol_reused :
    let events : List LogEvent := [.action (.append (.addNode 7)), .interrupt (.addNode 8) 2,
      .action (.append (.addEdge 7 9)), .action .reload]
    ∃ fresh g t w, Log.ofRegion (Device.ofImage "disk" .reused) ⟨0, 4⟩ = .ok fresh ∧
      (Log.format .reused).Gives fresh (.ok g) t w ∧
      let s := (LogSession.history ⟨t, Image.reused.storeAll w⟩ events).2
      ∃ c, s.log.cursor s.image = .ok c ∧
        (performAll (LogCursor.call s.image) c
          [.hasNext, .next, .hasNext, .pull, .hasNext, .next, .pull]).1 =
        [.hasNext true, .next (.ok (.addNode 7)), .hasNext true, .pull (some (.ok (.addEdge 7 9))),
          .hasNext false, .next (.error (.pastSegmentEnd s.log.segment.stop)), .pull none] := by
  intro events
  obtain ⟨fresh, g, t, w, bound, formatted⟩ := Image.exists_format_reused
  obtain ⟨c, cursor, answers⟩ := cursor_protocol bound fresh.superblock fresh.tail formatted events
  exact ⟨fresh, g, t, w, bound, formatted, c, cursor, (answers _).1⟩

end DurableGraph
