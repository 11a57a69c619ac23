import DurableGraph.Proofs.Log.Session

/-!
# Calls that fail

A call of a log that fails stores nothing.  All calls but one remember nothing either: what they
have read they keep only once nothing can fail any more.  A format takes up the superblock that
it finds before it rotates, and the last generation cannot be left.

    (s.call c).1 = .error e → (s.call c).2.image = s.image
    (s.call c).1 = .error e → (s.call c).2 = s          where c is no format of a spent region
-/

namespace DurableGraph

/-- What is asked of a log; loading keeps the log and does not bind its region anew. -/
inductive LogCall where
  | format
  | load
  | append (m : Mutation)
  | rotate

/-- A call, whose answer is dropped. -/
def Log.call (image : Image) : LogCall → Work Log LogError Unit
  | .format => do
    let _ ← format image
    pure ()
  | .load => load image
  | .append m => append m
  | .rotate => do
    let _ ← rotate
    pure ()

/-- Makes a call, and tells how it ended. -/
def LogSession.call (s : LogSession) (call : LogCall) : Except LogError Unit × LogSession :=
  let step := Log.call s.image call s.log
  (step.result, ⟨step.state, s.image.storeAll step.writes⟩)

theorem LogSession.call_of_gives {s : LogSession} {call : LogCall} {r : Except LogError Unit}
    {t : Log} {w : List Buffer} (h : (Log.call s.image call).Gives s.log r t w) :
    s.call call = (r, ⟨t, s.image.storeAll w⟩) := by
  obtain ⟨rfl, rfl, rfl⟩ := h
  rfl

/-- A block holds the superblock of a log in its last generation. -/
def Image.Spent (image : Image) (n : Nat) (found : LogSuperblock) : Prop :=
  ∃ content, image.block? n = some content ∧
    LogSuperblock.decode ⟨n, content⟩ = .ok found ∧ found.generation.toNat + 1 = UInt32.size

namespace Log

variable {log t : Log} {image disk : Image} {e : LogError} {w : List Buffer}

/-- What a log writes does not depend on what its device holds now, as far as it does not read. -/
theorem exists_placed {fresh : Log} (bound : ofRegion log.device log.region = .ok fresh) :
    ∃ disk : Image, log.Placed disk := by
  obtain ⟨⟨inside, wide, small⟩, -⟩ := ofRegion_eq_ok_iff.1 bound
  have hcount : (Image.zeros (log.device.blockCount * blockSize)).blockCount =
      log.device.blockCount := by
    rw [Image.blockCount_zeros, Nat.mul_div_cancel _ (by decide)]
  exact ⟨_, hcount.symm, wide, by rw [hcount]; exact inside, small⟩

/-! ## Failing calls -/

theorem rotate_error (placed : log.Placed disk) (h : rotate.Gives log (.error e) t w) :
    e = .generationsExhausted ∧ t = log ∧ w = [] ∧
      log.superblock.generation.toNat + 1 = UInt32.size := by
  by_cases spent : log.superblock.generation.toNat + 1 = UInt32.size
  · obtain ⟨he, rfl, rfl⟩ := h.unique (gives_rotate_last spent)
    cases he
    exact ⟨rfl, rfl, rfl, spent⟩
  · cases (h.unique (gives_rotate placed spent)).1

theorem load_error (h : (load image).Gives log (.error e) t w) : t = log ∧ w = [] := by
  unfold load at h
  obtain same | ⟨buffer, -, h⟩ := h.of_current.of_ask_error
  · exact same
  obtain same | ⟨superblock, -, h⟩ := h.of_ofExcept_error
  · exact same
  simp only at h
  split at h
  · obtain ⟨-, rfl, rfl⟩ := h.unique (Work.gives_fail _ _)
    exact ⟨rfl, rfl⟩
  · obtain same | ⟨tail, -, h⟩ := h.of_ofExcept_error
    · exact same
    · cases (h.unique ((Work.gives_replace log _).then (Work.gives_note _ _))).1

/-- A tail beside the device is not stored, and not kept. -/
theorem gives_append_beyond {tail : LogBlock} (htail : log.tail = some tail)
    (room : tail.header.isFull = false) (beyond : log.device.blockCount ≤ tail.buffer.number)
    (m : Mutation) :
    (append m).Gives log
      (.error (.device (.noSpace tail.buffer.number log.device.blockCount))) log [] := by
  have hnumber := LogBlock.number_push tail m
  have hstore : (Work.store LogError.device log.device (tail.push m).buffer).Gives log _ log [] :=
    Work.gives_store_beyond (by rw [hnumber]; exact beyond) log
  rw [hnumber] at hstore
  unfold append
  refine (Work.gives_current log).then ?_
  simp only [htail, room, Bool.false_eq_true, if_false]
  refine (Work.gives_current log).then ?_
  simp only [htail]
  exact hstore.bind_error _

theorem append_error (placed : log.Placed disk) {m : Mutation}
    (h : (append m).Gives log (.error e) t w) : t = log ∧ w = [] := by
  cases htail : log.tail with
  | none =>
    have hfail : (append m).Gives log (.error .notStarted) log [] := by
      unfold append
      refine (Work.gives_current log).then ?_
      rw [htail]
      exact Work.gives_fail _ _
    obtain ⟨-, rfl, rfl⟩ := h.unique hfail
    exact ⟨rfl, rfl⟩
  | some tail =>
    cases full : tail.header.isFull with
    | true =>
      by_cases room : log.superblock.segmentEnd < log.region.stop
      · cases (h.unique (gives_append_full placed htail full room m)).1
      · obtain ⟨-, rfl, rfl⟩ :=
          h.unique (gives_append_noSpace htail full (Nat.le_of_not_lt room) m)
        exact ⟨rfl, rfl⟩
    | false =>
      by_cases inside : tail.buffer.number < disk.blockCount
      · cases (h.unique (gives_append placed htail full inside m)).1
      · have beyond : log.device.blockCount ≤ tail.buffer.number := by
          rw [placed.device_eq]
          exact Nat.le_of_not_lt inside
        obtain ⟨-, rfl, rfl⟩ := h.unique (gives_append_beyond htail full beyond m)
        exact ⟨rfl, rfl⟩

/-- A format fails before it has changed anything, or because the generation that it found and
took up is the last one. -/
theorem format_error (placed : log.Placed disk) (h : (format image).Gives log (.error e) t w) :
    w = [] ∧ ((t = log ∧ ∀ found, ¬ image.Spent log.region.start found) ∨
      e = .generationsExhausted ∧ ∃ found, image.Spent log.region.start found ∧
        t = log.withSuperblock found) := by
  cases held : image.block? log.region.start with
  | none =>
    unfold format at h
    obtain ⟨rfl, rfl⟩ | ⟨buffer, hbuffer, -⟩ := h.of_current.of_ask_error
    · refine ⟨rfl, .inl ⟨rfl, ?_⟩⟩
      rintro found ⟨content, held', -⟩
      rw [held] at held'
      cases held'
    · obtain ⟨-, -, held'⟩ := Device.get_eq_ok_iff.1 hbuffer
      rw [held] at held'
      cases held'
  | some content =>
    cases decoded : LogSuperblock.decode ⟨log.region.start, content⟩ with
    | ok found =>
      obtain ⟨he, ht, hw⟩ := h.unique (gives_format_found placed held decoded
        (Work.gives_self rotate (log.withSuperblock found)))
      have placed' : (log.withSuperblock found).Placed disk := placed.congr rfl rfl rfl
      have hrotate : rotate.Gives (log.withSuperblock found) (.error e) t w :=
        ⟨he.symm, ht.symm, hw.symm⟩
      obtain ⟨he, same, hw, spent⟩ := rotate_error placed' hrotate
      exact ⟨hw, .inr ⟨he, found, ⟨content, held, decoded, spent⟩, same⟩⟩
    | error _ =>
      -- a fresh superblock can be left
      have placed' : (log.withSuperblock (.fresh log.firstBlock)).Placed disk :=
        placed.congr rfl rfl rfl
      have room : (log.withSuperblock (.fresh log.firstBlock)).superblock.generation.toNat + 1 ≠
          UInt32.size := by
        show (0 : UInt32).toNat + 1 ≠ UInt32.size
        decide
      cases (h.unique (gives_format_fresh placed held decoded (gives_rotate placed' room))).1

/-- A superblock that is found is the only one. -/
theorem spent_unique {n : Nat} {a b : LogSuperblock} (ha : image.Spent n a)
    (hb : image.Spent n b) : a = b := by
  obtain ⟨content, held, decoded, -⟩ := ha
  obtain ⟨content', held', decoded', -⟩ := hb
  rw [held] at held'
  cases held'
  rw [decoded] at decoded'
  cases decoded'
  rfl

/-- **A call that fails** stores nothing and leaves the log as it was, or is a format that took up
the last generation. -/
theorem call_error (placed : log.Placed disk) {call : LogCall}
    (h : (Log.call image call).Gives log (.error e) t w) : w = [] ∧
      ((t = log ∧ ∀ found, call = .format → ¬ image.Spent log.region.start found) ∨
      call = .format ∧ e = .generationsExhausted ∧ ∃ found,
        image.Spent log.region.start found ∧ t = log.withSuperblock found) := by
  cases call with
  | format =>
    obtain h | ⟨_, _, _, _, -, h, -⟩ := h.bind_error_inv
    · obtain ⟨rfl, ⟨same, whole⟩ | ⟨rfl, found, spent, same⟩⟩ := format_error placed h
      · exact ⟨rfl, .inl ⟨same, fun found _ => whole found⟩⟩
      · exact ⟨rfl, .inr ⟨rfl, rfl, found, spent, same⟩⟩
    · cases (h.unique (Work.gives_pure _ _)).1
  | load =>
    obtain ⟨same, rfl⟩ := load_error h
    exact ⟨rfl, .inl ⟨same, nofun⟩⟩
  | append m =>
    obtain ⟨same, rfl⟩ := append_error placed h
    exact ⟨rfl, .inl ⟨same, nofun⟩⟩
  | rotate =>
    obtain h | ⟨_, _, _, _, -, h, -⟩ := h.bind_error_inv
    · obtain ⟨-, same, rfl, -⟩ := rotate_error placed h
      exact ⟨rfl, .inl ⟨same, nofun⟩⟩
    · cases (h.unique (Work.gives_pure _ _)).1

end Log

/-! ## Top theorems -/

/-- **A call that fails leaves everything as it was, save where a format finds the last
generation.**  Whatever the image holds and whatever is in memory: the image is the same; the log
is the same unless the call is a format of a region whose superblock is of the last generation and
is not the one in memory; and such a format fails and leaves the log with that superblock. -/
theorem call_failed_iff {s : LogSession} {fresh : Log}
    (bound : Log.ofRegion s.log.device s.log.region = .ok fresh) {call : LogCall} {e : LogError}
    (failed : (s.call call).1 = .error e) :
    ((s.call call).2 = s ↔
      ∀ found, call = .format → s.image.Spent s.log.region.start found →
        found = s.log.superblock) ∧
    (∀ found, call = .format → s.image.Spent s.log.region.start found →
      e = .generationsExhausted ∧ (s.call call).2 = ⟨s.log.withSuperblock found, s.image⟩) := by
  obtain ⟨disk, placed⟩ := Log.exists_placed bound
  have gives : (Log.call s.image call).Gives s.log (.error e) (Log.call s.image call s.log).state
      (Log.call s.image call s.log).writes := ⟨failed, rfl, rfl⟩
  obtain ⟨hw, ⟨same, whole⟩ | ⟨rfl, rfl, found, spent, same⟩⟩ := Log.call_error placed gives
  · have hcall : (s.call call).2 = s := by
      rw [LogSession.call_of_gives gives, same, hw]
      rfl
    exact ⟨iff_of_true hcall fun found hformat spent => absurd spent (whole found hformat),
      fun found hformat spent => absurd spent (whole found hformat)⟩
  · have hcall : (s.call .format).2 = ⟨s.log.withSuperblock found, s.image⟩ := by
      rw [LogSession.call_of_gives gives, same, hw]
      rfl
    refine ⟨⟨fun unchanged found' _ spent' => ?_, fun kept => ?_⟩, fun found' _ spent' => ?_⟩
    · rw [Log.spent_unique spent' spent]
      rw [hcall] at unchanged
      exact congrArg (·.log.superblock) unchanged
    · rw [hcall, kept found rfl spent]
      rfl
    · rw [Log.spent_unique spent' spent]
      exact ⟨rfl, hcall⟩

/-- Ten blocks, with the superblock of a log in its last generation. -/
@[irreducible]
def Image.spent : Image := (zeros 40960).store (LogSuperblock.buffer ⟨4294967295, 1, 1⟩ 0)

/-- A log over their first four, neither formatted nor loaded. -/
def Log.unused : Log := ⟨Device.ofImage "disk" .spent, ⟨0, 4⟩, .fresh 1, none⟩

theorem Image.spent_first : spent.Spent 0 ⟨4294967295, 1, 1⟩ := by
  unfold spent
  exact ⟨_, block?_store_self (fits_first _ (by decide)), LogSuperblock.decode_encode _ _ _,
    by decide⟩

theorem Image.ofRegion_spent :
    Log.ofRegion (Device.ofImage "disk" spent) ⟨0, 4⟩ = .ok Log.unused := by
  have hcount : spent.blockCount = 10 := by
    unfold spent
    exact blockCount_first _ (by decide)
  refine Log.ofRegion_eq_ok_iff.2 ⟨⟨?_, by decide, by decide⟩, rfl⟩
  show 4 ≤ spent.blockCount
  omega

/-- An append to a log over its first four blocks that was not started. -/
theorem call_failed_iff_append :
    ∃ s : LogSession, (∃ fresh, Log.ofRegion s.log.device s.log.region = .ok fresh) ∧
      (s.call (.append (.addNode 7))).1 = .error .notStarted ∧
      (s.call (.append (.addNode 7))).2 = s := by
  have bound := Image.ofRegion_spent
  have failed : (LogSession.call ⟨Log.unused, .spent⟩ (.append (.addNode 7))).1 =
      .error .notStarted := rfl
  exact ⟨⟨Log.unused, .spent⟩, ⟨_, bound⟩, failed, (call_failed_iff bound failed).1.2 nofun⟩

/-- A log that was not used is formatted over the last generation.  The format fails, the log has
taken up that generation, and where it could be rotated before it cannot be any more. -/
theorem call_format_spent :
    let s : LogSession := ⟨Log.unused, .spent⟩
    Log.ofRegion (Device.ofImage "disk" s.image) ⟨0, 4⟩ = .ok s.log ∧
      (s.call .format).1 = .error .generationsExhausted ∧
      s.log.generation = 0 ∧ (s.call .format).2.log.generation = 4294967295 ∧
      (s.call .rotate).1 = .ok () ∧
      ((s.call .format).2.call .rotate).1 = .error .generationsExhausted := by
  have placed : Log.unused.Placed .spent := Log.placed_of_ofRegion Image.ofRegion_spent
  obtain ⟨content, held, decoded, last⟩ := Image.spent_first
  -- the format takes up the superblock that it finds
  have hformat : (Log.format .spent).Gives Log.unused (.error .generationsExhausted)
      (Log.unused.withSuperblock ⟨4294967295, 1, 1⟩) [] :=
    Log.gives_format_found placed held decoded (Log.gives_rotate_last last)
  have gives : (Log.call .spent .format).Gives Log.unused (.error .generationsExhausted)
      (Log.unused.withSuperblock ⟨4294967295, 1, 1⟩) [] := hformat.bind_error _
  have hfirst : (Log.call .spent .rotate).Gives Log.unused (.ok ()) Log.unused.rotated _ :=
    (Log.gives_rotate placed (by decide)).map fun _ => ()
  have hlast : (Log.call .spent .rotate).Gives (Log.unused.withSuperblock ⟨4294967295, 1, 1⟩)
      (.error .generationsExhausted) _ _ := (Log.gives_rotate_last last).map fun _ => ()
  intro s
  let t : LogSession := ⟨Log.unused.withSuperblock ⟨4294967295, 1, 1⟩, .spent⟩
  have hcall : s.call .format = (.error .generationsExhausted, t) :=
    LogSession.call_of_gives (s := s) gives
  rw [hcall]
  refine ⟨Image.ofRegion_spent, rfl, rfl, rfl, ?_, ?_⟩
  · rw [LogSession.call_of_gives (s := s) hfirst]
  · rw [LogSession.call_of_gives (s := t) hlast]

end DurableGraph
