import DurableGraph.Proofs.Log.BoundedList

/-!
# Interrupted appends

An append that is interrupted has stored some of its writes, but not the last one, which is the
one that holds its entry.  What is loaded afterwards tells the entries from before.

    1 write       nothing was stored
    3 writes      nothing, or an empty block that is not counted in, or an empty tail
    any events, actions and interruptions, keep a log packed as the list says      (Packs.history)
-/

namespace DurableGraph

/-- What a log goes through: an action, or an append that stored at most `k` of its writes, and not
the last one, and was followed by a reload. -/
inductive LogEvent where
  | action (action : LogAction)
  | interrupt (m : Mutation) (k : Nat)

namespace BoundedLog

def step (bound : Nat) (b : BoundedLog) : LogEvent → Bool × BoundedLog
  | .action action => b.perform bound action
  | .interrupt _ _ => (true, b)

def history (bound : Nat) (b : BoundedLog) (events : List LogEvent) : List Bool × BoundedLog :=
  performAll (step bound) b events

end BoundedLog

namespace LogSession

/-- The image that an interrupted append leaves. -/
def interrupted (s : LogSession) (m : Mutation) (k : Nat) : Image :=
  s.image.storeAll ((Log.append m s.log).writes.dropLast.take k)

def step (s : LogSession) : LogEvent → Bool × LogSession
  | .action action => s.perform action
  | .interrupt m k => LogSession.perform ⟨s.log, s.interrupted m k⟩ .reload

def history (s : LogSession) (events : List LogEvent) : List Bool × LogSession :=
  performAll step s events

end LogSession

/-! ## One interruption -/

variable {older : List (List Mutation)} {last : List Mutation}

/-- The first writes of an append leave a log with the same entries: it is the log that was, or
the one that was extended. -/
theorem Log.Tells.exists_interrupted {log : Log} {image : Image} (h : log.Tells image older last)
    (packed : Packed older) (m : Mutation) (k : Nat) :
    ∃ (t : Log) (older' : List (List Mutation)) (last' : List Mutation),
      t.Tells (image.storeAll ((append m log).writes.dropLast.take k)) older' last' ∧
      Packed older' ∧ older'.flatten ++ last' = older.flatten ++ last ∧
      log.device = t.device ∧ log.region = t.region ∧
      t.superblock.generation = log.superblock.generation := by
  obtain ⟨_, _, _, _, _, gives⟩ | ⟨full, room, gives⟩ | ⟨_, _, gives⟩ := h.append_cases m
  · rw [gives.writes_eq, List.dropLast_singleton, List.take_nil]
    exact ⟨log, older, last, h, packed, rfl, rfl, rfl, rfl⟩
  · have hwrites : (append m log).writes.dropLast =
        [log.nextTail.buffer, log.extended.superblock.buffer log.region.start] := by
      rw [gives.writes_eq]
      rfl
    rw [hwrites]
    match k with
    | 0 => exact ⟨log, older, last, h, packed, rfl, rfl, rfl, rfl⟩
    | 1 => exact ⟨log, older, last, h.nextTail room, packed, rfl, rfl, rfl, rfl⟩
    | k + 2 =>
      have ne : last ≠ [] := by
        rintro rfl
        cases full
      rw [List.take_of_length_le (by simp)]
      exact ⟨log.extended, older ++ [last], [], h.extended ne room, packed.concat full, by simp,
        rfl, rfl, rfl⟩
  · rw [gives.writes_eq, List.dropLast_nil, List.take_nil]
    exact ⟨log, older, last, h, packed, rfl, rfl, rfl, rfl⟩

namespace LogSession

variable {s : LogSession} {b : BoundedLog}

/-- The log that is loaded after an interruption packs what it packed before. -/
theorem Packs.interrupt (h : s.Packs b older last) (m : Mutation) (k : Nat) :
    s.Follows (s.step (.interrupt m k)) (true, b) := by
  obtain ⟨t, older', last', tells, packed, entries, device, region, generation⟩ :=
    h.tells.exists_interrupted h.packed m k
  have hstep : s.step (.interrupt m k) = (true, ⟨t, s.interrupted m k⟩) :=
    perform_reload tells device region
  rw [hstep]
  refine ⟨rfl, region.symm, older', last', ?_⟩
  exact {
    tells := tells
    packed := packed
    entries := by rw [entries]; exact h.entries
    generation := by rw [generation]; exact h.generation }

/-! ## Any events -/

theorem Packs.step (h : s.Packs b older last) (event : LogEvent) :
    s.Follows (s.step event) (b.step s.log.region.entryBound event) := by
  cases event with
  | action action => exact h.perform action
  | interrupt m k => exact h.interrupt m k

/-- **Any events.** -/
theorem Packs.history (h : s.Packs b older last) (events : List LogEvent) :
    s.Follows (s.history events) (b.history s.log.region.entryBound events) :=
  h.follows (fun packs => packs.step) events

/-- Whatever was in memory before, behind a format that succeeds any events leave a log that packs
what the list holds. -/
theorem exists_packs {path : String} {image : Image} {region : Region} {fresh t : Log}
    (bound : Log.ofRegion (Device.ofImage path image) region = .ok fresh)
    {superblock : LogSuperblock} {tail : Option LogBlock} {g : UInt64} {w : List Buffer}
    (formatted : (Log.format image).Gives { fresh with superblock, tail } (.ok g) t w)
    (events : List LogEvent) :
    (history ⟨t, image.storeAll w⟩ events).2.log.region = region ∧ ∃ older last,
      (history ⟨t, image.storeAll w⟩ events).2.Packs (BoundedLog.history region.entryBound
        ⟨Log.nextGeneration image region.start, []⟩ events).2 older last := by
  have placed : Log.Placed { fresh with superblock, tail } image :=
    (Log.placed_of_ofRegion bound).congr rfl rfl rfl
  obtain ⟨-, rfl⟩ := Log.ofRegion_eq_ok_iff.1 bound
  obtain ⟨same, packs⟩ := packs_of_format placed formatted
  obtain ⟨-, stays, packs'⟩ := packs.history events
  have same' : (LogSession.mk t (image.storeAll w)).log.region = region := same
  rw [same'] at packs'
  exact ⟨stays.trans same, packs'⟩

end LogSession

end DurableGraph
