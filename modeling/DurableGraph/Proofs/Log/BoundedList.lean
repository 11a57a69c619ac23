import DurableGraph.Proofs.Log.Session

/-!
# The log as a bounded list

Whatever a region held before, a log that was once formatted is a list of entries with a
bound and a count of its generations.  A session carries the log and the image through any
actions; `BoundedLog` carries the list through the same actions.

    append m           entries ++ [m]           unless the bound is reached
    format, rotate     [], generation + 1       unless the generations are spent
    reload             no change
-/

namespace DurableGraph

structure BoundedLog where
  generation : Nat
  entries : List Mutation

namespace BoundedLog

/-- A list whose generation is over. -/
def renew (b : BoundedLog) : Bool × BoundedLog :=
  if b.generation + 1 < UInt32.size then (true, ⟨b.generation + 1, []⟩) else (false, b)

/-- Performs an action on a list of at most `bound` entries. -/
def perform (bound : Nat) (b : BoundedLog) : LogAction → Bool × BoundedLog
  | .format => b.renew
  | .append m =>
    if b.entries.length < bound then (true, ⟨b.generation, b.entries ++ [m]⟩) else (false, b)
  | .rotate => b.renew
  | .reload => (true, b)

def run (bound : Nat) (b : BoundedLog) (actions : List LogAction) : List Bool × BoundedLog :=
  performAll (perform bound) b actions

end BoundedLog

/-- The entries that fit behind the superblock of a region. -/
def Region.entryBound (region : Region) : Nat := entriesPerBlock * (region.stop - region.start - 1)

/-- What can be seen of a log is what the list says, and reloading it changes nothing. -/
structure LogSession.Shows (s : LogSession) (b : BoundedLog) : Prop where
  generation : s.log.generation.toNat = b.generation
  entries : ∃ c, s.log.cursor s.image = .ok c ∧ c.entries s.image = (b.entries, none)
  capacity : s.log.capacity + b.entries.length = s.log.region.entryBound
  reload : s.perform .reload = (true, s)

/-! ## Packed blocks -/

/-- Blocks before the tail are full. -/
def Packed (older : List (List Mutation)) : Prop := ∀ here ∈ older, here.length = entriesPerBlock

theorem Packed.length_flatten {older : List (List Mutation)} (h : Packed older) :
    older.flatten.length = entriesPerBlock * older.length := by
  induction older with
  | nil => rfl
  | cons here later ih =>
    rw [List.flatten_cons, List.length_append, h here List.mem_cons_self,
      ih fun l hl => h l (List.mem_cons_of_mem _ hl), List.length_cons, Nat.mul_add, Nat.mul_one,
      Nat.add_comm]

theorem Packed.concat {older : List (List Mutation)} {last : List Mutation} (h : Packed older)
    (full : last.length = entriesPerBlock) : Packed (older ++ [last]) := by
  intro l hl
  rcases List.mem_append.1 hl with hl | hl
  · exact h l hl
  · rw [List.mem_singleton.1 hl]
    exact full

/-! ## The invariant -/

namespace LogSession

/-- The log tells the entries of the list, in full blocks before the tail. -/
structure Packs (s : LogSession) (b : BoundedLog) (older : List (List Mutation))
    (last : List Mutation) : Prop where
  tells : s.log.Tells s.image older last
  packed : Packed older
  entries : b.entries = older.flatten ++ last
  generation : s.log.superblock.generation.toNat = b.generation

variable {s : LogSession} {b : BoundedLog} {older : List (List Mutation)} {last : List Mutation}

theorem Packs.length_entries (h : s.Packs b older last) :
    b.entries.length = entriesPerBlock * older.length + last.length := by
  rw [h.entries, List.length_append, h.packed.length_flatten]

/-- The list is at its bound where the tail is full and no block is left behind it. -/
theorem Packs.lt_entryBound_iff (h : s.Packs b older last) :
    b.entries.length < s.log.region.entryBound ↔
      last.length < entriesPerBlock ∨ s.log.superblock.segmentEnd < s.log.region.stop := by
  have hlast : last.length ≤ 169 := h.tells.length_last_le
  have hfits := h.tells.fits
  rw [h.length_entries, h.tells.segmentEnd_eq]
  show 169 * older.length + last.length < 169 * (s.log.region.stop - s.log.region.start - 1) ↔
    last.length < 169 ∨ _
  omega

theorem Packs.capacity (h : s.Packs b older last) :
    s.log.capacity + b.entries.length = s.log.region.entryBound := by
  have hlast : last.length ≤ 169 := h.tells.length_last_le
  have hfits := h.tells.fits
  rw [h.tells.capacity_eq, h.length_entries]
  show (s.log.region.stop - (s.log.region.start + 1 + older.length + 1)) * 169 +
    (169 - last.length) + (169 * older.length + last.length) =
      169 * (s.log.region.stop - s.log.region.start - 1)
  omega

/-- Loading takes up a log as it stands on the image, whatever was in memory before. -/
theorem perform_reload {log t : Log} {image : Image} (h : t.Tells image older last)
    (device : log.device = t.device) (region : log.region = t.region) :
    LogSession.perform ⟨log, image⟩ .reload = (true, ⟨t, image⟩) := by
  obtain ⟨hwide, hinside, hsmall⟩ := And.intro h.placed.wide
    (And.intro h.placed.inside h.placed.small)
  have bound : Log.ofRegion log.device log.region = .ok _ := Log.ofRegion_eq_ok_iff.2
    ⟨⟨by rw [device, region, h.placed.device_eq]; exact hinside, by rw [region]; exact hwide,
      by rw [region]; exact hsmall⟩, rfl⟩
  have hgives : (Log.perform image .reload).Gives log (.ok ()) t [] := by
    refine (Work.gives_current log).then ?_
    refine (Work.gives_ofExcept bound _).then ?_
    refine (Work.gives_replace log _).then ?_
    exact h.load device region
  exact perform_of_gives (s := ⟨log, image⟩) hgives

theorem Packs.reload (h : s.Packs b older last) : s.perform .reload = (true, s) :=
  perform_reload h.tells rfl rfl

theorem Packs.shows (h : s.Packs b older last) : s.Shows b where
  generation := by
    rw [Log.toNat_generation]
    exact h.generation
  entries := by
    obtain ⟨c, hc, read⟩ := h.tells.read
    exact ⟨c, hc, by rw [h.entries]; exact read⟩
  capacity := h.capacity
  reload := h.reload

/-- What is done with a session answers as it does on the list, in the same region, and the session
goes on packing what the list holds. -/
def Follows {α : Type} (s : LogSession) (done : α × LogSession) (b : α × BoundedLog) : Prop :=
  done.1 = b.1 ∧ done.2.log.region = s.log.region ∧ ∃ older last, done.2.Packs b.2 older last

/-- An action that rotates. -/
theorem Packs.renew (h : s.Packs b older last) {action : LogAction}
    (rotates : ∀ r t w, Log.rotate.Gives s.log r t w →
      (Log.perform s.image action).Gives s.log (r.map fun _ => ()) t w) :
    s.Follows (s.perform action) b.renew := by
  unfold BoundedLog.renew
  by_cases spent : s.log.superblock.generation.toNat + 1 = UInt32.size
  · rw [perform_of_gives (rotates _ _ _ (Log.gives_rotate_last spent)),
      if_neg (by rw [← h.generation, spent]; exact Nat.lt_irrefl _)]
    exact ⟨rfl, rfl, older, last, h⟩
  · have hlt : s.log.superblock.generation.toNat < UInt32.size := UInt32.toNat_lt_size _
    rw [perform_of_gives (rotates _ _ _ (Log.gives_rotate h.tells.placed spent)),
      if_pos (by rw [← h.generation]; omega)]
    refine ⟨rfl, rfl, [], [], ?_⟩
    exact {
      tells := Log.tells_rotated h.tells.placed
      packed := fun l hl => absurd hl List.not_mem_nil
      entries := rfl
      generation := by
        show s.log.rotated.superblock.generation.toNat = b.generation + 1
        rw [Log.toNat_generation_rotated spent, h.generation] }

theorem Packs.append (h : s.Packs b older last) (m : Mutation) :
    s.Follows (s.perform (.append m)) (b.perform s.log.region.entryBound (.append m)) := by
  show s.Follows _ (if b.entries.length < s.log.region.entryBound then _ else _)
  obtain ⟨tail, htail, room, hlt, -, gives⟩ | ⟨full, room, gives⟩ | ⟨full, spent, gives⟩ :=
    h.tells.append_cases m
  · have hperform : (Log.perform s.image (.append m)).Gives s.log _ _ _ := gives
    rw [if_pos (h.lt_entryBound_iff.2 (.inl hlt)), perform_of_gives hperform]
    refine ⟨rfl, rfl, older, last ++ [m], ?_⟩
    exact {
      tells := h.tells.withTail htail room m
      packed := h.packed
      entries := by rw [h.entries, List.append_assoc]
      generation := h.generation }
  · have hperform : (Log.perform s.image (.append m)).Gives s.log _ _ _ := gives
    rw [if_pos (h.lt_entryBound_iff.2 (.inr room)), perform_of_gives hperform]
    refine ⟨rfl, rfl, older ++ [last], [m], ?_⟩
    exact {
      tells := h.tells.extended_withTail full room m
      packed := h.packed.concat full
      entries := by rw [h.entries, List.flatten_append, List.flatten_singleton]
      generation := h.generation }
  · have hperform : (Log.perform s.image (.append m)).Gives s.log _ _ _ := gives
    rw [if_neg (by rw [h.lt_entryBound_iff]; omega), perform_of_gives hperform]
    exact ⟨rfl, rfl, older, last, h⟩

/-- **One action.** -/
theorem Packs.perform (h : s.Packs b older last) (action : LogAction) :
    s.Follows (s.perform action) (b.perform s.log.region.entryBound action) := by
  cases action with
  | format =>
    obtain ⟨content, held, decoded⟩ := h.tells.superblock
    exact h.renew fun r t w hr => (Log.gives_format_found h.tells.placed held decoded hr).map _
  | append m => exact h.append m
  | rotate => exact h.renew fun r t w hr => hr.map _
  | reload =>
    rw [h.reload]
    exact ⟨rfl, rfl, older, last, h⟩

/-- What follows the list one by one does so one after the other. -/
theorem Packs.follows {α β : Type} {p : LogSession → α → β × LogSession}
    {q : Nat → BoundedLog → α → β × BoundedLog}
    (step : ∀ {s b older last}, Packs s b older last → ∀ a : α,
      s.Follows (p s a) (q s.log.region.entryBound b a))
    (h : s.Packs b older last) (actions : List α) :
    s.Follows (performAll p s actions) (performAll (q s.log.region.entryBound) b actions) := by
  -- the bound is that of the region, which stays
  refine performAll_follows (fun t c => t.log.region = s.log.region ∧
    ∃ older last, Packs t c older last) ?_ ⟨rfl, older, last, h⟩ actions
  rintro t c action ⟨same, older, last, packs⟩
  obtain ⟨answer, stays, packs'⟩ := step packs action
  rw [same] at answer stays packs'
  exact ⟨answer, stays, packs'⟩

/-- **Any actions.** -/
theorem Packs.run (h : s.Packs b older last) (actions : List LogAction) :
    s.Follows (s.run actions) (b.run s.log.region.entryBound actions) :=
  h.follows (fun packs => packs.perform) actions

/-- A format that succeeds begins the empty list of the next generation. -/
theorem packs_of_format {log t : Log} {image : Image} (placed : log.Placed image) {g : UInt64}
    {w : List Buffer} (h : (Log.format image).Gives log (.ok g) t w) :
    t.region = log.region ∧
      Packs ⟨t, image.storeAll w⟩ ⟨Log.nextGeneration image log.region.start, []⟩ [] [] := by
  obtain ⟨-, hregion, tells, generation⟩ := Log.tells_format placed h
  refine ⟨hregion, ?_⟩
  exact {
    tells := tells
    packed := fun l hl => absurd hl List.not_mem_nil
    entries := rfl
    generation := generation }

theorem packs_format (placed : s.log.Placed s.image) (done : (s.perform .format).1 = true) :
    (s.perform .format).2.log.region = s.log.region ∧
      (s.perform .format).2.Packs ⟨Log.nextGeneration s.image s.log.region.start, []⟩ [] [] := by
  obtain ⟨g, t, w, gives, hperform⟩ := exists_gives_of_perform rfl done
  rw [hperform]
  exact packs_of_format placed gives

theorem perform_format (placed : s.log.Placed s.image)
    (room : Log.nextGeneration s.image s.log.region.start ≠ UInt32.size) :
    (s.perform .format).1 = true := by
  obtain ⟨g, t, w, hgives⟩ := Log.exists_format placed room
  have hperform : (Log.perform s.image .format).Gives s.log _ _ _ := hgives.map _
  rw [perform_of_gives hperform]
  rfl

end LogSession

/-! ## Top theorems -/

/-- **A log is a bounded list.**  Over any image and in any region that a log can be bound to,
after any actions and a format that succeeds: all later actions succeed exactly where they do
on the list, and the log shows what the list holds, its bound, its generation and that it can
be reloaded, unchanged, at any time. -/
theorem run_eq_boundedLog {path : String} {image : Image} {region : Region} {fresh : Log}
    (bound : Log.ofRegion (Device.ofImage path image) region = .ok fresh)
    (before after : List LogAction) {start : LogSession}
    (reached : (LogSession.run ⟨fresh, image⟩ before).2 = start)
    (formatted : (start.perform .format).1 = true) :
    let list : BoundedLog := ⟨Log.nextGeneration start.image region.start, []⟩
    ((start.perform .format).2.run after).1 = (list.run region.entryBound after).1 ∧
      ((start.perform .format).2.run after).2.Shows (list.run region.entryBound after).2 := by
  have hfresh : fresh.region = region := by
    rw [(Log.ofRegion_eq_ok_iff.1 bound).2]
  have first : (LogSession.mk fresh image).log.Placed (LogSession.mk fresh image).image :=
    Log.placed_of_ofRegion bound
  obtain ⟨placed, hstays⟩ := LogSession.placed_run first before
  rw [reached] at placed hstays
  have hregion : start.log.region = region := hstays.trans hfresh
  obtain ⟨hformat, packs⟩ := LogSession.packs_format placed formatted
  have hrun := packs.run after
  rw [hformat, hregion] at hrun
  obtain ⟨answers, -, older, last, packs'⟩ := hrun
  exact ⟨answers, packs'.shows⟩

/-- A region of four blocks that was in generation 5: a format begins generation 6, an entry is
appended and rotated away, another one is appended and survives a reload. -/
theorem run_eq_boundedLog_reused :
    let m : Mutation := .addNode 7
    ∃ fresh, Log.ofRegion (Device.ofImage "disk" .reused) ⟨0, 4⟩ = .ok fresh ∧
      (LogSession.run ⟨fresh, .reused⟩ []).2 = ⟨fresh, .reused⟩ ∧
      (LogSession.perform ⟨fresh, .reused⟩ .format).1 = true ∧
      ((LogSession.perform ⟨fresh, .reused⟩ .format).2.run
        [.append m, .rotate, .append m, .reload]).1 = [true, true, true, true] ∧
      ((LogSession.perform ⟨fresh, .reused⟩ .format).2.run
        [.append m, .rotate, .append m, .reload]).2.Shows ⟨7, [m]⟩ := by
  intro m
  have hcount := Image.blockCount_reused
  obtain ⟨fresh, bound⟩ : ∃ fresh, Log.ofRegion (Device.ofImage "disk" .reused) ⟨0, 4⟩ =
      .ok fresh := ⟨_, Log.ofRegion_eq_ok_iff.2 ⟨⟨by
        show 4 ≤ Image.reused.blockCount
        omega, by decide, by decide⟩, rfl⟩⟩
  have hregion : fresh.region = ⟨0, 4⟩ := by
    rw [(Log.ofRegion_eq_ok_iff.1 bound).2]
  have formatted : (LogSession.perform ⟨fresh, .reused⟩ .format).1 = true := by
    apply LogSession.perform_format (Log.placed_of_ofRegion bound)
    show Log.nextGeneration .reused fresh.region.start ≠ UInt32.size
    rw [hregion, Image.nextGeneration_reused]
    decide
  have reached : (LogSession.run ⟨fresh, .reused⟩ []).2 = ⟨fresh, .reused⟩ := rfl
  have hrun := run_eq_boundedLog bound [] [.append m, .rotate, .append m, .reload] reached formatted
  simp only [Image.nextGeneration_reused] at hrun
  exact ⟨fresh, bound, reached, formatted, hrun⟩

end DurableGraph
