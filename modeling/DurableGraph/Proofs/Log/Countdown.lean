import DurableGraph.Proofs.Log.Capacity
import DurableGraph.Proofs.Log.Interruption

/-!
# Counting down

The capacity of a log is the number of appends that will succeed, one after the other.  Together
with the entries that are read it makes up all that fit behind the superblock.

    (s.run (ms.map .append)).1 = true … true false … false        as many true as capacity says
    format, rotate                 all entries
    any events behind a format     capacity + entries = all entries
-/

namespace DurableGraph

/-- An empty log has room for all entries that fit behind the superblock. -/
theorem Log.Tells.capacity_empty {log : Log} {image : Image} (h : log.Tells image [] []) :
    log.capacity = log.region.entryBound := by
  rw [h.capacity_eq]
  show (log.region.stop - (log.region.start + 1 + 0 + 1)) * 169 + (169 - 0) =
    169 * (log.region.stop - log.region.start - 1)
  have := h.fits
  simp only [List.length_nil] at this
  omega

namespace LogSession

/-- The capacity of a log is the number of appends that succeed, one after the other, and one that
does not succeed changes nothing; a format or a rotation makes room again. -/
structure CountsDown (s : LogSession) : Prop where
  append_iff : ∀ m, (s.perform (.append m)).1 = true ↔ 0 < s.log.capacity
  append : ∀ m, 0 < s.log.capacity →
    (s.perform (.append m)).2.log.capacity + 1 = s.log.capacity
  full : ∀ m, s.log.capacity = 0 →
    (Log.append m).Gives s.log (.error (.noSpace s.log.region.stop)) s.log []
  renew : ∀ action, action = .format ∨ action = .rotate → (s.perform action).1 = true →
    (s.perform action).2.log.capacity = s.log.region.entryBound
  appends : ∀ ms : List Mutation, (s.run (ms.map .append)).1 =
    List.replicate (min ms.length s.log.capacity) true ++
      List.replicate (ms.length - s.log.capacity) false

variable {s : LogSession}

/-- What an append does to the count. -/
theorem perform_append (h : s.log.Started s.image) (m : Mutation) :
    (0 < s.log.capacity ∧ (s.perform (.append m)).1 = true ∧
      (s.perform (.append m)).2.log.Started (s.perform (.append m)).2.image ∧
      (s.perform (.append m)).2.log.region = s.log.region ∧
      (s.perform (.append m)).2.log.capacity + 1 = s.log.capacity) ∨
    (s.log.capacity = 0 ∧ s.perform (.append m) = (false, s) ∧
      (Log.append m).Gives s.log (.error (.noSpace s.log.region.stop)) s.log []) := by
  obtain ⟨pos, t, w, gives, region, started, capacity⟩ | ⟨zero, gives⟩ := h.append_cases m
  · have hperform : (Log.perform s.image (.append m)).Gives s.log _ _ _ := gives
    rw [perform_of_gives hperform]
    exact .inl ⟨pos, rfl, started, region, capacity⟩
  · have hperform : (Log.perform s.image (.append m)).Gives s.log _ _ _ := gives
    rw [perform_of_gives hperform]
    exact .inr ⟨zero, rfl, gives⟩

/-- **Any appends**, by induction on them: as many succeed as the count says. -/
theorem run_appends (h : s.log.Started s.image) (ms : List Mutation) :
    (s.run (ms.map .append)).1 = List.replicate (min ms.length s.log.capacity) true ++
      List.replicate (ms.length - s.log.capacity) false := by
  unfold run
  induction ms generalizing s with
  | nil => simp [performAll]
  | cons m rest ih =>
    rw [List.map_cons, performAll_cons, List.length_cons]
    dsimp only
    obtain ⟨-, done, started, -, capacity⟩ | ⟨zero, same, -⟩ := perform_append h m
    · rw [done, ih started, ← capacity, Nat.add_min_add_right, List.replicate_succ,
        Nat.add_sub_add_right]
      rfl
    · rw [same, ih h, zero, Nat.min_zero, Nat.min_zero, Nat.sub_zero, Nat.sub_zero,
        List.replicate_succ]
      rfl

/-- A format or a rotation that succeeds makes room for all entries. -/
theorem capacity_renewed (h : s.log.Started s.image) {action : LogAction}
    (renews : action = .format ∨ action = .rotate) (done : (s.perform action).1 = true) :
    (s.perform action).2.log.capacity = s.log.region.entryBound := by
  obtain ⟨g, t, w, gives, hperform⟩ : ∃ g t w,
      ((Log.format s.image).Gives s.log (.ok g) t w ∨ Log.rotate.Gives s.log (.ok g) t w) ∧
      s.perform action = (true, ⟨t, s.image.storeAll w⟩) := by
    rcases renews with rfl | rfl
    · obtain ⟨g, t, w, gives, hperform⟩ := exists_gives_of_perform rfl done
      exact ⟨g, t, w, .inl gives, hperform⟩
    · obtain ⟨g, t, w, gives, hperform⟩ := exists_gives_of_perform rfl done
      exact ⟨g, t, w, .inr gives, hperform⟩
  obtain ⟨same, tells⟩ := Log.tells_of_renewed h.placed gives
  rw [hperform]
  show t.capacity = _
  rw [tells.capacity_empty, same]

theorem countsDown (h : s.log.Started s.image) : s.CountsDown where
  append_iff m := by
    obtain ⟨pos, done, -⟩ | ⟨zero, same, -⟩ := perform_append h m
    · exact ⟨fun _ => pos, fun _ => done⟩
    · rw [same, zero]
      simp
  append m pos := by
    obtain ⟨-, -, -, -, capacity⟩ | ⟨zero, -⟩ := perform_append h m
    · exact capacity
    · omega
  full m zero := by
    obtain ⟨pos, -⟩ | ⟨-, -, gives⟩ := perform_append h m
    · omega
    · exact gives
  renew _ renews done := capacity_renewed h renews done
  appends := run_appends h

/-- A rotation that fails changes nothing. -/
theorem perform_rotate (h : s.log.Started s.image) :
    (s.perform .rotate).2.log.Started (s.perform .rotate).2.image ∧
      (s.perform .rotate).2.log.region = s.log.region := by
  have hperform : ∀ {r t w}, Log.rotate.Gives s.log r t w →
      (Log.perform s.image .rotate).Gives s.log (r.map fun _ => ()) t w := fun hr => hr.map _
  by_cases spent : s.log.superblock.generation.toNat + 1 = UInt32.size
  · rw [perform_of_gives (hperform (Log.gives_rotate_last spent))]
    exact ⟨h, rfl⟩
  · rw [perform_of_gives (hperform (Log.gives_rotate h.placed spent))]
    exact ⟨(Log.tells_rotated h.placed).started, rfl⟩

/-- Appends and rotations keep a log started, in its region. -/
theorem started_run (h : s.log.Started s.image) (actions : List LogAction)
    (only : ∀ a ∈ actions, a = .rotate ∨ ∃ m, a = .append m) :
    (s.run actions).2.log.Started (s.run actions).2.image ∧
      (s.run actions).2.log.region = s.log.region := by
  refine performAll_keeps_of_mem (fun t : LogSession => t.log.Started t.image ∧
    t.log.region = s.log.region) ?_ ⟨h, rfl⟩
  rintro t action ha ⟨started, same⟩
  obtain rfl | ⟨m, rfl⟩ := only action ha
  · obtain ⟨started', stays⟩ := perform_rotate started
    exact ⟨started', stays.trans same⟩
  · obtain ⟨-, -, started', stays, -⟩ | ⟨-, unchanged, -⟩ := perform_append started m
    · exact ⟨started', stays.trans same⟩
    · rw [unchanged]
      exact ⟨started, same⟩

end LogSession

/-! ## Top theorems -/

/-- **The capacity of a log is exact.**  Over any image, in any region that a log can be bound to
and whatever is in memory: a format or a rotation that succeeds makes room for all entries; behind
a format or a load that succeeds, appends and rotations leave a log that counts down; and behind
a format, reloads and interrupted appends included, what is read and what is left make up all. -/
theorem capacity_exact {path : String} {image : Image} {region : Region} {fresh : Log}
    (bound : Log.ofRegion (Device.ofImage path image) region = .ok fresh)
    (superblock : LogSuperblock) (tail : Option LogBlock) :
    let log : Log := { fresh with superblock, tail }
    let all := entriesPerBlock * (region.stop - region.start - 1)
    (∀ g t w, (Log.format image).Gives log (.ok g) t w ∨ Log.rotate.Gives log (.ok g) t w →
      t.capacity = all) ∧
    (∀ t w, (∃ g, (Log.format image).Gives log (.ok g) t w) ∨
        (Log.load image).Gives log (.ok ()) t w →
      ∀ after : List LogAction, (∀ a ∈ after, a = .rotate ∨ ∃ m, a = .append m) →
        (LogSession.run ⟨t, image.storeAll w⟩ after).2.log.region = region ∧
          (LogSession.run ⟨t, image.storeAll w⟩ after).2.CountsDown) ∧
    (∀ g t w, (Log.format image).Gives log (.ok g) t w → ∀ events : List LogEvent,
      let s := (LogSession.history ⟨t, image.storeAll w⟩ events).2
      ∃ c es, s.log.cursor s.image = .ok c ∧ c.entries s.image = (es, none) ∧
        s.log.capacity + es.length = all) := by
  intro log all
  have hregion : log.region = region := by
    show fresh.region = region
    rw [(Log.ofRegion_eq_ok_iff.1 bound).2]
  have placed : log.Placed image := (Log.placed_of_ofRegion bound).congr rfl rfl rfl
  refine ⟨fun g t w h => ?_, fun t w h after only => ?_, fun g t w h events => ?_⟩
  · obtain ⟨same, tells⟩ := Log.tells_of_renewed placed h
    rw [tells.capacity_empty, same, hregion]
    rfl
  · have hstarted : t.Started (image.storeAll w) ∧ t.region = log.region := by
      rcases h with ⟨g, h⟩ | h
      · exact Log.started_of_format placed h
      · exact Log.started_of_load placed h
    obtain ⟨started, same⟩ :=
      LogSession.started_run (s := ⟨t, image.storeAll w⟩) hstarted.1 after only
    exact ⟨same.trans (hstarted.2.trans hregion), LogSession.countsDown started⟩
  · obtain ⟨same, older, last, packs⟩ := LogSession.exists_packs bound h events
    obtain ⟨c, cursor, read⟩ := packs.shows.entries
    refine ⟨c, _, cursor, read, ?_⟩
    rw [packs.capacity, same]
    rfl

/-- A region of four blocks: an entry is appended, another append is interrupted. -/
theorem capacity_exact_reused :
    let m : Mutation := .addNode 7
    ∃ fresh g t w, Log.ofRegion (Device.ofImage "disk" .reused) ⟨0, 4⟩ = .ok fresh ∧
      (Log.format .reused).Gives fresh (.ok g) t w ∧ t.capacity = 507 ∧
      (LogSession.run ⟨t, Image.reused.storeAll w⟩ [.append m, .rotate, .append m]).2.CountsDown ∧
      let s := (LogSession.history ⟨t, Image.reused.storeAll w⟩
        [.action (.append m), .interrupt m 2, .action .reload]).2
      ∃ c es, s.log.cursor s.image = .ok c ∧ c.entries s.image = (es, none) ∧
        s.log.capacity + es.length = 507 := by
  intro m
  obtain ⟨fresh, g, t, w, bound, formatted⟩ := Image.exists_format_reused
  obtain ⟨renewed, counts, adds⟩ := capacity_exact bound fresh.superblock fresh.tail
  refine ⟨fresh, g, t, w, bound, formatted, renewed g t w (.inl formatted), ?_, ?_⟩
  · exact (counts t w (.inl ⟨g, formatted⟩) _ (by simp)).2
  · exact adds g t w formatted _

end DurableGraph
