import DurableGraph.Proofs.Actions
import DurableGraph.Proofs.Log.Steps

/-!
# Actions on a log

A session carries a log and its image through the four actions of a log manager.  Whatever the
log holds in memory and whatever the image holds, an action leaves the log in its region and
stores blocks of its device only.

    (s.perform action).2.image = s.image.storeAll (writes of the action)
    s.log.Placed s.image → t.log.Placed t.image           for t = (s.run actions).2
-/

namespace DurableGraph

/-- What is done with a log; a log is reloaded by binding its region anew and loading it. -/
inductive LogAction where
  | format
  | append (m : Mutation)
  | rotate
  | reload

namespace Log

/-- A log bound to the same region and loaded. -/
def reload (image : Image) : Work Log LogError Unit := do
  let log ← Work.current
  let fresh ← Work.ofExcept (ofRegion log.device log.region)
  Work.replace fresh
  load image

def perform (image : Image) : LogAction → Work Log LogError Unit
  | .format => do
    let _ ← format image
    pure ()
  | .append m => append m
  | .rotate => do
    let _ ← rotate
    pure ()
  | .reload => reload image

end Log

/-- A log and the image that it stands on. -/
structure LogSession where
  log : Log
  image : Image

namespace LogSession

/-- Performs an action, and tells whether it succeeded. -/
def perform (s : LogSession) (action : LogAction) : Bool × LogSession :=
  let step := Log.perform s.image action s.log
  (step.result.isOk, ⟨step.state, s.image.storeAll step.writes⟩)

def run (s : LogSession) (actions : List LogAction) : List Bool × LogSession :=
  performAll perform s actions

theorem perform_of_gives {s : LogSession} {action : LogAction} {r : Except LogError Unit}
    {t : Log} {w : List Buffer} (h : (Log.perform s.image action).Gives s.log r t w) :
    s.perform action = (r.isOk, ⟨t, s.image.storeAll w⟩) := by
  obtain ⟨rfl, rfl, rfl⟩ := h
  rfl

/-- Where an answer is dropped and the action succeeds, an answer was given. -/
theorem exists_gives_of_perform {s : LogSession} {action : LogAction} {α : Type}
    {x : Work Log LogError α} (drops : Log.perform s.image action = x >>= fun _ => pure ())
    (done : (s.perform action).1 = true) :
    ∃ a t w, x.Gives s.log (.ok a) t w ∧ s.perform action = (true, ⟨t, s.image.storeAll w⟩) := by
  have hgives := Work.gives_self x s.log
  have hperform := hgives.map fun _ => ()
  rw [← drops] at hperform
  rw [perform_of_gives hperform] at done ⊢
  cases hr : (x s.log).result with
  | error e =>
    rw [hr] at done
    cases done
  | ok a =>
    rw [hr] at hgives
    exact ⟨a, _, _, hgives, rfl⟩

end LogSession

/-! ## Where a log stands -/

namespace Log

variable {α β : Type} {device : Device} {region : Region}

/-- Work that leaves a log where it stands, and stores blocks of its device only. -/
def Stays (device : Device) (region : Region) (x : Work Log LogError α) : Prop :=
  ∀ log : Log, log.device = device → log.region = region →
    (x log).state.device = device ∧ (x log).state.region = region ∧
      ∀ buffer ∈ (x log).writes, buffer.number < device.blockCount

theorem stays_pure (a : α) : Stays device region (pure a) :=
  fun _ hd hr => ⟨hd, hr, fun _ hb => absurd hb List.not_mem_nil⟩

theorem stays_fail (e : LogError) : Stays device region (Work.fail e : Work Log LogError α) :=
  fun _ hd hr => ⟨hd, hr, fun _ hb => absurd hb List.not_mem_nil⟩

theorem stays_note (notice : Notice) : Stays device region (Work.note notice) :=
  fun _ hd hr => ⟨hd, hr, fun _ hb => absurd hb List.not_mem_nil⟩

theorem stays_ofExcept (e : Except LogError α) : Stays device region (Work.ofExcept e) :=
  fun _ hd hr => ⟨hd, hr, fun _ hb => absurd hb List.not_mem_nil⟩

theorem stays_ask (wrap : DeviceError → LogError) (answer : Except DeviceError α) :
    Stays device region (Work.ask wrap answer) := stays_ofExcept _

theorem stays_replace {log : Log} (hd : log.device = device) (hr : log.region = region) :
    Stays device region (Work.replace log) :=
  fun _ _ _ => ⟨hd, hr, fun _ hb => absurd hb List.not_mem_nil⟩

theorem stays_store (wrap : DeviceError → LogError) (buffer : Buffer) :
    Stays device region (Work.store wrap device buffer) := by
  intro log hd hr
  unfold Work.store Device.check
  by_cases h : buffer.number < device.blockCount
  · rw [if_pos h]
    refine ⟨hd, hr, fun b hb => ?_⟩
    rw [List.mem_singleton.1 hb]
    exact h
  · rw [if_neg h]
    exact ⟨hd, hr, fun _ hb => absurd hb List.not_mem_nil⟩

theorem Stays.bind {x : Work Log LogError α} {f : α → Work Log LogError β}
    (h : Stays device region x) (h' : ∀ a, Stays device region (f a)) :
    Stays device region (x >>= f) := by
  intro log hd hr
  obtain ⟨hd', hr', hw⟩ := h log hd hr
  rcases hx : x log with ⟨e | a, t, writes, notices⟩
  · rw [hx] at hd' hr' hw
    rw [Work.bind_apply_error hx]
    exact ⟨hd', hr', hw⟩
  · rw [hx] at hd' hr' hw
    rw [Work.bind_apply_ok hx]
    obtain ⟨hd'', hr'', hw'⟩ := h' a t hd' hr'
    refine ⟨hd'', hr'', fun b hb => ?_⟩
    rcases List.mem_append.1 hb with hb | hb
    · exact hw b hb
    · exact hw' b hb

/-- The log that is looked at stands where the work began. -/
theorem stays_current {f : Log → Work Log LogError β}
    (h : ∀ log : Log, log.device = device → log.region = region → Stays device region (f log)) :
    Stays device region (Work.current >>= f) := by
  intro log hd hr
  obtain ⟨hd', hr', hw⟩ := h log hd hr log hd hr
  obtain ⟨-, hstate, hwrites⟩ :=
    (Work.gives_self (Work.current >>= f) log).unique ((Work.gives_current log).then
      (Work.gives_self (f log) log))
  rw [hstate, hwrites]
  exact ⟨hd', hr', hw⟩

theorem stays_ofExcept_bind {e : Except LogError α} {f : α → Work Log LogError β}
    (h : ∀ a, e = .ok a → Stays device region (f a)) :
    Stays device region (Work.ofExcept e >>= f) := by
  cases e with
  | error e =>
    intro log hd hr
    exact ⟨hd, hr, fun _ hb => absurd hb List.not_mem_nil⟩
  | ok a =>
    intro log hd hr
    obtain ⟨-, hstate, hwrites⟩ :=
      (Work.gives_self (Work.ofExcept (.ok a) >>= f) log).unique
        ((Work.gives_ofExcept rfl log).then (Work.gives_self (f a) log))
    rw [hstate, hwrites]
    exact h a rfl log hd hr

theorem Stays.or_skip {c : Prop} [Decidable c] {x y : Work Log LogError Unit}
    (hx : Stays device region x) (hy : Stays device region y) :
    Stays device region (if c then x >>= fun _ => y else y) := by
  split
  · exact hx.bind fun _ => hy
  · exact hy

theorem stays_storeSuperblock (s : LogSuperblock) : Stays device region (storeSuperblock s) := by
  unfold storeSuperblock
  apply stays_current
  rintro log rfl rfl
  exact (stays_ask _ _).bind fun buffer => stays_store _ _

theorem stays_rotate : Stays device region rotate := by
  unfold rotate
  apply stays_current
  rintro log rfl rfl
  split
  · exact stays_fail _
  · refine (stays_storeSuperblock _).bind fun _ => ?_
    refine Stays.bind (stays_replace rfl rfl) fun _ => ?_
    refine (stays_ask _ _).bind fun buffer => ?_
    refine (stays_store _ _).bind fun _ => ?_
    refine Stays.bind (stays_replace rfl rfl) fun _ => ?_
    exact (stays_note _).bind fun _ => stays_pure _

theorem stays_format (image : Image) : Stays device region (format image) := by
  unfold format
  apply stays_current
  rintro log rfl rfl
  refine (stays_ask _ _).bind fun buffer => ?_
  split
  · refine (stays_note _).bind fun _ => ?_
    exact Stays.bind (stays_replace rfl rfl) fun _ => stays_rotate
  · refine Stays.bind (stays_replace rfl rfl) fun _ => ?_
    exact (stays_storeSuperblock _).bind fun _ => stays_rotate

theorem stays_load (image : Image) : Stays device region (load image) := by
  unfold load
  apply stays_current
  rintro log rfl rfl
  refine (stays_ask _ _).bind fun buffer => ?_
  refine (stays_ofExcept _).bind fun superblock => ?_
  simp only
  split
  · exact stays_fail _
  · refine (stays_ofExcept _).bind fun tail => ?_
    exact Stays.bind (stays_replace rfl rfl) fun _ => stays_note _

theorem stays_extend : Stays device region extend := by
  unfold extend
  apply stays_current
  rintro log rfl rfl
  simp only
  split
  · exact stays_fail _
  · refine (stays_ask _ _).bind fun buffer => ?_
    refine (stays_store _ _).bind fun _ => ?_
    refine (stays_storeSuperblock _).bind fun _ => ?_
    exact Stays.bind (stays_replace rfl rfl) fun _ => stays_note _

theorem stays_append (m : Mutation) : Stays device region (append m) := by
  unfold append
  apply stays_current
  intro log _ _
  split
  · exact stays_fail _
  · -- a full tail and one with room end alike
    refine stays_extend.or_skip ?_
    apply stays_current
    rintro log rfl rfl
    split
    · exact stays_fail _
    · exact (stays_store _ _).bind fun _ => stays_replace rfl rfl

theorem stays_perform (image : Image) (action : LogAction) :
    Stays device region (perform image action) := by
  cases action with
  | format => exact (stays_format image).bind fun _ => stays_pure _
  | append m => exact stays_append m
  | rotate => exact stays_rotate.bind fun _ => stays_pure _
  | reload =>
    show Stays device region (reload image)
    unfold reload
    apply stays_current
    rintro log rfl rfl
    apply stays_ofExcept_bind
    intro fresh bound
    obtain ⟨-, rfl⟩ := ofRegion_eq_ok_iff.1 bound
    exact Stays.bind (stays_replace rfl rfl) fun _ => stays_load image

end Log

namespace LogSession

theorem placed_perform {s : LogSession} (placed : s.log.Placed s.image) (action : LogAction) :
    (s.perform action).2.log.Placed (s.perform action).2.image ∧
      (s.perform action).2.log.region = s.log.region := by
  obtain ⟨hdevice, hregion, hwrites⟩ := Log.stays_perform s.image action s.log rfl rfl
  have fits : s.image.Fits (Log.perform s.image action s.log).writes := by
    intro buffer hb
    rw [← placed.device_eq]
    exact hwrites buffer hb
  exact ⟨placed.congr hdevice hregion (Image.blockCount_storeAll fits), hregion⟩

theorem placed_run {s : LogSession} (placed : s.log.Placed s.image) (actions : List LogAction) :
    (s.run actions).2.log.Placed (s.run actions).2.image ∧
      (s.run actions).2.log.region = s.log.region := by
  refine performAll_keeps (fun t : LogSession => t.log.Placed t.image ∧
    t.log.region = s.log.region) ?_ ⟨placed, rfl⟩ actions
  rintro t action ⟨placed', same⟩
  obtain ⟨placed'', stays⟩ := placed_perform placed' action
  exact ⟨placed'', stays.trans same⟩

end LogSession

end DurableGraph
