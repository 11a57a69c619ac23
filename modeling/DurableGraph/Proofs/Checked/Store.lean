import DurableGraph.Proofs.Checked.Checkpoint
import DurableGraph.Proofs.Checked.Cursor
import DurableGraph.Proofs.Checkpoint.Growth
import DurableGraph.Proofs.Store.Serving

/-!
# The store in checked arithmetic

A store is opened on any file, and serves any requests, without a fault: no number wraps, no slice
leaves its bounds, and no block is asked for that the device does not have.

    openFileChecked settings file () = .ok (openFile settings file ())
    serveChecked request store       = .ok (serve request store)      in any run
-/

namespace DurableGraph

open Checked Work

instance : DeviceErrors StoreError where
  beyond
    | .device (.noSpace ..) => true
    | .log error | .rotationFailed error => DeviceErrors.beyond error
    | .checkpoint error => DeviceErrors.beyond error
    | _ => false

theorem StoreError.beyond_log (e : LogError) :
    DeviceErrors.beyond (StoreError.log e) = DeviceErrors.beyond e := rfl

theorem StoreError.beyond_rotationFailed (e : LogError) :
    DeviceErrors.beyond (StoreError.rotationFailed e) = DeviceErrors.beyond e := rfl

/-- A client is told of refusals only. -/
instance : DeviceErrors Refusal where
  beyond _ := false

def regionsChecked (blockCount : Nat) : Checked (Except StoreError (Region × Region)) := do
  let border := blockCount / 5
  let rest ← sub blockCount border
  if border < 2 ∨ rest < 2 then pure (.error (.tooSmall blockCount))
  else pure (.ok (⟨0, border⟩, ⟨border, blockCount⟩))

/-- Counts entries one by one. -/
def tally (count : Nat) : List Mutation → Checked Nat
  | [] => pure count
  | _ :: rest => do
    let count ← add64 count 1
    tally count rest

namespace Store

/-! ## Parts -/

def onLogChecked (wrap : LogError → StoreError) {α : Type} (x : Guarded Log LogError α) :
    Guarded Store StoreError α :=
  .onPart log (fun store log => { store with log }) wrap x

def onCheckpointsChecked {α : Type} (x : Guarded CheckpointSlot CheckpointError α) :
    Guarded Store StoreError α :=
  .onPart checkpoints (fun store checkpoints => { store with checkpoints }) .checkpoint x

def onGraphChecked {α : Type} (x : Guarded Graph CheckpointError α) : Guarded Store StoreError α :=
  .onPart graph (fun store graph => { store with graph }) .checkpoint x

/-! ## Opening -/

def formatChecked (image : Image) : Guarded Store StoreError Unit := do
  let generation ← onLogChecked .log (Log.formatChecked image)
  onCheckpointsChecked CheckpointSlot.formatChecked
  let store ← .of current
  .of (replace { store with graph := ∅ })
  .of (note (.storeFormatted store.device.path store.device.blockCount generation.toNat))

def recoverChecked (image : Image) : Guarded Store StoreError Unit := do
  onLogChecked .log (Log.loadChecked image)
  onCheckpointsChecked (CheckpointSlot.loadChecked image)
  let store ← .of current
  let generation := store.log.generation
  .of (note (.recoveryBegun generation.toNat))
  let before := if generation = 0 then 0 else generation - 1
  let restored ← onGraphChecked (store.checkpoints.restoreChecked image before)
  let cursor ← .answer ((store.log.cursorChecked image).map fun c => c.mapError .log)
  let (entries, failure) ← .check (cursor.entriesChecked image)
  let replayed ← .check (tally 0 entries)
  let store ← .of current
  let graph := store.graph.replay entries
  .of (noteAll (List.zipWith .replayed entries (store.graph.replayStatuses entries)))
  .of (replace { store with graph })
  match failure with
  | some e => .of (fail (.log e))
  | none =>
    .of (note (.recovered generation.toNat restored.toNat replayed graph.nodeCount graph.edgeCount))

def openImageChecked (settings : Settings) (image : Image) : Guarded Unit StoreError Store := do
  let device := Device.ofImage settings.device image
  .of (note (.deviceOpened device.path device.blockCount settings.directIo))
  let (logRegion, checkpointRegion) ← .answer (regionsChecked device.blockCount)
  let log ← .answer ((Log.ofRegionChecked device logRegion).map fun log => log.mapError .log)
  let checkpoints ←
    .of (ofExcept ((CheckpointSlot.ofRegion device checkpointRegion).mapError .checkpoint))
  .startingAt ⟨device, log, checkpoints, ∅, false⟩
    (if settings.format then formatChecked image else recoverChecked image)

def openFileChecked (settings : Settings) (file : Except FileFault Image) :
    Guarded Unit StoreError Store :=
  .reported do
    .of (ofExcept (settings.validate.mapError .settings))
    match file with
    | .ok image => openImageChecked settings image
    | .error fault => .of (fail (.device (.openFailed settings.device fault)))

/-! ## Serving -/

def settleChecked {α : Type} (x : Guarded Store StoreError α) : Guarded Store Refusal α :=
  x.reported.onError fun e =>
    if e.isNoSpace then do
      note (.outOfSpace e.message)
      fail .noSpace
    else do
      let store ← current
      replace { store with halted := true }
      note (.halted e.message)
      fail e.refusal

def mutateChecked (m : Mutation) : Guarded Store Refusal Outcome := do
  .of running
  settleChecked (onLogChecked .log (Log.appendChecked m))
  let store ← .of current
  match store.graph.apply m with
  | .ok (outcome, graph) =>
    .of (replace { store with graph })
    pure outcome
  | .error refusal => .of (fail refusal)

def commitAndRotateChecked : Guarded Store StoreError UInt64 := do
  let store ← .of current
  let generation := store.log.generation
  onCheckpointsChecked (CheckpointSlot.commitChecked generation store.graph)
  let next ← onLogChecked .rotationFailed Log.rotateChecked
  .of (note (.checkpointed generation.toNat next.toNat store.graph.nodeCount))
  pure next

def checkpointChecked : Guarded Store Refusal UInt64 := do
  .of running
  settleChecked commitAndRotateChecked

def serveChecked : Request → Guarded Store Refusal Reply
  | .mutation m => do return .outcome (← mutateChecked m)
  | .query q => .of (look q)
  | .checkpoint => do return .checkpointed (← checkpointChecked)
  | .edgePart .. => .of (fail .wrongPartition)

def statsChecked (store : Store) : Checked Stats := do
  let stop ← store.log.superblock.segmentEndChecked
  let capacity ← store.log.capacityChecked
  pure { store.stats with segment := ⟨store.log.segment.start, stop⟩, capacity }

end Store

/-! ## Numbers -/

theorem regionsChecked_eq_ok (blockCount : Nat) :
    regionsChecked blockCount = .ok (regions blockCount) := by
  unfold regionsChecked regions
  simp only
  rw [sub_eq_ok (Nat.div_le_self blockCount 5), ok_bind]
  split
  · rfl
  · rfl

theorem beyond_regions {blockCount : Nat} {e : StoreError}
    (failed : regions blockCount = .error e) : DeviceErrors.beyond e = false := by
  unfold regions at failed
  simp only at failed
  split at failed
  · cases failed
    rfl
  · cases failed

/-- By induction on the entries. -/
theorem tally_eq_ok {count : Nat} {entries : List Mutation}
    (few : count + entries.length < UInt64.size) :
    tally count entries = .ok (count + entries.length) := by
  induction entries generalizing count with
  | nil => rfl
  | cons m rest ih =>
    rw [List.length_cons, Nat.add_comm rest.length 1, ← Nat.add_assoc] at few ⊢
    unfold tally
    rw [add64_eq_ok (by omega), ok_bind]
    exact ih few

/-- The device of a log with block numbers of 32 bits has bytes with numbers of 64. -/
theorem Device.addressable_of_fifth {device : Device}
    (small : device.blockCount / 5 < UInt32.size) : device.Addressable := by
  have small' : device.blockCount / 5 < 4294967296 := small
  show device.blockCount * 4096 < 18446744073709551616
  omega

namespace Store

variable {image : Image} {s : Store} {α : Type}

/-! ## Parts -/

theorem safe_onLog {wrap : LogError → StoreError}
    (wraps : ∀ e, DeviceErrors.beyond (wrap e) = DeviceErrors.beyond e)
    {x : Guarded Log LogError α} {y : Work Log LogError α} (h : Safe x y s.log) :
    Safe (onLogChecked wrap x) (onLog wrap y) s :=
  h.onPart fun e fine => (wraps e).trans fine

theorem safe_onCheckpoints {x : Guarded CheckpointSlot CheckpointError α}
    {y : Work CheckpointSlot CheckpointError α} (h : Safe x y s.checkpoints) :
    Safe (onCheckpointsChecked x) (onCheckpoints y) s :=
  h.onPart fun _ fine => fine

theorem safe_onGraph {x : Guarded Graph CheckpointError α} {y : Work Graph CheckpointError α}
    (h : Safe x y s.graph) : Safe (onGraphChecked x) (onGraph y) s :=
  h.onPart fun _ fine => fine

/-! ## Opening -/

theorem safe_format (logAll : s.log.device.Addressable)
    (slotAll : s.checkpoints.device.Addressable) (placed : s.log.Placed image)
    (slot : s.checkpoints.Placed image) : Safe (formatChecked image) (format image) s := by
  unfold formatChecked format
  refine (safe_onLog StoreError.beyond_log (Log.safe_format logAll placed image)).bind
    fun generation t w gives => ?_
  obtain ⟨log, -, rfl⟩ := gives.of_onPart
  have safeSlot := CheckpointSlot.safe_format slotAll slot
  refine (safe_onCheckpoints (s := { s with log }) safeSlot).bind fun _ t w gives => ?_
  exact Safe.current (Safe.replace (Safe.of_ok (Work.gives_note _ _)))

theorem safe_recover (logAll : s.log.device.Addressable)
    (slotAll : s.checkpoints.device.Addressable) (placed : s.log.Placed image)
    (slot : s.checkpoints.Placed image) : Safe (recoverChecked image) (recover image) s := by
  unfold recoverChecked recover
  refine (safe_onLog StoreError.beyond_log (Log.safe_load logAll placed image)).bind
    fun _ t w gives => ?_
  obtain ⟨log, load, rfl⟩ := gives.of_onPart
  obtain ⟨-, tail, -, -, hstart, hsize, hend, -, hlog, -⟩ := Log.load_inv load
  have hdevice : log.device = s.log.device := by rw [hlog]
  have inside : log.superblock.segmentEnd ≤ log.device.blockCount := by
    rw [hdevice, placed.device_eq]
    exact Nat.le_trans hend placed.inside
  obtain ⟨cursor, bounded, beyond⟩ :=
    Log.cursorChecked_eq_ok (by rw [hdevice]; exact logAll) inside hsize image
  have safeSlot := CheckpointSlot.safe_load slotAll slot image
  refine (safe_onCheckpoints (s := { s with log }) safeSlot).bind fun _ t w gives => ?_
  obtain ⟨loaded, loadSlot, rfl⟩ := gives.of_onPart
  obtain ⟨content, held⟩ := slot.exists_block
  obtain ⟨-, rfl, -⟩ := (CheckpointSlot.gives_load slot held).unique loadSlot
  refine Safe.current (Safe.note ?_)
  have placed' : (s.checkpoints.withSuperblock (.decode content)).Placed image :=
    slot.congr rfl rfl rfl
  have slotAll' : (s.checkpoints.withSuperblock (.decode content)).device.Addressable := slotAll
  have safeGraph := CheckpointSlot.safe_restore slotAll' placed' image
    (if log.generation = 0 then 0 else log.generation - 1) s.graph
  dsimp only
  refine (safe_onGraph (s := { s with
    log, checkpoints := s.checkpoints.withSuperblock (.decode content) }) safeGraph).bind
    fun restored t w gives => ?_
  obtain ⟨base, -, rfl⟩ := gives.of_onPart
  refine (Safe.answer_mapError cursor StoreError.beyond_log beyond).bind fun c t w gives => ?_
  obtain ⟨hc, rfl, -⟩ := gives
  have found : log.cursor image = .ok c := Work.mapError_eq_ok_iff.1 hc
  obtain ⟨entries, few, beyond⟩ := (bounded c found).entries image
  refine Safe.check entries ?_
  rcases read : c.entries image with ⟨ms, failure⟩
  rw [read] at few beyond
  have counted : tally 0 ms = .ok ms.length := by
    have small : 0 + ms.length < UInt64.size := by
      rw [Nat.zero_add]
      exact (bounded c found).lt_of_le_left few
    rw [tally_eq_ok small, Nat.zero_add]
  refine Safe.check counted (Safe.current ?_)
  refine (Safe.of_ok (Work.gives_noteAll _ _)).bind fun _ _ _ _ => Safe.replace ?_
  cases failure with
  | some e => exact Safe.fail (beyond e rfl)
  | none => exact Safe.of_ok (Work.gives_note _ _)

/-- **Opening**, whatever the settings are and whatever became of the file. -/
theorem safe_openFile (settings : Settings) (file : Except FileFault Image) :
    Safe (openFileChecked settings file) (openFile settings file) () := by
  unfold openFileChecked openFile
  refine Safe.reported ?_
  refine (Safe.ofExcept fun _ => rfl).bind fun _ _ _ gives => ?_
  cases file with
  | error fault => exact Safe.fail rfl
  | ok image =>
    unfold openImageChecked openImage
    refine Safe.note ?_
    refine (Safe.answer (regionsChecked_eq_ok _) fun _ => beyond_regions).bind
      fun split t w gives => ?_
    obtain ⟨hsplit, rfl, -⟩ := gives
    obtain ⟨enough, rfl⟩ := regions_eq_ok_iff.1 hsplit
    refine (Safe.answer_mapError (Log.ofRegionChecked_eq_ok _ _) StoreError.beyond_log
      fun _ => Log.beyond_ofRegion).bind fun log t w gives => ?_
    obtain ⟨hlog, rfl, -⟩ := gives
    obtain ⟨⟨-, -, small⟩, rfl⟩ := Log.ofRegion_eq_ok_iff.1 (Work.mapError_eq_ok_iff.1 hlog)
    have hslot : CheckpointSlot.ofRegion (Device.ofImage settings.device image)
        ⟨image.blockCount / 5, image.blockCount⟩ = .ok (blank settings.device image).checkpoints :=
      blank_checkpoints enough
    refine (Safe.of_ok (Work.gives_ofExcept (Work.mapError_eq_ok_iff.2 hslot) ())).bind
      fun slot t w gives => ?_
    obtain ⟨hslot', rfl, -⟩ := gives
    rw [hslot] at hslot'
    cases hslot'
    have all : (Device.ofImage settings.device image).Addressable :=
      Device.addressable_of_fifth small
    have placed := Session.placed_blank_log settings.device enough small
    have slot := Session.placed_blank_checkpoints settings.device enough small
    refine Safe.startingAt ?_
    split
    · exact safe_format (s := blank settings.device image) all all placed slot
    · exact safe_recover (s := blank settings.device image) all all placed slot

/-! ## Serving -/

/-- Work that tells of refusals only. -/
theorem safe_of_refusal (y : Work Store Refusal α) : Safe (.of y) y s := Safe.of_work fun _ _ => rfl

theorem safe_settle {x : Guarded Store StoreError α} {y : Work Store StoreError α}
    (h : Safe x y s) : Safe (settleChecked x) (settle y) s := by
  unfold settleChecked settle
  exact (Safe.reported h).onError fun _ _ _ _ => rfl

/-- A store that has halted goes no further. -/
theorem safe_running {f : Unit → Guarded Store Refusal α} {g : Unit → Work Store Refusal α}
    (h : s.halted = false → Safe (f ()) (g ()) s) : Safe (.of running >>= f) (running >>= g) s := by
  refine (safe_of_refusal running).bind fun _ t w gives => ?_
  cases halted : s.halted with
  | false =>
    obtain ⟨-, rfl, -⟩ := (gives_running halted).unique gives
    exact h halted
  | true => cases ((gives_running_halted halted).unique gives).1

theorem safe_mutate
    (h : s.halted = false → s.log.device.Addressable ∧ s.log.Started image) (m : Mutation) :
    Safe (mutateChecked m) (mutate m) s := by
  unfold mutateChecked mutate
  refine safe_running fun running => ?_
  obtain ⟨all, started⟩ := h running
  refine (safe_settle (safe_onLog StoreError.beyond_log (Log.safe_append all started m))).bind
    fun _ t w gives => ?_
  refine Safe.current ?_
  cases t.graph.apply m with
  | error refusal => exact safe_of_refusal _
  | ok done => exact Safe.replace (Safe.pure _ _)

theorem safe_commitAndRotate (logAll : s.log.device.Addressable)
    (slotAll : s.checkpoints.device.Addressable) (placed : s.log.Placed image)
    (slot : s.checkpoints.Placed image) (few : s.graph.words.length < UInt64.size) :
    Safe commitAndRotateChecked commitAndRotate s := by
  unfold commitAndRotateChecked commitAndRotate
  refine Safe.current ?_
  have safeCommit := CheckpointSlot.safe_commit slotAll slot s.log.generation few
  refine (safe_onCheckpoints safeCommit).bind fun _ t w gives => ?_
  obtain ⟨committed, -, rfl⟩ := gives.of_onPart
  refine (safe_onLog (s := { s with checkpoints := committed }) StoreError.beyond_rotationFailed
    (Log.safe_rotate logAll placed)).bind fun next t w gives => ?_
  exact Safe.note (Safe.pure _ _)

end Store

/-! ## Sessions -/

namespace Session

variable {s t : Session} {base : Graph} {older : List (List Mutation)} {last : List Mutation}

theorem Agrees.addressable (h : s.Agrees base older last) : s.store.device.Addressable := by
  have small := h.tells.placed.small
  rw [h.logRegion] at small
  exact Device.addressable_of_fifth small

/-- **The words of the graph can be counted**: there are few in the checkpoint that it was restored
from, and few entries in the log. -/
theorem Agrees.length_words_lt (h : s.Agrees base older last) :
    s.store.graph.words.length < UInt64.size := by
  have small := h.addressable.blockCount_lt
  have entries : (older.flatten ++ last).length ≤
      entriesPerBlock * s.store.device.blockCount := by
    rw [← h.logDevice]
    exact h.tells.length_entries_le (h.logDevice ▸ h.addressable)
  have body : s.store.checkpoints.bodyWords ≤ s.store.device.blockCount * wordsPerBlock := by
    unfold CheckpointSlot.bodyWords CheckpointSlot.body
    rw [h.slotRegion]
    exact Nat.mul_le_mul_right _ (Nat.sub_le _ _)
  have restored := h.restores.length_words_le h.placed
  have grown := h.restores.simple.length_words_replay (older.flatten ++ last)
  rw [← h.graph] at grown
  show _ < 18446744073709551616
  unfold entriesPerBlock at entries
  unfold wordsPerBlock at body
  omega

/-- **Any request** to a sound session goes through. -/
theorem Sound.safe_serve (h : s.Sound) (request : Request) :
    Safe (Store.serveChecked request) (Store.serve request) s.store := by
  have agrees (running : s.store.halted = false) : ∃ base older last, s.Agrees base older last := by
    obtain agrees | halted := h
    · exact agrees
    · rw [running] at halted
      cases halted
  cases request with
  | mutation m =>
    have started (running : s.store.halted = false) :
        s.store.log.device.Addressable ∧ s.store.log.Started s.image := by
      obtain ⟨base, older, last, h⟩ := agrees running
      exact ⟨h.logDevice ▸ h.addressable, h.tells.started⟩
    exact (Store.safe_mutate started m).bind fun _ t _ _ => Safe.pure _ t
  | query q => exact Store.safe_of_refusal _
  | checkpoint =>
    refine Safe.bind (Store.safe_running fun running => ?_) fun _ t _ _ => Safe.pure _ t
    obtain ⟨base, older, last, h⟩ := agrees running
    exact Store.safe_settle (Store.safe_commitAndRotate (h.logDevice ▸ h.addressable)
      (h.slotDevice ▸ h.addressable) h.tells.placed h.placed h.length_words_lt)
  | edgePart access near far => exact Store.safe_of_refusal _

end Session

/-- A log that can be counted stays so in any run, by induction on the run: where a rotation has
failed it is the log as it was. -/
theorem Run.countable {s t : Session} {events : List SessionEvent} (run : Run s events t)
    (sound : s.Sound) (countable : s.store.log.Countable) : t.store.log.Countable := by
  induction run with
  | nil => exact countable
  | serve request rest ih =>
    refine ih (sound.serve request) ?_
    obtain ⟨base, older, last, h⟩ | halted := sound
    · obtain goesOn | ⟨-, -, -, same, -⟩ := h.serve request
      · obtain ⟨_, _, _, h'⟩ := goesOn.agrees
        exact h'.tells.started.countable
      · rw [same]
        exact countable
    · rw [Session.serve_halted halted]
      exact countable
  | reopen settings opened rest ih =>
    obtain ⟨_, _, _, h⟩ := Session.exists_agrees_of_ofImage? opened
    exact ih (.inl ⟨_, _, _, h⟩) h.tells.started.countable

/-! ## Top theorem -/

/-- **No arithmetic or index fault on any image.**  A store is opened on any file, formatting it
or not, and where that fails the device has not told of a block that it does not have; and a store
that was opened serves any request and tells its statistics without a fault, whatever has been
served since, reopenings in between. -/
theorem faultless_of_run :
    (∀ settings file,
      Store.openFileChecked settings file () = .ok (Store.openFile settings file ()) ∧
      ∀ e, (Store.openFile settings file ()).result = .error e → DeviceErrors.beyond e = false) ∧
    ∀ settings image s events t, Session.ofImage? settings image = some s → Run s events t →
      (∀ request, Store.serveChecked request t.store = .ok (t.step request)) ∧
      t.store.statsChecked = .ok t.store.stats := by
  refine ⟨fun settings file => ?_, fun settings image s events t opened run => ?_⟩
  · obtain ⟨checked, onDevice⟩ := Store.safe_openFile settings file
    exact ⟨checked, onDevice⟩
  · obtain ⟨base, older, last, h⟩ := Session.exists_agrees_of_ofImage? opened
    have sound : s.Sound := .inl ⟨base, older, last, h⟩
    have countable := run.countable sound h.tells.started.countable
    refine ⟨fun request => ((run.sound sound).safe_serve request).eq, ?_⟩
    unfold Store.statsChecked
    rw [LogSuperblock.segmentEndChecked_eq_ok, ok_bind, Log.capacityChecked_eq_ok countable]
    rfl

/-- A store with one node in its checkpoint, that is opened again and serves any request. -/
theorem faultless_of_run_reused :
    ∃ s t events, Session.ofImage? ⟨"disk", true, false, "warn"⟩ .reused = some s ∧
      Run s events t ∧ t.store.graph = (∅ : Graph).after (.addNode 7) ∧
      (∀ request, Store.serveChecked request t.store = .ok (t.step request)) ∧
      t.store.statsChecked = .ok t.store.stats ∧
      Store.openFileChecked ⟨"disk", false, false, "warn"⟩ (.ok t.image) () =
        .ok (Store.openFile ⟨"disk", false, false, "warn"⟩ (.ok t.image) ()) := by
  obtain ⟨opens, serves_of⟩ := faultless_of_run
  obtain ⟨s, t, events, -, opened, -, run, h, -, -, -, -⟩ := Session.exists_checkpointed_reused
  obtain ⟨serves, stats⟩ := serves_of _ _ s events t opened run
  exact ⟨s, t, events, opened, run, h.graph, serves, stats, (opens _ (.ok t.image)).1⟩

end DurableGraph
