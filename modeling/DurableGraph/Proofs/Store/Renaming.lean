import DurableGraph.Proofs.Store.Agreement

/-!
# A device by another name

The path that a device was opened by stands in messages and statistics only.  A store that agrees
with its image agrees with it under any name, so whoever opens the image finds the same log and
the same checkpoint.

    device.get image n              is decided by the image and the capacity of the device
    s.Agrees base older last → (s.renamed path).Agrees base older last          (Agrees.renamed)
    s.Agrees base older last → ofImage? again s.image = some (s.renamed again.device)
-/

namespace DurableGraph

/-! ## Reading -/

variable {device other : Device}

theorem Device.get_eq_of_blockCount (count : other.blockCount = device.blockCount) (image : Image)
    (n : Nat) : other.get image n = device.get image n := by
  unfold get check
  rw [count]

theorem LogBlock.load_eq_of_blockCount (count : other.blockCount = device.blockCount)
    (image : Image) (n : Nat) (generation : UInt64) :
    load other image n generation = load device image n generation := by
  unfold load
  rw [Device.get_eq_of_blockCount count]

namespace WordReader

/-- The reader on another device. -/
def onDevice (r : WordReader) (device : Device) : WordReader := { r with device }

/-- The same word is next. -/
theorem next_onDevice {r : WordReader} (count : other.blockCount = r.device.blockCount)
    (image : Image) :
    (r.onDevice other).next image =
      (r.next image).map fun found => (found.1, found.2.onDevice other) := by
  have hload : (r.onDevice other).load image = r.load image := by
    unfold WordReader.load onDevice
    simp only [Device.get_eq_of_blockCount count]
  unfold WordReader.next
  rw [hload]
  cases r.load image with
  | error e => rfl
  | ok content =>
    show (if r.place + 1 = wordsPerBlock then _ else _) = Except.map _ (if _ then _ else _)
    split
    · rfl
    · rfl

end WordReader

namespace CheckpointSlot

/-- The slot on another device. -/
def onDevice (slot : CheckpointSlot) (device : Device) : CheckpointSlot := { slot with device }

theorem restoreEdges_onDevice (image : Image) (id : NodeId) (n : Nat) {r : WordReader}
    (count : other.blockCount = r.device.blockCount) (g : Graph) :
    restoreEdges image id n (r.onDevice other) g =
      ((restoreEdges image id n r g).1.map fun t => t.onDevice other,
        (restoreEdges image id n r g).2) ∧
      ∀ t, (restoreEdges image id n r g).1 = .ok t → t.device = r.device := by
  induction n generalizing r g with
  | zero =>
    refine ⟨rfl, fun t ok => ?_⟩
    cases ok
    rfl
  | succ n ih =>
    unfold restoreEdges
    rw [WordReader.next_onDevice count]
    cases hnext : r.next image with
    | error e => exact ⟨rfl, fun t ok => by cases ok⟩
    | ok found =>
      obtain ⟨neighbor, t⟩ := found
      have device := WordReader.device_next hnext
      simp only [Except.map]
      cases (g.after (.addNode neighbor)).addEdge id neighbor with
      | error refusal => exact ⟨rfl, fun t ok => by cases ok⟩
      | ok done =>
        rw [← device] at count ⊢
        exact ih count done.2

theorem restoreRecords_onDevice (image : Image) (n : Nat) {r : WordReader}
    (count : other.blockCount = r.device.blockCount) (g : Graph) :
    restoreRecords image n (r.onDevice other) g =
      ((restoreRecords image n r g).1.map fun t => t.onDevice other,
        (restoreRecords image n r g).2) := by
  induction n generalizing r g with
  | zero => rfl
  | succ n ih =>
    unfold restoreRecords
    rw [WordReader.next_onDevice count]
    cases hid : r.next image with
    | error e => rfl
    | ok found =>
      obtain ⟨id, t⟩ := found
      have device := WordReader.device_next hid
      have count' : other.blockCount = t.device.blockCount := by rw [device]; exact count
      simp only [Except.map]
      rw [WordReader.next_onDevice count']
      cases hdegree : t.next image with
      | error e => rfl
      | ok found' =>
        obtain ⟨degree, u⟩ := found'
        have device' := WordReader.device_next hdegree
        have count'' : other.blockCount = u.device.blockCount := by rw [device']; exact count'
        obtain ⟨hedges, stays⟩ := restoreEdges_onDevice image id degree.toNat count''
          (g.after (.addNode id))
        simp only [Except.map]
        rw [hedges]
        rcases hr : restoreEdges image id degree.toNat u (g.after (.addNode id)) with ⟨e | v, h⟩
        · rfl
        · rw [hr] at stays
          have count₃ : other.blockCount = v.device.blockCount := by
            rw [stays v rfl]
            exact count''
          exact ih count₃ h

/-- What is restored does not depend on the name of the device. -/
theorem Restores.onDevice {slot : CheckpointSlot} {image : Image} {generation : UInt64} {g : Graph}
    (h : slot.Restores image generation g) (count : other.blockCount = slot.device.blockCount) :
    (slot.onDevice other).Restores image generation g := by
  by_cases present : slot.has generation = true
  · have present' : (slot.onDevice other).has generation = true := present
    obtain ⟨found, gives⟩ := h
    have restored := (gives_restore_inv gives).2
    rw [if_pos present] at restored
    obtain ⟨t, records⟩ := restored
    have again : restoreRecords image slot.superblock.nodeCount.toNat
        (WordReader.ofRegion other slot.body) ∅ = (.ok (t.onDevice other), g) := by
      have renamed := restoreRecords_onDevice image slot.superblock.nodeCount.toNat
        (r := WordReader.ofRegion slot.device slot.body) count ∅
      rw [records] at renamed
      exact renamed
    exact ⟨_, gives_restore_of_has present' again⟩
  · have absent : slot.has generation = false := Bool.eq_false_iff.2 present
    have absent' : (slot.onDevice other).has generation = false := absent
    rw [h.eq_empty absent]
    exact restores_empty absent'

end CheckpointSlot

/-- The log on another device. -/
def Log.onDevice (log : Log) (device : Device) : Log := { log with device }

/-- What a log tells does not depend on the name of the device. -/
theorem Log.Tells.onDevice {log : Log} {image : Image} {older : List (List Mutation)}
    {last : List Mutation} (h : log.Tells image older last)
    (count : other.blockCount = log.device.blockCount) :
    (log.onDevice other).Tells image older last where
  placed := {
    device_eq := count.trans h.placed.device_eq
    wide := h.placed.wide
    inside := h.placed.inside
    small := h.placed.small }
  start_eq := h.start_eq
  size_eq := h.size_eq
  fits := h.fits
  superblock := h.superblock
  blocks := by
    intro i hi
    obtain ⟨block, load, tells⟩ := h.blocks i hi
    exact ⟨block, (LogBlock.load_eq_of_blockCount count _ _ _).trans load, tells⟩
  tail := by
    obtain ⟨tail, htail, load, tells⟩ := h.tail
    exact ⟨tail, htail, (LogBlock.load_eq_of_blockCount count _ _ _).trans load, tells⟩
  readable := h.readable

/-! ## Stores -/

namespace Session

/-- The session with its device under another name. -/
def renamed (s : Session) (path : String) : Session :=
  let device := { s.store.device with path }
  ⟨⟨device, s.store.log.onDevice device, s.store.checkpoints.onDevice device, s.store.graph,
    s.store.halted⟩, s.image⟩

variable {s t : Session} {base : Graph} {older : List (List Mutation)} {last : List Mutation}

theorem Agrees.renamed (h : s.Agrees base older last) {path : String}
    (named : path.isEmpty = false) : (s.renamed path).Agrees base older last where
  named := named
  count := h.count
  enough := h.enough
  logDevice := rfl
  logRegion := h.logRegion
  slotDevice := rfl
  slotRegion := h.slotRegion
  tells := h.tells.onDevice (by rw [h.logDevice])
  onDisk := h.onDisk
  restores := h.restores.onDevice (by rw [h.slotDevice])
  graph := h.graph
  running := h.running

/-- **Whoever opens the image** finds the store as it is. -/
theorem Agrees.reopen_renamed (h : s.Agrees base older last) {again : Settings}
    (named : again.device.isEmpty = false) (kept : again.format = false) :
    ofImage? again s.image = some (s.renamed again.device) :=
  (h.renamed named).reopen rfl kept

/-- A store that was opened without a format tells what the store before it told. -/
theorem Agrees.agrees_of_reopened (h : s.Agrees base older last) {again : Settings}
    (opened : ofImage? again s.image = some t) (kept : again.format = false) :
    t.Agrees base older last := by
  have named := (ofImage?_eq_some_iff.1 opened).1
  rw [h.reopen_renamed named kept, Option.some.injEq] at opened
  rw [← opened]
  exact h.renamed named

end Session

end DurableGraph
