import DurableGraph.Proofs.Checked.Arithmetic
import DurableGraph.Proofs.Checkpoint.Restoring
import DurableGraph.Proofs.Checkpoint.Slot

/-!
# The checkpoint in checked arithmetic

A writer or a reader of words is bounded where it stands in a block of its region, or at the end
of it with no word of a block in hand.  It stays so from word to word, whatever the words are.

    w.Bounded              push and pushAll go through
    r.Bounded              next, restoreEdges and restoreRecords go through
    slot.Placed image      format, load, restore; commit, for a graph whose words can be counted
-/

namespace DurableGraph

open Checked Work

instance : DeviceErrors CheckpointError where
  beyond
    | .device (.noSpace ..) => true
    | _ => false

/-- The fields of a superblock. -/
def CheckpointSuperblock.fields : List (Nat × Nat) := [(0, 8), (8, 8), (16, 8)]

theorem CheckpointSuperblock.fields_eq_ok :
    Checked.fields blockSize CheckpointSuperblock.fields = .ok () := rfl

/-! ## Writing words -/

namespace WordWriter

def pushChecked (w : WordWriter) (word : UInt64) : Checked (Except CheckpointError WordWriter) :=
  if w.pending.isEmpty ∧ w.stop ≤ w.block then pure (.error (.noSpace w.block))
  else do
    let _ ← w.device.byteOffset w.block
    let _ ← wordStart w.pending.size
    let size ← add64 w.pending.size 1
    if size = wordsPerBlock then
      let _ ← add64 w.block 1
      pure (w.push word)
    else pure (w.push word)

def pushAllChecked (w : WordWriter) :
    List UInt64 → Checked (Except CheckpointError WordWriter)
  | [] => pure (.ok w)
  | word :: rest => do
    match ← w.pushChecked word with
    | .ok next => pushAllChecked next rest
    | .error e => pure (.error e)

/-- A writer fills a block of its region, or has no words for the next one yet. -/
structure Bounded (w : WordWriter) : Prop where
  all : w.device.Addressable
  inside : w.stop ≤ w.device.blockCount
  few : w.pending.size < wordsPerBlock
  block_lt : w.pending.isEmpty = false → w.block < w.stop

variable {w : WordWriter}

theorem bounded_ofRegion {device : Device} {region : Region} (all : device.Addressable)
    (inside : region.stop ≤ device.blockCount) : (ofRegion device region).Bounded where
  all := all
  inside := inside
  few := Nat.zero_lt_succ 511
  block_lt := nofun

/-- The word that comes next begins or continues a block of the region. -/
theorem Bounded.lt_of_room (h : w.Bounded) (room : ¬ (w.pending.isEmpty ∧ w.stop ≤ w.block)) :
    w.block < w.stop := by
  cases fresh : w.pending.isEmpty with
  | false => exact h.block_lt fresh
  | true => exact Nat.lt_of_not_le fun done => room ⟨fresh, done⟩

theorem Bounded.push (h : w.Bounded) (word : UInt64) :
    w.pushChecked word = .ok (w.push word) ∧
      (∀ t, w.push word = .ok t → t.Bounded) ∧
      (∀ e, w.push word = .error e → DeviceErrors.beyond e = false) := by
  by_cases done : w.pending.isEmpty ∧ w.stop ≤ w.block
  · have hroom : w.room = .error (.noSpace w.block) := by
      unfold WordWriter.room
      simp [done.1, done.2]
    have hpush : w.push word = .error (.noSpace w.block) := by
      unfold WordWriter.push
      rw [hroom]
    rw [hpush]
    refine ⟨if_pos done, nofun, fun e he => ?_⟩
    cases he
    rfl
  · have hlt := h.lt_of_room done
    have hinside := h.inside
    have hdevice : w.block < w.device.blockCount := Nat.lt_of_lt_of_le hlt hinside
    have few := h.few
    have hroom : w.room = .ok () := by
      refine room_eq_ok hinside ?_
      unfold wordsPerBlock
      omega
    rw [push_eq hroom, Array.size_push]
    refine ⟨?_, fun t ht => ?_, nofun⟩
    · unfold pushChecked
      rw [if_neg done, Device.byteOffset_eq_ok h.all hdevice, ok_bind, wordStart_eq_ok few,
        ok_bind, add64_word few, ok_bind, push_eq hroom, Array.size_push]
      split
      · rw [h.all.add64_block hdevice]
        rfl
      · rfl
    · split at ht
      · cases ht
        exact {
          all := h.all
          inside := hinside
          few := Nat.zero_lt_succ 511
          block_lt := nofun }
      · next more =>
        cases ht
        exact {
          all := h.all
          inside := hinside
          few := by
            rw [Array.size_push]
            omega
          block_lt := fun _ => hlt }

/-- **All words**, by induction on them: what does not fit is refused without a fault. -/
theorem Bounded.pushAll (h : w.Bounded) (words : List UInt64) :
    w.pushAllChecked words = .ok (w.pushAll words) ∧
      (∀ e, w.pushAll words = .error e → DeviceErrors.beyond e = false) := by
  induction words generalizing w with
  | nil => exact ⟨rfl, nofun⟩
  | cons word rest ih =>
    have hstep : w.pushAll (word :: rest) = (w.push word).bind fun t => t.pushAll rest := rfl
    obtain ⟨checked, bounded, beyond⟩ := h.push word
    unfold pushAllChecked
    rw [hstep, checked, ok_bind]
    cases hpush : w.push word with
    | error e =>
      refine ⟨rfl, fun e' he => ?_⟩
      cases he
      exact beyond e hpush
    | ok t => exact ih (bounded t hpush)

end WordWriter

/-! ## Reading words -/

namespace WordReader

def nextChecked (image : Image) (r : WordReader) :
    Checked (Except CheckpointError (UInt64 × WordReader)) :=
  if r.content.isNone ∧ r.stop ≤ r.block then pure (.error (.truncated r.block))
  else do
    let _ ← r.device.byteOffset r.block
    let _ ← wordStart r.place
    let behind ← add64 r.place 1
    if behind = wordsPerBlock then
      let _ ← add64 r.block 1
      pure (r.next image)
    else pure (r.next image)

/-- A reader stands in a block of its region, or has not read the next one yet. -/
structure Bounded (r : WordReader) : Prop where
  all : r.device.Addressable
  inside : r.stop ≤ r.device.blockCount
  place_lt : r.place < wordsPerBlock
  block_lt : r.content.isNone = false → r.block < r.stop

theorem bounded_ofRegion {device : Device} {region : Region} (all : device.Addressable)
    (inside : region.stop ≤ device.blockCount) : (ofRegion device region).Bounded where
  all := all
  inside := inside
  place_lt := Nat.zero_lt_succ 511
  block_lt := nofun

variable {r : WordReader} {image : Image}

/-- A block of the region is not refused for its number. -/
theorem Bounded.beyond_load (h : r.Bounded) (more : r.block < r.stop) {e : CheckpointError}
    (failed : r.load image = .error e) : DeviceErrors.beyond e = false := by
  have hlt : r.block < r.device.blockCount := Nat.lt_of_lt_of_le more h.inside
  unfold WordReader.load at failed
  cases hc : r.content with
  | some content =>
    rw [hc] at failed
    cases failed
  | none =>
    rw [hc] at failed
    simp only at failed
    rw [if_neg (Nat.not_le_of_lt more)] at failed
    cases hget : r.device.get image r.block with
    | ok buffer =>
      rw [hget] at failed
      cases failed
    | error d =>
      rw [hget, Device.get_error hlt hget] at failed
      cases failed
      rfl

theorem Bounded.next (h : r.Bounded) (image : Image) :
    r.nextChecked image = .ok (r.next image) ∧
      (∀ word t, r.next image = .ok (word, t) → t.Bounded) ∧
      (∀ e, r.next image = .error e → DeviceErrors.beyond e = false) := by
  by_cases done : r.content.isNone ∧ r.stop ≤ r.block
  · have hload : r.load image = .error (.truncated r.block) := by
      unfold WordReader.load
      rw [Option.isNone_iff_eq_none.1 done.1]
      exact if_pos done.2
    have hnext : r.next image = .error (.truncated r.block) := by
      unfold WordReader.next
      rw [hload]
    rw [hnext]
    refine ⟨if_pos done, nofun, fun e he => ?_⟩
    cases he
    rfl
  · have hlt : r.block < r.stop := by
      cases fresh : r.content.isNone with
      | false => exact h.block_lt fresh
      | true => exact Nat.lt_of_not_le fun behind => done ⟨fresh, behind⟩
    have hinside := h.inside
    have hdevice : r.block < r.device.blockCount := Nat.lt_of_lt_of_le hlt hinside
    have hplace := h.place_lt
    refine ⟨?_, fun word t ht => ?_, fun e he => ?_⟩
    · unfold nextChecked
      rw [if_neg done, Device.byteOffset_eq_ok h.all hdevice, ok_bind, wordStart_eq_ok hplace,
        ok_bind, add64_word hplace, ok_bind]
      split
      · rw [h.all.add64_block hdevice]
        rfl
      · rfl
    · unfold WordReader.next at ht
      cases hload : r.load image with
      | error e =>
        rw [hload] at ht
        cases ht
      | ok content =>
        rw [hload] at ht
        simp only at ht
        split at ht
        · cases ht
          exact {
            all := h.all
            inside := hinside
            place_lt := Nat.zero_lt_succ 511
            block_lt := nofun }
        · next more =>
          cases ht
          exact {
            all := h.all
            inside := hinside
            place_lt := by
              show r.place + 1 < wordsPerBlock
              omega
            block_lt := fun _ => hlt }
    · unfold WordReader.next at he
      cases hload : r.load image with
      | error e' =>
        rw [hload] at he
        cases he
        exact h.beyond_load hlt hload
      | ok content =>
        rw [hload] at he
        simp only at he
        split at he
        · cases he
        · cases he

end WordReader

/-! ## Records -/

namespace CheckpointSlot

def restoreEdgesChecked (image : Image) (id : NodeId) :
    (count : Nat) → WordReader → Graph → Checked (Except CheckpointError WordReader × Graph)
  | 0, r, g => pure (.ok r, g)
  | count + 1, r, g => do
    match ← r.nextChecked image with
    | .error e => pure (.error e, g)
    | .ok (neighbor, r) =>
      let g := g.after (.addNode neighbor)
      match g.addEdge id neighbor with
      | .ok (_, g) => restoreEdgesChecked image id count r g
      | .error refusal => pure (.error (.restore refusal), g)

def restoreRecordsChecked (image : Image) :
    (count : Nat) → WordReader → Graph → Checked (Except CheckpointError WordReader × Graph)
  | 0, r, g => pure (.ok r, g)
  | count + 1, r, g => do
    match ← r.nextChecked image with
    | .error e => pure (.error e, g)
    | .ok (id, r) =>
      let g := g.after (.addNode id)
      match ← r.nextChecked image with
      | .error e => pure (.error e, g)
      | .ok (degree, r) =>
        match ← restoreEdgesChecked image id degree.toNat r g with
        | (.ok r, g) => restoreRecordsChecked image count r g
        | (.error e, g) => pure (.error e, g)

/-- What was restored was read by a reader that is still bounded, or not read for a reason that is
none of the device's. -/
structure Bounded (result : Except CheckpointError WordReader) : Prop where
  reader : ∀ t, result = .ok t → t.Bounded
  beyond : ∀ e, result = .error e → DeviceErrors.beyond e = false

theorem bounded_ok {r : WordReader} (h : r.Bounded) : Bounded (.ok r) where
  reader t ht := by
    cases ht
    exact h
  beyond := nofun

theorem bounded_error {e : CheckpointError} (h : DeviceErrors.beyond e = false) :
    Bounded (.error e) where
  reader := nofun
  beyond e' he := by
    cases he
    exact h

variable {image : Image} {r : WordReader}

theorem restoreEdgesChecked_eq_ok (h : r.Bounded) (image : Image) (id : NodeId) (count : Nat)
    (g : Graph) :
    restoreEdgesChecked image id count r g = .ok (restoreEdges image id count r g) ∧
      Bounded (restoreEdges image id count r g).1 := by
  induction count generalizing r g with
  | zero => exact ⟨rfl, bounded_ok h⟩
  | succ count ih =>
    obtain ⟨checked, bounded, beyond⟩ := h.next image
    unfold restoreEdgesChecked restoreEdges
    rw [checked, ok_bind]
    cases hnext : r.next image with
    | error e => exact ⟨rfl, bounded_error (beyond e hnext)⟩
    | ok found =>
      have next := bounded found.1 found.2 hnext
      simp only
      cases (g.after (.addNode found.1)).addEdge id found.1 with
      | error refusal => exact ⟨rfl, bounded_error rfl⟩
      | ok done => exact ih next done.2

theorem restoreRecordsChecked_eq_ok (h : r.Bounded) (image : Image) (count : Nat) (g : Graph) :
    restoreRecordsChecked image count r g = .ok (restoreRecords image count r g) ∧
      Bounded (restoreRecords image count r g).1 := by
  induction count generalizing r g with
  | zero => exact ⟨rfl, bounded_ok h⟩
  | succ count ih =>
    obtain ⟨checked, bounded, beyond⟩ := h.next image
    unfold restoreRecordsChecked restoreRecords
    rw [checked, ok_bind]
    cases hid : r.next image with
    | error e => exact ⟨rfl, bounded_error (beyond e hid)⟩
    | ok found =>
      have next := bounded found.1 found.2 hid
      obtain ⟨checked', bounded', beyond'⟩ := next.next image
      simp only
      rw [checked', ok_bind]
      cases hdegree : found.2.next image with
      | error e => exact ⟨rfl, bounded_error (beyond' e hdegree)⟩
      | ok found' =>
        have next' := bounded' found'.1 found'.2 hdegree
        obtain ⟨edges, answer⟩ := restoreEdgesChecked_eq_ok next' image found.1 found'.1.toNat
          (g.after (.addNode found.1))
        simp only
        rw [edges, ok_bind]
        rcases hedges : restoreEdges image found.1 found'.1.toNat found'.2
          (g.after (.addNode found.1)) with ⟨result, k⟩
        rw [hedges] at answer
        cases result with
        | error e => exact ⟨rfl, bounded_error (answer.beyond e rfl)⟩
        | ok t => exact ih (answer.reader t rfl) k

end CheckpointSlot

/-! ## The words of a graph -/

/-- The words that tell some nodes, counted node by node. -/
def countWords (sum : Nat) : List Node → Checked Nat
  | [] => pure sum
  | node :: rest => do
    let record ← add64 2 node.degree
    let sum ← add64 sum record
    countWords sum rest

/-- By induction on the nodes: no sum on the way is larger than the last one. -/
theorem countWords_eq_ok {sum : Nat} {nodes : List Node}
    (few : sum + (nodes.flatMap fun node =>
      node.id :: node.degree.toUInt64 :: node.neighbors).length < UInt64.size) :
    countWords sum nodes = .ok (sum + (nodes.flatMap fun node =>
      node.id :: node.degree.toUInt64 :: node.neighbors).length) := by
  induction nodes generalizing sum with
  | nil => rfl
  | cons node rest ih =>
    have hneighbors : node.neighbors.length = node.degree := Std.ExtTreeSet.length_toList
    have hrecord :
        (node.id :: node.degree.toUInt64 :: node.neighbors).length = 2 + node.degree := by
      rw [List.length_cons, List.length_cons, hneighbors]
      omega
    rw [List.flatMap_cons, List.length_append, hrecord, ← Nat.add_assoc] at few ⊢
    have hdegree : 2 + node.degree < UInt64.size := by omega
    have hsum : sum + (2 + node.degree) < UInt64.size := by omega
    unfold countWords
    rw [add64_eq_ok hdegree, ok_bind, add64_eq_ok hsum, ok_bind]
    exact ih few

/-! ## The checkpoint -/

namespace CheckpointSlot

def bodyChecked (slot : CheckpointSlot) : Checked Region := do
  let start ← add64 slot.region.start 1
  pure ⟨start, slot.region.stop⟩

def bodyWordsChecked (slot : CheckpointSlot) : Checked Nat := do
  let blocks ← sub slot.region.stop slot.region.start
  let blocks ← sub blocks 1
  mul64 blocks wordsPerBlock

def storeSuperblockChecked (superblock : CheckpointSuperblock) :
    Guarded CheckpointSlot CheckpointError Unit := do
  let slot ← .of current
  let buffer ← .blank .device slot.device slot.region.start
  .check (fields blockSize CheckpointSuperblock.fields)
  .store .device slot.device ⟨buffer.number, superblock.encode buffer.content⟩
  .of (replace { slot with superblock })

def formatChecked : Guarded CheckpointSlot CheckpointError Unit := storeSuperblockChecked .none

def loadChecked (image : Image) : Guarded CheckpointSlot CheckpointError Unit := do
  let slot ← .of current
  let buffer ← .get .device slot.device image slot.region.start
  .check (fields blockSize CheckpointSuperblock.fields)
  let superblock := CheckpointSuperblock.decode buffer.content
  .of (replace { slot with superblock })
  .of (note (.checkpointLoaded superblock.version.toNat superblock.committed))

def commitChecked (generation : UInt64) (g : Graph) :
    Guarded CheckpointSlot CheckpointError Unit := do
  let slot ← .of current
  let words ← .check (countWords 0 g.nodes)
  let room ← .check slot.bodyWordsChecked
  if room < words then .of (fail (.noSpace slot.region.stop))
  else
    let nodes := g.nodeCount.toUInt64
    storeSuperblockChecked ⟨false, generation, nodes⟩
    let body ← .check slot.bodyChecked
    let writer ← .answer ((WordWriter.ofRegion slot.device body).pushAllChecked g.words)
    writer.finish.forM (.store .device slot.device)
    storeSuperblockChecked ⟨true, generation, nodes⟩
    .of (note (.checkpointCommitted generation.toNat nodes.toNat))

def restoreChecked (slot : CheckpointSlot) (image : Image) (generation : UInt64) :
    Guarded Graph CheckpointError UInt64 := do
  if slot.has generation then
    let g ← .of current
    let body ← .check slot.bodyChecked
    let restored ← .check (restoreRecordsChecked image slot.superblock.nodeCount.toNat
      (WordReader.ofRegion slot.device body) g)
    .of (replace restored.2)
    let _ ← .of (ofExcept restored.1)
    pure slot.superblock.nodeCount
  else
    if slot.superblock.version = generation ∧ generation ≠ 0 then
      .of (note (.checkpointIncomplete generation.toNat))
    else .of (note (.checkpointAbsent generation.toNat slot.superblock.version.toNat))
    pure 0

/-! ## Steps of the checkpoint -/

variable {slot : CheckpointSlot} {image : Image}

theorem bodyChecked_eq_ok (all : slot.device.Addressable) (placed : slot.Placed image) :
    slot.bodyChecked = .ok slot.body := by
  unfold bodyChecked
  rw [all.add64_block placed.start_lt]
  rfl

theorem bodyWordsChecked_eq_ok (placed : slot.Placed image) :
    slot.bodyWordsChecked = .ok slot.bodyWords := by
  have hwide := placed.wide
  have hle : slot.region.stop - slot.region.start - 1 ≤ slot.region.stop := by omega
  have hmul : (slot.region.stop - slot.region.start - 1) * wordsPerBlock < UInt64.size :=
    Nat.lt_of_le_of_lt (Nat.mul_le_mul_right wordsPerBlock hle) placed.small
  unfold bodyWordsChecked
  rw [sub_eq_ok (by omega), ok_bind, sub_eq_ok (by omega), ok_bind, mul64_eq_ok hmul,
    Nat.sub_sub]
  rfl

/-- The superblock is stored in its place, and the work goes on with it. -/
theorem safe_storeSuperblock (all : slot.device.Addressable) (placed : slot.Placed image)
    (s : CheckpointSuperblock) {β : Type} {f : Unit → Guarded CheckpointSlot CheckpointError β}
    {g : Unit → Work CheckpointSlot CheckpointError β}
    (h : Safe (f ()) (g ()) (slot.withSuperblock s)) :
    Safe (storeSuperblockChecked s >>= f) (storeSuperblock s >>= g) slot := by
  have hlt := placed.start_lt
  refine Safe.bind ?_ fun a t w gives => ?_
  · unfold storeSuperblockChecked storeSuperblock
    refine Safe.current (Safe.blank all hlt (Safe.check CheckpointSuperblock.fields_eq_ok ?_))
    exact (Safe.store all hlt).bind fun _ t _ _ => Safe.of_ok (Work.gives_replace t _)
  · obtain ⟨-, rfl, -⟩ := (gives_storeSuperblock placed s).unique gives
    exact h

theorem safe_format (all : slot.device.Addressable) (placed : slot.Placed image) :
    Safe formatChecked format slot := by
  have hlt := placed.start_lt
  unfold formatChecked format storeSuperblockChecked storeSuperblock
  refine Safe.current (Safe.blank all hlt (Safe.check CheckpointSuperblock.fields_eq_ok ?_))
  exact (Safe.store all hlt).bind fun _ t _ _ => Safe.of_ok (Work.gives_replace t _)

theorem safe_load (all : slot.device.Addressable) (placed : slot.Placed image) (disk : Image) :
    Safe (loadChecked disk) (load disk) slot := by
  unfold loadChecked load
  refine Safe.current ?_
  refine (Safe.get all placed.start_lt fun _ => rfl).bind fun buffer t w gives => ?_
  refine Safe.check CheckpointSuperblock.fields_eq_ok ?_
  exact Safe.replace (Safe.of_ok (Work.gives_note _ _))

/-- Buffers of the device are stored one after the other. -/
theorem safe_storeBuffers {device : Device} (all : device.Addressable) {buffers : List Buffer}
    (inside : ∀ buffer ∈ buffers, buffer.number < device.blockCount)
    {wrap : DeviceError → CheckpointError} :
    Safe (buffers.forM (Guarded.store wrap device)) (buffers.forM (Work.store wrap device))
      slot := by
  induction buffers with
  | nil => exact Safe.pure () slot
  | cons buffer rest ih =>
    exact Safe.store_then all (inside buffer List.mem_cons_self)
      (ih fun b hb => inside b (List.mem_cons_of_mem _ hb))

/-- **A commit** of any graph whose words can be counted. -/
theorem safe_commit (all : slot.device.Addressable) (placed : slot.Placed image)
    (generation : UInt64) {g : Graph} (few : g.words.length < UInt64.size) :
    Safe (commitChecked generation g) (commit generation g) slot := by
  have counted : countWords 0 g.nodes = .ok g.words.length := by
    rw [← Nat.zero_add g.words.length] at few ⊢
    exact countWords_eq_ok few
  unfold commitChecked commit
  refine Safe.current (Safe.check counted (Safe.check (bodyWordsChecked_eq_ok placed) ?_))
  by_cases full : slot.bodyWords < g.words.length
  · simp only [full, if_true]
    exact Safe.fail rfl
  · simp only [full, if_false]
    have room := Nat.le_of_not_lt full
    obtain ⟨writer, push, finish⟩ := exists_pushAll placed room
    have bounded : (WordWriter.ofRegion slot.device slot.body).Bounded :=
      WordWriter.bounded_ofRegion all placed.stop_le
    obtain ⟨checked, beyond⟩ := bounded.pushAll g.words
    refine safe_storeSuperblock all placed _ (Safe.check (bodyChecked_eq_ok all placed) ?_)
    refine (Safe.answer checked beyond).bind fun writer' t w gives => ?_
    obtain ⟨hw, rfl, -⟩ := (Work.gives_ofExcept push _).unique gives
    cases hw
    have stored : ∀ buffer ∈ writer.finish, buffer.number < slot.device.blockCount := by
      intro buffer hb
      rw [finish] at hb
      exact Nat.lt_of_lt_of_le (number_of_mem_body room hb).2 placed.stop_le
    refine (safe_storeBuffers all stored).bind fun _ t w gives => ?_
    obtain ⟨-, rfl, -⟩ := (gives_storeBuffers stored).unique gives
    have all' : (slot.withSuperblock (.opening generation g)).device.Addressable := all
    have placed' : (slot.withSuperblock (.opening generation g)).Placed image :=
      placed.congr rfl rfl rfl
    exact safe_storeSuperblock all' placed' _ (Safe.of_ok (Work.gives_note _ _))

/-- **Restoring**, whatever the blocks behind the superblock hold and into any graph. -/
theorem safe_restore (all : slot.device.Addressable) (placed : slot.Placed image) (disk : Image)
    (generation : UInt64) (g : Graph) :
    Safe (slot.restoreChecked disk generation) (slot.restore disk generation) g := by
  have bounded : (WordReader.ofRegion slot.device slot.body).Bounded :=
    WordReader.bounded_ofRegion all placed.stop_le
  obtain ⟨records, answer⟩ := restoreRecordsChecked_eq_ok bounded disk
    slot.superblock.nodeCount.toNat g
  unfold restoreChecked restore
  split
  · refine Safe.current (Safe.check (bodyChecked_eq_ok all placed) (Safe.check records ?_))
    refine Safe.replace ?_
    refine (Safe.of_work answer.beyond).bind fun _ t _ _ => ?_
    exact Safe.pure _ t
  · split
    · exact Safe.note (Safe.pure _ g)
    · exact Safe.note (Safe.pure _ g)

end CheckpointSlot

end DurableGraph
