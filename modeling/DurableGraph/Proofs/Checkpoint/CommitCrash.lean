import DurableGraph.Proofs.Checkpoint.VersionedSlot

/-!
# Crashes in a commit

A commit overwrites the body in place, so while it is under way the blocks hold words of two
graphs.  The superblock says so from the first write on, and takes it back with the last one.

    nothing is written       the region shows what it kept
    a part of the writes     nothing, whatever generation is asked for
    all writes               the new graph, under its generation only
-/

namespace DurableGraph

/-- An action that writes to a region: a graph that does not fit is refused. -/
def SlotAction.Writes (region : Region) : SlotAction → Prop
  | .format => True
  | .commit _ g _ => g.words.length ≤ region.wordBound
  | .reload => False

/-- The image that a crash leaves after the first `k` writes of an action. -/
def SlotSession.crash (s : SlotSession) (action : SlotAction) (k : Nat) : Image :=
  s.image.storeAll ((CheckpointSlot.perform s.image action s.slot).writes.take k)

/-- The number of blocks that an action writes. -/
def SlotSession.writeCount (s : SlotSession) (action : SlotAction) : Nat :=
  (CheckpointSlot.perform s.image action s.slot).writes.length

/-- A checkpoint that is bound to a region of an image and loaded shows what was kept there. -/
def Image.Keeps (image : Image) (path : String) (region : Region)
    (kept : Option VersionedGraph) : Prop :=
  ∃ fresh slot, CheckpointSlot.ofRegion (Device.ofImage path image) region = .ok fresh ∧
    (CheckpointSlot.load image).Gives fresh (.ok ()) slot [] ∧ (SlotSession.mk slot image).Shows kept

namespace SlotSession

variable {s : SlotSession} {region : Region} {kept : Option VersionedGraph} {path : String}

/-! ## What a region keeps -/

/-- An action that writes decides what is kept, whatever the region held. -/
theorem keeps_perform_of_writes (placed : s.slot.Placed s.image) {action : SlotAction}
    (writes : action.Writes s.slot.region) (kept : Option VersionedGraph) :
    (s.perform action).2.Keeps s.slot.region
      (VersionedGraph.perform s.slot.region kept action).2 := by
  cases action with
  | format => exact (keeps_format placed).2
  | commit generation g simple =>
    have room : g.words.length ≤ s.slot.region.wordBound := writes
    unfold VersionedGraph.perform
    dsimp only
    rw [if_pos room]
    exact (keeps_commit placed generation simple room).2
  | reload => exact writes.elim

/-- So do any actions, from the first one that writes on. -/
theorem keeps_run_of_writes (placed : s.slot.Placed s.image) {actions : List SlotAction}
    (writes : ∃ action ∈ actions, action.Writes s.slot.region) (kept : Option VersionedGraph) :
    (s.run actions).2.Keeps s.slot.region (VersionedGraph.run s.slot.region kept actions).2 := by
  induction actions generalizing s kept with
  | nil =>
    obtain ⟨action, held, -⟩ := writes
    cases held
  | cons action rest ih =>
    unfold SlotSession.run VersionedGraph.run
    rw [performAll_cons, performAll_cons]
    by_cases first : action.Writes s.slot.region
    · exact ((keeps_perform_of_writes placed first kept).run rest).2
    · obtain ⟨placed', -, hregion⟩ := placed_perform placed action
      obtain ⟨later, held, hwrites⟩ := writes
      have held' : later ∈ rest := by
        rcases List.mem_cons.1 held with same | held
        · rw [same] at hwrites
          exact absurd hwrites first
        · exact held
      rw [← hregion] at hwrites ⊢
      exact ih placed' ⟨later, held', hwrites⟩ _

/-- An action that does not write leaves the image as it is. -/
theorem image_perform_of_idle (placed : s.slot.Placed s.image) {action : SlotAction}
    (idle : ¬ action.Writes s.slot.region) : (s.perform action).2.image = s.image := by
  cases action with
  | format => exact absurd trivial idle
  | commit generation g simple =>
    have full : s.slot.region.wordBound < g.words.length := Nat.lt_of_not_le idle
    rw [perform_noSpace full]
  | reload =>
    obtain ⟨content, held⟩ := placed.exists_block
    rw [perform_of_gives (gives_reload placed held)]
    rfl

theorem image_run_of_idle (placed : s.slot.Placed s.image) {actions : List SlotAction}
    (idle : ∀ action ∈ actions, ¬ action.Writes s.slot.region) :
    (s.run actions).2.image = s.image := by
  induction actions generalizing s with
  | nil => rfl
  | cons action rest ih =>
    obtain ⟨first, others⟩ := List.forall_mem_cons.1 idle
    obtain ⟨placed', -, hregion⟩ := placed_perform placed action
    rw [← hregion] at others
    exact (ih placed' others).trans (image_perform_of_idle placed first)

/-- A fresh checkpoint finds what the region keeps. -/
theorem Keeps.image_keeps (h : s.Keeps region kept) (device : s.slot.device.path = path) :
    s.image.Keeps path region kept := by
  obtain rfl := h.region_eq
  have hdevice : Device.ofImage path s.image = s.slot.device := by
    unfold Device.ofImage
    rw [← device, ← h.placed.device_eq]
  refine ⟨_, s.slot, CheckpointSlot.ofRegion_eq_ok_iff.2 ⟨⟨?_, h.placed.wide⟩, rfl⟩,
    h.onDisk.load h.placed hdevice rfl, h.shows⟩
  rw [hdevice, h.placed.device_eq]
  exact h.placed.inside

/-! ## Cuts -/

/-- While a commit is under way the region keeps nothing. -/
theorem keeps_crash_commit (placed : s.slot.Placed s.image) {generation : UInt64} {g : Graph}
    {simple : g.Simple} (room : g.words.length ≤ s.slot.region.wordBound) {k : Nat} (begun : 0 < k)
    (part : k < s.writeCount (.commit generation g simple)) :
    (SlotSession.mk (s.slot.withSuperblock (.opening generation g))
      (s.crash (.commit generation g simple) k)).Keeps s.slot.region none := by
  have gives : (CheckpointSlot.perform s.image (.commit generation g simple)).Gives s.slot (.ok ())
    (s.slot.withSuperblock (.closing generation g)) (s.slot.commitWrites generation g) :=
    gives_commit placed room
  have hwrites := gives.writes_eq
  rw [← bodyWords_eq] at room
  unfold writeCount at part
  unfold crash
  rw [hwrites] at part ⊢
  have fits := (CheckpointSlot.fits_commitWrites placed generation room).take k
  exact {
    placed := placed.congr rfl rfl (Image.blockCount_storeAll fits)
    region_eq := rfl
    onDisk := CheckpointSlot.onDisk_commit_part placed generation room begun part
    uncommitted := fun _ => rfl
    closed := fun _ _ h => by cases h }

/-- A commit that was not cut. -/
theorem crash_eq_perform {action : SlotAction} {k : Nat}
    (whole : s.writeCount action ≤ k) :
    s.crash action k = (s.perform action).2.image := by
  unfold crash
  rw [List.take_of_length_le whole]
  rfl

/-- A commit succeeds only if its graph fits. -/
theorem room_of_commit {generation : UInt64} {g : Graph} {simple : g.Simple}
    (done : (s.perform (.commit generation g simple)).1 = .ok ()) :
    g.words.length ≤ s.slot.region.wordBound := by
  apply Nat.le_of_not_lt
  intro full
  rw [perform_noSpace full] at done
  cases done

end SlotSession

/-! ## Top theorem -/

/-- **The superblock is a commit point.**  Over any image that a file can hold, after any actions
on a checkpoint: a commit that succeeds is cut after any number of its writes, and a checkpoint
that is then bound and loaded shows what was kept before if nothing was written, the new graph
under its generation if everything was, and nothing at all in between.  As long as no action has
written, the image is the one from the start, whatever its region holds. -/
theorem keeps_of_crash_commit {path : String} {image : Image} {region : Region}
    {fresh : CheckpointSlot} (sized : image.size < UInt64.size)
    (bound : CheckpointSlot.ofRegion (Device.ofImage path image) region = .ok fresh)
    {actions : List SlotAction} {s : SlotSession}
    (reached : (SlotSession.run ⟨fresh, image⟩ actions).2 = s)
    {generation : UInt64} {g : Graph} {simple : g.Simple}
    (done : (s.perform (.commit generation g simple)).1 = .ok ()) :
    ((∃ action ∈ actions, action.Writes region) →
      (s.crash (.commit generation g simple) 0).Keeps path region
        (VersionedGraph.run region none actions).2) ∧
    ((∀ action ∈ actions, ¬ action.Writes region) →
      s.crash (.commit generation g simple) 0 = image) ∧
    (∀ k, 0 < k → k < s.writeCount (.commit generation g simple) →
      (s.crash (.commit generation g simple) k).Keeps path region none) ∧
    (∀ k, s.writeCount (.commit generation g simple) ≤ k →
      (s.crash (.commit generation g simple) k).Keeps path region (some ⟨generation, g⟩)) := by
  have first : (SlotSession.mk fresh image).slot.Placed (SlotSession.mk fresh image).image :=
    CheckpointSlot.placed_of_ofRegion sized bound
  have hslot := (CheckpointSlot.ofRegion_eq_ok_iff.1 bound).2
  have hfresh : fresh.region = region := by rw [hslot]
  have hpath : fresh.device.path = path := by rw [hslot]; rfl
  obtain ⟨placed, hdevice, hregion⟩ := SlotSession.stands_run first actions
  rw [reached] at placed hdevice hregion
  have hdevice' : s.slot.device.path = path := by rw [hdevice]; exact hpath
  have hregion' : s.slot.region = region := hregion.trans hfresh
  obtain rfl := hregion'
  have room := SlotSession.room_of_commit done
  refine ⟨fun writes => ?_, fun idle => ?_, fun k begun part => ?_, fun k whole => ?_⟩
  · rw [hregion] at writes
    have keeps := SlotSession.keeps_run_of_writes first writes none
    rw [reached, ← hregion] at keeps
    exact keeps.image_keeps hdevice'
  · rw [hregion] at idle
    have same := SlotSession.image_run_of_idle first idle
    rw [reached] at same
    exact same
  · exact (SlotSession.keeps_crash_commit placed room begun part).image_keeps hdevice'
  · have keeps := (SlotSession.keeps_commit placed generation simple room).2
    rw [SlotSession.crash_eq_perform whole]
    refine keeps.image_keeps ?_
    rw [(SlotSession.placed_perform placed _).2.1]
    exact hdevice'

/-- An edge is kept for generation 5, and a single node is committed for generation 6. -/
theorem keeps_of_crash_commit_zeros :
    let image := Image.zeros 40960
    let region : Region := ⟨2, 10⟩
    let before : Graph := ((∅ : Graph).run [.mutation (.addNode 3), .mutation (.addNode 7),
      .mutation (.addEdge 3 7)]).2
    let after : Graph := ((∅ : Graph).run [.mutation (.addNode 8)]).2
    let commit : SlotAction := .commit 6 after (Graph.simple_run _)
    ∃ fresh s, image.size < UInt64.size ∧
      CheckpointSlot.ofRegion (Device.ofImage "disk" image) region = .ok fresh ∧
      (SlotSession.run ⟨fresh, image⟩ [.commit 5 before (Graph.simple_run _)]).2 = s ∧
      (s.perform commit).1 = .ok () ∧
      (s.crash commit 0).Keeps "disk" region (some ⟨5, before⟩) ∧
      (s.crash commit 1).Keeps "disk" region none ∧
      (s.crash commit 2).Keeps "disk" region none ∧
      (s.crash commit 3).Keeps "disk" region (some ⟨6, after⟩) := by
  intro image region before after commit
  have hsize : image.size = 40960 := Array.size_replicate
  have sized : image.size < UInt64.size := by
    rw [hsize]
    decide
  have hcount : image.blockCount = 10 := Image.blockCount_zeros 40960
  have bound : CheckpointSlot.ofRegion (Device.ofImage "disk" image) region = .ok _ :=
    CheckpointSlot.ofRegion_eq_ok_iff.2 ⟨⟨Nat.le_of_eq hcount.symm, by decide⟩, rfl⟩
  have room : before.words.length ≤ region.wordBound := by decide
  have room' : after.words.length ≤ region.wordBound := by decide
  have kept : (VersionedGraph.run region none [.commit 5 before (Graph.simple_run _)]).2 =
      some ⟨5, before⟩ := by
    unfold VersionedGraph.run
    rw [performAll_cons, VersionedGraph.perform, if_pos room]
    rfl
  obtain ⟨s, reached⟩ : ∃ s, (SlotSession.run ⟨⟨Device.ofImage "disk" image, region, .none⟩, image⟩
    [.commit 5 before (Graph.simple_run _)]).2 = s := ⟨_, rfl⟩
  obtain ⟨placed, -, hregion⟩ := SlotSession.stands_run
    (s := ⟨⟨Device.ofImage "disk" image, region, .none⟩, image⟩)
    (CheckpointSlot.placed_of_ofRegion sized bound) [.commit 5 before (Graph.simple_run _)]
  rw [reached] at placed hregion
  have gives : (CheckpointSlot.perform s.image commit).Gives s.slot (.ok ())
      (s.slot.withSuperblock (.closing 6 after)) (s.slot.commitWrites 6 after) :=
    SlotSession.gives_commit placed (by rw [hregion]; exact room')
  have done : (s.perform commit).1 = .ok () := gives.result_eq
  -- a graph of two words takes one block
  have count : s.writeCount commit = 3 := by
    unfold SlotSession.writeCount
    rw [gives.writes_eq, CheckpointSlot.commitWrites, packed_of_length_lt _ (by decide) (by decide)]
    rfl
  obtain ⟨none, -, part, whole⟩ := keeps_of_crash_commit sized bound reached done
  rw [kept] at none
  refine ⟨_, s, sized, bound, reached, done, none ⟨_, List.mem_singleton_self _, room⟩, ?_, ?_, ?_⟩
  · exact part 1 (by decide) (by rw [count]; decide)
  · exact part 2 (by decide) (by rw [count]; decide)
  · exact whole 3 (Nat.le_of_eq count)

end DurableGraph
