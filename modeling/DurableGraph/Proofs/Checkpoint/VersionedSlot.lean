import DurableGraph.Proofs.Checkpoint.Slot
import DurableGraph.Proofs.Graph.SetGraph

/-!
# The checkpoint as a versioned slot

Whatever a region held before, once it was formatted it keeps at most one graph, under the
generation it was committed for.  A session carries the checkpoint and the image through any
actions; an `Option VersionedGraph` is carried through the same actions.

    format         none
    commit v g     some ⟨v, g⟩               unless the words of g do not fit
    reload         no change
-/

namespace DurableGraph

/-- A graph under the generation that it was committed for. -/
structure VersionedGraph where
  generation : UInt64
  graph : Graph

/-- What is done with a checkpoint; it is reloaded by binding its region anew and loading it.
Graphs are simple, as all are that actions on the empty graph lead to (`Graph.simple_run`). -/
inductive SlotAction where
  | format
  | commit (generation : UInt64) (g : Graph) (simple : g.Simple)
  | reload

/-- The words that fit behind the superblock of a region. -/
def Region.wordBound (region : Region) : Nat := wordsPerBlock * (region.stop - region.start - 1)

namespace VersionedGraph

/-! ## Algorithm -/

/-- Performs an action on what a region keeps. -/
def perform (region : Region) (kept : Option VersionedGraph) :
    SlotAction → Except CheckpointError Unit × Option VersionedGraph
  | .format => (.ok (), none)
  | .commit generation g _ =>
    if g.words.length ≤ region.wordBound then (.ok (), some ⟨generation, g⟩)
    else (.error (.noSpace region.stop), kept)
  | .reload => (.ok (), kept)

def run (region : Region) (kept : Option VersionedGraph) (actions : List SlotAction) :
    List (Except CheckpointError Unit) × Option VersionedGraph :=
  performAll (perform region) kept actions

end VersionedGraph

namespace CheckpointSlot

/-- A checkpoint bound to the same region and loaded. -/
def reload (image : Image) : Work CheckpointSlot CheckpointError Unit := do
  let slot ← Work.current
  let fresh ← Work.ofExcept (ofRegion slot.device slot.region)
  Work.replace fresh
  load image

def perform (image : Image) : SlotAction → Work CheckpointSlot CheckpointError Unit
  | .format => format
  | .commit generation g _ => commit generation g
  | .reload => reload image

end CheckpointSlot

/-- A checkpoint and the image that it stands on. -/
structure SlotSession where
  slot : CheckpointSlot
  image : Image

namespace SlotSession

def perform (s : SlotSession) (action : SlotAction) : Except CheckpointError Unit × SlotSession :=
  let step := CheckpointSlot.perform s.image action s.slot
  (step.result, ⟨step.state, s.image.storeAll step.writes⟩)

def run (s : SlotSession) (actions : List SlotAction) :
    List (Except CheckpointError Unit) × SlotSession := performAll perform s actions

theorem perform_of_gives {s : SlotSession} {action : SlotAction} {r : Except CheckpointError Unit}
    {t : CheckpointSlot} {w : List Buffer}
    (h : (CheckpointSlot.perform s.image action).Gives s.slot r t w) :
    s.perform action = (r, ⟨t, s.image.storeAll w⟩) := by
  obtain ⟨rfl, rfl, rfl⟩ := h
  rfl

/-- What can be seen of a checkpoint is what its region keeps.  Restoring writes nothing. -/
structure Shows (s : SlotSession) (kept : Option VersionedGraph) : Prop where
  has : ∀ generation, s.slot.has generation = true ↔ ∃ g, kept = some ⟨generation, g⟩
  restore : ∀ generation g, kept = some ⟨generation, g⟩ →
    ∃ count : UInt64, count.toNat = g.nodeCount ∧
      (s.slot.restore s.image generation).Gives ∅ (.ok count) g []
  absent : ∀ generation, (∀ g, kept ≠ some ⟨generation, g⟩) →
    ∀ g, (s.slot.restore s.image generation).Gives g (.ok 0) g []
  reload : s.perform .reload = (.ok (), s)
  noSpace : ∀ generation g simple, s.slot.region.wordBound < g.words.length →
    s.perform (.commit generation g simple) = (.error (.noSpace s.slot.region.stop), s)

/-- The superblock in memory and on the image is that of the graph that a region keeps, and
restoring gives the graph. -/
structure Keeps (s : SlotSession) (region : Region) (kept : Option VersionedGraph) : Prop where
  placed : s.slot.Placed s.image
  region_eq : s.slot.region = region
  onDisk : s.slot.OnDisk s.image
  uncommitted : kept = none → s.slot.superblock.committed = false
  closed : ∀ generation g, kept = some ⟨generation, g⟩ →
    s.slot.superblock = .closing generation g ∧ g.nodeCount.toUInt64.toNat = g.nodeCount ∧
      (s.slot.restore s.image generation).Gives ∅ (.ok g.nodeCount.toUInt64) g []

variable {s : SlotSession} {region : Region} {kept : Option VersionedGraph}

/-! ## Single actions -/

theorem bodyWords_eq (slot : CheckpointSlot) : slot.bodyWords = slot.region.wordBound := by
  show (slot.region.stop - (slot.region.start + 1)) * 512 =
    512 * (slot.region.stop - slot.region.start - 1)
  omega

theorem gives_format (placed : s.slot.Placed s.image) :
    (CheckpointSlot.perform s.image .format).Gives s.slot (.ok ())
      (s.slot.withSuperblock .none) [CheckpointSuperblock.none.buffer s.slot.region.start] :=
  CheckpointSlot.gives_storeSuperblock placed .none

/-- Binding the region anew succeeds, and loading takes up the superblock of the image. -/
theorem gives_reload (placed : s.slot.Placed s.image) {content : Block}
    (held : s.image.block? s.slot.region.start = some content) :
    (CheckpointSlot.perform s.image .reload).Gives s.slot (.ok ())
      (s.slot.withSuperblock (.decode content)) [] := by
  have inside := placed.inside
  have placed' : (s.slot.withSuperblock .none).Placed s.image := placed.congr rfl rfl rfl
  have bound : CheckpointSlot.ofRegion s.slot.device s.slot.region =
      .ok (s.slot.withSuperblock .none) := CheckpointSlot.ofRegion_eq_ok_iff.2
    ⟨⟨by rw [placed.device_eq]; exact inside, placed.wide⟩, rfl⟩
  refine (Work.gives_current s.slot).then ?_
  refine (Work.gives_ofExcept bound _).then ?_
  refine (Work.gives_replace _ _).then ?_
  exact CheckpointSlot.gives_load placed' held

/-- A commit that fits. -/
theorem gives_commit (placed : s.slot.Placed s.image) {generation : UInt64} {g : Graph}
    {simple : g.Simple} (room : g.words.length ≤ s.slot.region.wordBound) :
    (CheckpointSlot.perform s.image (.commit generation g simple)).Gives s.slot (.ok ())
      (s.slot.withSuperblock (.closing generation g)) (s.slot.commitWrites generation g) := by
  rw [← bodyWords_eq] at room
  exact CheckpointSlot.gives_commit placed generation room

theorem perform_noSpace {generation : UInt64} {g : Graph} {simple : g.Simple}
    (full : s.slot.region.wordBound < g.words.length) :
    s.perform (.commit generation g simple) = (.error (.noSpace s.slot.region.stop), s) := by
  rw [← bodyWords_eq] at full
  have hperform : (CheckpointSlot.perform s.image (.commit generation g simple)).Gives s.slot
      (.error (.noSpace s.slot.region.stop)) s.slot [] :=
    CheckpointSlot.gives_commit_noSpace generation full
  exact perform_of_gives hperform

/-- An action leaves a checkpoint in its region of its device, whatever the region holds. -/
theorem placed_perform (placed : s.slot.Placed s.image) (action : SlotAction) :
    (s.perform action).2.slot.Placed (s.perform action).2.image ∧
      (s.perform action).2.slot.device = s.slot.device ∧
      (s.perform action).2.slot.region = s.slot.region := by
  cases action with
  | format =>
    rw [perform_of_gives (gives_format placed)]
    exact ⟨placed.congr rfl rfl (Image.blockCount_storeAll (placed.fits_superblock .none)), rfl,
      rfl⟩
  | commit generation g simple =>
    by_cases room : g.words.length ≤ s.slot.region.wordBound
    · have fits := CheckpointSlot.fits_commitWrites placed generation
        (by rw [bodyWords_eq]; exact room)
      rw [perform_of_gives (gives_commit placed room)]
      dsimp only
      exact ⟨placed.congr rfl rfl (Image.blockCount_storeAll fits), rfl, rfl⟩
    · rw [perform_noSpace (Nat.lt_of_not_le room)]
      exact ⟨placed, rfl, rfl⟩
  | reload =>
    obtain ⟨content, held⟩ := placed.exists_block
    rw [perform_of_gives (gives_reload placed held)]
    exact ⟨placed.congr rfl rfl rfl, rfl, rfl⟩

/-- So do any actions. -/
theorem stands_run (placed : s.slot.Placed s.image) (actions : List SlotAction) :
    (s.run actions).2.slot.Placed (s.run actions).2.image ∧
      (s.run actions).2.slot.device = s.slot.device ∧
      (s.run actions).2.slot.region = s.slot.region := by
  refine performAll_keeps (fun t : SlotSession => t.slot.Placed t.image ∧
    t.slot.device = s.slot.device ∧ t.slot.region = s.slot.region) ?_ ⟨placed, rfl, rfl⟩ actions
  rintro t action ⟨placed, hdevice, hregion⟩
  obtain ⟨placed', hdevice', hregion'⟩ := placed_perform placed action
  exact ⟨placed', hdevice'.trans hdevice, hregion'.trans hregion⟩

theorem placed_run (placed : s.slot.Placed s.image) (actions : List SlotAction) :
    (s.run actions).2.slot.Placed (s.run actions).2.image ∧
      (s.run actions).2.slot.region = s.slot.region := by
  obtain ⟨placed', -, hregion⟩ := stands_run placed actions
  exact ⟨placed', hregion⟩

/-! ## Keeping -/

/-- The superblock on the image is the one in memory, so reloading changes nothing. -/
theorem Keeps.reload (h : s.Keeps region kept) : s.perform .reload = (.ok (), s) := by
  obtain ⟨content, held, decoded⟩ := h.onDisk
  rw [perform_of_gives (gives_reload h.placed held), decoded]
  rfl

/-- A format leaves nothing to keep. -/
theorem keeps_format (placed : s.slot.Placed s.image) :
    (s.perform .format).1 = .ok () ∧ (s.perform .format).2.Keeps s.slot.region none := by
  have placed' := (placed_perform placed .format).1
  have fits : s.image.Fits ([] ++ [CheckpointSuperblock.none.buffer s.slot.region.start]) :=
    placed.fits_superblock .none
  have onDisk : (s.slot.withSuperblock .none).OnDisk _ :=
    CheckpointSlot.onDisk_storeSuperblock fits
  rw [perform_of_gives (gives_format placed)] at placed' ⊢
  refine ⟨rfl, ?_⟩
  exact {
    placed := placed'
    region_eq := rfl
    onDisk := onDisk
    uncommitted := fun _ => rfl
    closed := fun _ _ h => by cases h }

/-- A commit that fits keeps its graph, whatever was kept before. -/
theorem keeps_commit (placed : s.slot.Placed s.image) (generation : UInt64) {g : Graph}
    (simple : g.Simple) (room : g.words.length ≤ s.slot.region.wordBound) :
    (s.perform (.commit generation g simple)).1 = .ok () ∧
      (s.perform (.commit generation g simple)).2.Keeps s.slot.region (some ⟨generation, g⟩) := by
  have placed' := (placed_perform placed (.commit generation g simple)).1
  rw [perform_of_gives (gives_commit placed room)] at placed' ⊢
  rw [← bodyWords_eq] at room
  have onDisk := CheckpointSlot.onDisk_commit placed generation room
  have restored := CheckpointSlot.gives_restore_commit placed generation simple room
  generalize s.image.storeAll (s.slot.commitWrites generation g) = after
    at placed' onDisk restored ⊢
  refine ⟨rfl, ?_⟩
  exact {
    placed := placed'
    region_eq := rfl
    onDisk := onDisk
    uncommitted := fun h => by cases h
    closed := by
      intro generation' g' h
      cases h
      exact ⟨rfl, placed.toNat_nodeCount room, restored⟩ }

/-- **One action.** -/
theorem Keeps.perform (h : s.Keeps region kept) (action : SlotAction) :
    (s.perform action).1 = (VersionedGraph.perform region kept action).1 ∧
      (s.perform action).2.Keeps region (VersionedGraph.perform region kept action).2 := by
  obtain rfl := h.region_eq
  cases action with
  | format => exact keeps_format h.placed
  | commit generation g simple =>
    unfold VersionedGraph.perform
    dsimp only
    by_cases room : g.words.length ≤ s.slot.region.wordBound
    · rw [if_pos room]
      exact keeps_commit h.placed generation simple room
    · rw [if_neg room, perform_noSpace (Nat.lt_of_not_le room)]
      exact ⟨rfl, h⟩
  | reload =>
    rw [h.reload]
    exact ⟨rfl, h⟩

theorem Keeps.has_iff (h : s.Keeps region kept) (generation : UInt64) :
    s.slot.has generation = true ↔ ∃ g, kept = some ⟨generation, g⟩ := by
  cases hk : kept with
  | none =>
    have hflag := h.uncommitted hk
    unfold CheckpointSlot.has
    rw [hflag, Bool.false_and]
    constructor
    · intro found
      cases found
    · rintro ⟨g, found⟩
      cases found
  | some c =>
    obtain ⟨closed, -, -⟩ := h.closed c.generation c.graph hk
    have hslot : s.slot.withSuperblock (.closing c.generation c.graph) = s.slot := by
      rw [← closed]
      rfl
    rw [← hslot, CheckpointSlot.has_closing]
    constructor
    · rintro rfl
      exact ⟨c.graph, rfl⟩
    · rintro ⟨g, found⟩
      cases found
      rfl

theorem Keeps.shows (h : s.Keeps region kept) : s.Shows kept where
  has := h.has_iff
  restore generation g held := by
    obtain ⟨-, few, gives⟩ := h.closed generation g held
    exact ⟨_, few, gives⟩
  absent generation none g := by
    apply CheckpointSlot.gives_restore_absent
    rw [Bool.eq_false_iff, ne_eq, h.has_iff]
    rintro ⟨g', found⟩
    exact none g' found
  reload := h.reload
  noSpace _ _ _ full := perform_noSpace full

/-- **Any actions.** -/
theorem Keeps.run (h : s.Keeps region kept) (actions : List SlotAction) :
    (s.run actions).1 = (VersionedGraph.run region kept actions).1 ∧
      (s.run actions).2.Keeps region (VersionedGraph.run region kept actions).2 :=
  performAll_follows (fun t kept => Keeps t region kept) (fun _ _ action h => h.perform action) h
    actions

end SlotSession

/-! ## Top theorems -/

theorem CheckpointSlot.placed_of_ofRegion {path : String} {image : Image} {region : Region}
    {fresh : CheckpointSlot} (sized : image.size < UInt64.size)
    (bound : CheckpointSlot.ofRegion (Device.ofImage path image) region = .ok fresh) :
    fresh.Placed image := by
  obtain ⟨⟨inside, wide⟩, rfl⟩ := CheckpointSlot.ofRegion_eq_ok_iff.1 bound
  have inside' : region.stop ≤ image.size / 4096 := inside
  have sized' : image.size < 18446744073709551616 := sized
  exact {
    device_eq := rfl
    wide := wide
    inside := inside
    small := by
      show region.stop * 512 < 18446744073709551616
      omega }

/-- **A checkpoint is a single versioned slot.**  Over any image that a file can hold and in any
region that a checkpoint can be bound to, after any actions and a format: all later actions
answer as they do on the graph that is kept, and the checkpoint shows that graph under its
generation, and nothing under any other. -/
theorem run_eq_versionedSlot {path : String} {image : Image} {region : Region}
    {fresh : CheckpointSlot} (sized : image.size < UInt64.size)
    (bound : CheckpointSlot.ofRegion (Device.ofImage path image) region = .ok fresh)
    (before after : List SlotAction) {start : SlotSession}
    (reached : (SlotSession.run ⟨fresh, image⟩ before).2 = start) :
    (start.perform .format).1 = .ok () ∧
      ((start.perform .format).2.run after).1 = (VersionedGraph.run region none after).1 ∧
      ((start.perform .format).2.run after).2.Shows (VersionedGraph.run region none after).2 := by
  have hfresh : fresh.region = region := by
    rw [(CheckpointSlot.ofRegion_eq_ok_iff.1 bound).2]
  have first : (SlotSession.mk fresh image).slot.Placed (SlotSession.mk fresh image).image :=
    CheckpointSlot.placed_of_ofRegion sized bound
  obtain ⟨placed, hstays⟩ := SlotSession.placed_run first before
  rw [reached] at placed hstays
  obtain ⟨answer, keeps⟩ := SlotSession.keeps_format placed
  rw [hstays, hfresh] at keeps
  obtain ⟨answers, last⟩ := keeps.run after
  exact ⟨answer, answers, last.shows⟩

/-- A region of eight blocks that held another checkpoint: after a format a graph with an edge is
committed for generation 5, and survives a reload. -/
theorem run_eq_versionedSlot_zeros :
    let image := Image.zeros 40960
    let g : Graph := ((∅ : Graph).run [.mutation (.addNode 3), .mutation (.addNode 7),
      .mutation (.addEdge 3 7)]).2
    ∃ fresh start, image.size < UInt64.size ∧
      CheckpointSlot.ofRegion (Device.ofImage "disk" image) ⟨2, 10⟩ = .ok fresh ∧
      (SlotSession.run ⟨fresh, image⟩ [.commit 9 ∅ Graph.simple_empty]).2 = start ∧
      (start.perform .format).1 = .ok () ∧
      ((start.perform .format).2.run [.commit 5 g (Graph.simple_run _), .reload]).1 =
        [.ok (), .ok ()] ∧
      ((start.perform .format).2.run [.commit 5 g (Graph.simple_run _), .reload]).2.Shows
        (some ⟨5, g⟩) := by
  intro image g
  have hsize : image.size = 40960 := Array.size_replicate
  have sized : image.size < UInt64.size := by
    rw [hsize]
    decide
  have hcount : image.blockCount = 10 := Image.blockCount_zeros 40960
  have bound : CheckpointSlot.ofRegion (Device.ofImage "disk" image) ⟨2, 10⟩ = .ok _ :=
    CheckpointSlot.ofRegion_eq_ok_iff.2 ⟨⟨Nat.le_of_eq hcount.symm, by decide⟩, rfl⟩
  have room : g.words.length ≤ Region.wordBound ⟨2, 10⟩ := by decide
  have kept : VersionedGraph.run ⟨2, 10⟩ none [.commit 5 g (Graph.simple_run _), .reload] =
      ([.ok (), .ok ()], some ⟨5, g⟩) := by
    unfold VersionedGraph.run
    rw [performAll_cons, VersionedGraph.perform, if_pos room]
    rfl
  have hrun := run_eq_versionedSlot sized bound [.commit 9 ∅ Graph.simple_empty]
    [.commit 5 g (Graph.simple_run _), .reload] rfl
  rw [kept] at hrun
  exact ⟨_, _, sized, bound, rfl, hrun⟩

end DurableGraph
