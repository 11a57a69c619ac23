import DurableGraph.Proofs.Log.Steps
import DurableGraph.Proofs.Checkpoint.Slot
import DurableGraph.Store.Stats

/-!
# Sessions

A session is an open store with the image of its device.  Requests change both, and a store can
be dropped and opened again at any time.

    s.serve request      the session after a request, all of its writes stored
    s.crash request k    the image where only the first k writes were stored
    Run s events t       from s to t by requests and reopenings, each noted with its answer
-/

namespace DurableGraph

structure Session where
  store : Store
  image : Image

/-- What happens to a store that is in use. -/
inductive SessionEvent where
  | served (request : Request) (answer : Except Refusal Reply)
  | reopened (settings : Settings)

namespace Session

/-- Opens the store on an image, if that succeeds. -/
def ofImage? (settings : Settings) (image : Image) : Option Session :=
  let step := Store.openFile settings (.ok image) ()
  match step.result with
  | .ok store => some ⟨store, image.storeAll step.writes⟩
  | .error _ => none

def step (s : Session) (request : Request) : Step Store Refusal Reply := Store.serve request s.store

/-- The session after a request. -/
def serve (s : Session) (request : Request) : Session :=
  ⟨(s.step request).state, s.image.storeAll (s.step request).writes⟩

/-- The session after some requests, one after the other. -/
def serveAll (s : Session) (requests : List Request) : Session := requests.foldl serve s

/-- The image that a crash leaves after the first `k` writes of a request. -/
def crash (s : Session) (request : Request) (k : Nat) : Image :=
  s.image.storeAll ((s.step request).writes.take k)

end Session

/-- A session goes on through requests and reopenings, whatever they answer. -/
inductive Run : Session → List SessionEvent → Session → Prop
  | nil (s : Session) : Run s [] s
  | serve {s t : Session} {events : List SessionEvent} (request : Request)
      (rest : Run (s.serve request) events t) :
      Run s (.served request (s.step request).result :: events) t
  | reopen {s t u : Session} {events : List SessionEvent} (settings : Settings)
      (opened : Session.ofImage? settings s.image = some t) (rest : Run t events u) :
      Run s (.reopened settings :: events) u

/-! ## Recovery -/

namespace Store

theorem gives_onLog {α : Type} {x : Work Log LogError α} {s : Store} {r : Except LogError α}
    {log : Log} {w : List Buffer} {wrap : LogError → StoreError} (h : x.Gives s.log r log w) :
    (onLog wrap x).Gives s (r.mapError wrap) { s with log } w := h.onPart

theorem gives_onCheckpoints {α : Type} {x : Work CheckpointSlot CheckpointError α} {s : Store}
    {r : Except CheckpointError α} {slot : CheckpointSlot} {w : List Buffer}
    (h : x.Gives s.checkpoints r slot w) :
    (onCheckpoints x).Gives s (r.mapError .checkpoint) { s with checkpoints := slot } w := h.onPart

theorem gives_onGraph {α : Type} {x : Work Graph CheckpointError α} {s : Store}
    {r : Except CheckpointError α} {g : Graph} {w : List Buffer} (h : x.Gives s.graph r g w) :
    (onGraph x).Gives s (r.mapError .checkpoint) { s with graph := g } w := h.onPart

/-- Recovery that succeeds has loaded the log and the checkpoint, restored the checkpoint of the
generation before, and replayed all entries. -/
theorem gives_recover_iff {image : Image} {store t : Store} {w : List Buffer} :
    (recover image).Gives store (.ok ()) t w ↔
      ∃ log slot base c entries w₁ w₂ w₃ count,
        (Log.load image).Gives store.log (.ok ()) log w₁ ∧
        (CheckpointSlot.load image).Gives store.checkpoints (.ok ()) slot w₂ ∧
        (slot.restore image (if log.generation = 0 then 0 else log.generation - 1)).Gives
          store.graph (.ok count) base w₃ ∧
        log.cursor image = .ok c ∧ c.entries image = (entries, none) ∧
        t = ⟨store.device, log, slot, base.replay entries, store.halted⟩ ∧
        w = w₁ ++ (w₂ ++ w₃) := by
  unfold recover
  constructor
  · intro h
    obtain ⟨_, _, w₁, v₁, hlog, h₁, rfl⟩ := h.bind_inv
    obtain ⟨log, load, rfl⟩ := hlog.of_onPart
    obtain ⟨_, _, w₂, v₂, hslot, h₂, rfl⟩ := h₁.bind_inv
    obtain ⟨slot, loadSlot, rfl⟩ := hslot.of_onPart
    obtain ⟨_, _, _, v₃, hnote, h₃, rfl⟩ := h₂.of_current.bind_inv
    obtain ⟨-, rfl, rfl⟩ := (Work.gives_note _ _).unique hnote
    obtain ⟨count, _, w₃, v₄, hgraph, h₄, rfl⟩ := h₃.bind_inv
    obtain ⟨base, restore, rfl⟩ := hgraph.of_onPart
    obtain ⟨c, hcursor, h₅⟩ := h₄.of_ofExcept
    have cursor := Work.mapError_eq_ok_iff.1 hcursor
    rcases read : c.entries image with ⟨entries, failure⟩
    simp only [read] at h₅
    have h₆ := h₅.of_current
    obtain ⟨_, _, _, _, hnotes, h₇, rfl⟩ := h₆.bind_inv
    obtain ⟨-, rfl, rfl⟩ := (Work.gives_noteAll _ _).unique hnotes
    have h₈ := h₇.of_replace
    cases failure with
    | some e => cases (h₈.unique (Work.gives_fail _ _)).1
    | none =>
      obtain ⟨-, rfl, rfl⟩ := h₈.unique (Work.gives_note _ _)
      exact ⟨log, slot, base, c, entries, w₁, w₂, w₃, count, load, loadSlot, restore, cursor, read,
        rfl, by simp⟩
  · rintro ⟨log, slot, base, c, entries, w₁, w₂, w₃, count, load, loadSlot, restore, cursor, read,
      rfl, rfl⟩
    have hslot : (onCheckpoints (CheckpointSlot.load image)).Gives { store with log } (.ok ())
        { store with log, checkpoints := slot } w₂ :=
      gives_onCheckpoints (s := { store with log }) loadSlot
    have hgraph : (onGraph (slot.restore image
        (if log.generation = 0 then 0 else log.generation - 1))).Gives
        { store with log, checkpoints := slot } (.ok count)
        { store with log, checkpoints := slot, graph := base } w₃ :=
      gives_onGraph (s := { store with log, checkpoints := slot }) restore
    refine (gives_onLog load).bind ?_
    refine hslot.bind ?_
    refine (Work.gives_current _).then ?_
    refine (Work.gives_note _ _).then ?_
    rw [← List.append_nil w₃]
    refine hgraph.bind ?_
    refine (Work.gives_ofExcept (by rw [cursor]; rfl) _).then ?_
    simp only [read]
    refine (Work.gives_current _).then ?_
    refine (Work.gives_noteAll _ _).then ?_
    refine (Work.gives_replace _ _).then ?_
    exact Work.gives_note _ _

/-! ## Formatting -/

theorem gives_format {image : Image} {s : Store} {generation : UInt64} {log : Log}
    {slot : CheckpointSlot} {w₁ w₂ : List Buffer}
    (formatted : (Log.format image).Gives s.log (.ok generation) log w₁)
    (formattedSlot : CheckpointSlot.format.Gives s.checkpoints (.ok ()) slot w₂) :
    (format image).Gives s (.ok ()) ⟨s.device, log, slot, ∅, s.halted⟩ (w₁ ++ w₂) := by
  unfold format
  refine (gives_onLog formatted).bind ?_
  rw [← List.append_nil w₂]
  refine (gives_onCheckpoints (s := { s with log }) formattedSlot).bind ?_
  refine (Work.gives_current _).then ?_
  exact (Work.gives_replace _ _).then (Work.gives_note _ _)

theorem gives_format_inv {image : Image} {s t : Store} {w : List Buffer}
    (h : (format image).Gives s (.ok ()) t w) :
    ∃ generation log slot w₁ w₂, (Log.format image).Gives s.log (.ok generation) log w₁ ∧
      CheckpointSlot.format.Gives s.checkpoints (.ok ()) slot w₂ ∧
      t = ⟨s.device, log, slot, ∅, s.halted⟩ ∧ w = w₁ ++ w₂ := by
  unfold format at h
  obtain ⟨generation, _, w₁, v₁, hlog, h₁, rfl⟩ := h.bind_inv
  obtain ⟨log, formatted, rfl⟩ := hlog.of_onPart
  obtain ⟨_, _, w₂, v₂, hslot, h₂, rfl⟩ := h₁.bind_inv
  obtain ⟨slot, formattedSlot, rfl⟩ := hslot.of_onPart
  obtain ⟨-, rfl, rfl⟩ := h₂.of_current.of_replace.unique (Work.gives_note _ _)
  exact ⟨generation, log, slot, w₁, w₂, formatted, formattedSlot, rfl, by simp⟩

/-! ## Opening -/

/-- The store on an image before anything is read. -/
def blank (path : String) (image : Image) : Store :=
  let device := Device.ofImage path image
  let border := image.blockCount / 5
  ⟨device, ⟨device, ⟨0, border⟩, .fresh 1, none⟩, ⟨device, ⟨border, image.blockCount⟩, .none⟩, ∅,
    false⟩

theorem blank_log {settings : Settings} {image : Image} (enough : 10 ≤ image.blockCount)
    (small : image.blockCount / 5 < UInt32.size) :
    Log.ofRegion (Device.ofImage settings.device image) ⟨0, image.blockCount / 5⟩ =
      .ok (blank settings.device image).log := by
  refine Log.ofRegion_eq_ok_iff.2 ⟨⟨?_, ?_, small⟩, rfl⟩
  · show image.blockCount / 5 ≤ image.blockCount
    omega
  · show 0 + 2 ≤ image.blockCount / 5
    omega

theorem blank_checkpoints {settings : Settings} {image : Image} (enough : 10 ≤ image.blockCount) :
    CheckpointSlot.ofRegion (Device.ofImage settings.device image)
      ⟨image.blockCount / 5, image.blockCount⟩ = .ok (blank settings.device image).checkpoints := by
  refine CheckpointSlot.ofRegion_eq_ok_iff.2 ⟨⟨Nat.le_refl _, ?_⟩, rfl⟩
  show image.blockCount / 5 + 2 ≤ image.blockCount
  omega

/-- A store opens on a named device of ten blocks or more whose log can be addressed, where
formatting or recovery succeeds. -/
theorem gives_openFile_iff {settings : Settings} {image : Image} {store : Store}
    {w : List Buffer} :
    (openFile settings (.ok image)).Gives () (.ok store) () w ↔
      settings.device.isEmpty = false ∧ 10 ≤ image.blockCount ∧
        image.blockCount / 5 < UInt32.size ∧
        (if settings.format then format image else recover image).Gives
          (blank settings.device image) (.ok ()) store w := by
  unfold openFile Settings.validate openImage
  constructor
  · intro h
    obtain ⟨_, hvalid, h₁⟩ := h.of_ofExcept
    have hnamed : settings.device.isEmpty = false := by
      cases hd : settings.device.isEmpty with
      | false => rfl
      | true =>
        rw [hd] at hvalid
        cases hvalid
    obtain ⟨_, _, _, _, hnote, h₂, rfl⟩ := h₁.bind_inv
    obtain ⟨-, -, rfl⟩ := (Work.gives_note _ _).unique hnote
    obtain ⟨split, hsplit, h₃⟩ := h₂.of_ofExcept
    obtain ⟨enough, rfl⟩ := regions_eq_ok_iff.1 hsplit
    obtain ⟨log, hlog, h₄⟩ := h₃.of_ofExcept
    obtain ⟨⟨-, -, hsmall⟩, rfl⟩ := Log.ofRegion_eq_ok_iff.1 (Work.mapError_eq_ok_iff.1 hlog)
    obtain ⟨slot, hslot, h₅⟩ := h₄.of_ofExcept
    obtain ⟨-, rfl⟩ := CheckpointSlot.ofRegion_eq_ok_iff.1 (Work.mapError_eq_ok_iff.1 hslot)
    exact ⟨hnamed, enough, hsmall, h₅.of_startingAt⟩
  · rintro ⟨hnamed, enough, hsmall, h⟩
    refine (Work.gives_ofExcept (by rw [if_neg (by rw [hnamed]; decide)]; rfl) ()).then ?_
    refine (Work.gives_note _ ()).then ?_
    refine (Work.gives_ofExcept (regions_eq_ok_iff.2 ⟨enough, rfl⟩) ()).then ?_
    refine (Work.gives_ofExcept (Work.mapError_eq_ok_iff.2 (blank_log enough hsmall)) ()).then ?_
    refine (Work.gives_ofExcept (Work.mapError_eq_ok_iff.2 (blank_checkpoints enough)) ()).then ?_
    exact h.startingAt ()

end Store

/-- No session is opened where opening the store fails. -/
theorem Session.ofImage?_eq_none_iff {settings : Settings} {image : Image} :
    ofImage? settings image = none ↔
      ∃ e, (Store.openFile settings (.ok image) ()).result = .error e := by
  unfold ofImage?
  dsimp only
  split
  · next hr => simp [hr]
  · next hr => simp [hr]

/-- A session stands for a store that opens, with the writes stored. -/
theorem Session.ofImage?_eq_some_iff {settings : Settings} {image : Image} {s : Session} :
    ofImage? settings image = some s ↔
      settings.device.isEmpty = false ∧ 10 ≤ image.blockCount ∧
        image.blockCount / 5 < UInt32.size ∧
        ∃ w, (if settings.format then Store.format image else Store.recover image).Gives
          (Store.blank settings.device image) (.ok ()) s.store w ∧
          s.image = image.storeAll w := by
  have hself := Work.gives_self (Store.openFile settings (.ok image)) ()
  unfold ofImage?
  constructor
  · intro h
    simp only at h
    split at h
    · next store hr =>
      cases h
      rw [hr] at hself
      obtain ⟨named, enough, small, gives⟩ := Store.gives_openFile_iff.1 hself
      exact ⟨named, enough, small, _, gives, rfl⟩
    · cases h
  · rintro ⟨named, enough, small, w, gives, himage⟩
    have hopen := Store.gives_openFile_iff.2 ⟨named, enough, small, gives⟩
    simp only [hopen.result_eq, hopen.writes_eq, ← himage]

/-- However a store is opened, its handle is that of the image. -/
theorem Session.device_of_ofImage? {settings : Settings} {image : Image} {s : Session}
    (opened : ofImage? settings image = some s) :
    s.store.device = Device.ofImage settings.device image := by
  obtain ⟨-, -, -, w, gives, -⟩ := ofImage?_eq_some_iff.1 opened
  cases format : settings.format with
  | true =>
    rw [format] at gives
    obtain ⟨generation, log, slot, w₁, w₂, -, -, formatted, -⟩ := Store.gives_format_inv gives
    rw [formatted]
    rfl
  | false =>
    rw [format] at gives
    obtain ⟨log, slot, base, c, entries, w₁, w₂, w₃, count, -, -, -, -, -, recovered, -⟩ :=
      Store.gives_recover_iff.1 gives
    rw [recovered]
    rfl

end DurableGraph
