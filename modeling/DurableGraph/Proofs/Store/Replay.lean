import DurableGraph.Proofs.Store.Renaming
import DurableGraph.Proofs.Store.Serving

/-!
# Replay gives the answers again

Opening an image carries its log out once more, on the graph of the checkpoint, and notes the code
that every entry gets.  Those are the codes that the callers were told, refused mutations and
those without effect among them.

    replayed events        entries with their codes, as noted when the image is opened
    answered events        mutations with the codes told, since the last checkpoint or format

    Run s events t → t.image.replayed again = answered events            (replayed_of_run)
-/

namespace DurableGraph

/-! ## What is noted -/

/-- An entry that was replayed, with its code. -/
def Notice.replayed? : Notice → Option (Mutation × StatusCode)
  | .replayed m status => some (m, status)
  | _ => none

/-- The entries that opening an image replays, in order, with their codes. -/
def Image.replayed (image : Image) (settings : Settings) : List (Mutation × StatusCode) :=
  (Store.openFile settings (.ok image) ()).notices.filterMap Notice.replayed?

/-- Entries with the codes that they get, carried out one after the other. -/
def Graph.replayLog (g : Graph) (ms : List Mutation) : List (Mutation × StatusCode) :=
  ms.zip (g.replayStatuses ms)

/-! ## What was told -/

/-- The code of a reply to a mutation. -/
def Reply.status : Reply → StatusCode
  | .outcome done => done.status
  | _ => .success

/-- What is remembered of the mutations after one more event.  A checkpoint that succeeds or a
format begins anew, and what found no space was never logged. -/
def SessionEvent.remember (told : List (Mutation × StatusCode)) :
    SessionEvent → List (Mutation × StatusCode)
  | .served (.mutation m) (.ok reply) => told ++ [(m, reply.status)]
  | .served (.mutation _) (.error .noSpace) => told
  | .served (.mutation m) (.error refusal) => told ++ [(m, refusal.status)]
  | .served .checkpoint (.ok _) => []
  | .served .checkpoint (.error _) => told
  | .served (.query _) _ => told
  | .served (.edgePart ..) _ => told
  | .reopened settings => if settings.format then [] else told

/-- The mutations since the last checkpoint or format with the codes that their callers were told,
less those for which the log had no space. -/
def answered (events : List SessionEvent) : List (Mutation × StatusCode) :=
  events.foldl SessionEvent.remember []

/-! ## Replaying -/

namespace Graph

theorem replayStatuses_append (g : Graph) (ms more : List Mutation) :
    g.replayStatuses (ms ++ more) = g.replayStatuses ms ++ (g.replay ms).replayStatuses more := by
  induction ms generalizing g with
  | nil => rfl
  | cons m rest ih => rw [List.cons_append, replayStatuses, ih]; rfl

/-- One more entry gets the code that the graph behind the others answers with. -/
theorem replayLog_concat (g : Graph) (ms : List Mutation) (m : Mutation) :
    g.replayLog (ms ++ [m]) = g.replayLog ms ++ [(m, statusOf ((g.replay ms).answer m))] := by
  unfold replayLog
  rw [replayStatuses_append, List.zip_append (length_replayStatuses g ms).symm]
  rfl

/-- The reply to a mutation has the code of the answer of the graph. -/
theorem remember_answer (told : List (Mutation × StatusCode)) (g : Graph) (m : Mutation) :
    SessionEvent.remember told (.served (.mutation m) ((g.answer m).map .outcome)) =
      told ++ [(m, statusOf (g.answer m))] := by
  cases answer : g.answer m with
  | ok outcome => rfl
  | error refusal =>
    obtain rfl | ⟨reason, rfl⟩ := ofGraph_answer answer
    · rfl
    · rfl

end Graph

/-! ## Notices -/

namespace Work

variable {σ τ ε δ α β : Type}

/-- Whatever becomes of the work, it notes no entry as replayed. -/
def ReplaysNothing (x : Work σ ε α) : Prop := ∀ s, (x s).notices.filterMap Notice.replayed? = []

/-- The notices of two parts stand one behind the other. -/
theorem Gives.notices_bind {x : Work σ ε α} {s t : σ} {a : α} {w : List Buffer}
    (h : x.Gives s (.ok a) t w) (f : α → Work σ ε β) :
    ((x >>= f) s).notices = (x s).notices ++ (f a t).notices := by
  obtain ⟨hr, hs, hw⟩ := h
  rcases hx : x s with ⟨result, state, writes, notices⟩
  simp only [hx] at hr hs hw
  subst hr hs hw
  rw [bind_apply_ok hx]

theorem ReplaysNothing.bind {x : Work σ ε α} (h : ReplaysNothing x) {f : α → Work σ ε β}
    (h' : ∀ a, ReplaysNothing (f a)) : ReplaysNothing (x >>= f) := by
  intro s
  have first := h s
  rcases hx : x s with ⟨e | a, t, writes, notices⟩
  · rw [hx] at first
    rw [bind_apply_error hx]
    exact first
  · rw [hx] at first
    rw [bind_apply_ok hx, List.filterMap_append]
    exact List.append_eq_nil_iff.2 ⟨first, h' a t⟩

theorem ReplaysNothing.onPart {x : Work τ δ α} (h : ReplaysNothing x) (get : σ → τ)
    (set : σ → τ → σ) (wrap : δ → ε) : ReplaysNothing (Work.onPart get set wrap x) :=
  fun s => h (get s)

/-- What follows work that replays nothing replays everything. -/
theorem Gives.replayed_then {x : Work σ ε α} {s t : σ} {a : α} {w : List Buffer}
    (h : x.Gives s (.ok a) t w) (quiet : ReplaysNothing x) (f : α → Work σ ε β) :
    ((x >>= f) s).notices.filterMap Notice.replayed? =
      (f a t).notices.filterMap Notice.replayed? := by
  rw [h.notices_bind, List.filterMap_append, quiet s, List.nil_append]

end Work

open Work

theorem Log.replaysNothing_load (image : Image) : ReplaysNothing (Log.load image) := by
  unfold load
  refine ReplaysNothing.bind (fun _ => rfl) fun log => ?_
  refine ReplaysNothing.bind (fun _ => rfl) fun buffer => ?_
  refine ReplaysNothing.bind (fun _ => rfl) fun superblock => ?_
  dsimp only
  split
  · exact fun _ => rfl
  · refine ReplaysNothing.bind (fun _ => rfl) fun tail => ?_
    exact ReplaysNothing.bind (fun _ => rfl) fun _ _ => rfl

theorem CheckpointSlot.replaysNothing_load (image : Image) :
    ReplaysNothing (CheckpointSlot.load image) := by
  unfold load
  refine ReplaysNothing.bind (fun _ => rfl) fun slot => ?_
  refine ReplaysNothing.bind (fun _ => rfl) fun buffer => ?_
  exact ReplaysNothing.bind (fun _ => rfl) fun _ _ => rfl

theorem CheckpointSlot.replaysNothing_restore (slot : CheckpointSlot) (image : Image)
    (generation : UInt64) : ReplaysNothing (slot.restore image generation) := by
  unfold restore
  split
  · refine ReplaysNothing.bind (fun _ => rfl) fun g => ?_
    split
    refine ReplaysNothing.bind (fun _ => rfl) fun _ => ?_
    exact ReplaysNothing.bind (fun _ => rfl) fun _ _ => rfl
  · dsimp only
    split
    · exact ReplaysNothing.bind (fun _ => rfl) fun _ _ => rfl
    · exact ReplaysNothing.bind (fun _ => rfl) fun _ _ => rfl

/-- The notices about entries are those that stand between the others. -/
theorem filterMap_replayed (ms : List Mutation) (codes : List StatusCode) :
    (List.zipWith Notice.replayed ms codes).filterMap Notice.replayed? = ms.zip codes := by
  induction ms generalizing codes with
  | nil => rfl
  | cons m rest ih =>
    cases codes with
    | nil => rfl
    | cons code others =>
      have here : (Notice.replayed m code).replayed? = some (m, code) := rfl
      rw [List.zipWith_cons_cons, List.filterMap_cons_some here, ih, List.zip_cons_cons]

namespace Store

variable {settings : Settings} {image : Image}

/-- Recovery replays the entries that it read on the graph that it restored. -/
theorem replayed_recover {store : Store} {log : Log} {slot : CheckpointSlot} {base : Graph}
    {c : LogCursor} {entries : List Mutation} {w₁ w₂ w₃ : List Buffer} {count : UInt64}
    (load : (Log.load image).Gives store.log (.ok ()) log w₁)
    (loadSlot : (CheckpointSlot.load image).Gives store.checkpoints (.ok ()) slot w₂)
    (restore : (slot.restore image (if log.generation = 0 then 0 else log.generation - 1)).Gives
      store.graph (.ok count) base w₃)
    (cursor : log.cursor image = .ok c) (read : c.entries image = (entries, none)) :
    (recover image store).notices.filterMap Notice.replayed? = base.replayLog entries := by
  have hslot : (onCheckpoints (CheckpointSlot.load image)).Gives { store with log } (.ok ())
      { store with log, checkpoints := slot } w₂ :=
    gives_onCheckpoints (s := { store with log }) loadSlot
  have hgraph : (onGraph (slot.restore image
      (if log.generation = 0 then 0 else log.generation - 1))).Gives
      { store with log, checkpoints := slot } (.ok count)
      { store with log, checkpoints := slot, graph := base } w₃ :=
    gives_onGraph (s := { store with log, checkpoints := slot }) restore
  unfold recover
  rw [(gives_onLog load).replayed_then ((Log.replaysNothing_load image).onPart _ _ _),
    hslot.replayed_then ((CheckpointSlot.replaysNothing_load image).onPart _ _ _),
    (gives_current _).replayed_then fun _ => rfl, (gives_note _ _).replayed_then fun _ => rfl,
    hgraph.replayed_then ((CheckpointSlot.replaysNothing_restore slot image _).onPart _ _ _),
    (gives_ofExcept (by rw [cursor]; rfl) _).replayed_then fun _ => rfl]
  simp only [read]
  rw [(gives_current _).replayed_then fun _ => rfl, (gives_noteAll _ _).notices_bind,
    List.filterMap_append, (gives_replace _ _).replayed_then fun _ => rfl]
  show (List.zipWith Notice.replayed entries _).filterMap Notice.replayed? ++ [] = _
  rw [List.append_nil, filterMap_replayed]
  rfl

/-- Opening replays what formatting or recovery does. -/
theorem replayed_openFile (named : settings.device.isEmpty = false) (enough : 10 ≤ image.blockCount)
    (small : image.blockCount / 5 < UInt32.size) :
    image.replayed settings =
      ((if settings.format then format image else recover image)
        (blank settings.device image)).notices.filterMap Notice.replayed? := by
  have valid : settings.validate.mapError StoreError.settings = .ok () := by
    unfold Settings.validate
    rw [if_neg (by rw [named]; decide)]
    rfl
  unfold Image.replayed openFile openImage
  refine ((gives_ofExcept valid ()).replayed_then (fun _ => rfl) _).trans ?_
  refine ((gives_note _ ()).replayed_then (fun _ => rfl) _).trans ?_
  refine ((gives_ofExcept (regions_eq_ok_iff.2 ⟨enough, rfl⟩) ()).replayed_then
    (fun _ => rfl) _).trans ?_
  refine ((gives_ofExcept (mapError_eq_ok_iff.2 (blank_log enough small)) ()).replayed_then
    (fun _ => rfl) _).trans ?_
  exact (gives_ofExcept (mapError_eq_ok_iff.2 (blank_checkpoints enough)) ()).replayed_then
    (fun _ => rfl) _

end Store

/-! ## Runs -/

namespace Session

variable {s t : Session} {base : Graph} {older : List (List Mutation)} {last : List Mutation}
  {told : List (Mutation × StatusCode)}

/-- What is replayed of a store that agrees with its image: the entries that its log tells. -/
theorem Agrees.replayed (h : s.Agrees base older last) {again : Settings}
    (named : again.device.isEmpty = false) (kept : again.format = false) :
    s.image.replayed again = base.replayLog (older.flatten ++ last) := by
  have h' := h.renamed named
  obtain ⟨-, enough, small, w, gives, -⟩ := ofImage?_eq_some_iff.1 (h.reopen_renamed named kept)
  rw [Store.replayed_openFile named enough small]
  rw [kept] at gives ⊢
  obtain ⟨log, slot, found, c, entries, w₁, w₂, w₃, count, load, loadSlot, restore, cursor, read,
    recovered, -⟩ := Store.gives_recover_iff.1 gives
  have hlog : (s.renamed again.device).store.log = log := by rw [recovered]
  have hslot : (s.renamed again.device).store.checkpoints = slot := by rw [recovered]
  obtain ⟨c', cursor', read'⟩ := h'.tells.read
  obtain ⟨count', restore'⟩ := h'.restores
  unfold Store.baseVersion at restore'
  rw [hlog] at cursor' restore'
  rw [hslot] at restore'
  obtain rfl : found = base := (restore.unique restore').2.1
  obtain rfl : c = c' := Except.ok.inj (cursor.symm.trans cursor')
  obtain rfl : entries = older.flatten ++ last := (Prod.mk.inj (read.symm.trans read')).1
  exact Store.replayed_recover load loadSlot restore cursor read

/-- The store agrees with its image, and replaying its log gives what was told. -/
def Remembers (s : Session) (told : List (Mutation × StatusCode)) : Prop :=
  ∃ base older last, s.Agrees base older last ∧ told = base.replayLog (older.flatten ++ last)

/-- **One request.**  What it tells is remembered, or a rotation failed. -/
theorem Remembers.serve (h : s.Remembers told) (request : Request) :
    (s.serve request).Remembers (SessionEvent.remember told (.served request
      (s.step request).result)) ∨
    (s.step request).result =
      .error (StoreError.rotationFailed .generationsExhausted).refusal := by
  obtain ⟨base, older, last, agrees, rfl⟩ := h
  cases request with
  | mutation m =>
    left
    obtain ⟨log, older', last', entries, -, -, result, -, agrees'⟩ | ⟨-, -, result, same⟩ :=
      agrees.mutation_appends m
    · refine ⟨base, older', last', agrees', ?_⟩
      rw [result, Graph.remember_answer, entries, Graph.replayLog_concat, ← agrees.graph]
    · rw [result, same]
      exact ⟨base, older, last, agrees, rfl⟩
  | query q =>
    left
    rw [(step_query agrees.running q).2]
    exact ⟨base, older, last, agrees, rfl⟩
  | checkpoint =>
    obtain ⟨-, -, result, -, -, agrees'⟩ | ⟨-, result, same⟩ | ⟨-, result, -⟩ := agrees.checkpoint
    · left
      rw [result]
      exact ⟨s.store.graph, [], [], agrees', rfl⟩
    · left
      rw [result, same]
      exact ⟨base, older, last, agrees, rfl⟩
    · exact .inr result
  | edgePart access near far => exact .inl ⟨base, older, last, agrees, rfl⟩

/-- A format begins with nothing, and any other reopening finds what was there. -/
theorem Remembers.reopen (h : s.Remembers told) {settings : Settings}
    (opened : ofImage? settings s.image = some t) :
    t.Remembers (SessionEvent.remember told (.reopened settings)) := by
  obtain ⟨base, older, last, agrees, rfl⟩ := h
  show t.Remembers (if settings.format then [] else _)
  cases format : settings.format with
  | true => exact ⟨∅, [], [], (agrees_of_ofImage?_format opened format).1, rfl⟩
  | false => exact ⟨base, older, last, agrees.agrees_of_reopened opened format, rfl⟩

end Session

/-- **Any run** without a rotation that failed, by induction on the run. -/
theorem Run.remembers {s t : Session} {events : List SessionEvent} (run : Run s events t)
    {told : List (Mutation × StatusCode)} (h : s.Remembers told)
    (fine : ∀ request e,
      .served request (.error (StoreError.rotationFailed e).refusal) ∉ events) :
    t.Remembers (events.foldl SessionEvent.remember told) := by
  induction run generalizing told with
  | nil => exact h
  | serve request rest ih =>
    obtain remembers | failed := h.serve request
    · exact ih remembers fun r e he => fine r e (List.mem_cons_of_mem _ he)
    · exact absurd (by rw [failed]; exact List.mem_cons_self) (fine request .generationsExhausted)
  | reopen settings opened rest ih =>
    exact ih (h.reopen opened) fun r e he => fine r e (List.mem_cons_of_mem _ he)

/-! ## Top theorem -/

/-- **Replay gives the answers again.**  A store was formatted, and any requests and reopenings
followed, none of which failed to rotate the log.  Opened once more, by whatever name, it replays
the mutations since the last checkpoint or format in their order, each with the code that its
caller was told. -/
theorem replayed_of_run {settings again : Settings} {image : Image} {s t : Session}
    {events : List SessionEvent} (opened : Session.ofImage? settings image = some s)
    (format : settings.format = true) (run : Run s events t)
    (fine : ∀ request e,
      .served request (.error (StoreError.rotationFailed e).refusal) ∉ events)
    (named : again.device.isEmpty = false) (kept : again.format = false) :
    (∃ u, Session.ofImage? again t.image = some u) ∧ t.image.replayed again = answered events := by
  have first : s.Remembers [] := ⟨∅, [], [], (Session.agrees_of_ofImage?_format opened format).1, rfl⟩
  obtain ⟨base, older, last, agrees, told⟩ := run.remembers first fine
  refine ⟨⟨_, agrees.reopen_renamed named kept⟩, ?_⟩
  rw [agrees.replayed named kept]
  exact told.symm

/-- A node, the same node again, and an edge to itself behind a checkpoint: replay finds that the
second had no effect and the third was refused. -/
theorem replayed_of_run_reused :
    ∃ s t events again, Session.ofImage? ⟨"disk", true, false, "warn"⟩ .reused = some s ∧
      s.serveAll [.mutation (.addNode 7), .checkpoint, .mutation (.addNode 7),
        .mutation (.addEdge 7 7)] = t ∧
      Run s events t ∧
      (∀ request e, .served request (.error (StoreError.rotationFailed e).refusal) ∉ events) ∧
      again.device.isEmpty = false ∧ again.format = false ∧
      (∃ u, Session.ofImage? again t.image = some u) ∧
      t.image.replayed again = answered events := by
  obtain ⟨s, opened, agrees, generation⟩ := Session.exists_ofImage?_reused
  obtain ⟨events, run, fine⟩ := agrees.exists_run [.mutation (.addNode 7), .checkpoint,
    .mutation (.addNode 7), .mutation (.addEdge 7 7)] (by rw [generation]; decide)
  have named : (Settings.forDevice "disk").device.isEmpty = false := by decide
  obtain ⟨reopened, replayed⟩ := replayed_of_run opened rfl run fine named rfl
  exact ⟨s, _, events, _, opened, rfl, run, fine, named, rfl, reopened, replayed⟩

end DurableGraph
