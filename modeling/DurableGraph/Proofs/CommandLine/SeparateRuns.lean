import Mathlib.Data.List.Forall2
import DurableGraph.CommandLine.Invocation
import DurableGraph.Proofs.Actions
import DurableGraph.Proofs.Store.Serving

/-!
# Separate runs of the program

A run of the program opens the device, carries out one command and ends.  Runs one after the
other tell what one store tells that is kept open for all of their commands, since every run
opens the store as the run before has left it.

    image.visit v       a run on the image: what it tells, and the image it leaves
    s.obey command      the answer of a store that is kept open, and the session afterwards
    s agrees with its image → (s.image.visit v).1 tells (s.obey v.command).1        (Agrees.visit)

A checkpoint whose rotation fails is the exception: it halts a store that is kept open, while
the next run knows nothing of it.
-/

namespace DurableGraph

/-- A run of the program on a device that it does not format. -/
structure Visit (device : String) where
  settings : Settings
  command : Command
  device_eq : settings.device = device
  kept : settings.format = false
  noFormat : command ≠ .format

/-- What a run tells, and the image that it leaves. -/
def Image.visit {device : String} (image : Image) (v : Visit device) : RunResult × Image :=
  let (result, writes) := Invocation.runWith v.command v.settings (.ok image)
  (result, image.storeAll writes)

/-- What a store that is kept open answers to a command, and the session afterwards.  Figures are
rendered for an inspection; formatting is no command to an open store. -/
def Session.obey (s : Session) : Command → Except Refusal String × Session
  | .inspect json => (.ok (if json then s.store.stats.json ++ "\n" else s.store.stats.text), s)
  | command =>
    match command.graphRequest with
    | .ok request => ((s.step request).result.map fun reply => reply.text ++ "\n", s.serve request)
    | .error refusal => (.error refusal, s)

/-- A run tells an answer: its text and nothing else, or its refusal in a line of error. -/
structure RunResult.Tells (result : RunResult) (answer : Except Refusal String) : Prop where
  ok : ∀ text, answer = .ok text →
    result.code = 0 ∧ result.output = text ∧ result.error = none
  refused : ∀ refusal, answer = .error refusal →
    result.code = 1 ∧ result.output = "" ∧
      result.error = some ("error: " ++ refusal.status.text ++ ": " ++ refusal.message)
  code_eq_zero_iff : result.code = 0 ↔ answer.isOk = true

/-! ## One run -/

theorem RunResult.tells_succeeded (text : String) (events : List Event) :
    (Invocation.succeeded text events).Tells (.ok text) where
  ok _ same := by
    cases same
    exact ⟨rfl, rfl, rfl⟩
  refused _ same := by cases same
  code_eq_zero_iff := iff_of_true rfl rfl

theorem RunResult.tells_failed (refusal : Refusal) (events : List Event) :
    (Invocation.failed ("error: " ++ refusal.status.text ++ ": " ++ refusal.message) events).Tells
      (.error refusal) where
  ok _ same := by cases same
  refused _ same := by
    cases same
    exact ⟨rfl, rfl, rfl⟩
  code_eq_zero_iff := iff_of_false Nat.one_ne_zero Bool.false_ne_true

namespace Session

variable {s : Session} {base : Graph} {older : List (List Mutation)} {last : List Mutation}
  {device : String}

/-- Carrying out a command on a store tells its answer, and stores what it stores. -/
theorem tells_execute (s : Session) (events : List Event) {command : Command}
    (noFormat : command ≠ .format) :
    (Invocation.execute s.store events command).1.Tells (s.obey command).1 ∧
      s.image.storeAll (Invocation.execute s.store events command).2 =
        (s.obey command).2.image := by
  cases command with
  | format => exact absurd rfl noFormat
  | inspect json => exact ⟨RunResult.tells_succeeded _ _, rfl⟩
  | request request =>
    unfold Invocation.execute obey step
    dsimp only [Command.graphRequest]
    cases result : (Store.serve request s.store).result with
    | ok reply => exact ⟨RunResult.tells_succeeded _ _, rfl⟩
    | error refusal => exact ⟨RunResult.tells_failed _ _, rfl⟩

/-- A store that agrees with its image is what a run opens, without a write. -/
theorem Agrees.gives_openFile (h : s.Agrees base older last) {settings : Settings}
    (same : settings.device = s.store.device.path) (kept : settings.format = false) :
    (Store.openFile settings (.ok s.image)).Gives () (.ok s.store) () [] := by
  obtain ⟨named, enough, small, w, gives, -⟩ := ofImage?_eq_some_iff.1 (h.reopen same kept)
  have recovered := gives
  rw [kept] at recovered
  obtain ⟨rfl, -⟩ := agrees_of_recover named enough small recovered
  exact Store.gives_openFile_iff.2 ⟨named, enough, small, gives⟩

/-- **One run** tells what the store would tell if it were kept open. -/
theorem Agrees.visit (h : s.Agrees base older last) (same : s.store.device.path = device)
    (v : Visit device) :
    (s.image.visit v).1.Tells (s.obey v.command).1 ∧
      (s.image.visit v).2 = (s.obey v.command).2.image := by
  have opening := h.gives_openFile (v.device_eq.trans same.symm) v.kept
  unfold Image.visit Invocation.runWith
  simp only [opening.result_eq, opening.writes_eq, List.nil_append]
  exact s.tells_execute _ v.noFormat

/-! ## Any runs -/

/-- A session goes on after a command: it agrees with its image again, on the same device, at most
one generation later, and told of no fault. -/
structure ObeysOn (s : Session) (command : Command) : Prop where
  agrees : ∃ base older last, (s.obey command).2.Agrees base older last
  device : (s.obey command).2.store.device = s.store.device
  generation_le_succ : (s.obey command).2.store.log.superblock.generation.toNat ≤
    s.store.log.superblock.generation.toNat + 1
  harmless : ∀ refusal, (s.obey command).1 = .error refusal → refusal.isFault = false

theorem Agrees.device_serve (h : s.Agrees base older last) (request : Request) :
    (s.serve request).store.device = s.store.device := by
  cases request with
  | mutation m =>
    obtain ⟨_, _, _, -, -, -, hstore, -⟩ | ⟨-, -, -, hserve⟩ := h.mutation m
    · rw [hstore]
    · rw [hserve]
  | query q => rw [(step_query h.running q).2]
  | edgePart access near far => rfl
  | checkpoint =>
    by_cases room : s.store.graph.words.length ≤ s.store.checkpoints.bodyWords
    · by_cases spent : s.store.log.superblock.generation.toNat + 1 = UInt32.size
      · rw [(h.checkpoint_of_spent room spent).2.2]
      · rw [(h.checkpoint_of_room room spent).2.2.1]
        rfl
    · rw [(h.checkpoint_of_full (Nat.lt_of_not_le room)).2.2]

/-- What leaves the session as it is lets it go on. -/
theorem Agrees.obeysOn_same (h : s.Agrees base older last) {command : Command}
    (same : (s.obey command).2 = s)
    (harmless : ∀ refusal, (s.obey command).1 = .error refusal → refusal.isFault = false) :
    s.ObeysOn command where
  agrees := by
    rw [same]
    exact ⟨_, _, _, h⟩
  device := by rw [same]
  generation_le_succ := by
    rw [same]
    exact Nat.le_succ _
  harmless := harmless

/-- **One command.**  The session goes on, or a rotation failed in the last generation. -/
theorem Agrees.obeysOn (h : s.Agrees base older last) (command : Command) :
    s.ObeysOn command ∨
      (s.store.log.superblock.generation.toNat + 1 = UInt32.size ∧
        (s.obey command).1 = .error (StoreError.rotationFailed .generationsExhausted).refusal) := by
  cases command with
  | format =>
    refine .inl (h.obeysOn_same rfl fun refusal refused => ?_)
    cases refused
    rfl
  | inspect json => exact .inl (h.obeysOn_same rfl fun _ refused => by cases refused)
  | request request =>
    obtain goesOn | ⟨spent, failed, -⟩ := h.serve request
    · exact .inl ⟨goesOn.agrees, h.device_serve request, goesOn.generation_le_succ,
        fun refusal refused => goesOn.harmless refusal (Graph.map_eq_error_iff.1 refused)⟩
    · exact .inr ⟨spent, Graph.map_eq_error_iff.2 failed⟩

/-- **Any runs** tell what the store tells if it is kept open, by induction on the runs.  Each of
them leaves the image that the open store has. -/
theorem Agrees.visits (h : s.Agrees base older last) (same : s.store.device.path = device)
    (runs : List (Visit device))
    (fine : ∀ e, .error (StoreError.rotationFailed e).refusal ∉
      (performAll Session.obey s (runs.map Visit.command)).1) :
    List.Forall₂ RunResult.Tells (performAll Image.visit s.image runs).1
        (performAll Session.obey s (runs.map Visit.command)).1 ∧
      (performAll Image.visit s.image runs).2 =
        (performAll Session.obey s (runs.map Visit.command)).2.image ∧
      (∃ base older last,
        (performAll Session.obey s (runs.map Visit.command)).2.Agrees base older last) ∧
      (performAll Session.obey s (runs.map Visit.command)).2.store.device.path = device := by
  induction runs generalizing s base older last with
  | nil => exact ⟨.nil, rfl, ⟨_, _, _, h⟩, same⟩
  | cons v rest ih =>
    rw [List.map_cons, performAll_cons, performAll_cons] at *
    obtain ⟨tells, image⟩ := h.visit same v
    obtain goesOn | ⟨-, failed⟩ := h.obeysOn v.command
    · obtain ⟨base', older', last', agrees⟩ := goesOn.agrees
      obtain ⟨later, images, last⟩ := ih agrees ((congrArg Device.path goesOn.device).trans same)
        fun e he => fine e (List.mem_cons_of_mem _ he)
      rw [image]
      exact ⟨.cons tells later, images, last⟩
    · exact absurd (List.mem_cons.2 (.inl failed.symm)) (fine .generationsExhausted)

/-- No rotation fails while there are as many generations to come as there are commands. -/
theorem Agrees.obeyAll_fine (h : s.Agrees base older last) (commands : List Command)
    (room : s.store.log.superblock.generation.toNat + commands.length < UInt32.size)
    (e : LogError) :
    .error (StoreError.rotationFailed e).refusal ∉ (performAll Session.obey s commands).1 := by
  induction commands generalizing s base older last with
  | nil => exact List.not_mem_nil
  | cons command rest ih =>
    rw [List.length_cons] at room
    rw [performAll_cons]
    obtain goesOn | ⟨spent, -⟩ := h.obeysOn command
    · obtain ⟨base', older', last', agrees⟩ := goesOn.agrees
      have next := goesOn.generation_le_succ
      rintro he
      rcases List.mem_cons.1 he with failed | later
      · cases goesOn.harmless _ failed.symm
      · exact ih agrees (by omega) later
    · omega

/-! ## The format -/

variable {settings : Settings} {image : Image}

/-- A run that formats succeeds exactly where a store is opened. -/
theorem code_format_eq_zero_iff :
    (Invocation.runWith .format settings (.ok image)).1.code = 0 ↔
      ∃ s, ofImage? settings image = some s := by
  unfold Invocation.runWith ofImage?
  dsimp only
  cases (Store.openFile settings (.ok image) ()).result with
  | ok store => exact iff_of_true rfl ⟨_, rfl⟩
  | error e =>
    refine iff_of_false Nat.one_ne_zero ?_
    rintro ⟨s, opened⟩
    cases opened

/-- It leaves the image of that store. -/
theorem storeAll_format (opened : ofImage? settings image = some s) :
    image.storeAll (Invocation.runWith .format settings (.ok image)).2 = s.image := by
  unfold ofImage? at opened
  unfold Invocation.runWith
  dsimp only at opened ⊢
  split at opened
  · next hr =>
    cases opened
    rw [hr]
    dsimp only [Invocation.execute]
    rw [List.append_nil]
  · cases opened

end Session

/-! ## Top theorem -/

/-- **Separate runs are one store.**  After a run that formats, any runs tell what a store tells
that is kept open since and obeys their commands in the same order, as long as no checkpoint
before has answered that its rotation failed. -/
theorem tells_of_visits {image : Image} {first : Settings} (format : first.format = true)
    (accepted : (Invocation.runWith .format first (.ok image)).1.code = 0) :
    ∃ s, Session.ofImage? first image = some s ∧
      image.storeAll (Invocation.runWith .format first (.ok image)).2 = s.image ∧
      ∀ (before : List (Visit first.device)) (next : Visit first.device),
        (∀ e, .error (StoreError.rotationFailed e).refusal ∉
          (performAll Session.obey s (before.map Visit.command)).1) →
        List.Forall₂ RunResult.Tells (performAll Image.visit s.image before).1
            (performAll Session.obey s (before.map Visit.command)).1 ∧
          (performAll Image.visit s.image before).2 =
            (performAll Session.obey s (before.map Visit.command)).2.image ∧
          ((performAll Image.visit s.image before).2.visit next).1.Tells
            ((performAll Session.obey s (before.map Visit.command)).2.obey next.command).1 := by
  obtain ⟨s, opened⟩ := Session.code_format_eq_zero_iff.1 accepted
  obtain ⟨agrees, -⟩ := Session.agrees_of_ofImage?_format opened format
  have path : s.store.device.path = first.device := by
    rw [Session.device_of_ofImage? opened]
    rfl
  refine ⟨s, opened, Session.storeAll_format opened, fun before next fine => ?_⟩
  obtain ⟨tells, image, ⟨_, _, _, agrees'⟩, device⟩ := agrees.visits path before fine
  refine ⟨tells, image, ?_⟩
  rw [image]
  exact (agrees'.visit device next).1

/-- A format, a node, a checkpoint, and an edge from the node to itself, which is refused. -/
theorem tells_of_visits_reused :
    ∃ (s : Session) (before : List (Visit "disk")) (next : Visit "disk"),
      (⟨"disk", true, false, "warn"⟩ : Settings).format = true ∧
      (Invocation.runWith .format ⟨"disk", true, false, "warn"⟩ (.ok .reused)).1.code = 0 ∧
      Session.ofImage? ⟨"disk", true, false, "warn"⟩ .reused = some s ∧
      before.map Visit.command = [.request (.mutation (.addNode 7)), .request .checkpoint] ∧
      next.command = .request (.mutation (.addEdge 7 7)) ∧
      (∀ e, .error (StoreError.rotationFailed e).refusal ∉
        (performAll Session.obey s (before.map Visit.command)).1) ∧
      ((performAll Image.visit s.image before).2.visit next).1.error =
        some "error: INVALID: invalid request: edge endpoints must differ" := by
  obtain ⟨s, t, -, -, opened, reached, -, h, -, -, -, -⟩ := Session.exists_checkpointed_reused
  obtain ⟨agrees, generation⟩ := Session.agrees_of_ofImage?_format opened rfl
  have run (command : Command) (noFormat : command ≠ .format) :
      ∃ v : Visit "disk", v.command = command :=
    ⟨⟨⟨"disk", false, false, "warn"⟩, command, rfl, rfl, noFormat⟩, rfl⟩
  obtain ⟨node, hnode⟩ := run (.request (.mutation (.addNode 7))) (by decide)
  obtain ⟨save, hsave⟩ := run (.request .checkpoint) (by decide)
  obtain ⟨edge, hedge⟩ := run (.request (.mutation (.addEdge 7 7))) (by decide)
  have commands : [node, save].map Visit.command =
      [.request (.mutation (.addNode 7)), .request .checkpoint] := by
    rw [List.map_cons, List.map_singleton, hnode, hsave]
  have fine := agrees.obeyAll_fine ([node, save].map Visit.command) (by
    rw [generation, Image.nextGeneration_reused, commands]
    decide)
  have accepted := Session.code_format_eq_zero_iff.2 ⟨s, opened⟩
  obtain ⟨s', opened', -, tells⟩ := tells_of_visits rfl accepted
  rw [opened] at opened'
  cases opened'
  obtain ⟨-, -, last⟩ := tells [node, save] edge fine
  have state : (performAll Session.obey s
      [.request (.mutation (.addNode 7)), .request .checkpoint]).2 = t := reached
  have answer : (t.obey (.request (.mutation (.addEdge 7 7)))).1 =
      .error (.invalid "edge endpoints must differ") := by
    refine Graph.map_eq_error_iff.2 ?_
    -- the log is empty, so the edge is appended before it is refused
    obtain ⟨_, _, _, -, -, answer, -⟩ | ⟨-, ⟨n, full⟩, -⟩ := h.mutation (.addEdge 7 7)
    · exact answer
    · rw [h.tells.append_eq_ok (Nat.zero_lt_succ _)] at full
      cases full
  rw [commands, hedge, state, answer] at last
  exact ⟨s, [node, save], edge, rfl, accepted, opened, commands, hedge, fine,
    (last.refused _ rfl).2.2⟩

end DurableGraph
