import DurableGraph.Disk.Device
import DurableGraph.Notice

/-!
# Steps of work on a device

Work on a component of the store is a function from its state to a `Step`: a result, the
state afterwards (also after an error), the buffers it stores, in order, and its notices.
Nothing is read back that the same step has stored, so reading takes the image as it was
before the step, and the image after it is `image.storeAll step.writes`.

    (x >>= f) s    runs `f` from the state that `x` leaves, its writes after those of `x`
-/

namespace DurableGraph

structure Step (σ ε α : Type) where
  result : Except ε α
  state : σ
  writes : List Buffer
  notices : List Notice

/-- Work on a state `σ` that can fail with `ε`. -/
def Work (σ ε α : Type) : Type := σ → Step σ ε α

namespace Work

variable {σ τ ε δ α β : Type}

/-! ## Algorithm -/

/-- Carries on after a step; an error ends the work and keeps what was done. -/
def andThen (x : Work σ ε α) (f : α → Work σ ε β) : Work σ ε β := fun s =>
  match x s with
  | ⟨.ok a, s, writes, notices⟩ =>
    let next := f a s
    ⟨next.result, next.state, writes ++ next.writes, notices ++ next.notices⟩
  | ⟨.error e, s, writes, notices⟩ => ⟨.error e, s, writes, notices⟩

instance : Monad (Work σ ε) where
  pure a := fun s => ⟨.ok a, s, [], []⟩
  bind := andThen

def fail (e : ε) : Work σ ε α := fun s => ⟨.error e, s, [], []⟩

/-- The state as it stands. -/
def current : Work σ ε σ := fun s => ⟨.ok s, s, [], []⟩

def replace (s : σ) : Work σ ε Unit := fun _ => ⟨.ok (), s, [], []⟩

def note (notice : Notice) : Work σ ε Unit := fun s => ⟨.ok (), s, [], [notice]⟩

def noteAll (notices : List Notice) : Work σ ε Unit := fun s => ⟨.ok (), s, [], notices⟩

def ofExcept (e : Except ε α) : Work σ ε α := fun s => ⟨e, s, [], []⟩

/-- Lets a device answer, in terms of the component's own errors. -/
def ask (wrap : DeviceError → ε) (answer : Except DeviceError α) : Work σ ε α :=
  ofExcept (answer.mapError wrap)

/-- Stores a buffer that lies on the device. -/
def store (wrap : DeviceError → ε) (device : Device) (buffer : Buffer) : Work σ ε Unit := fun s =>
  match device.check buffer.number with
  | .ok _ => ⟨.ok (), s, [buffer], []⟩
  | .error e => ⟨.error (wrap e), s, [], []⟩

/-- Work on a part of a larger state. -/
def onPart (get : σ → τ) (set : σ → τ → σ) (wrap : δ → ε) (x : Work τ δ α) : Work σ ε α :=
  fun s =>
    let step := x (get s)
    ⟨step.result.mapError wrap, set s step.state, step.writes, step.notices⟩

/-- Work that begins from a state of its own and gives it back at the end. -/
def startingAt (t : τ) (x : Work τ ε Unit) : Work σ ε τ := fun s =>
  let step := x t
  ⟨step.result.map fun _ => step.state, s, step.writes, step.notices⟩

/-- Turns an error into other work, done from the state that the error left. -/
def onError (x : Work σ δ α) (handle : δ → Work σ ε α) : Work σ ε α := fun s =>
  match x s with
  | ⟨.ok a, s, writes, notices⟩ => ⟨.ok a, s, writes, notices⟩
  | ⟨.error e, s, writes, notices⟩ =>
    let next := handle e s
    ⟨next.result, next.state, writes ++ next.writes, notices ++ next.notices⟩

/-! ## Lemmas -/

@[simp] theorem pure_apply (a : α) (s : σ) : (pure a : Work σ ε α) s = ⟨.ok a, s, [], []⟩ := rfl

theorem bind_apply (x : Work σ ε α) (f : α → Work σ ε β) (s : σ) :
    (x >>= f) s = andThen x f s := rfl

theorem bind_apply_ok {x : Work σ ε α} {s t : σ} {a : α} {writes : List Buffer}
    {notices : List Notice} (h : x s = ⟨.ok a, t, writes, notices⟩) (f : α → Work σ ε β) :
    (x >>= f) s = ⟨(f a t).result, (f a t).state, writes ++ (f a t).writes,
      notices ++ (f a t).notices⟩ := by
  simp [bind_apply, andThen, h]

theorem bind_apply_error {x : Work σ ε α} {s t : σ} {e : ε} {writes : List Buffer}
    {notices : List Notice} (h : x s = ⟨.error e, t, writes, notices⟩) (f : α → Work σ ε β) :
    (x >>= f) s = ⟨.error e, t, writes, notices⟩ := by
  simp [bind_apply, andThen, h]

@[simp] theorem current_apply (s : σ) : (current : Work σ ε σ) s = ⟨.ok s, s, [], []⟩ := rfl

@[simp] theorem replace_apply (s t : σ) :
    (replace t : Work σ ε Unit) s = ⟨.ok (), t, [], []⟩ := rfl

@[simp] theorem note_apply (notice : Notice) (s : σ) :
    (note notice : Work σ ε Unit) s = ⟨.ok (), s, [], [notice]⟩ := rfl

@[simp] theorem noteAll_apply (notices : List Notice) (s : σ) :
    (noteAll notices : Work σ ε Unit) s = ⟨.ok (), s, [], notices⟩ := rfl

@[simp] theorem fail_apply (e : ε) (s : σ) : (fail e : Work σ ε α) s = ⟨.error e, s, [], []⟩ := rfl

@[simp] theorem ofExcept_apply (e : Except ε α) (s : σ) :
    (ofExcept e : Work σ ε α) s = ⟨e, s, [], []⟩ := rfl

theorem store_apply {wrap : DeviceError → ε} {device : Device} {buffer : Buffer} (s : σ)
    (h : buffer.number < device.blockCount) :
    (store wrap device buffer : Work σ ε Unit) s = ⟨.ok (), s, [buffer], []⟩ := by
  simp [store, Device.check_eq_ok h]

instance : LawfulMonad (Work σ ε) := LawfulMonad.mk' _
  (by
    intro α x
    funext s
    show andThen x _ s = x s
    unfold andThen
    rcases h : x s with ⟨_ | _, _, _, _⟩ <;> simp [Function.comp])
  (by
    intro α β a f
    funext s
    show andThen _ f s = f a s
    simp [andThen])
  (by
    intro α β γ x f g
    funext s
    show andThen (andThen x f) g s = andThen x _ s
    unfold andThen
    rcases h : x s with ⟨_ | a, t, _, _⟩
    · simp
    · rcases h' : f a t with ⟨_ | b, u, _, _⟩ <;>
        simp [h', bind_apply, andThen, List.append_assoc])

end Work

end DurableGraph
