import DurableGraph.Proofs.Disk.Steps

/-!
# Checked arithmetic

Block numbers, counts and places are natural numbers here, on a machine they are words of 32 or 64
bits.  Checked work computes with words: it stops where a result does not fit, where a slice
leaves its bounds, and where a block is asked for that the device does not have.

    Safe x y s      checked work `x` goes through from `s`, and is what `y` is
    Safe x y s → (∀ a t, … → Safe (f a) (g a) t) → Safe (x >>= f) (y >>= g) s
-/

namespace DurableGraph

/-- What can go wrong on a machine. -/
inductive Fault where
  /-- A result does not fit into its word. -/
  | wrapped
  /-- A slice leaves its bounds. -/
  | outside
  /-- The device does not have the block. -/
  | noBlock
  deriving DecidableEq, Repr

abbrev Checked (α : Type) := Except Fault α

/-- Errors that can come from a device. -/
class DeviceErrors (ε : Type) where
  /-- Whether the device has told that it does not have a block. -/
  beyond : ε → Bool

/-! ## Numbers -/

namespace Checked

def add64 (a b : Nat) : Checked Nat :=
  if a + b < UInt64.size then .ok (a + b) else .error .wrapped

def mul64 (a b : Nat) : Checked Nat :=
  if a * b < UInt64.size then .ok (a * b) else .error .wrapped

def sub (a b : Nat) : Checked Nat := if b ≤ a then .ok (a - b) else .error .wrapped

def add32 (a b : UInt32) : Checked UInt32 :=
  if a.toNat + b.toNat < UInt32.size then .ok (a + b) else .error .wrapped

def narrow32 (n : Nat) : Checked UInt32 :=
  if n < UInt32.size then .ok n.toUInt32 else .error .wrapped

/-- A slice from `start` to `stop`, which must lie between `low` and `high`. -/
def slice (start stop low high : Nat) : Checked Unit :=
  if low ≤ start ∧ start ≤ stop ∧ stop ≤ high then .ok () else .error .outside

/-- The bytes of some fields of a record, each told by its first byte and its size. -/
def fields (room : Nat) : List (Nat × Nat) → Checked Unit
  | [] => .ok ()
  | (start, size) :: rest => do
    let stop ← add64 start size
    slice start stop 0 room
    fields room rest

variable {a b : Nat}

theorem ok_bind {α β : Type} (a : α) (f : α → Checked β) : ((.ok a : Checked α) >>= f) = f a := rfl

theorem bind_eq_ok_iff {α β : Type} {x : Checked α} {f : α → Checked β} {b : β} :
    x >>= f = .ok b ↔ ∃ a, x = .ok a ∧ f a = .ok b := by
  cases x with
  | error fault =>
    constructor
    · intro h
      cases h
    · rintro ⟨a, h, -⟩
      cases h
  | ok a =>
    constructor
    · exact fun h => ⟨a, rfl, h⟩
    · rintro ⟨a', ha, h⟩
      cases ha
      exact h

theorem add64_eq_ok (h : a + b < UInt64.size) : add64 a b = .ok (a + b) := if_pos h

theorem mul64_eq_ok (h : a * b < UInt64.size) : mul64 a b = .ok (a * b) := if_pos h

theorem sub_eq_ok (h : b ≤ a) : sub a b = .ok (a - b) := if_pos h

theorem add32_eq_ok {a b : UInt32} (h : a.toNat + b.toNat < UInt32.size) :
    add32 a b = .ok (a + b) := if_pos h

theorem narrow32_eq_ok {n : Nat} (h : n < UInt32.size) : narrow32 n = .ok n.toUInt32 := if_pos h

theorem slice_eq_ok {start stop low high : Nat} (h : low ≤ start ∧ start ≤ stop ∧ stop ≤ high) :
    slice start stop low high = .ok () := if_pos h

end Checked

open Checked

/-! ## Places in a block -/

/-- Where word `i` of a block begins. -/
def wordStart (i : Nat) : Checked Nat := do
  let start ← mul64 i 8
  let stop ← add64 start 8
  slice start stop 0 blockSize
  pure start

theorem wordStart_eq_ok {i : Nat} (h : i < wordsPerBlock) : wordStart i = .ok (i * 8) := by
  have small : i < 512 := h
  have hmul : i * 8 < UInt64.size := by
    show i * 8 < 18446744073709551616
    omega
  have hadd : i * 8 + 8 < UInt64.size := by
    show i * 8 + 8 < 18446744073709551616
    omega
  have hslice : 0 ≤ i * 8 ∧ i * 8 ≤ i * 8 + 8 ∧ i * 8 + 8 ≤ blockSize := by
    show 0 ≤ i * 8 ∧ i * 8 ≤ i * 8 + 8 ∧ i * 8 + 8 ≤ 4096
    omega
  unfold wordStart
  rw [mul64_eq_ok hmul, ok_bind, add64_eq_ok hadd, ok_bind, slice_eq_ok hslice]
  rfl

example : wordStart wordsPerBlock = .error .outside := rfl

/-- The word behind a word of a block. -/
theorem add64_word {i : Nat} (h : i < wordsPerBlock) : add64 i 1 = .ok (i + 1) := by
  have small : i < 512 := h
  refine add64_eq_ok ?_
  show i + 1 < 18446744073709551616
  omega

/-! ## Devices -/

namespace Device

/-- Where a block that the device has begins. -/
def byteOffset (device : Device) (n : Nat) : Checked Nat :=
  if n < device.blockCount then mul64 n blockSize else .error .noBlock

/-- All bytes of the device have a number of 64 bits. -/
def Addressable (device : Device) : Prop := device.blockCount * blockSize < UInt64.size

theorem Addressable.blockCount_lt {device : Device} (all : device.Addressable) :
    device.blockCount < 4503599627370496 := by
  have h : device.blockCount * 4096 < 18446744073709551616 := all
  omega

/-- The block behind a block of the device. -/
theorem Addressable.add64_block {device : Device} {n : Nat} (all : device.Addressable)
    (h : n < device.blockCount) : add64 n 1 = .ok (n + 1) := by
  have hall := all.blockCount_lt
  refine add64_eq_ok ?_
  show n + 1 < 18446744073709551616
  omega

theorem byteOffset_eq_ok {device : Device} {n : Nat} (all : device.Addressable)
    (h : n < device.blockCount) : device.byteOffset n = .ok (n * blockSize) := by
  have hle : n * blockSize ≤ device.blockCount * blockSize :=
    Nat.mul_le_mul_right blockSize (Nat.le_of_lt h)
  unfold byteOffset
  rw [if_pos h, mul64_eq_ok (Nat.lt_of_le_of_lt hle all)]

end Device

/-! ## Work -/

/-- Work that stops at the first fault. -/
def Guarded (σ ε α : Type) : Type := σ → Checked (Step σ ε α)

namespace Guarded

variable {σ τ ε δ α β : Type}

def andThen (x : Guarded σ ε α) (f : α → Guarded σ ε β) : Guarded σ ε β := fun s =>
  match x s with
  | .error fault => .error fault
  | .ok ⟨.error e, t, writes, notices⟩ => .ok ⟨.error e, t, writes, notices⟩
  | .ok ⟨.ok a, t, writes, notices⟩ =>
    (f a t).map fun next =>
      ⟨next.result, next.state, writes ++ next.writes, notices ++ next.notices⟩

instance : Monad (Guarded σ ε) where
  pure a := fun s => .ok ⟨.ok a, s, [], []⟩
  bind := andThen

/-- Work in which there is nothing to check. -/
def of (x : Work σ ε α) : Guarded σ ε α := fun s => .ok (x s)

/-- What is computed on the way. -/
def check (c : Checked α) : Guarded σ ε α := fun s => c.map fun a => ⟨.ok a, s, [], []⟩

/-- An answer that was computed on the way. -/
def answer (c : Checked (Except ε α)) : Guarded σ ε α := fun s => c.map fun e => ⟨e, s, [], []⟩

/-- An empty buffer for a block of a device. -/
def blank (wrap : DeviceError → ε) (device : Device) (n : Nat) : Guarded σ ε Buffer := do
  let _ ← check (device.byteOffset n)
  of (Work.ask wrap (device.blank n))

/-- A block of a device, as it stands in the image. -/
def get (wrap : DeviceError → ε) (device : Device) (image : Image) (n : Nat) :
    Guarded σ ε Buffer := do
  let _ ← check (device.byteOffset n)
  of (Work.ask wrap (device.get image n))

def store (wrap : DeviceError → ε) (device : Device) (buffer : Buffer) : Guarded σ ε Unit := do
  let _ ← check (device.byteOffset buffer.number)
  of (Work.store wrap device buffer)

def onPart (get : σ → τ) (set : σ → τ → σ) (wrap : δ → ε) (x : Guarded τ δ α) :
    Guarded σ ε α := fun s =>
  (x (get s)).map fun step =>
    ⟨step.result.mapError wrap, set s step.state, step.writes, step.notices⟩

def startingAt (t : τ) (x : Guarded τ ε Unit) : Guarded σ ε τ := fun s =>
  (x t).map fun step => ⟨step.result.map fun _ => step.state, s, step.writes, step.notices⟩

/-- Turns an error into other work, in which there is nothing to check. -/
def onError (x : Guarded σ δ α) (handle : δ → Work σ ε α) : Guarded σ ε α := fun s =>
  match x s with
  | .error fault => .error fault
  | .ok ⟨.ok a, t, writes, notices⟩ => .ok ⟨.ok a, t, writes, notices⟩
  | .ok ⟨.error e, t, writes, notices⟩ =>
    let next := handle e t
    .ok ⟨next.result, next.state, writes ++ next.writes, notices ++ next.notices⟩

/-- Work that tells how it ended.  That the device does not have a block is a fault by then. -/
def reported [DeviceErrors ε] (x : Guarded σ ε α) : Guarded σ ε α := fun s =>
  match x s with
  | .error fault => .error fault
  | .ok step =>
    match step.result with
    | .error e => if DeviceErrors.beyond e then .error .noBlock else .ok step
    | .ok _ => .ok step

end Guarded

/-! ## Work that goes through -/

/-- Checked work goes through and does the same as the work without the checks, which does not
tell of a block that the device does not have. -/
structure Safe {σ ε α : Type} [DeviceErrors ε] (x : Guarded σ ε α) (y : Work σ ε α) (s : σ) :
    Prop where
  eq : x s = .ok (y s)
  onDevice : ∀ e, (y s).result = .error e → DeviceErrors.beyond e = false

namespace Safe

open Guarded

variable {σ τ ε δ α β : Type} [DeviceErrors ε] {s : σ}

theorem of_work {y : Work σ ε α}
    (h : ∀ e, (y s).result = .error e → DeviceErrors.beyond e = false) : Safe (of y) y s :=
  ⟨rfl, h⟩

theorem of_ok {y : Work σ ε α} {a : α} {t : σ} {w : List Buffer} (h : y.Gives s (.ok a) t w) :
    Safe (of y) y s := by
  refine of_work fun e he => ?_
  rw [h.result_eq] at he
  cases he

theorem pure (a : α) (s : σ) : Safe (Pure.pure a : Guarded σ ε α) (Pure.pure a) s :=
  ⟨rfl, fun _ he => by cases he⟩

theorem fail {e : ε} (h : DeviceErrors.beyond e = false) :
    Safe (of (Work.fail e) : Guarded σ ε α) (Work.fail e) s := by
  refine of_work fun e' he => ?_
  cases he
  exact h

/-- What is not an error of a device is none of its blocks either. -/
theorem ofExcept {e : Except δ α} {wrap : δ → ε}
    (wraps : ∀ d, DeviceErrors.beyond (wrap d) = false) :
    Safe (of (Work.ofExcept (e.mapError wrap)) : Guarded σ ε α)
      (Work.ofExcept (e.mapError wrap)) s := by
  refine of_work fun e' he => ?_
  have hr : e.mapError wrap = .error e' := he
  cases e with
  | ok a => cases hr
  | error d =>
    cases hr
    exact wraps d

/-- Work goes on from where the work before it ends. -/
theorem bind {x : Guarded σ ε α} {y : Work σ ε α} {f : α → Guarded σ ε β} {g : α → Work σ ε β}
    (h : Safe x y s) (h' : ∀ a t w, y.Gives s (.ok a) t w → Safe (f a) (g a) t) :
    Safe (x >>= f) (y >>= g) s := by
  obtain ⟨eq, onDevice⟩ := h
  have gives := Work.gives_self y s
  rcases hy : y s with ⟨result, t, writes, notices⟩
  rw [hy] at eq onDevice gives
  cases result with
  | error e =>
    have hx : (x >>= f) s = .ok ⟨.error e, t, writes, notices⟩ := by
      show andThen x f s = _
      simp only [andThen, eq]
    refine ⟨hx.trans ?_, fun e' he => ?_⟩
    · rw [Work.bind_apply_error hy]
    · rw [Work.bind_apply_error hy] at he
      cases he
      exact onDevice e rfl
  | ok a =>
    obtain ⟨eq', onDevice'⟩ := h' a t writes gives
    have hx : (x >>= f) s = .ok ⟨(g a t).result, (g a t).state, writes ++ (g a t).writes,
        notices ++ (g a t).notices⟩ := by
      show andThen x f s = _
      simp only [andThen, eq, eq']
      rfl
    refine ⟨hx.trans ?_, fun e' he => ?_⟩
    · rw [Work.bind_apply_ok hy]
    · rw [Work.bind_apply_ok hy] at he
      exact onDevice' e' he

/-- A computation that goes through is none of the work. -/
theorem check {c : Checked α} {a : α} (h : c = .ok a) {f : α → Guarded σ ε β} {y : Work σ ε β}
    (h' : Safe (f a) y s) : Safe (Guarded.check c >>= f) y s := by
  subst h
  obtain ⟨eq, onDevice⟩ := h'
  refine ⟨?_, onDevice⟩
  show andThen (Guarded.check (.ok a)) f s = _
  have hcheck : (Guarded.check (.ok a) : Guarded σ ε α) s = .ok ⟨.ok a, s, [], []⟩ := rfl
  simp only [andThen, hcheck, eq]
  rfl

/-- An answer that is computed on the way. -/
theorem answer {c : Checked (Except ε α)} {e : Except ε α} (h : c = .ok e)
    (h' : ∀ e', e = .error e' → DeviceErrors.beyond e' = false) :
    Safe (Guarded.answer c : Guarded σ ε α) (Work.ofExcept e) s := by
  subst h
  exact ⟨rfl, h'⟩

/-- Such an answer in terms of other errors. -/
theorem answer_mapError [DeviceErrors δ] {c : Checked (Except δ α)} {e : Except δ α} {wrap : δ → ε}
    (h : c = .ok e) (wraps : ∀ d, DeviceErrors.beyond (wrap d) = DeviceErrors.beyond d)
    (h' : ∀ d, e = .error d → DeviceErrors.beyond d = false) :
    Safe (Guarded.answer (c.map fun e => e.mapError wrap) : Guarded σ ε α)
      (Work.ofExcept (e.mapError wrap)) s := by
  subst h
  refine answer rfl fun d he => ?_
  cases e with
  | ok a => cases he
  | error d' =>
    cases he
    exact (wraps d').trans (h' d' rfl)

theorem current {f : σ → Guarded σ ε β} {g : σ → Work σ ε β} (h : Safe (f s) (g s) s) :
    Safe (of Work.current >>= f) (Work.current >>= g) s := by
  refine (of_ok (Work.gives_current s)).bind fun a t w gives => ?_
  obtain ⟨ha, rfl, -⟩ := (Work.gives_current s).unique gives
  cases ha
  exact h

theorem replace {t : σ} {f : Unit → Guarded σ ε β} {g : Unit → Work σ ε β}
    (h : Safe (f ()) (g ()) t) : Safe (of (Work.replace t) >>= f) (Work.replace t >>= g) s := by
  refine (of_ok (Work.gives_replace s t)).bind fun a u w gives => ?_
  obtain ⟨-, rfl, -⟩ := (Work.gives_replace s t).unique gives
  exact h

theorem note {notice : Notice} {f : Unit → Guarded σ ε β} {g : Unit → Work σ ε β}
    (h : Safe (f ()) (g ()) s) : Safe (of (Work.note notice) >>= f) (Work.note notice >>= g) s := by
  refine (of_ok (Work.gives_note notice s)).bind fun a t w gives => ?_
  obtain ⟨-, rfl, -⟩ := (Work.gives_note notice s).unique gives
  exact h

variable {wrap : DeviceError → ε} {device : Device} {n : Nat}

theorem blank (all : device.Addressable) (h : n < device.blockCount)
    {f : Buffer → Guarded σ ε β} {g : Buffer → Work σ ε β}
    (h' : Safe (f ⟨n, .zero⟩) (g ⟨n, .zero⟩) s) :
    Safe (Guarded.blank wrap device n >>= f) (Work.ask wrap (device.blank n) >>= g) s := by
  have gives : (Work.ask wrap (device.blank n)).Gives s _ _ _ :=
    Work.gives_ask (Device.blank_eq_ok h) s
  refine Safe.bind (check (Device.byteOffset_eq_ok all h) (of_ok gives)) fun a t w gives' => ?_
  obtain ⟨ha, rfl, -⟩ := gives.unique gives'
  cases ha
  exact h'

theorem get (all : device.Addressable) (h : n < device.blockCount) {image : Image}
    (wraps : ∀ fault, DeviceErrors.beyond (wrap (.transferFailed n fault)) = false) :
    Safe (Guarded.get wrap device image n : Guarded σ ε Buffer)
      (Work.ask wrap (device.get image n)) s := by
  refine check (Device.byteOffset_eq_ok all h) (of_work fun e he => ?_)
  have hr : (device.get image n).mapError wrap = .error e := he
  cases hget : device.get image n with
  | ok buffer =>
    rw [hget] at hr
    cases hr
  | error d =>
    rw [hget, Device.get_error h hget] at hr
    cases hr
    exact wraps _

theorem store {buffer : Buffer} (all : device.Addressable) (h : buffer.number < device.blockCount) :
    Safe (Guarded.store wrap device buffer : Guarded σ ε Unit) (Work.store wrap device buffer) s :=
  check (Device.byteOffset_eq_ok all h) (of_ok (Work.gives_store h s))

/-- A buffer is stored, and the work goes on from the same state. -/
theorem store_then {buffer : Buffer} (all : device.Addressable)
    (h : buffer.number < device.blockCount) {f : Unit → Guarded σ ε β} {g : Unit → Work σ ε β}
    (h' : Safe (f ()) (g ()) s) :
    Safe (Guarded.store wrap device buffer >>= f) (Work.store wrap device buffer >>= g) s := by
  refine (store all h).bind fun a t w gives => ?_
  obtain ⟨-, rfl, -⟩ := (Work.gives_store h s).unique gives
  exact h'

theorem onPart [DeviceErrors δ] {x : Guarded τ δ α} {y : Work τ δ α} {get : σ → τ} {set : σ → τ → σ}
    {wrap : δ → ε} (h : Safe x y (get s))
    (wraps : ∀ e, DeviceErrors.beyond e = false → DeviceErrors.beyond (wrap e) = false) :
    Safe (Guarded.onPart get set wrap x) (Work.onPart get set wrap y) s := by
  obtain ⟨eq, onDevice⟩ := h
  refine ⟨?_, fun e he => ?_⟩
  · unfold Guarded.onPart
    rw [eq]
    rfl
  · have hr : (y (get s)).result.mapError wrap = .error e := he
    cases result : (y (get s)).result with
    | ok a =>
      rw [result] at hr
      cases hr
    | error e' =>
      rw [result] at hr
      cases hr
      exact wraps e' (onDevice e' result)

theorem startingAt {x : Guarded τ ε Unit} {y : Work τ ε Unit} {t : τ} (h : Safe x y t) :
    Safe (Guarded.startingAt t x : Guarded σ ε τ) (Work.startingAt t y) s := by
  obtain ⟨eq, onDevice⟩ := h
  refine ⟨?_, fun e he => ?_⟩
  · unfold Guarded.startingAt
    rw [eq]
    rfl
  · have hr : (y t).result.map (fun _ => (y t).state) = .error e := he
    cases result : (y t).result with
    | ok a =>
      rw [result] at hr
      cases hr
    | error e' =>
      rw [result] at hr
      cases hr
      exact onDevice _ result

theorem reported {x : Guarded σ ε α} {y : Work σ ε α} (h : Safe x y s) :
    Safe (Guarded.reported x) y s := by
  obtain ⟨eq, onDevice⟩ := h
  refine ⟨?_, onDevice⟩
  unfold Guarded.reported
  rw [eq]
  cases result : (y s).result with
  | ok a => simp only [result]
  | error e => simp only [result, onDevice e result, Bool.false_eq_true, if_false]

theorem onError [DeviceErrors δ] {x : Guarded σ δ α} {y : Work σ δ α} {handle : δ → Work σ ε α}
    (h : Safe x y s)
    (handled : ∀ e t e', (handle e t).result = .error e' → DeviceErrors.beyond e' = false) :
    Safe (Guarded.onError x handle) (Work.onError y handle) s := by
  obtain ⟨eq, -⟩ := h
  unfold Guarded.onError Work.onError
  rcases hy : y s with ⟨_ | a, t, writes, notices⟩
  · refine ⟨?_, fun e' he => ?_⟩
    · simp only [eq, hy]
    · simp only [hy] at he
      exact handled _ t _ he
  · refine ⟨?_, fun e' he => ?_⟩
    · simp only [eq, hy]
    · simp only [hy] at he
      cases he

end Safe

end DurableGraph
