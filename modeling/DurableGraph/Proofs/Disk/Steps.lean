import DurableGraph.Proofs.Disk.Writes
import DurableGraph.Disk.Work

/-!
# What a step gives

The result, the state and the writes of a step, put together from those of its parts.  Notices
are left out: nothing on the device depends on them.

    x.Gives s (.ok a) t w → (f a).Gives t r u w' → (x >>= f).Gives s r u (w ++ w')
-/

namespace DurableGraph

namespace Work

variable {σ τ ε δ α β : Type}

/-- Work on a state ends with a result in another state, and stores some buffers. -/
structure Gives (x : Work σ ε α) (s : σ) (r : Except ε α) (t : σ) (writes : List Buffer) :
    Prop where
  result_eq : (x s).result = r
  state_eq : (x s).state = t
  writes_eq : (x s).writes = writes

/-! ## Lemmas -/

theorem mapError_ok (wrap : ε → δ) (a : α) :
    (.ok a : Except ε α).mapError wrap = .ok a := rfl

theorem mapError_error (wrap : ε → δ) (e : ε) :
    (.error e : Except ε α).mapError wrap = .error (wrap e) := rfl

theorem mapError_eq_ok_iff {e : Except ε α} {wrap : ε → δ} {a : α} :
    e.mapError wrap = .ok a ↔ e = .ok a := by
  cases e with
  | error e =>
    constructor
    · intro h
      cases h
    · intro h
      cases h
  | ok b =>
    show (.ok b : Except δ α) = .ok a ↔ _
    rw [Except.ok.injEq, Except.ok.injEq]

theorem gives_self (x : Work σ ε α) (s : σ) :
    x.Gives s (x s).result (x s).state (x s).writes := ⟨rfl, rfl, rfl⟩

/-- Work gives one thing only. -/
theorem Gives.unique {x : Work σ ε α} {s t t' : σ} {r r' : Except ε α} {w w' : List Buffer}
    (h : x.Gives s r t w) (h' : x.Gives s r' t' w') : r = r' ∧ t = t' ∧ w = w' :=
  ⟨h.result_eq.symm.trans h'.result_eq, h.state_eq.symm.trans h'.state_eq,
    h.writes_eq.symm.trans h'.writes_eq⟩

theorem gives_pure (a : α) (s : σ) : (pure a : Work σ ε α).Gives s (.ok a) s [] := ⟨rfl, rfl, rfl⟩

theorem gives_current (s : σ) : (current : Work σ ε σ).Gives s (.ok s) s [] := ⟨rfl, rfl, rfl⟩

theorem gives_replace (s t : σ) : (replace t : Work σ ε Unit).Gives s (.ok ()) t [] :=
  ⟨rfl, rfl, rfl⟩

theorem gives_note (notice : Notice) (s : σ) :
    (note notice : Work σ ε Unit).Gives s (.ok ()) s [] := ⟨rfl, rfl, rfl⟩

theorem gives_noteAll (notices : List Notice) (s : σ) :
    (noteAll notices : Work σ ε Unit).Gives s (.ok ()) s [] := ⟨rfl, rfl, rfl⟩

theorem gives_fail (e : ε) (s : σ) : (fail e : Work σ ε α).Gives s (.error e) s [] :=
  ⟨rfl, rfl, rfl⟩

theorem gives_ofExcept {e r : Except ε α} (h : e = r) (s : σ) :
    (ofExcept e : Work σ ε α).Gives s r s [] := by
  subst h
  exact ⟨rfl, rfl, rfl⟩

theorem gives_ask {wrap : DeviceError → ε} {answer : Except DeviceError α} {a : α}
    (h : answer = .ok a) (s : σ) : (ask wrap answer : Work σ ε α).Gives s (.ok a) s [] := by
  subst h
  exact ⟨rfl, rfl, rfl⟩

theorem gives_store {wrap : DeviceError → ε} {device : Device} {buffer : Buffer}
    (h : buffer.number < device.blockCount) (s : σ) :
    (store wrap device buffer : Work σ ε Unit).Gives s (.ok ()) s [buffer] := by
  constructor <;> rw [store_apply s h]

/-- A buffer that lies beside the device is not stored. -/
theorem gives_store_beyond {wrap : DeviceError → ε} {device : Device} {buffer : Buffer}
    (h : device.blockCount ≤ buffer.number) (s : σ) :
    (store wrap device buffer : Work σ ε Unit).Gives s
      (.error (wrap (.noSpace buffer.number device.blockCount))) s [] := by
  have hcheck : device.check buffer.number = .error (.noSpace buffer.number device.blockCount) :=
    if_neg (Nat.not_lt.2 h)
  constructor <;> simp only [store, hcheck]

theorem Gives.bind {x : Work σ ε α} {f : α → Work σ ε β} {s t u : σ} {a : α} {r : Except ε β}
    {w w' : List Buffer} (h : x.Gives s (.ok a) t w) (h' : (f a).Gives t r u w') :
    (x >>= f).Gives s r u (w ++ w') := by
  obtain ⟨hr, hs, hw⟩ := h
  obtain ⟨hr', hs', hw'⟩ := h'
  rcases hx : x s with ⟨result, state, writes, notices⟩
  simp only [hx] at hr hs hw
  subst hr hs hw
  rw [← hr', ← hs', ← hw']
  constructor <;> rw [bind_apply_ok hx]

/-- A step without writes before another one. -/
theorem Gives.then {x : Work σ ε α} {f : α → Work σ ε β} {s t u : σ} {a : α} {r : Except ε β}
    {w : List Buffer} (h : x.Gives s (.ok a) t []) (h' : (f a).Gives t r u w) :
    (x >>= f).Gives s r u w := h.bind h'

theorem Gives.map {x : Work σ ε α} {s t : σ} {r : Except ε α} {w : List Buffer}
    (h : x.Gives s r t w) (f : α → β) :
    (x >>= fun a => pure (f a) : Work σ ε β).Gives s (r.map f) t w := by
  obtain ⟨rfl, rfl, rfl⟩ := h
  rcases hx : x s with ⟨_ | a, state, writes, notices⟩
  · constructor
    · rw [bind_apply_error hx]
      rfl
    · rw [bind_apply_error hx]
    · rw [bind_apply_error hx]
  · constructor
    · rw [bind_apply_ok hx]
      rfl
    · rw [bind_apply_ok hx]
      rfl
    · rw [bind_apply_ok hx]
      exact List.append_nil writes

theorem Gives.bind_error {x : Work σ ε α} {s t : σ} {e : ε} {w : List Buffer}
    (h : x.Gives s (.error e) t w) (f : α → Work σ ε β) : (x >>= f).Gives s (.error e) t w := by
  obtain ⟨hr, hs, hw⟩ := h
  rcases hx : x s with ⟨result, state, writes, notices⟩
  simp only [hx] at hr hs hw
  subst hr hs hw
  constructor <;> rw [bind_apply_error hx]

/-- Work that ends well has two parts that end well. -/
theorem Gives.bind_inv {x : Work σ ε α} {f : α → Work σ ε β} {s u : σ} {b : β}
    {w : List Buffer} (h : (x >>= f).Gives s (.ok b) u w) :
    ∃ a t w₁ w₂, x.Gives s (.ok a) t w₁ ∧ (f a).Gives t (.ok b) u w₂ ∧ w = w₁ ++ w₂ := by
  rcases hr : (x s).result with e | a
  · have hx : x.Gives s (.error e) (x s).state (x s).writes := ⟨hr, rfl, rfl⟩
    cases (h.unique (hx.bind_error f)).1
  · have hx : x.Gives s (.ok a) (x s).state (x s).writes := ⟨hr, rfl, rfl⟩
    obtain ⟨h1, h2, h3⟩ := h.unique (hx.bind (gives_self (f a) _))
    exact ⟨a, _, _, _, hx, ⟨h1.symm, h2.symm, rfl⟩, h3⟩

/-- Work that ends well has got past what it looked at first. -/
theorem Gives.of_current {f : σ → Work σ ε β} {s u : σ} {r : Except ε β} {w : List Buffer}
    (h : (current >>= f).Gives s r u w) : (f s).Gives s r u w := by
  obtain ⟨rfl, rfl, rfl⟩ := h.unique ((gives_current s).then (gives_self (f s) s))
  exact gives_self _ _

theorem Gives.of_replace {f : Unit → Work σ ε β} {s t u : σ} {r : Except ε β} {w : List Buffer}
    (h : (replace t >>= f).Gives s r u w) : (f ()).Gives t r u w := by
  obtain ⟨rfl, rfl, rfl⟩ := h.unique ((gives_replace s t).then (gives_self (f ()) t))
  exact gives_self _ _

theorem Gives.of_ofExcept {e : Except ε α} {f : α → Work σ ε β} {s u : σ} {b : β}
    {w : List Buffer} (h : (ofExcept e >>= f).Gives s (.ok b) u w) :
    ∃ a, e = .ok a ∧ (f a).Gives s (.ok b) u w := by
  obtain ⟨a, t, w₁, w₂, he, hf, rfl⟩ := h.bind_inv
  obtain ⟨rfl, rfl, rfl⟩ := (gives_ofExcept rfl s).unique he
  exact ⟨a, rfl, hf⟩

theorem Gives.of_ask {wrap : DeviceError → ε} {answer : Except DeviceError α}
    {f : α → Work σ ε β} {s u : σ} {b : β} {w : List Buffer}
    (h : (ask wrap answer >>= f).Gives s (.ok b) u w) :
    ∃ a, answer = .ok a ∧ (f a).Gives s (.ok b) u w := by
  obtain ⟨a, he, hf⟩ := h.of_ofExcept
  exact ⟨a, mapError_eq_ok_iff.1 he, hf⟩

/-- Work that fails has a first part that fails, or a second one behind it. -/
theorem Gives.bind_error_inv {x : Work σ ε α} {f : α → Work σ ε β} {s u : σ} {e : ε}
    {w : List Buffer} (h : (x >>= f).Gives s (.error e) u w) :
    x.Gives s (.error e) u w ∨
      ∃ a t w₁ w₂, x.Gives s (.ok a) t w₁ ∧ (f a).Gives t (.error e) u w₂ ∧ w = w₁ ++ w₂ := by
  rcases hr : (x s).result with e' | a
  · have hx : x.Gives s (.error e') (x s).state (x s).writes := ⟨hr, rfl, rfl⟩
    obtain ⟨he, rfl, rfl⟩ := h.unique (hx.bind_error f)
    cases he
    exact .inl hx
  · have hx : x.Gives s (.ok a) (x s).state (x s).writes := ⟨hr, rfl, rfl⟩
    obtain ⟨h1, h2, h3⟩ := h.unique (hx.bind (gives_self (f a) _))
    exact .inr ⟨a, _, _, _, hx, ⟨h1.symm, h2.symm, rfl⟩, h3⟩

/-- An answer that fails ends the work where it stands. -/
theorem Gives.of_ofExcept_error {a : Except ε α} {f : α → Work σ ε β} {s u : σ} {e : ε}
    {w : List Buffer} (h : (ofExcept a >>= f).Gives s (.error e) u w) :
    (u = s ∧ w = []) ∨ ∃ b, a = .ok b ∧ (f b).Gives s (.error e) u w := by
  cases a with
  | error e' =>
    obtain ⟨-, rfl, rfl⟩ := h.unique ((gives_ofExcept rfl s).bind_error f)
    exact .inl ⟨rfl, rfl⟩
  | ok b =>
    obtain ⟨hr, rfl, rfl⟩ := h.unique ((gives_ofExcept rfl s).then (gives_self (f b) s))
    exact .inr ⟨b, rfl, ⟨hr.symm, rfl, rfl⟩⟩

theorem Gives.of_ask_error {wrap : DeviceError → ε} {answer : Except DeviceError α}
    {f : α → Work σ ε β} {s u : σ} {e : ε} {w : List Buffer}
    (h : (ask wrap answer >>= f).Gives s (.error e) u w) :
    (u = s ∧ w = []) ∨ ∃ a, answer = .ok a ∧ (f a).Gives s (.error e) u w := by
  obtain same | ⟨a, ha, hf⟩ := h.of_ofExcept_error
  · exact .inl same
  · exact .inr ⟨a, mapError_eq_ok_iff.1 ha, hf⟩

theorem Gives.onPart {x : Work τ δ α} {get : σ → τ} {set : σ → τ → σ} {wrap : δ → ε} {s : σ}
    {t : τ} {r : Except δ α} {w : List Buffer} (h : x.Gives (get s) r t w) :
    (Work.onPart get set wrap x).Gives s (r.mapError wrap) (set s t) w := by
  obtain ⟨rfl, rfl, rfl⟩ := h
  exact ⟨rfl, rfl, rfl⟩

theorem Gives.of_onPart {x : Work τ δ α} {get : σ → τ} {set : σ → τ → σ} {wrap : δ → ε} {s t : σ}
    {a : α} {w : List Buffer} (h : (Work.onPart get set wrap x).Gives s (.ok a) t w) :
    ∃ u, x.Gives (get s) (.ok a) u w ∧ t = set s u := by
  obtain ⟨hr, rfl, rfl⟩ := h
  exact ⟨(x (get s)).state, ⟨mapError_eq_ok_iff.1 hr, rfl, rfl⟩, rfl⟩

theorem Gives.of_startingAt {x : Work τ ε Unit} {s t : σ} {u v : τ} {w : List Buffer}
    (h : (Work.startingAt u x : Work σ ε τ).Gives s (.ok v) t w) : x.Gives u (.ok ()) v w := by
  obtain ⟨hr, -, rfl⟩ := h
  have hr' : (x u).result.map (fun _ => (x u).state) = .ok v := hr
  cases hx : (x u).result with
  | error e =>
    rw [hx] at hr'
    cases hr'
  | ok _ =>
    rw [hx] at hr'
    cases hr'
    exact ⟨hx, rfl, rfl⟩

theorem Gives.startingAt {x : Work τ ε Unit} {t u : τ} {r : Except ε Unit} {w : List Buffer}
    (h : x.Gives t r u w) (s : σ) :
    (Work.startingAt t x : Work σ ε τ).Gives s (r.map fun _ => u) s w := by
  obtain ⟨rfl, rfl, rfl⟩ := h
  exact ⟨rfl, rfl, rfl⟩

theorem Gives.onError {x : Work σ δ α} {s t : σ} {a : α} {w : List Buffer}
    (h : x.Gives s (.ok a) t w) (handle : δ → Work σ ε α) :
    (Work.onError x handle).Gives s (.ok a) t w := by
  obtain ⟨hr, hs, hw⟩ := h
  rcases hx : x s with ⟨result, state, writes, notices⟩
  simp only [hx] at hr hs hw
  subst hr hs hw
  constructor <;> simp [Work.onError, hx]

theorem Gives.onError_error {x : Work σ δ α} {s t u : σ} {e : δ} {r : Except ε α}
    {w w' : List Buffer} {handle : δ → Work σ ε α} (h : x.Gives s (.error e) t w)
    (h' : (handle e).Gives t r u w') : (Work.onError x handle).Gives s r u (w ++ w') := by
  obtain ⟨hr, hs, hw⟩ := h
  obtain ⟨rfl, rfl, rfl⟩ := h'
  rcases hx : x s with ⟨result, state, writes, notices⟩
  simp only [hx] at hr hs hw
  subst hr hs hw
  constructor <;> simp [Work.onError, hx]

end Work

end DurableGraph
