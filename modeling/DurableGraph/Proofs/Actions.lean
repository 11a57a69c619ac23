/-!
# Actions one after the other

A system performs an action with an answer; `performAll` performs a list of actions.  What one
action keeps of a system, or of two systems side by side, any actions keep.

    Inv s → Inv (perform s a).2                       so of all actions      (performAll_keeps)
    R s t → equal answers and R (p s a).2 (q t a).2   so of all actions    (performAll_follows)
-/

namespace DurableGraph

variable {σ τ α β : Type}

/-- Performs actions one after the other, with all of their answers. -/
def performAll (perform : σ → α → β × σ) (s : σ) : List α → List β × σ
  | [] => ([], s)
  | action :: rest =>
    let (answer, t) := perform s action
    let (others, u) := performAll perform t rest
    (answer :: others, u)

theorem performAll_cons (perform : σ → α → β × σ) (s : σ) (action : α) (rest : List α) :
    performAll perform s (action :: rest) =
      ((perform s action).1 :: (performAll perform (perform s action).2 rest).1,
        (performAll perform (perform s action).2 rest).2) := rfl

/-- **Invariants** that the actions of a list keep, by induction on it. -/
theorem performAll_keeps_of_mem {perform : σ → α → β × σ} (Inv : σ → Prop) {actions : List α}
    (step : ∀ s, ∀ action ∈ actions, Inv s → Inv (perform s action).2) {s : σ} (h : Inv s) :
    Inv (performAll perform s actions).2 := by
  induction actions generalizing s with
  | nil => exact h
  | cons action rest ih =>
    have first := step s action List.mem_cons_self h
    exact ih (fun t later hl => step t later (List.mem_cons_of_mem _ hl)) first

/-- Invariants that all actions keep. -/
theorem performAll_keeps {perform : σ → α → β × σ} (Inv : σ → Prop)
    (step : ∀ s action, Inv s → Inv (perform s action).2) {s : σ} (h : Inv s)
    (actions : List α) : Inv (performAll perform s actions).2 :=
  performAll_keeps_of_mem Inv (fun s action _ => step s action) h

/-- **Simulations**, by induction on the actions. -/
theorem performAll_follows {p : σ → α → β × σ} {q : τ → α → β × τ} (R : σ → τ → Prop)
    (step : ∀ s t action, R s t →
      (p s action).1 = (q t action).1 ∧ R (p s action).2 (q t action).2)
    {s : σ} {t : τ} (h : R s t) (actions : List α) :
    (performAll p s actions).1 = (performAll q t actions).1 ∧
      R (performAll p s actions).2 (performAll q t actions).2 := by
  induction actions generalizing s t with
  | nil => exact ⟨rfl, h⟩
  | cons action rest ih =>
    obtain ⟨answer, next⟩ := step s t action h
    obtain ⟨answers, last⟩ := ih next
    rw [performAll_cons, performAll_cons, answer, answers]
    exact ⟨rfl, last⟩

end DurableGraph
