import Mathlib

/-!
# Machines that answer

* `performAll`: the answers to a list of requests, and the last state;
* **`performAll_simulates`**: related machines that answer each request alike answer all requests
  alike; `performAll_simulates_while`: if each is allowed in the states that it finds.
-/

namespace Run

variable {σ τ ε α : Type*} {perform : σ → ε → α × σ} {perform' : τ → ε → α × τ}

def performAll (perform : σ → ε → α × σ) : σ → List ε → List α × σ
  | s, [] => ([], s)
  | s, e :: es =>
    ((perform s e).1 :: (performAll perform (perform s e).2 es).1,
      (performAll perform (perform s e).2 es).2)

/-- **The simulation rule**, where what is asked of a request depends on the states. -/
theorem performAll_simulates_while {R : σ → τ → Prop} {ok : σ → τ → ε → Prop}
    (hstep : ∀ s t e, R s t → ok s t e →
      (perform s e).1 = (perform' t e).1 ∧ R (perform s e).2 (perform' t e).2)
    {s : σ} {t : τ} (h : R s t) {es : List ε} (hok : ∀ es₁ e es₂, es = es₁ ++ e :: es₂ →
      ok (performAll perform s es₁).2 (performAll perform' t es₁).2 e) :
    (performAll perform s es).1 = (performAll perform' t es).1 ∧
      R (performAll perform s es).2 (performAll perform' t es).2 := by
  induction es generalizing s t with
  | nil => exact ⟨rfl, h⟩
  | cons e es ih =>
    obtain ⟨hanswer, hnext⟩ := hstep s t e h (hok [] e es rfl)
    obtain ⟨hanswers, hlast⟩ := ih hnext fun es₁ e' es₂ hes => hok (e :: es₁) e' es₂ (by rw [hes]; rfl)
    exact ⟨by rw [performAll, performAll, hanswer, hanswers], hlast⟩

/-- **The simulation rule.** -/
theorem performAll_simulates {R : σ → τ → Prop} {ok : ε → Prop}
    (hstep : ∀ s t e, R s t → ok e →
      (perform s e).1 = (perform' t e).1 ∧ R (perform s e).2 (perform' t e).2)
    {s : σ} {t : τ} (h : R s t) {es : List ε} (hok : ∀ e ∈ es, ok e) :
    (performAll perform s es).1 = (performAll perform' t es).1 ∧
      R (performAll perform s es).2 (performAll perform' t es).2 := by
  refine performAll_simulates_while hstep h ?_
  rintro es₁ e es₂ rfl
  exact hok e (List.mem_append_right es₁ List.mem_cons_self)

end Run
