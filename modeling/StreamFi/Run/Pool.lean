import Mathlib

/-!
# Runs and pools

A machine takes events one at a time, and may refuse one.

* `run`: the state after a list of events; **`run_induction`**: what each step keeps of a state and
  the events so far holds after every run;
* `EachStep`, **`run_induction_of`**: the same for the runs whose steps all meet a condition, which
  `allSteps` checks;
* `SomeStep`, `someStep_concat_iff`: what some step of a run met;
* `Throughout`, **`throughout_iff_eachStep`**, **`run_iff_eachStep`**: a condition is exact when a
  step that fails it does damage, seen in some state of the run or in the last one;
* `poolStep`: independent machines, where an event carries the position of the one that takes it;
* **`run_component`**: in a run of a pool each machine runs through its own events.
-/

namespace Run

variable {σ ε : Type*} {step : σ → ε → Option σ}

def run (step : σ → ε → Option σ) (s : σ) (log : List ε) : Option σ := log.foldlM step s

theorem run_append (s : σ) (l l' : List ε) :
    run step s (l ++ l') = (run step s l).bind fun s' => run step s' l' :=
  List.foldlM_append

theorem run_singleton (s : σ) (e : ε) : run step s [e] = step s e := by
  simp [run]

theorem run_concat_iff {s s'' : σ} {l : List ε} {e : ε} :
    run step s (l ++ [e]) = some s'' ↔ ∃ s', run step s l = some s' ∧ step s' e = some s'' := by
  simp only [run_append, run_singleton, Option.bind_eq_some_iff]

/-- **The invariant rule**, for a state and the events that led to it. -/
theorem run_induction {P : σ → List ε → Prop} {s₀ s : σ} {log : List ε} (h₀ : P s₀ [])
    (hstep : ∀ s l e s', P s l → step s e = some s' → P s' (l ++ [e]))
    (h : run step s₀ log = some s) : P s log := by
  induction log using List.reverseRecOn generalizing s with
  | nil =>
    cases h
    exact h₀
  | append_singleton l e ih =>
    obtain ⟨s', hl, he⟩ := run_concat_iff.mp h
    exact hstep s' l e s (ih hl) he

/-- Every step of the run meets a condition on the state before it. -/
def EachStep (step : σ → ε → Option σ) (ok : σ → ε → Prop) (s₀ : σ) (log : List ε) : Prop :=
  ∀ l e l' s, log = l ++ e :: l' → run step s₀ l = some s → ok s e

theorem EachStep.prefix {ok : σ → ε → Prop} {s₀ : σ} {l l' : List ε}
    (h : EachStep step ok s₀ (l ++ l')) : EachStep step ok s₀ l := by
  rintro l₁ e l₂ s rfl hs
  exact h l₁ e (l₂ ++ l') s (by simp) hs

/-- A check of every step of a run. -/
def allSteps (step : σ → ε → Option σ) (check : σ → ε → Bool) : σ → List ε → Bool
  | _, [] => true
  | s, e :: log => check s e && match step s e with
    | some s' => allSteps step check s' log
    | none => true

theorem EachStep.of_allSteps {ok : σ → ε → Prop} {check : σ → ε → Bool}
    (hcheck : ∀ s e, check s e = true → ok s e) {s₀ : σ} {log : List ε}
    (h : allSteps step check s₀ log = true) : EachStep step ok s₀ log := by
  rintro l e l' s rfl hs
  induction l generalizing s₀ with
  | nil =>
    cases hs
    rw [List.nil_append, allSteps, Bool.and_eq_true] at h
    exact hcheck _ e h.1
  | cons a l ih =>
    rw [List.cons_append, allSteps, Bool.and_eq_true] at h
    obtain ⟨s₁, hs₁, hs⟩ := Option.bind_eq_some_iff.mp hs
    rw [hs₁] at h
    exact ih h.2 hs

/-- **The invariant rule for conditional runs.** -/
theorem run_induction_of {ok : σ → ε → Prop} {P : σ → List ε → Prop} {s₀ s : σ} {log : List ε}
    (h₀ : P s₀ []) (hstep : ∀ s l e s', P s l → ok s e → step s e = some s' → P s' (l ++ [e]))
    (hok : EachStep step ok s₀ log) (h : run step s₀ log = some s) : P s log := by
  induction log using List.reverseRecOn generalizing s with
  | nil =>
    cases h
    exact h₀
  | append_singleton l e ih =>
    obtain ⟨s', hl, he⟩ := run_concat_iff.mp h
    exact hstep s' l e s (ih hok.prefix hl) (hok l e [] s' rfl hl) he

/-- A run that goes on met the condition so far, and meets it at the step. -/
theorem eachStep_concat_iff {ok : σ → ε → Prop} {s₀ s : σ} {l : List ε} {e : ε}
    (h : run step s₀ l = some s) :
    EachStep step ok s₀ (l ++ [e]) ↔ EachStep step ok s₀ l ∧ ok s e := by
  constructor
  · intro hok
    have hl := hok.prefix
    exact ⟨hl, hok l e [] s rfl h⟩
  · rintro ⟨hok, he⟩ l₁ a l₂ s₁ heq hs₁
    cases List.eq_nil_or_concat l₂ with
    | inl hnil =>
      subst hnil
      obtain ⟨rfl, ha⟩ := List.append_inj' heq rfl
      cases ha
      cases h.symm.trans hs₁
      exact he
    | inr hcons =>
      obtain ⟨l₂', b, rfl⟩ := hcons
      rw [List.concat_eq_append, ← List.cons_append, ← List.append_assoc] at heq
      exact hok l₁ a l₂' s₁ (List.append_inj' heq rfl).1 hs₁

/-- Some step of the run met a condition on the state before it. -/
def SomeStep (step : σ → ε → Option σ) (ok : σ → ε → Prop) (s₀ : σ) (log : List ε) : Prop :=
  ∃ l e l' s, log = l ++ e :: l' ∧ run step s₀ l = some s ∧ ok s e

theorem someStep_iff {ok : σ → ε → Prop} {s₀ : σ} {log : List ε} :
    SomeStep step ok s₀ log ↔ ¬ EachStep step (fun s e => ¬ ok s e) s₀ log := by
  unfold SomeStep EachStep
  push Not
  rfl

/-- A run that goes on met the condition before, or meets it now. -/
theorem someStep_concat_iff {ok : σ → ε → Prop} {s₀ s : σ} {l : List ε} {e : ε}
    (h : run step s₀ l = some s) :
    SomeStep step ok s₀ (l ++ [e]) ↔ SomeStep step ok s₀ l ∨ ok s e := by
  rw [someStep_iff, someStep_iff, eachStep_concat_iff h, not_and_or, not_not]

/-- Every state that the run reaches meets `S`. -/
def Throughout (step : σ → ε → Option σ) (S : σ → Prop) (s₀ : σ) (log : List ε) : Prop :=
  ∀ l l' s, log = l ++ l' → run step s₀ l = some s → S s

theorem Throughout.prefix {S : σ → Prop} {s₀ : σ} {l l' : List ε}
    (h : Throughout step S s₀ (l ++ l')) : Throughout step S s₀ l := by
  rintro l₁ l₂ s rfl hs
  exact h l₁ (l₂ ++ l') s (List.append_assoc l₁ l₂ l') hs

section Exact

variable {ok : σ → ε → Prop} {I S : σ → Prop} {s₀ s : σ} {log : List ε}

/-- **The rule for exact conditions.** Steps that meet the condition keep an invariant `I`, which is
sound; a step that does not meet it leaves a state that is not. -/
theorem throughout_iff_eachStep (hsound : ∀ s, I s → S s) (h₀ : I s₀)
    (hkeep : ∀ s e s', I s → ok s e → step s e = some s' → I s')
    (hbreak : ∀ s e s', I s → ¬ ok s e → step s e = some s' → ¬ S s')
    (h : run step s₀ log = some s) : Throughout step S s₀ log ↔ EachStep step ok s₀ log := by
  have hinv {l : List ε} {s : σ} (hok : EachStep step ok s₀ l) (hl : run step s₀ l = some s) : I s :=
    run_induction_of (P := fun s _ => I s) h₀ (fun s _ e s' => hkeep s e s') hok hl
  constructor
  · intro hall
    induction log using List.reverseRecOn generalizing s with
    | nil =>
      intro l e l' s' heq
      simp at heq
    | append_singleton l e ih =>
      obtain ⟨s', hl, he⟩ := run_concat_iff.mp h
      have hok := ih hl hall.prefix
      refine (eachStep_concat_iff hl).mpr ⟨hok, ?_⟩
      by_contra hbad
      exact hbreak s' e s (hinv hok hl) hbad he (hall _ [] s (List.append_nil _).symm h)
  · rintro hok l l' s' rfl hs'
    have hl := hok.prefix
    exact hsound s' (hinv hl hs')

/-- The same for the last state, where no state gets sound again. -/
theorem run_iff_eachStep (hsound : ∀ s, I s → S s) (h₀ : I s₀)
    (hkeep : ∀ s e s', I s → ok s e → step s e = some s' → I s')
    (hbreak : ∀ s e s', I s → ¬ ok s e → step s e = some s' → ¬ S s')
    (hstay : ∀ s e s', ¬ S s → step s e = some s' → ¬ S s')
    (h : run step s₀ log = some s) : S s ↔ EachStep step ok s₀ log := by
  rw [← throughout_iff_eachStep hsound h₀ hkeep hbreak h]
  constructor
  · rintro hs l l' s' rfl hs'
    by_contra hbad
    rw [run_append, hs', Option.bind_some] at h
    exact run_induction (P := fun s _ => ¬ S s) hbad (fun s _ e s' => hstay s e s') h hs
  · intro hall
    exact hall log [] s (List.append_nil _).symm h

end Exact

/-! ## Pools -/

/-- The machine at the event's position takes it. -/
def poolStep (step : σ → ε → Option σ) (ss : List σ) (e : ℕ × ε) : Option (List σ) := do
  let s ← ss[e.1]?
  let s' ← step s e.2
  return ss.set e.1 s'

/-- The events of the machine at position `i`. -/
def eventsOf (i : ℕ) (log : List (ℕ × ε)) : List ε :=
  log.filterMap fun e => if e.1 = i then some e.2 else none

theorem mem_eventsOf {i : ℕ} {log : List (ℕ × ε)} {e : ε} : e ∈ eventsOf i log ↔ (i, e) ∈ log := by
  simp only [eventsOf, List.mem_filterMap, Option.ite_none_right_eq_some, Option.some.injEq]
  constructor
  · rintro ⟨⟨j, e'⟩, he, rfl, rfl⟩
    exact he
  · intro he
    exact ⟨(i, e), he, rfl, rfl⟩

theorem eventsOf_append (i : ℕ) (l l' : List (ℕ × ε)) :
    eventsOf i (l ++ l') = eventsOf i l ++ eventsOf i l' :=
  List.filterMap_append

theorem eventsOf_self (i : ℕ) (e : ε) : eventsOf i [(i, e)] = [e] := by
  simp [eventsOf]

theorem eventsOf_ne {i j : ℕ} (h : j ≠ i) (e : ε) : eventsOf i [(j, e)] = [] := by
  simp [eventsOf, h]

theorem poolStep_iff {ss ss' : List σ} {i : ℕ} {e : ε} :
    poolStep step ss (i, e) = some ss' ↔
      ∃ s s', ss[i]? = some s ∧ step s e = some s' ∧ ss' = ss.set i s' := by
  simp only [poolStep, Option.bind_eq_bind, Option.bind_eq_some_iff, Option.pure_def,
    Option.some.injEq]
  constructor
  · rintro ⟨s, hs, s', hs', rfl⟩
    exact ⟨s, s', hs, hs', rfl⟩
  · rintro ⟨s, s', hs, hs', rfl⟩
    exact ⟨s, hs, s', hs', rfl⟩

/-- **Each machine runs through its own events**, whatever the interleaving. -/
theorem run_component {ss ss' : List σ} {log : List (ℕ × ε)}
    (h : run (poolStep step) ss log = some ss') :
    ss'.length = ss.length ∧ ∀ (i : ℕ) s, ss[i]? = some s →
      ∃ s', ss'[i]? = some s' ∧ run step s (eventsOf i log) = some s' := by
  refine run_induction (P := fun ss' log => ss'.length = ss.length ∧ ∀ (i : ℕ) s, ss[i]? = some s →
    ∃ s', ss'[i]? = some s' ∧ run step s (eventsOf i log) = some s') ⟨rfl, ?_⟩ ?_ h
  · intro i s hs
    exact ⟨s, hs, rfl⟩
  · rintro ts l ⟨j, e⟩ ts' ⟨hlen, ih⟩ he
    obtain ⟨t, t', ht, hstep, rfl⟩ := poolStep_iff.mp he
    refine ⟨by rw [List.length_set, hlen], ?_⟩
    intro i s hs
    obtain ⟨s', hs', hrun⟩ := ih i s hs
    by_cases hij : j = i
    · subst hij
      cases hs'.symm.trans ht
      refine ⟨t', by rw [List.getElem?_set_self (List.getElem?_eq_some_iff.mp ht).1], ?_⟩
      rw [eventsOf_append, eventsOf_self]
      exact run_concat_iff.mpr ⟨_, hrun, hstep⟩
    · refine ⟨s', by rw [List.getElem?_set_ne hij, hs'], ?_⟩
      rw [eventsOf_append, eventsOf_ne hij, List.append_nil, hrun]

end Run
