import StreamFi.Run.Pool

/-!
# The latest request

A view is changed by calls, by the answers to the requests that some of them send, and by itself. Requests have
numbers, and only the answer to the latest call counts.

* `Requester`: what calls, answers and changes do to the view;
* `Slot`, `slotStep`: the machine, with all requests that have no answer yet;
* `Single`, `singleStep`: a machine without numbers, where a call puts an end to the request before it;
* `effective`: a run without the answers that come too late; **`run_effective`**: the second machine takes it to
  the same view;
* **`view_eq_of_effective`**: the view does not depend on such answers, nor on when they come.
-/

namespace Run

/-- What is done when a call is made (is a request sent?), when its answer comes, and in between. -/
structure Requester (ρ α κ σ : Type*) where
  start : ρ → σ → σ × Bool
  finish : ρ → α → σ → σ
  change : κ → σ → σ

/-- The requests without an answer have the numbers of their calls. -/
structure Slot (ρ σ : Type*) where
  view : σ
  latest : ℕ := 0
  waiting : List (ℕ × ρ) := []

inductive SlotEvent (ρ α κ : Type*) where
  | call (r : ρ)
  | answer (id : ℕ) (a : α)
  | change (k : κ)

structure Single (ρ σ : Type*) where
  view : σ
  current : Option ρ := none

inductive SingleEvent (ρ α κ : Type*) where
  | call (r : ρ)
  | answer (a : α)
  | change (k : κ)

variable {ρ α κ σ : Type*} (q : Requester ρ α κ σ)

def slotStep (s : Slot ρ σ) : SlotEvent ρ α κ → Option (Slot ρ σ)
  | .call r => some {
      view := (q.start r s.view).1
      latest := s.latest + 1
      waiting := if (q.start r s.view).2 then s.waiting ++ [(s.latest + 1, r)] else s.waiting }
  | .answer id a => (s.waiting.lookup id).map fun r => { s with
      view := if id = s.latest then q.finish r a s.view else s.view
      waiting := s.waiting.filter fun p => p.1 ≠ id }
  | .change k => some { s with view := q.change k s.view }

def singleStep (s : Single ρ σ) : SingleEvent ρ α κ → Option (Single ρ σ)
  | .call r => some ⟨(q.start r s.view).1, if (q.start r s.view).2 then some r else none⟩
  | .answer a => s.current.map fun r => ⟨q.finish r a s.view, none⟩
  | .change k => some { s with view := q.change k s.view }

/-- The request that counts. -/
def Slot.current (s : Slot ρ σ) : Option ρ := s.waiting.lookup s.latest

def Slot.single (s : Slot ρ σ) : Single ρ σ := ⟨s.view, s.current⟩

/-- A run without late answers, when `n` calls have been made. -/
def effective : ℕ → List (SlotEvent ρ α κ) → List (SingleEvent ρ α κ)
  | _, [] => []
  | n, .call r :: log => .call r :: effective (n + 1) log
  | n, .answer id a :: log => if id = n then .answer a :: effective n log else effective n log
  | n, .change k :: log => .change k :: effective n log

variable {q} {s s' s₀ : Slot ρ σ} {log log' : List (SlotEvent ρ α κ)}

theorem lookup_filter_ne {id n : ℕ} (h : n ≠ id) (waiting : List (ℕ × ρ)) :
    (waiting.filter fun p => p.1 ≠ id).lookup n = waiting.lookup n := by
  induction waiting with
  | nil => rfl
  | cons p waiting ih =>
    rw [List.filter_cons, List.lookup_cons]
    by_cases hp : p.1 = id
    · have hn : (n == p.1) = false := by simp [hp, h]
      rw [if_neg (by simp [hp]), ih, hn]
    · rw [if_pos (by simp [hp]), List.lookup_cons, ih]

theorem lookup_filter_self (n : ℕ) (waiting : List (ℕ × ρ)) :
    (waiting.filter fun p => p.1 ≠ n).lookup n = none := by
  rw [List.lookup_eq_none_iff]
  intro p hp
  have := (List.mem_filter.mp hp).2
  simp only [ne_eq, decide_not, Bool.not_eq_true', decide_eq_false_iff_not] at this
  simp [Ne.symm this]

/-- No request has a number that is still to come. -/
def Slot.Numbered (s : Slot ρ σ) : Prop := ∀ p ∈ s.waiting, p.1 ≤ s.latest

/-- The next number has not been given yet. -/
theorem lookup_next {n : ℕ} {waiting : List (ℕ × ρ)} (h : ∀ p ∈ waiting, p.1 ≤ n) : waiting.lookup (n + 1) = none := by
  rw [List.lookup_eq_none_iff]
  intro p hp
  have := h p hp
  exact bne_iff_ne.mpr (by omega)

theorem lookup_sent {n : ℕ} {waiting : List (ℕ × ρ)} (h : ∀ p ∈ waiting, p.1 ≤ n) (r : ρ) :
    (waiting ++ [(n + 1, r)]).lookup (n + 1) = some r := by
  rw [List.lookup_append, lookup_next h]
  simp

theorem numbered_sent {n : ℕ} {waiting : List (ℕ × ρ)} (h : ∀ p ∈ waiting, p.1 ≤ n) (r : ρ) :
    ∀ p ∈ waiting ++ [(n + 1, r)], p.1 ≤ n + 1 := by
  intro p hp
  rcases List.mem_append.mp hp with hp | hp
  · exact Nat.le_succ_of_le (h p hp)
  · rw [List.mem_singleton.mp hp]

theorem Slot.Numbered.step {e : SlotEvent ρ α κ} (h : s.Numbered) (hstep : slotStep q s e = some s') :
    s'.Numbered := by
  cases e with
  | call r =>
    cases hstep
    intro p hp
    split_ifs at hp
    · exact numbered_sent h r p hp
    · exact Nat.le_succ_of_le (h p hp)
  | answer id a =>
    obtain ⟨r, -, rfl⟩ := Option.map_eq_some_iff.mp hstep
    exact fun p hp => h p (List.mem_of_mem_filter hp)
  | change k =>
    cases hstep
    exact h

/-- A call makes its own request the one that counts. -/
theorem current_call (h : s.Numbered) (r : ρ) (view : σ) (sent : Bool) :
    Slot.current ⟨view, s.latest + 1, if sent then s.waiting ++ [(s.latest + 1, r)] else s.waiting⟩ =
      if sent then some r else none := by
  unfold Slot.current
  split_ifs
  · exact lookup_sent h r
  · exact lookup_next h

/-- **The machine without numbers** takes the run without late answers to the same view. -/
theorem run_effective (hnumbered : s₀.Numbered) (h : run (slotStep q) s₀ log = some s) :
    run (singleStep q) s₀.single (effective s₀.latest log) = some s.single := by
  induction log generalizing s₀ with
  | nil =>
    cases h
    rfl
  | cons e log ih =>
    obtain ⟨s₁, hfirst, hrest⟩ := Option.bind_eq_some_iff.mp h
    have hnext := ih (hnumbered.step hfirst) hrest
    cases e with
    | call r =>
      cases hfirst
      rw [effective]
      refine Option.bind_eq_some_iff.mpr ⟨_, rfl, ?_⟩
      rw [Slot.single, current_call hnumbered] at hnext
      exact hnext
    | change k =>
      cases hfirst
      exact Option.bind_eq_some_iff.mpr ⟨_, rfl, hnext⟩
    | answer id a =>
      obtain ⟨r, hr, rfl⟩ := Option.map_eq_some_iff.mp hfirst
      rw [effective]
      by_cases hid : id = s₀.latest
      · subst hid
        rw [if_pos rfl]
        refine Option.bind_eq_some_iff.mpr ⟨⟨q.finish r a s₀.view, none⟩, ?_, ?_⟩
        · show (s₀.waiting.lookup s₀.latest).map _ = _
          rw [hr, Option.map_some]
          rfl
        · rw [Slot.single, Slot.current, lookup_filter_self] at hnext
          rwa [if_pos rfl] at hnext
      · rw [if_neg hid]
        rw [Slot.single, Slot.current, lookup_filter_ne (Ne.symm hid), if_neg hid] at hnext
        exact hnext

/-- **Late answers do not matter**, nor their order. -/
theorem view_eq_of_effective {view : σ} (h : run (slotStep q) { view := view } log = some s)
    (h' : run (slotStep q) { view := view } log' = some s') (heq : effective 0 log = effective 0 log') :
    s.view = s'.view ∧ s.current = s'.current := by
  have hrun := run_effective (by simp [Slot.Numbered]) h
  have hrun' := run_effective (by simp [Slot.Numbered]) h'
  rw [heq, hrun'] at hrun
  have hsingle := Option.some.inj hrun
  exact ⟨(congrArg Single.view hsingle).symm, (congrArg Single.current hsingle).symm⟩

end Run
