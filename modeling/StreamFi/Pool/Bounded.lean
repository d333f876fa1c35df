import StreamFi.Pool.TokenBucket

/-!
# Bounded concurrency

`mapWithConcurrency` calls `fn` on every item, a few calls at a time: workers share one index, and each
takes the next item as soon as it is through with its last one.

* `Shared`: the invariant of the workers; **`Shared.step`**: what every step keeps;
* `step_cases`, `work_step`: an answer goes to the position of its item, and work gets less;
* `Mapped`, **`mapped_of_run`**: each item is called once and answered at its position;
* **`mapsWithConcurrency_iff`**: the bound of the documentation, and where it holds.
-/

namespace StreamFi

open Js Run

namespace ThrottledWorker

/-- The call of the worker is in flight. -/
def inCall : ThrottledWorker → Bool
  | .calling _ => true
  | _ => false

/-- The item of the worker, with no answer so far. -/
def item : ThrottledWorker → Option ℕ
  | .sleeping i _ | .granted i _ | .calling i => some i
  | .free | .done | .failed _ => none

/-- The item that the worker has no token for. -/
def asleep : ThrottledWorker → Option ℕ
  | .sleeping i _ => some i
  | _ => none

/-- How often the worker goes on before it takes another item, unless it waits for tokens. -/
def work : ThrottledWorker → ℕ
  | .sleeping _ _ | .granted _ _ => 2
  | .free | .calling _ => 1
  | .done | .failed _ => 0

end ThrottledWorker

namespace ThrottledPool

variable {R : Type} {n k w i j : ℕ} {now : ℚ} {s s' : ThrottledPool R} {p p' : ThrottledWorker}

/-! ## The invariant -/

/-- What holds between two steps, for `n` items and `k` workers. -/
structure Shared (n k : ℕ) (s : ThrottledPool R) : Prop where
  index : s.index ≤ n
  size : s.workers.length = k
  taken : (s.calls.map ThrottledCall.item ++ s.workers.filterMap ThrottledWorker.asleep).Perm
    (List.range s.index)
  granted : ∀ (j : ℕ) c, s.calls[j]? = some c → c.startedAt = none →
    ∃ w : ℕ, s.workers[w]? = some (.granted c.item j)
  held : ∀ i < s.index, (∃ v, s.results[i]? = some (some v)) ∨
    (∃ p ∈ s.workers, p.item = some i) ∨ ∃ err, .failed err ∈ s.workers
  length : s.results.length = n
  items : ∀ p ∈ s.workers, ∀ i, p.item = some i → i < s.index
  ended : .done ∈ s.workers → s.index = n
  failed : ∀ err, .failed err ∈ s.workers → s.rejection ≠ none

theorem shared_init (n : ℕ) (concurrency : Number) (rps : Option ℚ) (t₀ : ℚ) :
    Shared n (workerCount concurrency n) (init n concurrency rps t₀ : ThrottledPool R) := by
  have hmem : ∀ p ∈ (init n concurrency rps t₀ : ThrottledPool R).workers, p = .free :=
    fun p hp => List.eq_of_mem_replicate hp
  refine ⟨Nat.zero_le n, List.length_replicate, ?_, ?_, ?_, List.length_replicate, ?_, ?_, ?_⟩
  · have hnone : (init n concurrency rps t₀ : ThrottledPool R).workers.filterMap
        ThrottledWorker.asleep = [] := by
      rw [List.filterMap_eq_nil_iff]
      intro p hp
      rw [hmem p hp]
      rfl
    rw [hnone]
    exact .refl []
  · intro j c hc
    cases hc
  · intro i hi
    cases hi
  · intro p hp i hi
    rw [hmem p hp] at hi
    cases hi
  · intro hdone
    cases hmem _ hdone
  · intro err hfail
    cases hmem _ hfail

/-- Time does not matter. -/
theorem Shared.wait (h : Shared n k s) (now : ℚ) : Shared n k { s with clock := now } :=
  ⟨h.index, h.size, h.taken, h.granted, h.held, h.length, h.items, h.ended, h.failed⟩

/-- A call that waits for another worker than the one that goes on. -/
theorem Shared.granted_put (h : Shared n k s) (hw : s.workers[w]? = some p)
    (hp : ∀ i j, p ≠ .granted i j) (p' : ThrottledWorker) {c : ThrottledCall}
    (hc : s.calls[j]? = some c) (hstart : c.startedAt = none) :
    ∃ v : ℕ, (s.workers.set w p')[v]? = some (.granted c.item j) := by
  obtain ⟨v, hv⟩ := h.granted j c hc hstart
  refine ⟨v, (put_iff (lt_of_entry hw)).mpr (.inr ⟨?_, hv⟩)⟩
  rintro rfl
  exact hp c.item j (Option.some.inj (hw.symm.trans hv))

/-- A worker that goes on with its item. -/
theorem Shared.held_put (h : Shared n k s) (hw : s.workers[w]? = some p)
    (hitem : p'.item = p.item) (hp : ∀ err, p ≠ .failed err) (hi : i < s.index) :
    (∃ v, s.results[i]? = some (some v)) ∨ (∃ p ∈ s.workers.set w p', p.item = some i) ∨
      ∃ err, .failed err ∈ s.workers.set w p' := by
  rcases h.held i hi with hv | ⟨q, hq, hqi⟩ | ⟨err, hfail⟩
  · exact .inl hv
  · obtain ⟨v, hv⟩ := List.mem_iff_getElem?.mp hq
    obtain ⟨q', hq', heq⟩ := kept_put (f := ThrottledWorker.item) hw hitem hv
    exact .inr (.inl ⟨q', List.mem_of_getElem? hq', heq.trans hqi⟩)
  · exact .inr (.inr ⟨err, mem_put hw hfail (hp err).symm p'⟩)

theorem Shared.items_put (h : Shared n k s) (hw : s.workers[w]? = some p)
    (hitem : p'.item = none ∨ p'.item = p.item) (q : ThrottledWorker) (hq : q ∈ s.workers.set w p')
    (i : ℕ) (hi : q.item = some i) : i < s.index := by
  rcases List.mem_or_eq_of_mem_set hq with hq | rfl
  · exact h.items q hq i hi
  · rcases hitem with hnone | hsame
    · rw [hnone] at hi
      cases hi
    · exact h.items p (List.mem_of_getElem? hw) i (hsame ▸ hi)

theorem Shared.ended_put (h : Shared n k s) (hp' : p' ≠ .done) (hdone : .done ∈ s.workers.set w p') :
    s.index = n :=
  h.ended (mem_of_mem_put hdone hp'.symm)

theorem Shared.failed_put (h : Shared n k s) (hp' : ∀ err, p' ≠ .failed err) (err : Thrown)
    (hfail : .failed err ∈ s.workers.set w p') : s.rejection ≠ none :=
  h.failed err (mem_of_mem_put hfail (hp' err).symm)

/-! ## Steps -/

/-- A worker with an item calls, gets a token, or sleeps on. -/
theorem Shared.enter (h : Shared n k s) {delay : ℚ} (hw : s.workers[w]? = some (.sleeping i delay))
    (now : ℚ) : Shared n k (s.enter w i now) := by
  have htake {p' : ThrottledWorker} (hp' : p'.asleep = none) (calls : List ThrottledCall)
      (hcalls : calls.map ThrottledCall.item = s.calls.map ThrottledCall.item ++ [i]) :
      (calls.map ThrottledCall.item ++ (s.workers.set w p').filterMap ThrottledWorker.asleep).Perm
        (List.range s.index) := by
    have hacc := account_put (f := ThrottledWorker.asleep) hw p' (s.calls.map ThrottledCall.item)
      (calls.map ThrottledCall.item) [] (.of_eq (by rw [hcalls, hp']; simp [ThrottledWorker.asleep]))
    rw [List.append_nil] at hacc
    exact hacc.trans h.taken
  unfold ThrottledPool.enter
  cases hbucket : s.bucket with
  | none =>
    refine ⟨h.index, (List.length_set ..).trans h.size, htake rfl _ (by simp), ?_,
      fun _ => h.held_put hw rfl (by simp), h.length, h.items_put hw (.inr rfl), h.ended_put (by simp),
      h.failed_put (by simp)⟩
    intro j c hc hstart
    rcases add_iff.mp hc with hc | ⟨-, rfl⟩
    · exact h.granted_put hw (by simp) _ hc hstart
    · cases hstart
  | some bucket =>
    cases htaken : bucket.take now with
    | mk next bucket' =>
      cases next with
      | none =>
        simp only [htaken]
        refine ⟨h.index, (List.length_set ..).trans h.size, htake rfl _ (by simp), ?_,
          fun _ => h.held_put hw rfl (by simp), h.length, h.items_put hw (.inr rfl),
          h.ended_put (by simp), h.failed_put (by simp)⟩
        intro j c hc hstart
        rcases add_iff.mp hc with hc | ⟨rfl, rfl⟩
        · exact h.granted_put hw (by simp) _ hc hstart
        · exact ⟨w, List.getElem?_set_self (lt_of_entry hw)⟩
      | some next =>
        simp only [htaken]
        refine ⟨h.index, (List.length_set ..).trans h.size, ?_,
          fun j c => h.granted_put hw (by simp) _, fun _ => h.held_put hw rfl (by simp), h.length,
          h.items_put hw (.inr rfl), h.ended_put (by simp), h.failed_put (by simp)⟩
        exact ((filterMap_put_same hw (.sleeping i next) rfl).append_left _).trans h.taken

/-- A free worker takes the next item. -/
theorem Shared.take (h : Shared n k s) (hw : s.workers[w]? = some .free) (hlt : s.index < n)
    (delay : ℚ) : Shared n k { s with
      index := s.index + 1, workers := s.workers.set w (.sleeping s.index delay) } := by
  refine ⟨hlt, (List.length_set ..).trans h.size, ?_, fun j c => h.granted_put hw (by simp) _, ?_,
    h.length, ?_, ?_, h.failed_put (by simp)⟩
  · have hacc := account_put (f := ThrottledWorker.asleep) hw (.sleeping s.index delay)
      (s.calls.map ThrottledCall.item) (s.calls.map ThrottledCall.item) [s.index]
      (.of_eq (by simp [ThrottledWorker.asleep]))
    rw [List.range_succ]
    exact hacc.trans (h.taken.append_right [s.index])
  · intro i hi
    rcases Nat.lt_succ_iff_lt_or_eq.mp hi with hi | rfl
    · rcases h.held i hi with hv | ⟨q, hq, hqi⟩ | ⟨err, hfail⟩
      · exact .inl hv
      · have hne : q ≠ .free := by
          rintro rfl
          cases hqi
        exact .inr (.inl ⟨q, mem_put hw hq hne _, hqi⟩)
      · exact .inr (.inr ⟨err, mem_put hw hfail (by simp) _⟩)
    · have hmem := List.getElem?_set_self (a := ThrottledWorker.sleeping s.index delay)
        (lt_of_entry hw)
      exact .inr (.inl ⟨_, List.mem_of_getElem? hmem, rfl⟩)
  · intro q hq i hi
    rcases List.mem_or_eq_of_mem_set hq with hq | rfl
    · exact Nat.lt_succ_of_lt (h.items q hq i hi)
    · cases hi
      exact Nat.lt_succ_self _
  · intro hdone
    exact absurd (h.ended_put (by simp) hdone) hlt.ne

/-- A free worker finds no item left. -/
theorem Shared.finish (h : Shared n k s) (hw : s.workers[w]? = some .free) (hle : n ≤ s.index) :
    Shared n k { s with workers := s.workers.set w .done } :=
  ⟨h.index, (List.length_set ..).trans h.size,
    ((filterMap_put_same hw .done rfl).append_left _).trans h.taken,
    fun _ _ => h.granted_put hw (by simp) _, fun _ => h.held_put hw rfl (by simp), h.length,
    h.items_put hw (.inl rfl), fun _ => le_antisymm h.index hle, h.failed_put (by simp)⟩

theorem Shared.next (h : Shared n k s) (hw : s.workers[w]? = some .free) (now : ℚ) :
    Shared n k (s.next n w now) := by
  unfold ThrottledPool.next
  split_ifs with hlt
  · have hset : (s.workers.set w (.sleeping s.index 0))[w]? = some (.sleeping s.index 0) :=
      List.getElem?_set_self (lt_of_entry hw)
    have hent := (h.take hw hlt 0).enter hset now
    unfold ThrottledPool.enter at hent ⊢
    simpa only [List.set_set] using hent
  · exact h.finish hw (not_lt.mp hlt)

/-- A worker with a token calls. -/
theorem Shared.start (h : Shared n k s) (hw : s.workers[w]? = some (.granted i j)) (now : ℚ) :
    Shared n k (s.start w i j now) := by
  refine ⟨h.index, (List.length_set ..).trans h.size, ?_, ?_, fun _ => h.held_put hw rfl (by simp),
    h.length, h.items_put hw (.inr rfl), h.ended_put (by simp), h.failed_put (by simp)⟩
  · have hcalls : (s.calls.modify j fun c => { c with startedAt := some now }).map
        ThrottledCall.item = s.calls.map ThrottledCall.item := by
      apply map_modify_same
      intro c
      rfl
    show ((s.calls.modify j _).map ThrottledCall.item ++ _).Perm _
    rw [hcalls]
    exact ((filterMap_put_same hw (.calling i) rfl).append_left _).trans h.taken
  · intro j' c hc hstart
    replace hc : (s.calls.modify j fun c => { c with startedAt := some now })[j']? = some c := hc
    rw [List.getElem?_modify, Option.map_eq_map, Option.map_eq_some_iff] at hc
    obtain ⟨c', hc', rfl⟩ := hc
    split_ifs at hstart with hj
    rw [if_neg hj]
    obtain ⟨v, hv⟩ := h.granted j' c' hc' hstart
    refine ⟨v, (put_iff (lt_of_entry hw)).mpr (.inr ⟨?_, hv⟩)⟩
    rintro rfl
    cases hw.symm.trans hv
    exact hj rfl

/-- A worker whose call is rejected. -/
theorem Shared.fail (h : Shared n k s) (hw : s.workers[w]? = some (.calling i)) (err : Thrown) :
    Shared n k { s with
      workers := s.workers.set w (.failed err), rejection := s.rejection <|> some err } := by
  have hrej : (s.rejection <|> some err) ≠ none := by
    cases s.rejection <;> exact Option.some_ne_none _
  refine ⟨h.index, (List.length_set ..).trans h.size,
    ((filterMap_put_same hw (.failed err) rfl).append_left _).trans h.taken,
    fun _ _ => h.granted_put hw (by simp) _, ?_, h.length, h.items_put hw (.inl rfl),
    h.ended_put (by simp), fun _ _ => hrej⟩
  intro _ _
  exact .inr (.inr ⟨err, List.mem_of_getElem? (List.getElem?_set_self (lt_of_entry hw))⟩)

/-- A worker whose call is answered. -/
theorem Shared.answer (h : Shared n k s) (hw : s.workers[w]? = some (.calling i)) (v : R) :
    Shared n k { s with results := s.results.set i (some v), workers := s.workers.set w .free } := by
  refine ⟨h.index, (List.length_set ..).trans h.size,
    ((filterMap_put_same hw .free rfl).append_left _).trans h.taken,
    fun _ _ => h.granted_put hw (by simp) _, ?_, (List.length_set ..).trans h.length,
    h.items_put hw (.inl rfl), h.ended_put (by simp), h.failed_put (by simp)⟩
  intro j hj
  by_cases hji : j = i
  · subst hji
    have hlt : j < s.results.length := by
      rw [h.length]
      exact hj.trans_le h.index
    exact .inl ⟨v, List.getElem?_set_self hlt⟩
  · rcases h.held j hj with ⟨u, hu⟩ | ⟨q, hq, hqj⟩ | ⟨err, hfail⟩
    · exact .inl ⟨u, by rw [List.getElem?_set_ne (Ne.symm hji), hu]⟩
    · have hne : q ≠ .calling i := by
        rintro rfl
        exact hji (Option.some.inj hqj).symm
      exact .inr (.inl ⟨q, mem_put hw hq hne _, hqj⟩)
    · exact .inr (.inr ⟨err, mem_put hw hfail (by simp) _⟩)

/-- What the head of the loop makes of a worker does not depend on where it was. -/
theorem next_put (n : ℕ) (s : ThrottledPool R) (w : ℕ) (p : ThrottledWorker) (now : ℚ) :
    next n { s with workers := s.workers.set w p } w now = next n s w now := by
  unfold next enter
  simp only [List.set_set]

/-- **Every step** keeps the invariant. -/
theorem Shared.step (h : Shared n k s) {e : ThrottledEvent R} (hs : s.step n e = some s') :
    Shared n k s' := by
  obtain ⟨-, hs⟩ := Option.ite_none_right_eq_some.mp hs
  replace h := h.wait e.now
  cases move_of_perform hs with
  | @free w now hw => exact h.next hw now
  | @woken w i delay now hw => exact h.enter hw now
  | @granted w i call now hw => exact h.start hw now
  | @answered w i now hw v =>
    rw [← next_put n _ w .free now]
    exact (h.answer hw v).next (List.getElem?_set_self (lt_of_entry hw)) now
  | rejected hw err => exact h.fail hw err

/-! ## Answers -/

/-- `fn` was called on an item, and that call answered. -/
def Answered (n : ℕ) (s₀ : ThrottledPool R) (log : List (ThrottledEvent R)) (i : ℕ) (v : R) : Prop :=
  SomeStep (step n) (fun s e => ∃ w now, e = .settle w now (.ok v) ∧ s.workers[w]? = some (.calling i))
    s₀ log

/-- What a worker does not see on its way to a call. -/
structure Unseen (s s' : ThrottledPool R) : Prop where
  results : s'.results = s.results
  rejection : s'.rejection = s.rejection

theorem unseen_enter (s : ThrottledPool R) (w i : ℕ) (now : ℚ) : s.Unseen (s.enter w i now) := by
  unfold enter
  split
  · exact ⟨rfl, rfl⟩
  · split <;> exact ⟨rfl, rfl⟩

theorem unseen_next (n : ℕ) (s : ThrottledPool R) (w : ℕ) (now : ℚ) : s.Unseen (s.next n w now) := by
  unfold next
  split_ifs
  · have h := unseen_enter { s with index := s.index + 1 } w s.index now
    exact ⟨h.results, h.rejection⟩
  · exact ⟨rfl, rfl⟩

/-- **An answer goes to the position of its item**, and a rejection to the whole map. -/
theorem step_cases {e : ThrottledEvent R} (hs : s.step n e = some s') : s.Unseen s' ∨
    (∃ w now i v, e = .settle w now (.ok v) ∧ s.workers[w]? = some (.calling i) ∧
      s'.results = s.results.set i (some v) ∧ s'.rejection = s.rejection) ∨
    ∃ w now err, e = .settle w now (.error err) ∧ s'.results = s.results := by
  obtain ⟨-, hs⟩ := Option.ite_none_right_eq_some.mp hs
  cases move_of_perform hs with
  | @free w now hw =>
    have h := unseen_next n { s with clock := now } w now
    exact .inl ⟨h.results, h.rejection⟩
  | @woken w i delay now hw =>
    have h := unseen_enter { s with clock := now } w i now
    exact .inl ⟨h.results, h.rejection⟩
  | granted hw => exact .inl ⟨rfl, rfl⟩
  | @answered w i now hw v =>
    have h := unseen_next n { s with clock := now, results := s.results.set i (some v) } w now
    exact .inr (.inl ⟨w, now, i, v, rfl, hw, h.results, h.rejection⟩)
  | @rejected w i now hw err => exact .inr (.inr ⟨w, now, err, rfl, rfl⟩)

/-- **Every result is the answer to the call on its item.** -/
theorem answered_of_run {s₀ : ThrottledPool R} (h₀ : ∀ r ∈ s₀.results, r = none)
    {log : List (ThrottledEvent R)} (h : run (step n) s₀ log = some s) {v : R}
    (hv : s.results[i]? = some (some v)) : Answered n s₀ log i v := by
  induction log using List.reverseRecOn generalizing s v with
  | nil =>
    cases h
    cases h₀ _ (List.mem_of_getElem? hv)
  | append_singleton l e ih =>
    obtain ⟨s', hl, he⟩ := run_concat_iff.mp h
    rw [Answered, someStep_concat_iff hl]
    rcases step_cases he with heq | ⟨w, now, j, u, rfl, hw, heq, -⟩ | ⟨w, now, err, -, heq⟩
    · rw [heq.results] at hv
      exact .inl (ih hl hv)
    · rw [heq] at hv
      have hj : i < s'.results.length := by
        simpa using lt_of_entry hv
      by_cases hij : i = j
      · subst hij
        rw [List.getElem?_set_self hj] at hv
        cases hv
        exact .inr ⟨w, now, rfl, hw⟩
      · rw [List.getElem?_set_ne (Ne.symm hij)] at hv
        exact .inl (ih hl hv)
    · rw [heq] at hv
      exact .inl (ih hl hv)

/-! ## The end -/

/-- How many steps are left at most, without a rate. -/
def work (n : ℕ) (s : ThrottledPool R) : ℕ :=
  (s.workers.map ThrottledWorker.work).sum + (n - s.index)

theorem work_put (hw : s.workers[w]? = some p) (p' : ThrottledWorker) (hlt : p'.work < p.work) :
    ((s.workers.set w p').map ThrottledWorker.work).sum < (s.workers.map ThrottledWorker.work).sum := by
  have hsum := sum_put ThrottledWorker.work hw p'
  omega

theorem work_next (hb : s.bucket = none) (hw : s.workers[w]? = some p) (hp : p.work = 1) (now : ℚ) :
    (s.next n w now).bucket = none ∧ (s.next n w now).work n < s.work n := by
  unfold next enter
  split_ifs with hlt
  · have hsum := sum_put ThrottledWorker.work hw (.calling s.index)
    rw [hp, ThrottledWorker.work] at hsum
    simp only [hb, true_and]
    show ((s.workers.set w (.calling s.index)).map ThrottledWorker.work).sum + (n - (s.index + 1)) <
      (s.workers.map ThrottledWorker.work).sum + (n - s.index)
    omega
  · have hput := work_put hw .done (by rw [hp]; exact Nat.one_pos)
    exact ⟨hb, Nat.add_lt_add_right hput _⟩

/-- **Without a rate every step leaves less to do.** -/
theorem work_step (hb : s.bucket = none) {e : ThrottledEvent R} (hs : s.step n e = some s') :
    s'.bucket = none ∧ s'.work n < s.work n := by
  obtain ⟨-, hs⟩ := Option.ite_none_right_eq_some.mp hs
  cases move_of_perform hs with
  | @free w now hw => exact work_next (s := { s with clock := now }) hb hw rfl now
  | @woken w i delay now hw =>
    simp only [enter, hb, true_and]
    exact Nat.add_lt_add_right (work_put hw (.calling i) Nat.one_lt_two) _
  | @granted w i call now hw =>
    exact ⟨hb, Nat.add_lt_add_right (work_put hw (.calling i) Nat.one_lt_two) _⟩
  | @answered w i now hw v =>
    exact work_next (s := { s with clock := now, results := s.results.set i (some v) }) hb hw rfl now
  | rejected hw err =>
    exact ⟨hb, Nat.add_lt_add_right (work_put hw (.failed err) Nat.one_pos) _⟩

/-- Without a rate no worker waits for a token. -/
theorem work_le_one_step (hb : s.bucket = none) (h : ∀ p ∈ s.workers, p.work ≤ 1)
    {e : ThrottledEvent R} (hs : s.step n e = some s') : ∀ p ∈ s'.workers, p.work ≤ 1 := by
  have hput {p' : ThrottledWorker} (hp' : p'.work ≤ 1) (w : ℕ) :
      ∀ p ∈ s.workers.set w p', p.work ≤ 1 := by
    intro p hp
    rcases List.mem_or_eq_of_mem_set hp with hp | rfl
    · exact h p hp
    · exact hp'
  have hnext (s₁ : ThrottledPool R) (hb₁ : s₁.bucket = none) (hworkers : s₁.workers = s.workers)
      (w : ℕ) (now : ℚ) : ∀ p ∈ (s₁.next n w now).workers, p.work ≤ 1 := by
    unfold next enter
    simp only [hb₁, hworkers]
    split_ifs
    · exact hput le_rfl w
    · exact hput zero_le_one w
  obtain ⟨-, hs⟩ := Option.ite_none_right_eq_some.mp hs
  cases move_of_perform hs with
  | @free w now hw =>
    refine hnext _ ?_ ?_ w now
    · exact hb
    · rfl
  | @woken w i delay now hw =>
    unfold enter
    simp only [hb]
    exact hput le_rfl w
  | @granted w i call now hw => exact hput le_rfl w
  | @answered w i now hw v =>
    refine hnext _ ?_ ?_ w now
    · exact hb
    · rfl
  | @rejected w i now hw err => exact hput zero_le_one w

theorem length_of_run {s₀ : ThrottledPool R} (hb : s₀.bucket = none) {log : List (ThrottledEvent R)}
    (h : run (step n) s₀ log = some s) : log.length + s.work n ≤ s₀.work n := by
  have hs := run_induction (P := fun s log => s.bucket = none ∧ log.length + s.work n ≤ s₀.work n)
    ⟨hb, by simp⟩ ?_ h
  · exact hs.2
  · rintro s l e s' ⟨hbucket, hle⟩ hstep
    obtain ⟨hbucket', hlt⟩ := work_step hbucket hstep
    refine ⟨hbucket', ?_⟩
    rw [List.length_append, List.length_singleton]
    omega

/-- A pool that cannot go on has workers only that are done or have failed. -/
theorem ended_of_stuck (hstuck : ∀ e, s.step n e = none) (hp : p ∈ s.workers) :
    p = .done ∨ ∃ err, p = .failed err := by
  obtain ⟨w, hw⟩ := List.mem_iff_getElem?.mp hp
  have hperform {e : ThrottledEvent R} (he : e.now = s.clock) : s.perform n e = none := by
    have hnone := hstuck e
    rwa [step, if_pos he.ge, he] at hnone
  cases p with
  | done => exact .inl rfl
  | failed err => exact .inr ⟨err, rfl⟩
  | free =>
    have := hperform (e := .run w s.clock) rfl
    simp [perform, hw] at this
  | sleeping i delay =>
    have := hperform (e := .run w s.clock) rfl
    simp [perform, hw] at this
  | granted i call =>
    have := hperform (e := .call w s.clock) rfl
    simp [perform, hw] at this
  | calling i =>
    have := hperform (e := .settle w s.clock (.error abortError)) rfl
    simp [perform, hw] at this

/-! ## The bound -/

/-- The documented bound: the integer part from one on, and one for what is no finite number. -/
def documentedBound (concurrency : Number) : ℕ :=
  if concurrency.isFinite then (Number.max (.fin 1) concurrency.trunc).toNat else 1

theorem max_one_intCast (t : ℤ) : Number.max (.fin 1) (.fin t) = .fin ((max 1 t).toNat : ℕ) := by
  have hcast : (((max 1 t).toNat : ℕ) : ℚ) = max 1 (t : ℚ) := by
    have hnat : (((max 1 t).toNat : ℕ) : ℤ) = max 1 t := Int.toNat_of_nonneg (by omega)
    exact_mod_cast congrArg (Int.cast (R := ℚ)) hnat
  rw [hcast, Number.max, if_neg (by simp), Number.le_fin]
  by_cases hle : (1 : ℚ) ≤ t
  · rw [decide_eq_true hle, if_pos rfl, max_eq_right hle]
  · rw [decide_eq_false hle, if_neg Bool.false_ne_true, max_eq_left (le_of_not_ge hle)]

theorem documentedBound_pos (concurrency : Number) : 0 < documentedBound concurrency := by
  cases concurrency with
  | nan | posInf | negInf => exact Nat.one_pos
  | fin q =>
    show 0 < (Number.max (.fin 1) (.fin (if 0 ≤ q then ⌊q⌋ else ⌈q⌉ : ℤ))).toNat
    rw [max_one_intCast, Number.toNat_natCast]
    omega

/-- **There are as many workers as documented**, or as there are items. -/
theorem workerCount_eq_min {concurrency : Number} (h : concurrency ≠ .posInf) (n : ℕ) :
    workerCount concurrency n = min (documentedBound concurrency) n := by
  have hone := Number.min_natCast 1 n
  rw [Nat.cast_one] at hone
  cases concurrency with
  | posInf => exact absurd rfl h
  | nan =>
    have hcount : workerCount .nan n = (Number.min (.fin 1) (.fin n)).toNat := by
      simp [workerCount, Number.trunc, Number.truthy, Number.max]
    rw [hcount, hone, Number.toNat_natCast]
    rfl
  | negInf =>
    have hcount : workerCount .negInf n = (Number.min (.fin 1) (.fin n)).toNat := by
      simp [workerCount, Number.trunc, Number.truthy, Number.max, Number.le]
    rw [hcount, hone, Number.toNat_natCast]
    rfl
  | fin q =>
    obtain ⟨t, ht⟩ : ∃ t : ℤ, Number.trunc (.fin q) = .fin t := ⟨_, rfl⟩
    -- what the fallback replaces is below one anyway
    have hfallback : Number.max (.fin 1) (if (Number.fin t).truthy then .fin t else .fin 1) =
        Number.max (.fin 1) (.fin t) := by
      by_cases h : t = 0
      · subst h
        simp [Number.truthy, Number.max]
      · have htruthy : (Number.fin t).truthy = true := by simp [Number.truthy, h]
        rw [if_pos htruthy]
    simp only [workerCount, documentedBound, ht, hfallback, max_one_intCast, Number.min_natCast,
      Number.toNat_natCast]
    rfl

/-- Infinity is kept, and there is a worker for every item. -/
theorem workerCount_posInf (n : ℕ) : workerCount .posInf n = n := by
  simp [workerCount, Number.trunc, Number.truthy, Number.max, Number.min, Number.le]

theorem workerCount_pos (concurrency : Number) (hn : 0 < n) : 0 < workerCount concurrency n := by
  by_cases h : concurrency = .posInf
  · subst h
    rwa [workerCount_posInf]
  · rw [workerCount_eq_min h]
    exact lt_min (documentedBound_pos concurrency) hn

/-! ## Runs -/

/-- The state of a call on `n` items after a run, with at most `k` calls in flight. Nothing is called
twice; a pool that cannot go on has returned, unless a call was rejected; and once it has returned,
each item was called and its answer is at its position. -/
structure Mapped (n k : ℕ) (s₀ : ThrottledPool R) (log : List (ThrottledEvent R))
    (s : ThrottledPool R) : Prop where
  once : (s.calls.map ThrottledCall.item).Nodup
  inFlight : s.workers.countP ThrottledWorker.inCall ≤ k
  returns : (∀ e, s.step n e = none) → s.rejection = none → ∀ p ∈ s.workers, p = .done
  called : (∀ p ∈ s.workers, p = .done) → (s.calls.map ThrottledCall.item).Perm (List.range n) ∧
    ∀ c ∈ s.calls, c.startedAt ≠ none
  answers : (∀ p ∈ s.workers, p = .done) → s.results.length = n ∧
    ∀ i < n, ∃ v, s.results[i]? = some (some v) ∧ Answered n s₀ log i v

section Done

variable (h : Shared n k s) (hk : n = 0 ∨ 0 < k) (hdone : ∀ p ∈ s.workers, p = .done)

include h hk hdone

theorem Shared.index_of_done : s.index = n := by
  rcases hk with rfl | hpos
  · exact Nat.le_zero.mp h.index
  · obtain ⟨p, hp⟩ := List.exists_mem_of_length_pos (h.size ▸ hpos)
    exact h.ended (hdone p hp ▸ hp)

/-- Every item was called once workers are done. -/
theorem Shared.called_of_done : (s.calls.map ThrottledCall.item).Perm (List.range n) ∧
    ∀ c ∈ s.calls, c.startedAt ≠ none := by
  have htaken := h.taken
  have hnone : s.workers.filterMap ThrottledWorker.asleep = [] := by
    rw [List.filterMap_eq_nil_iff]
    intro p hp
    rw [hdone p hp]
    rfl
  rw [hnone, List.append_nil, h.index_of_done hk hdone] at htaken
  refine ⟨htaken, ?_⟩
  intro c hc hstart
  obtain ⟨j, hj⟩ := List.mem_iff_getElem?.mp hc
  obtain ⟨w, hw⟩ := h.granted j c hj hstart
  cases hdone _ (List.mem_of_getElem? hw)

/-- Every item has a result once workers are done. -/
theorem Shared.result_of_done (hi : i < n) : ∃ v, s.results[i]? = some (some v) := by
  rcases h.held i ((h.index_of_done hk hdone).symm ▸ hi) with hv | ⟨p, hp, hitem⟩ | ⟨err, hfail⟩
  · exact hv
  · rw [hdone p hp] at hitem
    cases hitem
  · cases hdone _ hfail

end Done

theorem Shared.inFlight_le (h : Shared n k s) : s.workers.countP ThrottledWorker.inCall ≤ k :=
  h.size ▸ List.countP_le_length

/-- A pool that cannot go on is through, unless a call was rejected. -/
theorem Shared.done_of_stuck (h : Shared n k s) (hstuck : ∀ e, s.step n e = none)
    (hok : s.rejection = none) : ∀ p ∈ s.workers, p = .done := by
  intro p hp
  refine (ended_of_stuck hstuck hp).resolve_right ?_
  rintro ⟨err, rfl⟩
  exact h.failed err hp hok

/-- **Every run maps the items**, with at most as many calls in flight as there are workers. -/
theorem mapped_of_run {concurrency : Number} {rps : Option ℚ} {t₀ : ℚ}
    {log : List (ThrottledEvent R)} (h : run (step n) (init n concurrency rps t₀) log = some s) :
    Mapped n (workerCount concurrency n) (init n concurrency rps t₀) log s := by
  have hs : Shared n (workerCount concurrency n) s :=
    run_induction (P := fun s _ => Shared n (workerCount concurrency n) s)
      (shared_init n concurrency rps t₀) (fun _ _ _ _ h hs => h.step hs) h
  have hk : n = 0 ∨ 0 < workerCount concurrency n :=
    n.eq_zero_or_pos.imp_right (workerCount_pos concurrency)
  refine ⟨?_, hs.inFlight_le, hs.done_of_stuck, hs.called_of_done hk, ?_⟩
  · exact (List.nodup_append.mp (hs.taken.nodup_iff.mpr List.nodup_range)).1
  · intro hdone
    refine ⟨hs.length, ?_⟩
    intro i hi
    obtain ⟨v, hv⟩ := hs.result_of_done hk hdone hi
    exact ⟨v, hv, answered_of_run (fun r hr => List.eq_of_mem_replicate hr) h hv⟩

/-- `mapWithConcurrency` on `n` items does what it is documented to do, whatever the rate: in every run,
with the documented bound, and in finitely many steps when there is no rate. -/
def MapsWithConcurrency (R : Type) (n : ℕ) (concurrency : Number) : Prop :=
  ∀ (rps : Option ℚ) (t₀ : ℚ) (log : List (ThrottledEvent R)) (s : ThrottledPool R),
    run (step n) (init n concurrency rps t₀) log = some s →
      Mapped n (documentedBound concurrency) (init n concurrency rps t₀) log s ∧
        (rps = none → log.length ≤ workerCount concurrency n + n)

theorem length_le_of_run {concurrency : Number} {t₀ : ℚ} {log : List (ThrottledEvent R)}
    (h : run (step n) (init n concurrency none t₀) log = some s) :
    log.length ≤ workerCount concurrency n + n := by
  have hlength := length_of_run rfl h
  have hwork : (init n concurrency none t₀ : ThrottledPool R).work n = workerCount concurrency n + n := by
    simp [work, init, ThrottledWorker.work]
  omega

/-- Without a rate a free worker calls at once. -/
theorem step_run (hw : s.workers[w]? = some .free) (hb : s.bucket = none) (hlt : s.index < n) :
    ∃ s', s.step n (.run w s.clock) = some s' ∧ s'.bucket = none ∧ s'.clock = s.clock ∧
      s'.index = s.index + 1 ∧ s'.workers = s.workers.set w (.calling s.index) := by
  have hs : s.step n (.run w s.clock) = some (s.next n w s.clock) := by
    simp [step, perform, ThrottledEvent.now, hw]
  refine ⟨_, hs, ?_⟩
  simp [next, enter, hb, hlt]

/-- Two items with infinite concurrency are called at once. -/
theorem run_posInf (hn : 2 ≤ n) : ∃ s : ThrottledPool R,
    run (step n) (init n .posInf none 0) [.run 0 0, .run 1 0] = some s ∧
      2 ≤ s.workers.countP ThrottledWorker.inCall := by
  have hfree (w : ℕ) (hw : w < n) :
      (init n .posInf none 0 : ThrottledPool R).workers[w]? = some .free := by
    rw [init, workerCount_posInf]
    exact List.getElem?_replicate_of_lt hw
  obtain ⟨s₁, hs₁, hb₁, hclock₁, hindex₁, hworkers₁⟩ :=
    step_run (R := R) (hfree 0 (by omega)) rfl (by show 0 < n; omega)
  have hw₁ : s₁.workers[1]? = some .free := by
    rw [hworkers₁, List.getElem?_set_ne Nat.zero_ne_one, hfree 1 hn]
  obtain ⟨s₂, hs₂, -, -, -, hworkers₂⟩ := step_run hw₁ hb₁ (by rw [hindex₁]; exact hn)
  rw [hclock₁] at hs₂
  refine ⟨s₂, run_concat_iff.mpr ⟨s₁, by rwa [run_singleton], hs₂⟩, ?_⟩
  have hcount₁ := countP_put ThrottledWorker.inCall (hfree 0 (by omega)) (.calling 0)
  have hcount₂ := countP_put ThrottledWorker.inCall hw₁ (.calling s₁.index)
  rw [← hworkers₂, hworkers₁] at hcount₂
  simp only [ThrottledWorker.inCall, if_true, Bool.false_eq_true, if_false] at hcount₁ hcount₂
  change _ + 0 = _ + 1 at hcount₁
  change _ + 0 = List.countP _ ((init n .posInf none 0 : ThrottledPool R).workers.set 0 (.calling 0)) + 1
    at hcount₂
  omega

/-- **When the bound of the documentation holds**: not for an infinite concurrency, unless there is at
most one item. -/
theorem mapsWithConcurrency_iff (R : Type) (n : ℕ) (concurrency : Number) :
    MapsWithConcurrency R n concurrency ↔ concurrency ≠ .posInf ∨ n ≤ 1 := by
  constructor
  · intro h
    by_contra hbad
    push Not at hbad
    obtain ⟨rfl, hn⟩ := hbad
    obtain ⟨s, hs, htwo⟩ := run_posInf (R := R) hn
    exact absurd (htwo.trans (h none 0 _ s hs).1.inFlight) (by decide)
  · intro h rps t₀ log s hs
    have hle : workerCount concurrency n ≤ documentedBound concurrency := by
      by_cases hinf : concurrency = .posInf
      · subst hinf
        rw [workerCount_posInf]
        exact h.resolve_left fun hne => hne rfl
      · rw [workerCount_eq_min hinf]
        exact Nat.min_le_left _ _
    have hmapped := mapped_of_run hs
    refine ⟨{ hmapped with inFlight := hmapped.inFlight.trans hle }, ?_⟩
    rintro rfl
    exact length_le_of_run hs

/-- **Two calls at once** where one is documented. -/
theorem two_in_flight : ¬ MapsWithConcurrency ℕ 2 .posInf := by
  intro h
  obtain ⟨s, hs, hcount⟩ := (Option.any_eq_true _ _).mp (by decide :
    (run (step 2) (init 2 .posInf none 0 : ThrottledPool ℕ) [.run 0 0, .run 1 0]).any fun s =>
      s.workers.countP ThrottledWorker.inCall = 2)
  have hle := (h none 0 _ s hs).1.inFlight
  rw [of_decide_eq_true hcount] at hle
  exact absurd hle (by decide)

end ThrottledPool

end StreamFi
