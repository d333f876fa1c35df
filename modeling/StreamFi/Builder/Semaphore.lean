import StreamFi.Js.Number
import StreamFi.Run.Pool

/-!
# The semaphore of the builder

`acquire` lets a caller in while the running count is below `max`, and else queues it; `release` hands
the slot to the first of the queue. `max` is any number, and only compared.

* `Semaphore.acquire`, `Semaphore.release`; `Semaphore.slots`: how many callers `max` lets in;
* `Admission.step`: calls in any order, where each release follows a grant;
* **`admission_fair`**: the running count is the number of slots held and stays within `slots`, nobody
  waits for a free slot, and the callers are granted in the order of their calls.
-/

namespace StreamFi

open Js Run

/-- A waiter is named by its call of `acquire`. -/
structure Semaphore where
  max : Number
  running : ℤ := 0
  queue : List ℕ := []
  deriving DecidableEq

namespace Semaphore

/-- The call, and whether it resolves at once. -/
def acquire (s : Semaphore) (caller : ℕ) : Bool × Semaphore :=
  if (Number.fin s.running).lt s.max then (true, { s with running := s.running + 1 })
  else (false, { s with queue := s.queue ++ [caller] })

/-- The call, and the waiter that it resolves. -/
def release (s : Semaphore) : Option ℕ × Semaphore :=
  match s.queue with
  | [] => (none, { s with running := s.running - 1 })
  | caller :: queue => (some caller, { s with running := s.running - 1 + 1, queue := queue })

/-- The number of slots below `max`; an infinite one does not bound them. -/
def slots : Number → Option ℕ
  | .fin q => some ⌈q⌉.toNat
  | .posInf => none
  | .nan | .negInf => some 0

@[simp] theorem slots_natCast (n : ℕ) : slots (.fin n) = some n := by
  simp [slots]

/-- **The comparison with `max`** counts slots. -/
theorem lt_max_iff {max : Number} (k : ℕ) :
    (Number.fin k).lt max = true ↔ ∀ n, slots max = some n → k < n := by
  cases max with
  | nan | negInf => simp [slots, Number.lt]
  | posInf => simp [slots, Number.lt]
  | fin q =>
    have hceil : (k : ℚ) < q ↔ k < ⌈q⌉.toNat := by
      rw [Int.lt_toNat, Int.lt_ceil]
      rfl
    simp [slots, hceil]

end Semaphore

/-! ## Calls in any order -/

/-- A semaphore with its callers, in the order in which they were granted and released. -/
structure Admission where
  sem : Semaphore
  calls : ℕ := 0
  granted : List ℕ := []
  released : List ℕ := []
  deriving DecidableEq

inductive AdmissionEvent where
  | acquire
  | release (caller : ℕ)
  deriving DecidableEq

namespace Admission

/-- The slots granted and not released. -/
def held (s : Admission) : List ℕ := s.granted.filter (· ∉ s.released)

def acquire (s : Admission) : Admission where
  sem := (s.sem.acquire s.calls).2
  calls := s.calls + 1
  granted := if (s.sem.acquire s.calls).1 then s.granted ++ [s.calls] else s.granted
  released := s.released

def release (s : Admission) (caller : ℕ) : Admission where
  sem := s.sem.release.2
  calls := s.calls
  granted := s.granted ++ s.sem.release.1.toList
  released := s.released ++ [caller]

def step (s : Admission) : AdmissionEvent → Option Admission
  | .acquire => some s.acquire
  | .release caller => if caller ∈ s.held then some (s.release caller) else none

/-- What holds between two calls. -/
structure Fair (s : Admission) : Prop where
  running : s.sem.running = s.held.length
  bound : ∀ n, Semaphore.slots s.sem.max = some n → s.held.length ≤ n
  full : s.sem.queue ≠ [] → Semaphore.slots s.sem.max = some s.held.length
  order : s.granted ++ s.sem.queue = List.range s.calls
  released : ∀ caller ∈ s.released, caller ∈ s.granted

variable {s s' : Admission} {caller : ℕ}

theorem Fair.lt_calls (h : Fair s) (hc : caller ∈ s.granted) : caller < s.calls := by
  rw [← List.mem_range, ← h.order]
  exact List.mem_append_left _ hc

theorem Fair.nodup (h : Fair s) : (s.granted ++ s.sem.queue).Nodup := by
  rw [h.order]
  exact List.nodup_range

/-- A grant takes a slot, since nobody is released before it. -/
theorem length_grant {granted released : List ℕ} (hsub : ∀ c ∈ released, c ∈ granted)
    (hc : caller ∉ granted) : ((granted ++ [caller]).filter (· ∉ released)).length =
      (granted.filter (· ∉ released)).length + 1 := by
  have hnew : caller ∉ released := fun hr => hc (hsub caller hr)
  rw [List.filter_append, List.length_append, List.filter_singleton, decide_eq_true hnew]
  rfl

theorem fair_init (max : Number) : Fair { sem := { max } } where
  running := rfl
  bound n _ := Nat.zero_le n
  full h := absurd rfl h
  order := rfl
  released caller hc := by cases hc

theorem Fair.acquire (h : Fair s) : Fair s.acquire := by
  have hnew : s.calls ∉ s.granted := fun hc => lt_irrefl _ (h.lt_calls hc)
  by_cases hlt : (Number.fin s.sem.running).lt s.sem.max = true
  · have hroom : ∀ n, Semaphore.slots s.sem.max = some n → s.held.length < n := by
      rw [h.running] at hlt
      exact (Semaphore.lt_max_iff _).mp hlt
    have hqueue : s.sem.queue = [] := by
      by_contra hne
      exact lt_irrefl _ (hroom _ (h.full hne))
    have heq : s.acquire = { s with
        sem := { s.sem with running := s.sem.running + 1 }
        calls := s.calls + 1
        granted := s.granted ++ [s.calls] } := by
      simp [Admission.acquire, Semaphore.acquire, hlt]
    have hheld : s.acquire.held.length = s.held.length + 1 := by
      rw [heq]
      exact length_grant h.released hnew
    constructor
    · rw [hheld, heq, Nat.cast_succ, ← h.running]
    · intro n hn
      rw [heq] at hn
      rw [hheld]
      exact hroom n hn
    · intro hne
      rw [heq] at hne
      exact absurd hqueue hne
    · have horder := h.order
      rw [hqueue, List.append_nil] at horder
      rw [heq, List.range_succ]
      show s.granted ++ [s.calls] ++ s.sem.queue = _
      rw [hqueue, List.append_nil, horder]
    · intro c hc
      rw [heq] at hc ⊢
      exact List.mem_append_left _ (h.released c hc)
  · have heq : s.acquire = { s with
        sem := { s.sem with queue := s.sem.queue ++ [s.calls] }
        calls := s.calls + 1 } := by
      simp [Admission.acquire, Semaphore.acquire, hlt]
    rw [heq]
    refine ⟨h.running, h.bound, ?_, ?_, h.released⟩
    · intro _
      rw [h.running] at hlt
      have hfull : ¬ ∀ n, Semaphore.slots s.sem.max = some n → s.held.length < n :=
        fun hall => hlt ((Semaphore.lt_max_iff _).mpr hall)
      push Not at hfull
      obtain ⟨n, hn, hle⟩ := hfull
      show Semaphore.slots s.sem.max = some s.held.length
      rw [hn, le_antisymm hle (h.bound n hn)]
    · show s.granted ++ (s.sem.queue ++ [s.calls]) = _
      rw [← List.append_assoc, h.order, List.range_succ]

/-- A release frees one slot. -/
theorem Fair.length_release (h : Fair s) (hc : caller ∈ s.held) :
    (s.granted.filter (· ∉ s.released ++ [caller])).length + 1 = s.held.length := by
  have hnodup : s.held.Nodup := (List.nodup_append.mp h.nodup).1.filter _
  have herase : s.granted.filter (· ∉ s.released ++ [caller]) = s.held.erase caller := by
    rw [hnodup.erase_eq_filter, held, List.filter_filter]
    refine List.filter_congr fun c _ => ?_
    by_cases hr : c ∈ s.released <;> by_cases heq : c = caller <;> simp [hr, heq]
  rw [herase, List.length_erase_of_mem hc]
  exact Nat.succ_pred (List.length_pos_of_mem hc).ne'

theorem Fair.release (h : Fair s) (hc : caller ∈ s.held) : Fair (s.release caller) := by
  have hlen := h.length_release hc
  have hgranted : caller ∈ s.granted := List.mem_of_mem_filter hc
  have hreleased : ∀ c ∈ s.released ++ [caller], c ∈ s.granted := by
    intro c hc
    rcases List.mem_append.mp hc with hc | hc
    · exact h.released c hc
    · rw [List.mem_singleton.mp hc]
      exact hgranted
  cases hq : s.sem.queue with
  | nil =>
    have heq : s.release caller = { s with
        sem := { s.sem with running := s.sem.running - 1 }
        released := s.released ++ [caller] } := by
      simp [Admission.release, Semaphore.release, hq]
    rw [heq]
    refine ⟨?_, ?_, ?_, h.order, hreleased⟩
    · show s.sem.running - 1 = ((s.granted.filter (· ∉ s.released ++ [caller])).length : ℤ)
      rw [h.running]
      omega
    · intro n hn
      have hle := h.bound n hn
      show (s.granted.filter (· ∉ s.released ++ [caller])).length ≤ n
      omega
    · intro hne
      exact absurd hq hne
  | cons next queue =>
    have heq : s.release caller = { s with
        sem := { s.sem with running := s.sem.running, queue := queue }
        granted := s.granted ++ [next]
        released := s.released ++ [caller] } := by
      simp [Admission.release, Semaphore.release, hq]
    -- the slot goes to the first waiter, which was not granted before
    have hnext : next ∉ s.granted := by
      intro hmem
      have hnodup := h.nodup
      rw [hq] at hnodup
      exact (List.nodup_append.mp hnodup).2.2 next hmem next List.mem_cons_self rfl
    have hsame : (s.release caller).held.length = s.held.length := by
      rw [heq, held, length_grant hreleased hnext, hlen]
    constructor
    · rw [hsame, heq]
      exact h.running
    · intro n hn
      rw [hsame]
      rw [heq] at hn
      exact h.bound n hn
    · intro _
      rw [hsame, heq]
      exact h.full (by rw [hq]; exact List.cons_ne_nil next queue)
    · rw [heq]
      show s.granted ++ [next] ++ queue = _
      rw [List.append_assoc, List.singleton_append, ← hq, h.order]
    · intro c hmem
      rw [heq] at hmem ⊢
      exact List.mem_append_left _ (hreleased c hmem)

theorem Fair.step {e : AdmissionEvent} (h : Fair s) (hs : s.step e = some s') : Fair s' := by
  cases e with
  | acquire =>
    cases hs
    exact h.acquire
  | release caller =>
    obtain ⟨hc, hs⟩ := Option.ite_none_right_eq_some.mp hs
    cases hs
    exact h.release hc

theorem max_step {e : AdmissionEvent} (hs : s.step e = some s') : s'.sem.max = s.sem.max := by
  cases e with
  | acquire =>
    cases hs
    simp only [Admission.acquire, Semaphore.acquire]
    split_ifs <;> rfl
  | release caller =>
    obtain ⟨-, hs⟩ := Option.ite_none_right_eq_some.mp hs
    cases hs
    simp only [Admission.release, Semaphore.release]
    cases s.sem.queue <;> rfl

/-- **After calls in any order**, the running count is the number of slots granted and not released,
at most as many as `max` lets in and exactly so many while there are waiters, and the grants are the
first calls of `acquire` in their order. -/
theorem admission_fair {max : Number} {log : List AdmissionEvent}
    (h : run step { sem := { max } } log = some s) :
    s.sem.running = s.held.length ∧
      (∀ n, Semaphore.slots max = some n → s.held.length ≤ n) ∧
      (s.sem.queue ≠ [] → Semaphore.slots max = some s.held.length) ∧
      s.granted ++ s.sem.queue = List.range s.calls ∧ s.held.Nodup := by
  obtain ⟨hfair, rfl⟩ : Fair s ∧ s.sem.max = max :=
    run_induction (P := fun s _ => Fair s ∧ s.sem.max = max) ⟨fair_init max, rfl⟩
      (fun _ _ _ _ ⟨hfair, hmax⟩ hs => ⟨hfair.step hs, (max_step hs).trans hmax⟩) h
  exact ⟨hfair.running, hfair.bound, hfair.full, hfair.order,
    (List.nodup_append.mp hfair.nodup).1.filter _⟩

/-- Two slots, four callers; the second one releases first. -/
theorem admission_fair_two :
    ∃ s, run step { sem := { max := .fin 2 } }
        [.acquire, .acquire, .acquire, .acquire, .release 1] = some s ∧
      s.held = [0, 2] ∧ s.sem.queue = [3] ∧ Semaphore.slots (.fin 2) = some s.held.length := by
  obtain ⟨s, hs, hend⟩ := (Option.any_eq_true _ _).mp (by decide :
    (run step { sem := { max := .fin 2 } }
      [.acquire, .acquire, .acquire, .acquire, .release 1]).any fun s =>
        s.held = [0, 2] ∧ s.sem.queue = [3])
  obtain ⟨hheld, hqueue⟩ := of_decide_eq_true hend
  refine ⟨s, hs, hheld, hqueue, (admission_fair hs).2.2.1 ?_⟩
  rw [hqueue]
  exact List.cons_ne_nil 3 []

/-- **A fractional `max` lets in one caller more than it says**, and the next one waits while the
running count is not `max`. -/
theorem fractional_max :
    ∃ s, run step { sem := { max := .fin (3 / 2) } } [.acquire, .acquire, .acquire] = some s ∧
      (Number.fin 1).le s.sem.max = true ∧ s.sem.max.lt (.fin s.held.length) = true ∧
      s.sem.queue ≠ [] ∧ Number.fin s.sem.running ≠ s.sem.max := by
  obtain ⟨s, hs, hend⟩ := (Option.any_eq_true _ _).mp (by decide +kernel :
    (run step { sem := { max := .fin (3 / 2) } } [.acquire, .acquire, .acquire]).any fun s =>
      (Number.fin 1).le s.sem.max = true ∧ s.sem.max.lt (.fin s.held.length) = true ∧
      s.sem.queue ≠ [] ∧ Number.fin s.sem.running ≠ s.sem.max)
  exact ⟨s, hs, of_decide_eq_true hend⟩

end Admission

end StreamFi
