import StreamFi.Builder.Semaphore
import StreamFi.Confirm
import StreamFi.Js.Rounding

/-!
# Polling for a confirmation

`pollForConfirmation` asks for a transaction, with a wait before each request, until an answer is terminal,
`maxAttempts` answers were not, or its signal is aborted. `waitForConfirmation` is the loop for a transaction
that was sent elsewhere.

* `loop`, `pollForConfirmation`, `waitForConfirmation`: the code; the loop is followed for a number of rounds.
  The signal is read twice in a round, before and after the wait;
* `attemptLimit`: the number of requests that `maxAttempts` allows;
* `Quiet`, `loop_quiet`: rounds that do not end the loop;
* `PollEnd`: the ends that the loop can come to, with **`loop_end`**;
* `pollForConfirmation_eq`: without a signal it is the loop of `StreamFi.Confirm`;
* **`confirmation_verdict`**: the verdict is that of the first terminal answer.
-/

namespace StreamFi.Confirmation

open Js

/-! ## The code -/

inductive PollOutcome where
  | success (returnValue : Option ScVal)
  | failed
  | timeout (attempts : Number)
  | pollError (error : Thrown) (attempt : Number)

/-- What an answer to attempt `i` ends the loop with. -/
def terminal (i : Number) : Except Thrown GetTransactionResponse → Option PollOutcome
  | .error cause => some (.pollError (catchNetworkError "getTransaction" cause) (i.add (.fin 1)))
  | .ok (.success returnValue) => some (.success returnValue)
  | .ok .failed => some .failed
  | .ok .notFound => none

/-- The end of a loop, and the requests that it has made. -/
structure Polled where
  requests : ℕ
  result : Except Thrown PollOutcome

section Code

variable (getTransaction : ℕ → Except Thrown GetTransactionResponse) (aborted : ℕ → Bool) (maxAttempts : Number)

/-- The loop from attempt `i` on, after `requests` requests; `aborted n` is what the signal says when it has
been read `n` times before. -/
def loop : ℕ → Number → ℕ → Option Polled
  | 0, _, _ => none
  | fuel + 1, i, requests =>
    if i.lt maxAttempts then
      if aborted (2 * requests) then some ⟨requests, .error abortError⟩
      else if aborted (2 * requests + 1) then some ⟨requests, .error abortError⟩
      else match terminal i (getTransaction requests) with
        | some outcome => some ⟨requests + 1, .ok outcome⟩
        | none => loop fuel (i.add (.fin 1)) (requests + 1)
    else some ⟨requests, .ok (.timeout maxAttempts)⟩

def pollForConfirmation (fuel : ℕ) : Option Polled := loop getTransaction aborted maxAttempts fuel (.fin 0) 0

end Code

structure WaitForConfirmationOptions where
  pollIntervalMs : Option Number := none
  maxAttempts : Option Number := none
  signal : Option (ℕ → Bool) := none

namespace WaitForConfirmationOptions

variable (options : WaitForConfirmationOptions)

def interval : Number := options.pollIntervalMs.getD (.fin 1000)

def attempts : Number := options.maxAttempts.getD (.fin 30)

/-- `signal?.aborted`. -/
def aborted (n : ℕ) : Bool := options.signal.any (· n)

end WaitForConfirmationOptions

structure ConfirmedTransaction where
  hash : String
  returnValue : Option ScVal

/-- What `waitForConfirmation` makes of the end of the loop. -/
def settlePoll (txHash : String) (pollIntervalMs : Number) : PollOutcome → Except Thrown ConfirmedTransaction
  | .success returnValue => .ok { hash := txHash, returnValue := returnValue }
  | .failed => throwNew s!"Transaction failed: {txHash}"
  | .timeout attempts => .error (errorOf "ConfirmationTimeoutError"
      (s!"Transaction confirmation timed out after {numToText attempts} attempts " ++
        s!"({numToText (attempts.mul pollIntervalMs)}ms): {txHash}. " ++
        "The transaction was submitted and may still confirm on-chain."))
  | .pollError error _ => .error (rpcError error)

/-- `server` is the node at `rpcUrl`, or why `createRpcServer` refuses it. -/
def waitForConfirmation (server : Except Thrown (ℕ → Except Thrown GetTransactionResponse)) (txHash : String)
    (options : WaitForConfirmationOptions) (fuel : ℕ) : Option (Except Thrown ConfirmedTransaction) :=
  match server with
  | .error error => some (.error error)
  | .ok getTransaction =>
    (pollForConfirmation getTransaction options.aborted options.attempts fuel).map fun p =>
      p.result.bind (settlePoll txHash options.interval)

/-! ## The limit -/

/-- `i` in round `k`; it stops at the largest number that can be counted to. -/
def counter (k : ℕ) : Number := .fin (min k (2 ^ 53) : ℕ)

theorem counter_succ (k : ℕ) : (counter k).add (.fin 1) = counter (k + 1) := by
  rw [counter, counter]
  rcases Nat.lt_or_ge k (2 ^ 53) with hk | hk
  · have hadd := Number.add_natCast (a := k) (b := 1) (by omega)
    rw [Nat.min_eq_left hk.le, Nat.min_eq_left hk]
    exact_mod_cast hadd
  · rw [Nat.min_eq_right hk, Nat.min_eq_right (by omega)]
    decide +kernel

/-- The number of requests that `maxAttempts` allows. -/
def attemptLimit (maxAttempts : Number) : Option ℕ :=
  if (Number.fin (2 ^ 53)).lt maxAttempts then none else Semaphore.slots maxAttempts

/-- `k` is in the limit. -/
def InLimit (maxAttempts : Number) (k : ℕ) : Prop := ∀ n, attemptLimit maxAttempts = some n → k < n

/-- **The condition of the loop** counts requests. -/
theorem counter_lt_iff {maxAttempts : Number} (k : ℕ) :
    (counter k).lt maxAttempts = true ↔ InLimit maxAttempts k := by
  have hle : (counter k).le (.fin (2 ^ 53)) = true := by
    rw [counter, Number.le_fin, decide_eq_true_eq]
    exact_mod_cast Nat.min_le_right k (2 ^ 53)
  by_cases hlarge : (Number.fin (2 ^ 53)).lt maxAttempts = true
  · refine iff_of_true (Number.lt_of_le_of_lt hle hlarge) fun n hn => ?_
    rw [attemptLimit, if_pos hlarge] at hn
    cases hn
  · rw [InLimit, attemptLimit, if_neg hlarge, ← Semaphore.lt_max_iff]
    rcases Nat.lt_or_ge k (2 ^ 53) with hk | hk
    · rw [counter, Nat.min_eq_left hk.le]
    · -- neither of the two is below `maxAttempts`
      have htop : counter k = .fin (2 ^ 53) := by
        rw [counter, Nat.min_eq_right hk]
        norm_num
      rw [htop]
      refine iff_of_false hlarge fun hlt => hlarge (Number.lt_of_le_of_lt ?_ hlt)
      rw [Number.le_fin, decide_eq_true_eq]
      exact_mod_cast hk

/-! ## The rounds -/

section Rounds

variable {getTransaction : ℕ → Except Thrown GetTransactionResponse} {aborted : ℕ → Bool} {maxAttempts : Number}
  {k : ℕ}

variable (getTransaction aborted maxAttempts) in
/-- None of the first `k` rounds ends the loop. -/
structure Quiet (k : ℕ) : Prop where
  unaborted : ∀ j < 2 * k, aborted j = false
  pending : ∀ j < k, getTransaction j = .ok .notFound
  within : ∀ n, attemptLimit maxAttempts = some n → k ≤ n

theorem quiet_zero : Quiet getTransaction aborted maxAttempts 0 where
  unaborted := fun j hj => absurd hj (Nat.not_lt_zero j)
  pending := fun j hj => absurd hj (Nat.not_lt_zero j)
  within := fun n _ => Nat.zero_le n

/-- The signal is read twice in a round. -/
theorem Quiet.unaborted_succ (h : Quiet getTransaction aborted maxAttempts k) (h₁ : aborted (2 * k) = false)
    (h₂ : aborted (2 * k + 1) = false) : ∀ j < 2 * (k + 1), aborted j = false := by
  intro j hj
  rcases Nat.lt_or_ge j (2 * k) with hlt | hge
  · exact h.unaborted j hlt
  · obtain rfl | rfl : j = 2 * k ∨ j = 2 * k + 1 := by omega
    · exact h₁
    · exact h₂

/-- **One more round.** -/
theorem Quiet.succ (h : Quiet getTransaction aborted maxAttempts k) (hin : InLimit maxAttempts k)
    (h₁ : aborted (2 * k) = false) (h₂ : aborted (2 * k + 1) = false)
    (hanswer : getTransaction k = .ok .notFound) : Quiet getTransaction aborted maxAttempts (k + 1) where
  unaborted := h.unaborted_succ h₁ h₂
  pending := by
    intro j hj
    rcases Nat.lt_succ_iff_lt_or_eq.mp hj with hlt | rfl
    · exact h.pending j hlt
    · exact hanswer
  within := fun n hn => hin n hn

theorem terminal_eq_none_iff {i : Number} {answer : Except Thrown GetTransactionResponse} :
    terminal i answer = none ↔ answer = .ok .notFound := by
  cases answer with
  | error cause => exact iff_of_false (fun h => by cases h) (fun h => by cases h)
  | ok response =>
    cases response with
    | notFound => exact iff_of_true rfl rfl
    | success returnValue => exact iff_of_false (fun h => by cases h) (fun h => by cases h)
    | failed => exact iff_of_false (fun h => by cases h) (fun h => by cases h)

variable (getTransaction aborted maxAttempts) in
/-- The ends of the loop. -/
inductive PollEnd : Polled → Prop
  | aborted {k : ℕ} (hquiet : Quiet getTransaction aborted maxAttempts k) (hin : InLimit maxAttempts k)
      (h : aborted (2 * k) = true ∨ aborted (2 * k + 1) = true) : PollEnd ⟨k, .error abortError⟩
  | terminal {k : ℕ} {outcome : PollOutcome} (hquiet : Quiet getTransaction aborted maxAttempts k)
      (hin : InLimit maxAttempts k) (h₁ : aborted (2 * k) = false) (h₂ : aborted (2 * k + 1) = false)
      (h : terminal (counter k) (getTransaction k) = some outcome) : PollEnd ⟨k + 1, .ok outcome⟩
  | timeout {k : ℕ} (hquiet : Quiet getTransaction aborted maxAttempts k)
      (h : attemptLimit maxAttempts = some k) : PollEnd ⟨k, .ok (.timeout maxAttempts)⟩

/-- **The loop comes to one of its ends.** -/
theorem loop_end {fuel : ℕ} {p : Polled} (hquiet : Quiet getTransaction aborted maxAttempts k)
    (h : loop getTransaction aborted maxAttempts fuel (counter k) k = some p) :
    PollEnd getTransaction aborted maxAttempts p := by
  induction fuel generalizing k with
  | zero => cases h
  | succ fuel ih =>
    rw [loop] at h
    by_cases hin : (counter k).lt maxAttempts = true
    · rw [if_pos hin] at h
      rw [counter_lt_iff] at hin
      cases h₁ : aborted (2 * k) with
      | true =>
        rw [if_pos h₁] at h
        cases h
        exact .aborted hquiet hin (.inl h₁)
      | false =>
        rw [if_neg (by rw [h₁]; exact Bool.false_ne_true)] at h
        cases h₂ : aborted (2 * k + 1) with
        | true =>
          rw [if_pos h₂] at h
          cases h
          exact .aborted hquiet hin (.inr h₂)
        | false =>
          rw [if_neg (by rw [h₂]; exact Bool.false_ne_true)] at h
          cases hanswer : terminal (counter k) (getTransaction k) with
          | some outcome =>
            rw [hanswer] at h
            cases h
            exact .terminal hquiet hin h₁ h₂ hanswer
          | none =>
            rw [hanswer] at h
            simp only [counter_succ] at h
            exact ih (hquiet.succ hin h₁ h₂ (terminal_eq_none_iff.mp hanswer)) h
    · rw [if_neg hin] at h
      cases h
      rw [counter_lt_iff, InLimit] at hin
      push Not at hin
      obtain ⟨n, hn, hle⟩ := hin
      obtain rfl := Nat.le_antisymm hle (hquiet.within n hn)
      exact .timeout hquiet hn

/-- **Quiet rounds** lead to the next ones. -/
theorem loop_quiet (h : Quiet getTransaction aborted maxAttempts k) (fuel : ℕ) :
    loop getTransaction aborted maxAttempts (k + fuel) (counter 0) 0 =
      loop getTransaction aborted maxAttempts fuel (counter k) k := by
  induction k generalizing fuel with
  | zero => rw [Nat.zero_add]
  | succ k ih =>
    have hin : InLimit maxAttempts k := fun n hn => h.within n hn
    have hprev : Quiet getTransaction aborted maxAttempts k :=
      ⟨fun j hj => h.unaborted j (by omega), fun j hj => h.pending j (by omega), fun n hn => (hin n hn).le⟩
    have hfalse (j : ℕ) (hj : j < 2 * (k + 1)) : ¬ aborted j = true := by
      rw [h.unaborted j hj]
      exact Bool.false_ne_true
    rw [Nat.add_right_comm, Nat.add_assoc, ih hprev, loop, if_pos ((counter_lt_iff k).mpr hin),
      if_neg (hfalse _ (by omega)), if_neg (hfalse _ (by omega)), h.pending k (Nat.lt_succ_self k)]
    simp only [terminal, counter_succ]

/-- A terminal answer ends the loop. -/
theorem loop_terminal {outcome : PollOutcome} (hquiet : Quiet getTransaction aborted maxAttempts k)
    (hin : InLimit maxAttempts k) (h₁ : aborted (2 * k) = false) (h₂ : aborted (2 * k + 1) = false)
    (h : terminal (counter k) (getTransaction k) = some outcome) {fuel : ℕ} (hfuel : k < fuel) :
    pollForConfirmation getTransaction aborted maxAttempts fuel = some ⟨k + 1, .ok outcome⟩ := by
  obtain ⟨fuel, rfl⟩ : ∃ f, fuel = k + (f + 1) := ⟨fuel - k - 1, by omega⟩
  have hstart := loop_quiet hquiet (fuel + 1)
  rw [loop, if_pos ((counter_lt_iff k).mpr hin), h₁, h₂, if_neg Bool.false_ne_true, if_neg Bool.false_ne_true,
    h] at hstart
  exact hstart

/-- Where the number of requests is limited, the loop comes to an end. -/
theorem loop_isSome {n fuel : ℕ} (hlimit : attemptLimit maxAttempts = some n) (hfuel : n < k + fuel)
    (hquiet : Quiet getTransaction aborted maxAttempts k) :
    (loop getTransaction aborted maxAttempts fuel (counter k) k).isSome = true := by
  induction fuel generalizing k with
  | zero => exact absurd (hquiet.within n hlimit) (by omega)
  | succ fuel ih =>
    rw [loop]
    by_cases hin : (counter k).lt maxAttempts = true
    · rw [if_pos hin]
      rw [counter_lt_iff] at hin
      by_cases h₁ : aborted (2 * k) = true
      · rw [if_pos h₁]
        rfl
      · rw [if_neg h₁]
        by_cases h₂ : aborted (2 * k + 1) = true
        · rw [if_pos h₂]
          rfl
        · rw [if_neg h₂]
          cases hanswer : terminal (counter k) (getTransaction k) with
          | some outcome => rfl
          | none =>
            simp only [counter_succ]
            rw [Bool.not_eq_true] at h₁ h₂
            exact ih (by omega) (hquiet.succ hin h₁ h₂ (terminal_eq_none_iff.mp hanswer))
    · rw [if_neg hin]
      rfl

end Rounds

/-! ## Without a signal -/

/-- The outcome, with its counts as numbers. -/
def ofConfirm : ConfirmationPollOutcome → PollOutcome
  | .success returnValue => .success returnValue
  | .failed => .failed
  | .timeout attempts => .timeout (.fin attempts)
  | .pollError error attempt => .pollError error (.fin attempt)

/-- **Without a signal it is the loop that the SDK's own calls use.** -/
theorem loop_eq_pollFrom (getTransaction : ℕ → Except Thrown GetTransactionResponse) (n : ℕ) :
    ∀ i fuel, i + n ≤ 2 ^ 53 → n < fuel →
      (loop getTransaction (fun _ => false) (.fin (i + n : ℕ)) fuel (counter i) i).map Polled.result =
        some (.ok (ofConfirm (pollFrom getTransaction n i))) := by
  have hcounter {i : ℕ} (hi : i ≤ 2 ^ 53) : counter i = .fin i := by rw [counter, Nat.min_eq_left hi]
  induction n with
  | zero =>
    intro i fuel hi hfuel
    obtain ⟨fuel, rfl⟩ := Nat.exists_eq_add_one.mpr hfuel
    rw [Nat.add_zero] at hi ⊢
    rw [loop, hcounter hi, if_neg (by simp), pollFrom]
    rfl
  | succ n ih =>
    intro i fuel hi hfuel
    obtain ⟨fuel, rfl⟩ : ∃ f, fuel = f + 1 := ⟨fuel - 1, by omega⟩
    have hgo : (counter i).lt (.fin (i + (n + 1) : ℕ)) = true := by
      rw [hcounter (by omega), Number.lt_fin, decide_eq_true_eq, Nat.cast_lt]
      omega
    rw [loop, if_pos hgo, if_neg Bool.false_ne_true, if_neg Bool.false_ne_true, pollFrom]
    cases getTransaction i with
    | error cause =>
      rw [terminal, counter_succ, hcounter (by omega)]
      rfl
    | ok response =>
      cases response with
      | success returnValue => rfl
      | failed => rfl
      | notFound =>
        have hnext := ih (i + 1) fuel (by omega) (by omega)
        rw [show i + 1 + n = i + (n + 1) by omega, ← counter_succ] at hnext
        exact hnext

theorem pollForConfirmation_eq (getTransaction : ℕ → Except Thrown GetTransactionResponse) {n fuel : ℕ}
    (hn : n ≤ 2 ^ 53) (hfuel : n < fuel) :
    (pollForConfirmation getTransaction (fun _ => false) (.fin n) fuel).map Polled.result =
      some (.ok (ofConfirm (StreamFi.pollForConfirmation getTransaction n))) := by
  have h := loop_eq_pollFrom getTransaction n 0 fuel (by omega) hfuel
  rw [Nat.zero_add] at h
  exact h

/-! ## The verdict -/

section Verdict

variable (getTransaction : ℕ → Except Thrown GetTransactionResponse) (aborted : ℕ → Bool) (maxAttempts : Number)

/-- What holds of the end of a loop. -/
structure PollVerdict (p : Polled) : Prop where
  /-- at most `maxAttempts` requests -/
  within : ∀ n, attemptLimit maxAttempts = some n → p.requests ≤ n
  /-- none after an abort that was observed -/
  unaborted : ∀ j < 2 * p.requests, aborted j = false
  /-- none after a terminal answer -/
  pending : ∀ j, j + 1 < p.requests → getTransaction j = .ok .notFound
  /-- an abort, and no terminal answer before it -/
  abort : ∀ err, p.result = .error err → err = abortError ∧
    (aborted (2 * p.requests) = true ∨ aborted (2 * p.requests + 1) = true) ∧
    ∀ j < p.requests, getTransaction j = .ok .notFound
  /-- all answers were not terminal, and there were as many as are allowed -/
  timeout : ∀ attempts, p.result = .ok (.timeout attempts) → attempts = maxAttempts ∧
    attemptLimit maxAttempts = some p.requests ∧ ∀ j < p.requests, getTransaction j = .ok .notFound
  /-- any other verdict is that of the last answer -/
  terminal : ∀ outcome, p.result = .ok outcome → (∀ attempts, outcome ≠ .timeout attempts) →
    ∃ k, p.requests = k + 1 ∧ Confirmation.terminal (counter k) (getTransaction k) = some outcome

variable {getTransaction aborted maxAttempts}

theorem terminal_ne_timeout {i : Number} {answer : Except Thrown GetTransactionResponse} {outcome : PollOutcome}
    (h : terminal i answer = some outcome) (attempts : Number) : outcome ≠ .timeout attempts := by
  rintro rfl
  cases answer with
  | error cause => cases h
  | ok response => cases response <;> cases h

theorem PollEnd.verdict {p : Polled} (h : PollEnd getTransaction aborted maxAttempts p) :
    PollVerdict getTransaction aborted maxAttempts p := by
  cases h with
  | aborted hquiet hin h =>
    refine ⟨hquiet.within, hquiet.unaborted, ?_, ?_, ?_, ?_⟩
    · exact fun j hj => hquiet.pending j (Nat.lt_of_succ_lt hj)
    · intro err herr
      cases herr
      exact ⟨rfl, h, hquiet.pending⟩
    · intro attempts hout
      cases hout
    · intro outcome hout
      cases hout
  | @terminal k outcome hquiet hin h₁ h₂ h =>
    refine ⟨fun n hn => hin n hn, hquiet.unaborted_succ h₁ h₂, ?_, ?_, ?_, ?_⟩
    · exact fun j hj => hquiet.pending j (Nat.lt_of_succ_lt_succ hj)
    · intro err herr
      cases herr
    · intro attempts hout
      cases hout
      exact absurd rfl (terminal_ne_timeout h attempts)
    · intro outcome hout _
      cases hout
      exact ⟨k, rfl, h⟩
  | timeout hquiet h =>
    refine ⟨hquiet.within, hquiet.unaborted, ?_, ?_, ?_, ?_⟩
    · exact fun j hj => hquiet.pending j (Nat.lt_of_succ_lt hj)
    · intro err herr
      cases herr
    · intro attempts hout
      cases hout
      exact ⟨rfl, h, hquiet.pending⟩
    · intro outcome hout hne
      cases hout
      exact absurd rfl (hne maxAttempts)

/-- The end of a loop that resolves. -/
theorem settlePoll_ok_iff {txHash : String} {interval : Number} {outcome : PollOutcome} {c : ConfirmedTransaction} :
    settlePoll txHash interval outcome = .ok c ↔
      ∃ returnValue, outcome = .success returnValue ∧ c = ⟨txHash, returnValue⟩ := by
  cases outcome with
  | success returnValue =>
    constructor
    · intro h
      cases h
      exact ⟨returnValue, rfl, rfl⟩
    · rintro ⟨_, h, rfl⟩
      cases h
      rfl
  | failed | timeout _ | pollError _ _ =>
    exact iff_of_false (fun h => by cases h) (fun ⟨_, h, _⟩ => by cases h)

theorem terminal_success_iff {i : Number} {answer : Except Thrown GetTransactionResponse}
    {returnValue : Option ScVal} :
    terminal i answer = some (.success returnValue) ↔ answer = .ok (.success returnValue) := by
  cases answer with
  | error cause => exact iff_of_false (fun h => by cases h) (fun h => by cases h)
  | ok response =>
    cases response with
    | success v => simp [terminal]
    | notFound | failed => exact iff_of_false (fun h => by cases h) (fun h => by cases h)

/-- **The verdict of a poll is that of the first terminal answer**, and `waitForConfirmation` resolves exactly
when this is a success with no abort observed before it. -/
theorem confirmation_verdict (getTransaction : ℕ → Except Thrown GetTransactionResponse) (txHash : String)
    (options : WaitForConfirmationOptions) :
    let maxAttempts := options.attempts
    let aborted := options.aborted
    (∀ fuel p, pollForConfirmation getTransaction aborted maxAttempts fuel = some p →
      PollVerdict getTransaction aborted maxAttempts p) ∧
    (∀ n, attemptLimit maxAttempts = some n → ∀ fuel, n < fuel →
      (pollForConfirmation getTransaction aborted maxAttempts fuel).isSome = true) ∧
    (∀ k outcome, InLimit maxAttempts k → (∀ j < 2 * (k + 1), aborted j = false) →
      (∀ j < k, getTransaction j = .ok .notFound) → terminal (counter k) (getTransaction k) = some outcome →
      ∀ fuel, k < fuel → pollForConfirmation getTransaction aborted maxAttempts fuel = some ⟨k + 1, .ok outcome⟩) ∧
    ∀ c, (∃ fuel, waitForConfirmation (.ok getTransaction) txHash options fuel = some (.ok c)) ↔
      ∃ k returnValue, InLimit maxAttempts k ∧ (∀ j < 2 * (k + 1), aborted j = false) ∧
        (∀ j < k, getTransaction j = .ok .notFound) ∧ getTransaction k = .ok (.success returnValue) ∧
        c = ⟨txHash, returnValue⟩ := by
  intro maxAttempts aborted
  have hend {fuel : ℕ} {p : Polled} (h : pollForConfirmation getTransaction aborted maxAttempts fuel = some p) :
      PollEnd getTransaction aborted maxAttempts p := loop_end quiet_zero h
  have hfirst : ∀ k outcome, InLimit maxAttempts k → (∀ j < 2 * (k + 1), aborted j = false) →
      (∀ j < k, getTransaction j = .ok .notFound) → terminal (counter k) (getTransaction k) = some outcome →
      ∀ fuel, k < fuel →
        pollForConfirmation getTransaction aborted maxAttempts fuel = some ⟨k + 1, .ok outcome⟩ := by
    intro k outcome hin hunaborted hpending hanswer fuel hfuel
    exact loop_terminal ⟨fun j hj => hunaborted j (by omega), hpending, fun n hn => (hin n hn).le⟩ hin
      (hunaborted _ (by omega)) (hunaborted _ (by omega)) hanswer hfuel
  refine ⟨fun fuel p h => (hend h).verdict,
    fun n hn fuel hfuel => loop_isSome hn (by omega) quiet_zero, hfirst, fun c => ?_⟩
  constructor
  · rintro ⟨fuel, h⟩
    obtain ⟨p, hp, h⟩ := Option.map_eq_some_iff.mp h
    have hp := hend hp
    cases hp with
    | aborted hquiet hin _ => cases h
    | @terminal k outcome hquiet hin h₁ h₂ hanswer =>
      obtain ⟨returnValue, rfl, rfl⟩ := settlePoll_ok_iff.mp h
      exact ⟨k, returnValue, hin, hquiet.unaborted_succ h₁ h₂, hquiet.pending,
        terminal_success_iff.mp hanswer, rfl⟩
    | timeout hquiet _ => cases h
  · rintro ⟨k, returnValue, hin, hunaborted, hpending, hanswer, rfl⟩
    refine ⟨k + 1, ?_⟩
    have hrun := hfirst k _ hin hunaborted hpending (terminal_success_iff.mpr hanswer) (k + 1) (Nat.lt_succ_self k)
    show Option.map _ _ = _
    rw [hrun]
    rfl

/-- A `maxAttempts` between two whole numbers allows one request more. -/
theorem one_and_a_half_attempts : ¬ ∀ (getTransaction : ℕ → Except Thrown GetTransactionResponse)
    (aborted : ℕ → Bool) (maxAttempts : Number) (fuel : ℕ) (p : Polled),
    pollForConfirmation getTransaction aborted maxAttempts fuel = some p →
      (Number.fin p.requests).le maxAttempts = true := by
  intro h
  have hrun : pollForConfirmation (fun _ => .ok .notFound) (fun _ => false) (.fin (3 / 2)) 3 =
      some ⟨2, .ok (.timeout (.fin (3 / 2)))⟩ := by
    have hfirst : (counter 0).lt (.fin (3 / 2)) = true := by norm_num [counter]
    have hsecond : (counter 1).lt (.fin (3 / 2)) = true := by norm_num [counter]
    have hthird : (counter 2).lt (.fin (3 / 2)) = false := by norm_num [counter]
    rw [pollForConfirmation, show Number.fin 0 = counter 0 from rfl, loop, hfirst]
    simp only [if_true, Bool.false_eq_true, if_false, terminal]
    rw [counter_succ, loop, hsecond]
    simp only [if_true, Bool.false_eq_true, if_false, terminal]
    rw [counter_succ, loop, hthird]
    rfl
  have hle := h _ _ _ _ _ hrun
  norm_num at hle

end Verdict

end StreamFi.Confirmation
