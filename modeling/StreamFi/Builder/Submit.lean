import StreamFi.Builder.Clone
import StreamFi.Builder.Semaphore
import StreamFi.Js.Rounding
import StreamFi.Run.Table

/-!
# Submissions of a builder

`submit` takes a slot of the semaphore, calls `submitFn` until it succeeds, and waits on a timer
between two tries. The slot is released when the submission ends; `reset` and `cleanup` clear the
timers, and with them what a submission waits for.

* `Submissions.step`: the calls on a builder and what its submissions wait for, in any order;
* `Change`, **`step_change`**: what one step does to the submissions;
* `Sound`: where a submission stands with the semaphore, with **`Sound.step`**;
* **`Sound.released_iff`**: once nothing runs, everything is released unless a submission waits for
  a timer that is gone;
* `Ready`: no submission does, with `Ready.step`;
* **`released_of_undisturbed`**: no slot is leaked while no timer is cleared.
-/

namespace StreamFi

open Js Run

/-! ## The code -/

/-- `new OperationAbortedError(operation)`. -/
def operationAbortedError (operation : String) : Thrown :=
  errorOf "OperationAbortedError" ("Operation aborted: " ++ operation)

/-- What `submit` reads of its options; signals have numbers. -/
structure SubmitOptions where
  maxRetries : Option Number := none
  retryDelayMs : Option Number := none
  signal : Option ℕ := none
  deriving DecidableEq

/-- Where a submission is suspended: in the queue of the semaphore, before it goes on with a slot, in
a call of `submitFn`, on a timer, or before it goes on after the timer. -/
inductive SubmitPhase (R : Type) where
  | queued
  | granted
  | running (attempt : ℕ)
  | backoff (attempt : ℕ) (delay : Number) (lastError : Thrown)
  | woken (attempt : ℕ) (lastError : Thrown) (aborted : Bool)
  | settled (r : Except Thrown R)

namespace SubmitPhase

variable {R : Type}

def waits : SubmitPhase R → Bool
  | .queued => true
  | _ => false

def ended : SubmitPhase R → Bool
  | .settled _ => true
  | _ => false

/-- It waits for a timer. -/
def parked : SubmitPhase R → Bool
  | .backoff _ _ _ => true
  | _ => false

/-- It has a slot. -/
def holds (p : SubmitPhase R) : Bool := !p.waits && !p.ended

/-- Its call is in flight, or it goes on by itself. -/
def busy : SubmitPhase R → Bool
  | .granted | .running _ | .woken _ _ _ => true
  | _ => false

end SubmitPhase

/-- A submission that was not refused. -/
structure SubmitCall (R : Type) where
  payload : StreamConfig
  options : SubmitOptions
  phase : SubmitPhase R

/-- What the listener of a submission does when its signal fires. -/
def SubmitCall.onAbort {R : Type} (signal : ℕ) (call : SubmitCall R) : SubmitCall R :=
  match call.phase with
  | .backoff attempt _ lastError =>
    if call.options.signal = some signal then { call with phase := .woken attempt lastError true }
    else call
  | _ => call

/-- A builder with its submissions, which have their numbers as names: in `pendingQueue` for their
payload, in `activeTimers` for their timer. `aborted` are the signals that have fired, `refused` what
was thrown before a submission joined the queue. -/
structure Submissions (R : Type) where
  builder : StreamBuilder := {}
  maxQueueSize : Number
  admission : Admission
  pendingQueue : List ℕ := []
  activeTimers : List ℕ := []
  aborted : List ℕ := []
  calls : List (SubmitCall R) := []
  refused : List Thrown := []

inductive SubmissionEvent (R : Type) where
  | set (setter : Setter)
  | submit (callable : Bool) (options : SubmitOptions)
  | resume (i : ℕ)
  | answer (i : ℕ) (r : Except Thrown R)
  | fire (i : ℕ)
  | abort (signal : ℕ)
  | reset
  | cleanup
  | destroy

namespace Submissions

variable {R Tx : Type}

/-- `new StreamBuilder(options)`. -/
def init (concurrency maxQueueSize : Option Number) : Submissions R where
  maxQueueSize := maxQueueSize.getD (.fin 100)
  admission := { sem := { max := concurrency.getD (.fin 10) } }

/-- `signal?.aborted`. -/
def isAborted (s : Submissions R) (options : SubmitOptions) : Bool :=
  options.signal.any fun signal => signal ∈ s.aborted

def setPhase (s : Submissions R) (i : ℕ) (phase : SubmitPhase R) : Submissions R :=
  { s with calls := s.calls.modify i fun call => { call with phase := phase } }

/-- The waiter that a release lets in. -/
def grant (calls : List (SubmitCall R)) : Option ℕ → List (SubmitCall R)
  | some next => calls.modify next fun call => { call with phase := .granted }
  | none => calls

/-- The end of a submission, with its `finally`. -/
def finish (s : Submissions R) (i : ℕ) (r : Except Thrown R) : Submissions R :=
  { s with
    pendingQueue := s.pendingQueue.erase i
    admission := s.admission.release i
    calls := grant (s.setPhase i (.settled r)).calls s.admission.sem.release.1 }

/-- The checks before a submission joins the queue. -/
def submitChecks (s : Submissions R) (callable : Bool) (options : SubmitOptions) :
    Except Thrown StreamConfig :=
  if s.builder.isDestroyed then throwNew "StreamBuilder has been destroyed"
  else if !callable then throwNew "submitFn must be a valid function"
  else if s.isAborted options then .error (operationAbortedError "submit")
  else if s.maxQueueSize.le (.fin s.pendingQueue.length) then
    throwNew ("StreamBuilder queue is full (" ++ numToText s.maxQueueSize ++ " pending). " ++
      "Retry later or increase maxQueueSize.")
  else s.builder.build

def submit (s : Submissions R) (callable : Bool) (options : SubmitOptions) : Submissions R :=
  match s.submitChecks callable options with
  | .error err => { s with refused := s.refused ++ [err] }
  | .ok payload =>
    let phase := if (s.admission.sem.acquire s.admission.calls).1 then .granted else .queued
    { s with
      pendingQueue := s.pendingQueue ++ [s.calls.length]
      admission := s.admission.acquire
      calls := s.calls ++ [⟨payload, options, phase⟩] }

/-- The head of the loop. -/
def loop (s : Submissions R) (i : ℕ) (options : SubmitOptions) (attempt : ℕ)
    (lastError : Option Thrown) : Submissions R :=
  let maxRetries := options.maxRetries.getD (.fin 3)
  if (Number.fin attempt).le maxRetries then
    if s.builder.isDestroyed then
      s.finish i (throwNew "StreamBuilder was destroyed during submission")
    else if s.isAborted options then s.finish i (.error (operationAbortedError "submit"))
    else s.setPhase i (.running attempt)
  else
    let text := lastError.elim "undefined" Thrown.text
    s.finish i (throwNew ("StreamBuilder network payload submission failed after " ++
      numToText maxRetries ++ " retries: " ++ text))

/-- `submitFn` has thrown. -/
def catchError (s : Submissions R) (i : ℕ) (options : SubmitOptions) (attempt : ℕ) (err : Thrown) :
    Submissions R :=
  if s.isAborted options then s.finish i (.error (operationAbortedError "submit"))
  else if (Number.fin (attempt + 1 : ℕ)).le (options.maxRetries.getD (.fin 3)) then
    let delay := (options.retryDelayMs.getD (.fin 100)).mul (Number.ofRat (2 ^ attempt))
    { s.setPhase i (.backoff (attempt + 1) delay err) with activeTimers := s.activeTimers ++ [i] }
  else s.loop i options (attempt + 1) (some err)

/-- `submitFn` has returned. -/
def succeed (s : Submissions R) (i : ℕ) (result : R) : Submissions R :=
  { s with pendingQueue := s.pendingQueue.erase i }.finish i (.ok result)

/-- A signal fires once. -/
def abort (s : Submissions R) (signal : ℕ) : Submissions R :=
  if signal ∈ s.aborted then s
  else { s with
    aborted := s.aborted ++ [signal]
    activeTimers := s.activeTimers.filter fun i =>
      (s.calls[i]?).all fun call => call.options.signal ≠ some signal
    calls := s.calls.map (SubmitCall.onAbort signal) }

def reset (s : Submissions R) : Submissions R :=
  { s with builder := s.builder.reset, activeTimers := [], pendingQueue := [] }

def cleanup (s : Submissions R) : Submissions R :=
  { s with builder := { s.builder with isDestroyed := true }, activeTimers := [], pendingQueue := [] }

def step (sdk : Sdk Tx) (s : Submissions R) : SubmissionEvent R → Option (Submissions R)
  | .set setter => (s.builder.after sdk setter).map fun builder => { s with builder := builder }
  | .submit callable options => some (s.submit callable options)
  | .resume i => match s.calls[i]? with
    | some ⟨_, options, .granted⟩ => some (s.loop i options 0 none)
    | some ⟨_, options, .woken attempt lastError aborted⟩ =>
      if aborted then some (s.finish i (.error (operationAbortedError "submit")))
      else some (s.loop i options attempt (some lastError))
    | _ => none
  | .answer i r => match s.calls[i]?, r with
    | some ⟨_, _, .running _⟩, .ok result => some (s.succeed i result)
    | some ⟨_, options, .running attempt⟩, .error err => some (s.catchError i options attempt err)
    | _, _ => none
  | .fire i => match s.calls[i]? with
    | some ⟨_, _, .backoff attempt _ lastError⟩ =>
      if i ∈ s.activeTimers then
        some { s.setPhase i (.woken attempt lastError false) with
          activeTimers := s.activeTimers.erase i }
      else none
    | _ => none
  | .abort signal => some (s.abort signal)
  | .reset => some s.reset
  | .cleanup | .destroy => some s.cleanup

/-- No call of `submitFn` is in flight, no timer is armed, and nothing goes on by itself. -/
def Quiet (s : Submissions R) : Prop := s.activeTimers = [] ∧ ∀ call ∈ s.calls, call.phase.busy = false

/-- Every promise has settled, and the semaphore is as it was at first. -/
def Released (s : Submissions R) : Prop :=
  (∀ call ∈ s.calls, call.phase.ended = true) ∧ s.admission.sem.running = 0 ∧
    s.admission.sem.queue = []

/-- No timer is cleared, and the semaphore lets somebody in. -/
def Undisturbed (s : Submissions R) : SubmissionEvent R → Prop
  | .submit callable options =>
    (s.submitChecks callable options).isOk = true → (Number.fin 0).lt s.admission.sem.max = true
  | .reset | .cleanup | .destroy => s.activeTimers = []
  | _ => True

instance (s : Submissions R) : DecidablePred s.Undisturbed
  | .submit callable options => inferInstanceAs (Decidable ((s.submitChecks callable options).isOk = true →
      (Number.fin 0).lt s.admission.sem.max = true))
  | .reset | .cleanup | .destroy => inferInstanceAs (Decidable (s.activeTimers = []))
  | .set _ | .resume _ | .answer _ _ | .fire _ | .abort _ => inferInstanceAs (Decidable True)

instance : DecidablePred (Quiet (R := R)) := fun s =>
  inferInstanceAs (Decidable (s.activeTimers = [] ∧ ∀ call ∈ s.calls, call.phase.busy = false))

instance : DecidablePred (Released (R := R)) := fun s =>
  inferInstanceAs (Decidable ((∀ call ∈ s.calls, call.phase.ended = true) ∧ s.admission.sem.running = 0 ∧
    s.admission.sem.queue = []))

/-! ## Steps -/

section Steps

variable {sdk : Sdk Tx} {s s' : Submissions R} {e : SubmissionEvent R} {i j : ℕ} {p : SubmitPhase R}

/-- Where a submission stands. -/
def phaseOf (calls : List (SubmitCall R)) (i : ℕ) : Option (SubmitPhase R) := calls[i]?.map SubmitCall.phase

theorem phaseOf_modify (calls : List (SubmitCall R)) (i j : ℕ) (p : SubmitPhase R) :
    phaseOf (calls.modify i fun call => { call with phase := p }) j =
      if i = j then (phaseOf calls j).map fun _ => p else phaseOf calls j := by
  rw [phaseOf, phaseOf, List.getElem?_modify]
  split_ifs <;> cases calls[j]? <;> rfl

theorem phaseOf_append (calls : List (SubmitCall R)) (call : SubmitCall R) :
    phaseOf (calls ++ [call]) i = some p ↔ phaseOf calls i = some p ∨ i = calls.length ∧ p = call.phase := by
  simp only [phaseOf, Option.map_eq_some_iff, add_iff]
  constructor
  · rintro ⟨c, hc | ⟨rfl, rfl⟩, rfl⟩
    · exact .inl ⟨c, hc, rfl⟩
    · exact .inr ⟨rfl, rfl⟩
  · rintro (⟨c, hc, rfl⟩ | ⟨rfl, rfl⟩)
    · exact ⟨c, .inl hc, rfl⟩
    · exact ⟨call, .inr ⟨rfl, rfl⟩, rfl⟩

/-- What a step does to the submissions. -/
inductive Change (s : Submissions R) (e : SubmissionEvent R) (s' : Submissions R) : Prop
  | same (admission : s'.admission = s.admission) (calls : s'.calls = s.calls)
      (timers : s'.activeTimers = s.activeTimers)
  | cleared (admission : s'.admission = s.admission) (calls : s'.calls = s.calls)
      (calm : s.Undisturbed e → s.activeTimers = [])
  | joined (call : SubmitCall R) (admission : s'.admission = s.admission.acquire)
      (calls : s'.calls = s.calls ++ [call]) (timers : s'.activeTimers = s.activeTimers)
      (phase : call.phase = if (s.admission.sem.acquire s.admission.calls).1 then .granted else .queued)
      (admits : s.Undisturbed e → (Number.fin 0).lt s.admission.sem.max = true)
  | moved (i : ℕ) (p p' : SubmitPhase R) (hp : phaseOf s.calls i = some p) (hold : p.holds = true)
      (hnew : p'.holds = true) (admission : s'.admission = s.admission) (calls : s'.calls = (s.setPhase i p').calls)
      (own : p'.parked = true → i ∈ s'.activeTimers)
      (others : ∀ j, j ≠ i → j ∈ s.activeTimers → j ∈ s'.activeTimers)
  | finished (i : ℕ) (p : SubmitPhase R) (r : Except Thrown R) (hp : phaseOf s.calls i = some p)
      (hold : p.holds = true) (admission : s'.admission = (s.finish i r).admission)
      (calls : s'.calls = (s.finish i r).calls) (timers : s'.activeTimers = s.activeTimers)
  | aborted (signal : ℕ) (admission : s'.admission = s.admission)
      (calls : s'.calls = s.calls.map (SubmitCall.onAbort signal))
      (timers : s'.activeTimers = s.activeTimers.filter fun i =>
        (s.calls[i]?).all fun call => call.options.signal ≠ some signal)

theorem change_loop (hp : phaseOf s.calls i = some p) (hold : p.holds = true) (options : SubmitOptions)
    (attempt : ℕ) (lastError : Option Thrown) : Change s e (s.loop i options attempt lastError) := by
  unfold loop
  simp only
  split_ifs
  · exact .finished i p _ hp hold rfl rfl rfl
  · exact .finished i p _ hp hold rfl rfl rfl
  · exact .moved i p (.running attempt) hp hold rfl rfl rfl (fun h => by cases h) (fun j _ hj => hj)
  · exact .finished i p _ hp hold rfl rfl rfl

theorem change_catchError (hp : phaseOf s.calls i = some p) (hold : p.holds = true) (options : SubmitOptions)
    (attempt : ℕ) (err : Thrown) : Change s e (s.catchError i options attempt err) := by
  unfold catchError
  split_ifs
  · exact .finished i p _ hp hold rfl rfl rfl
  · exact .moved i p (.backoff (attempt + 1) _ err) hp hold rfl rfl rfl
      (fun _ => List.mem_append_right _ (List.mem_singleton_self i)) (fun j _ hj => List.mem_append_left _ hj)
  · exact change_loop hp hold options (attempt + 1) (some err)

/-- **One step.** -/
theorem step_change (hs : step sdk s e = some s') : Change s e s' := by
  have hphase {i : ℕ} {call : SubmitCall R} (h : s.calls[i]? = some call) : phaseOf s.calls i = some call.phase := by
    rw [phaseOf, h]
    rfl
  cases e with
  | set setter =>
    obtain ⟨builder, -, rfl⟩ := Option.map_eq_some_iff.mp hs
    exact .same rfl rfl rfl
  | submit callable options =>
    cases hs
    cases hchecks : s.submitChecks callable options with
    | error err =>
      rw [submit, hchecks]
      exact .same rfl rfl rfl
    | ok payload =>
      rw [submit, hchecks]
      exact .joined _ rfl rfl rfl rfl fun h => h (by rw [hchecks]; rfl)
  | resume i =>
    simp only [step] at hs
    split at hs
    · rename_i options hcall
      cases hs
      exact change_loop (hphase hcall) rfl options 0 none
    · rename_i options attempt lastError aborted hcall
      split_ifs at hs
      · cases hs
        exact .finished i _ _ (hphase hcall) rfl rfl rfl rfl
      · cases hs
        exact change_loop (hphase hcall) rfl options attempt (some lastError)
    · cases hs
  | answer i r =>
    simp only [step] at hs
    split at hs
    · rename_i hcall
      cases hs
      exact .finished i _ _ (hphase hcall) rfl rfl rfl rfl
    · rename_i options attempt err hcall
      cases hs
      exact change_catchError (hphase hcall) rfl options attempt err
    · cases hs
  | fire i =>
    simp only [step] at hs
    split at hs
    · rename_i attempt delay lastError hcall
      split_ifs at hs
      cases hs
      exact .moved i _ (.woken attempt lastError false) (hphase hcall) rfl rfl rfl rfl (fun h => by cases h)
        (fun j hj hmem => (List.mem_erase_of_ne hj).mpr hmem)
    · cases hs
  | abort signal =>
    cases hs
    unfold abort
    split_ifs
    · exact .same rfl rfl rfl
    · exact .aborted signal rfl rfl rfl
  | reset =>
    cases hs
    exact .cleared rfl rfl fun h => h
  | cleanup =>
    cases hs
    exact .cleared rfl rfl fun h => h
  | destroy =>
    cases hs
    exact .cleared rfl rfl fun h => h

/-! ## The slots -/

/-- A submission waits exactly while it is in the queue of the semaphore, and has ended exactly when it has
given its slot back. -/
structure Sound (s : Submissions R) : Prop where
  fair : s.admission.Fair
  length : s.admission.calls = s.calls.length
  waits : ∀ i p, phaseOf s.calls i = some p → (p.waits = true ↔ i ∈ s.admission.sem.queue)
  ended : ∀ i p, phaseOf s.calls i = some p → (p.ended = true ↔ i ∈ s.admission.released)

theorem lt_of_phaseOf {calls : List (SubmitCall R)} (hp : phaseOf calls i = some p) : i < calls.length := by
  obtain ⟨call, hcall, -⟩ := Option.map_eq_some_iff.mp hp
  exact lt_of_entry hcall

theorem exists_phaseOf {calls : List (SubmitCall R)} (h : i < calls.length) : ∃ p, phaseOf calls i = some p :=
  ⟨_, Option.map_eq_some_iff.mpr ⟨_, List.getElem?_eq_getElem h, rfl⟩⟩

/-- **The slots are held** by the submissions that neither wait nor have ended. -/
theorem Sound.mem_held_iff (h : Sound s) (hp : phaseOf s.calls i = some p) :
    i ∈ s.admission.held ↔ p.holds = true := by
  have horder : i ∈ s.admission.granted ++ s.admission.sem.queue := by
    rw [h.fair.order, List.mem_range, h.length]
    exact lt_of_phaseOf hp
  have hdisjoint : i ∈ s.admission.granted ↔ i ∉ s.admission.sem.queue := by
    constructor
    · intro hg hq
      exact (List.nodup_append.mp h.fair.nodup).2.2 i hg i hq rfl
    · exact (List.mem_append.mp horder).resolve_right
  rw [Admission.held, List.mem_filter, hdisjoint, ← h.waits i p hp, decide_eq_true_eq, ← h.ended i p hp,
    SubmitPhase.holds, Bool.and_eq_true, Bool.not_eq_true', Bool.not_eq_true', Bool.not_eq_true, Bool.not_eq_true]

theorem sound_init (concurrency maxQueueSize : Option Number) :
    Sound (init concurrency maxQueueSize : Submissions R) where
  fair := Admission.fair_init _
  length := rfl
  waits i p hp := by cases hp
  ended i p hp := by cases hp

theorem phaseOf_setPhase (s : Submissions R) (i j : ℕ) (p : SubmitPhase R) :
    phaseOf (s.setPhase i p).calls j = if i = j then (phaseOf s.calls j).map fun _ => p else phaseOf s.calls j :=
  phaseOf_modify s.calls i j p

theorem waits_of_holds (h : p.holds = true) : p.waits = false ∧ p.ended = false := by
  rw [SubmitPhase.holds, Bool.and_eq_true, Bool.not_eq_true', Bool.not_eq_true'] at h
  exact h

/-- Only where the submissions stand matters. -/
theorem Sound.congr (h : Sound s) (hadmission : s'.admission = s.admission)
    (hlength : s'.calls.length = s.calls.length)
    (hphase : ∀ i p', phaseOf s'.calls i = some p' →
      ∃ p, phaseOf s.calls i = some p ∧ p'.waits = p.waits ∧ p'.ended = p.ended) : Sound s' := by
  refine ⟨hadmission ▸ h.fair, by rw [hadmission, hlength, h.length], ?_, ?_⟩
  · intro i p' hp'
    obtain ⟨p, hp, hwaits, -⟩ := hphase i p' hp'
    rw [hadmission, hwaits, h.waits i p hp]
  · intro i p' hp'
    obtain ⟨p, hp, -, hended⟩ := hphase i p' hp'
    rw [hadmission, hended, h.ended i p hp]

theorem Sound.moved {p' : SubmitPhase R} (h : Sound s) (hp : phaseOf s.calls i = some p) (hold : p.holds = true)
    (hnew : p'.holds = true) (hadmission : s'.admission = s.admission)
    (hcalls : s'.calls = (s.setPhase i p').calls) : Sound s' := by
  refine h.congr hadmission (by rw [hcalls, setPhase, List.length_modify]) fun j q hq => ?_
  rw [hcalls, phaseOf_setPhase] at hq
  split_ifs at hq with hij
  · subst hij
    rw [hp] at hq
    cases hq
    exact ⟨p, hp, (waits_of_holds hnew).1.trans (waits_of_holds hold).1.symm,
      (waits_of_holds hnew).2.trans (waits_of_holds hold).2.symm⟩
  · exact ⟨q, hq, rfl, rfl⟩

/-- A signal wakes those that wait for a timer under it, and nobody else. -/
theorem onAbort_phase (signal : ℕ) (call : SubmitCall R) :
    (SubmitCall.onAbort signal call).phase = call.phase ∧
        (call.phase.parked = true → call.options.signal ≠ some signal) ∨
      call.phase.holds = true ∧ (SubmitCall.onAbort signal call).phase.holds = true ∧
        (SubmitCall.onAbort signal call).phase.parked = false := by
  unfold SubmitCall.onAbort
  cases hphase : call.phase with
  | backoff attempt delay lastError =>
    by_cases hsignal : call.options.signal = some signal
    · simp only [if_pos hsignal]
      exact .inr ⟨rfl, rfl, rfl⟩
    · simp only [if_neg hsignal]
      exact .inl ⟨hphase, fun _ => hsignal⟩
  | queued | granted | running _ | woken _ _ _ | settled _ => exact .inl ⟨hphase, fun h => by cases h⟩

theorem Sound.aborted (h : Sound s) (signal : ℕ) (hadmission : s'.admission = s.admission)
    (hcalls : s'.calls = s.calls.map (SubmitCall.onAbort signal)) : Sound s' := by
  refine h.congr hadmission (by rw [hcalls, List.length_map]) fun j q hq => ?_
  rw [hcalls, phaseOf, List.getElem?_map, Option.map_map, Option.map_eq_some_iff] at hq
  obtain ⟨call, hcall, rfl⟩ := hq
  refine ⟨call.phase, by rw [phaseOf, hcall]; rfl, ?_⟩
  show (SubmitCall.onAbort signal call).phase.waits = _ ∧ (SubmitCall.onAbort signal call).phase.ended = _
  rcases onAbort_phase signal call with ⟨hsame, -⟩ | ⟨hold, hnew, -⟩
  · rw [hsame]
    exact ⟨rfl, rfl⟩
  · exact ⟨(waits_of_holds hnew).1.trans (waits_of_holds hold).1.symm,
      (waits_of_holds hnew).2.trans (waits_of_holds hold).2.symm⟩

/-- **A new submission** has a slot, or it is the last in the queue. -/
theorem Sound.joined {call : SubmitCall R} (h : Sound s) (hadmission : s'.admission = s.admission.acquire)
    (hcalls : s'.calls = s.calls ++ [call])
    (hphase : call.phase = if (s.admission.sem.acquire s.admission.calls).1 then .granted else .queued) :
    Sound s' := by
  have hreleased : s.admission.acquire.released = s.admission.released := rfl
  have hnew : s.calls.length ∉ s.admission.granted := fun hmem => by
    have := h.fair.lt_calls hmem
    rw [h.length] at this
    omega
  have hqueue : ∀ j, j ∈ s.admission.acquire.sem.queue ↔ j ∈ s.admission.sem.queue ∨
      j = s.calls.length ∧ (s.admission.sem.acquire s.admission.calls).1 = false := by
    intro j
    rw [Admission.acquire, Semaphore.acquire, h.length]
    split_ifs <;> simp
  have hunqueued : s.calls.length ∉ s.admission.sem.queue := fun hmem => by
    have hrange : s.calls.length ∈ List.range s.admission.calls := by
      rw [← h.fair.order]
      exact List.mem_append_right _ hmem
    rw [List.mem_range, h.length] at hrange
    omega
  refine ⟨hadmission ▸ h.fair.acquire, ?_, ?_, ?_⟩
  · rw [hadmission, hcalls, List.length_append, List.length_singleton]
    show s.admission.calls + 1 = _
    rw [h.length]
  · intro j q hq
    rw [hadmission, hqueue]
    rw [hcalls, phaseOf_append] at hq
    rcases hq with hq | ⟨rfl, rfl⟩
    · have hlt := lt_of_phaseOf hq
      rw [h.waits j q hq, or_iff_left]
      omega
    · rw [hphase, or_iff_right hunqueued]
      cases (s.admission.sem.acquire s.admission.calls).1 <;> simp [SubmitPhase.waits]
  · intro j q hq
    rw [hadmission, hreleased]
    rw [hcalls, phaseOf_append] at hq
    rcases hq with hq | ⟨rfl, rfl⟩
    · exact h.ended j q hq
    · rw [hphase]
      refine iff_of_false ?_ fun hmem => hnew (h.fair.released _ hmem)
      cases (s.admission.sem.acquire s.admission.calls).1 <;> simp [SubmitPhase.ended]

/-- The submissions after one has ended, and the first of the queue has its slot. -/
theorem phaseOf_finish (s : Submissions R) (i j : ℕ) (r : Except Thrown R) :
    phaseOf (s.finish i r).calls j =
      if s.admission.sem.queue.head? = some j then (phaseOf (s.setPhase i (.settled r)).calls j).map fun _ => .granted
      else phaseOf (s.setPhase i (.settled r)).calls j := by
  rw [finish, Semaphore.release]
  cases s.admission.sem.queue with
  | nil => rfl
  | cons next queue =>
    simp only [grant, phaseOf_modify, List.head?_cons, Option.some.injEq]

/-- **A submission ends**, and gives its slot to the first of the queue. -/
theorem Sound.finished {r : Except Thrown R} (h : Sound s) (hp : phaseOf s.calls i = some p)
    (hold : p.holds = true) (hadmission : s'.admission = (s.finish i r).admission)
    (hcalls : s'.calls = (s.finish i r).calls) : Sound s' := by
  have hheld := (h.mem_held_iff hp).mpr hold
  have hnodup : s.admission.sem.queue.Nodup := (List.nodup_append.mp h.fair.nodup).2.1
  have hi : i ∉ s.admission.sem.queue := by
    rw [← h.waits i p hp, (waits_of_holds hold).1]
    exact Bool.false_ne_true
  have hqueue : s'.admission.sem.queue = s.admission.sem.queue.tail := by
    rw [hadmission]
    show s.admission.sem.release.2.queue = _
    rw [Semaphore.release]
    cases s.admission.sem.queue <;> rfl
  have hreleased : s'.admission.released = s.admission.released ++ [i] := by
    rw [hadmission]
    rfl
  refine ⟨?_, ?_, ?_, ?_⟩
  · rw [hadmission]
    exact h.fair.release hheld
  · have hlength : (s.finish i r).calls.length = s.calls.length := by
      rw [finish, Semaphore.release]
      cases s.admission.sem.queue <;> simp [grant, setPhase]
    rw [hadmission, hcalls, hlength]
    exact h.length
  · intro j q hq
    rw [hqueue]
    rw [hcalls, phaseOf_finish, phaseOf_setPhase] at hq
    cases hcases : s.admission.sem.queue with
    | nil =>
      rw [hcases] at hq hi
      simp only [List.head?_nil, reduceCtorEq, if_false] at hq
      split_ifs at hq with hij
      · subst hij
        rw [hp] at hq
        cases hq
        simp [SubmitPhase.waits]
      · rw [h.waits j q hq, hcases, List.tail_nil]
    | cons next queue =>
      rw [hcases] at hq hi hnodup
      rw [List.nodup_cons] at hnodup
      rw [List.tail_cons]
      simp only [List.head?_cons, Option.some.injEq] at hq
      split_ifs at hq with hnext hij hij
      · subst hij
        exact absurd (hnext ▸ List.mem_cons_self) hi
      · subst hnext
        obtain ⟨q', -, rfl⟩ := Option.map_eq_some_iff.mp hq
        exact iff_of_false Bool.false_ne_true hnodup.1
      · subst hij
        rw [hp] at hq
        cases hq
        exact iff_of_false Bool.false_ne_true fun hmem => hi (List.mem_cons_of_mem next hmem)
      · rw [h.waits j q hq, hcases, List.mem_cons, or_iff_right (Ne.symm hnext)]
  · intro j q hq
    rw [hreleased, List.mem_append, List.mem_singleton]
    rw [hcalls, phaseOf_finish, phaseOf_setPhase] at hq
    by_cases hij : i = j
    · subst hij
      have hhead : ¬ s.admission.sem.queue.head? = some i := fun hhead => hi (List.mem_of_head? hhead)
      rw [if_neg hhead, if_pos rfl, hp] at hq
      cases hq
      exact iff_of_true rfl (.inr rfl)
    · rw [if_neg hij] at hq
      rw [or_iff_left (Ne.symm hij)]
      split_ifs at hq with hhead
      · obtain ⟨q', hq', rfl⟩ := Option.map_eq_some_iff.mp hq
        have hwaits := (h.waits j q' hq').mpr (List.mem_of_head? hhead)
        rw [← h.ended j q' hq']
        cases q' with
        | queued => exact iff_of_false Bool.false_ne_true Bool.false_ne_true
        | granted | running _ | backoff _ _ _ | woken _ _ _ | settled _ => cases hwaits
      · exact h.ended j q hq

/-- **Every step keeps the account** of the slots. -/
theorem Sound.step (h : Sound s) (hs : step sdk s e = some s') : Sound s' := by
  cases step_change hs with
  | same hadmission hcalls | cleared hadmission hcalls =>
    exact h.congr hadmission (by rw [hcalls]) fun j q hq => ⟨q, hcalls ▸ hq, rfl, rfl⟩
  | joined call hadmission hcalls _ hphase _ => exact h.joined hadmission hcalls hphase
  | moved i p p' hp hold hnew hadmission hcalls => exact h.moved hp hold hnew hadmission hcalls
  | finished i p r hp hold hadmission hcalls => exact h.finished hp hold hadmission hcalls
  | aborted signal hadmission hcalls => exact h.aborted signal hadmission hcalls

/-! ## What is released -/

theorem sound_of_run {concurrency maxQueueSize : Option Number} {log : List (SubmissionEvent R)}
    (h : run (step sdk) (init concurrency maxQueueSize) log = some s) : Sound s :=
  run_induction (P := fun s _ => Sound s) (sound_init concurrency maxQueueSize) (fun _ _ _ _ hs he => hs.step he) h

/-- **Once nothing runs, everything is released** unless a submission waits for a timer that is gone. -/
theorem Sound.released_iff (h : Sound s) (hquiet : s.Quiet)
    (hmax : s.calls ≠ [] → (Number.fin 0).lt s.admission.sem.max = true) :
    s.Released ↔ ∀ call ∈ s.calls, call.phase.parked = false := by
  constructor
  · intro hreleased call hcall
    have hended := hreleased.1 call hcall
    cases hphase : call.phase with
    | settled r => rfl
    | queued | granted | running _ | backoff _ _ _ | woken _ _ _ =>
      rw [hphase] at hended
      cases hended
  · intro hparked
    have hrest : ∀ call ∈ s.calls, call.phase.holds = false := by
      intro call hcall
      have hbusy := hquiet.2 call hcall
      have hpark := hparked call hcall
      cases hphase : call.phase with
      | queued | settled _ => rfl
      | granted | running _ | woken _ _ _ =>
        rw [hphase] at hbusy
        cases hbusy
      | backoff _ _ _ =>
        rw [hphase] at hpark
        cases hpark
    have hheld : s.admission.held = [] := by
      rw [List.eq_nil_iff_forall_not_mem]
      intro i hi
      have hlt : i < s.calls.length := by
        rw [← h.length]
        exact h.fair.lt_calls (List.mem_of_mem_filter hi)
      obtain ⟨p, hp⟩ := exists_phaseOf hlt
      obtain ⟨call, hcall, rfl⟩ := Option.map_eq_some_iff.mp hp
      have hhold := (h.mem_held_iff hp).mp hi
      rw [hrest call (List.mem_of_getElem? hcall)] at hhold
      cases hhold
    have hqueue : s.admission.sem.queue = [] := by
      by_contra hne
      have hfull := h.fair.full hne
      rw [hheld, List.length_nil] at hfull
      have hcalls : s.calls ≠ [] := by
        intro hnil
        have hcount := h.fair.order
        rw [h.length, hnil, List.length_nil, List.range_zero] at hcount
        exact hne (List.append_eq_nil_iff.mp hcount).2
      have hpos := (Semaphore.lt_max_iff 0).mp (by exact_mod_cast hmax hcalls) 0 hfull
      omega
    refine ⟨?_, ?_, hqueue⟩
    · intro call hcall
      obtain ⟨i, hi⟩ := List.getElem?_of_mem hcall
      have hp : phaseOf s.calls i = some call.phase := by
        rw [phaseOf, hi]
        rfl
      have hwaits : call.phase.waits = false := by
        rw [← Bool.not_eq_true, h.waits i _ hp, hqueue]
        exact List.not_mem_nil
      have hhold := hrest call hcall
      rw [SubmitPhase.holds, hwaits, Bool.not_false, Bool.true_and, Bool.not_eq_false'] at hhold
      exact hhold
    · rw [h.fair.running, hheld]
      rfl

/-! ## Runs in which no timer is cleared -/

/-- Who waits for a timer has one, and whoever waits for a slot can have one. -/
structure Ready (s : Submissions R) : Prop where
  armed : ∀ i p, phaseOf s.calls i = some p → p.parked = true → i ∈ s.activeTimers
  admits : s.calls ≠ [] → (Number.fin 0).lt s.admission.sem.max = true

theorem ready_init (concurrency maxQueueSize : Option Number) :
    Ready (init concurrency maxQueueSize : Submissions R) where
  armed i p hp := by cases hp
  admits h := absurd rfl h

theorem ne_nil_of_phaseOf (hp : phaseOf s.calls i = some p) : s.calls ≠ [] := by
  intro hnil
  rw [hnil] at hp
  cases hp

theorem Ready.step (h : Ready s) (hok : s.Undisturbed e) (hs : step sdk s e = some s') : Ready s' := by
  cases step_change hs with
  | same hadmission hcalls htimers =>
    refine ⟨?_, ?_⟩
    · rw [hcalls, htimers]
      exact h.armed
    · rw [hcalls, hadmission]
      exact h.admits
  | cleared hadmission hcalls hcalm =>
    refine ⟨fun i p hp hparked => ?_, ?_⟩
    · have hmem := h.armed i p (hcalls ▸ hp) hparked
      rw [hcalm hok] at hmem
      cases hmem
    · rw [hcalls, hadmission]
      exact h.admits
  | joined call hadmission hcalls htimers hphase hadmits =>
    refine ⟨fun i p hp hparked => ?_, fun _ => ?_⟩
    · rw [hcalls, phaseOf_append] at hp
      rw [htimers]
      rcases hp with hp | ⟨-, rfl⟩
      · exact h.armed i p hp hparked
      · rw [hphase] at hparked
        split_ifs at hparked <;> cases hparked
    · rw [hadmission]
      have hmax := hadmits hok
      simp only [Admission.acquire, Semaphore.acquire]
      split_ifs <;> exact hmax
  | moved i p p' hp hold hnew hadmission hcalls hown hothers =>
    refine ⟨fun j q hq hparked => ?_, fun _ => ?_⟩
    · rw [hcalls, phaseOf_setPhase] at hq
      split_ifs at hq with hij
      · subst hij
        rw [hp] at hq
        cases hq
        exact hown hparked
      · exact hothers j (Ne.symm hij) (h.armed j q hq hparked)
    · rw [hadmission]
      exact h.admits (ne_nil_of_phaseOf hp)
  | finished i p r hp hold hadmission hcalls htimers =>
    refine ⟨fun j q hq hparked => ?_, fun _ => ?_⟩
    · rw [htimers]
      rw [hcalls, phaseOf_finish, phaseOf_setPhase] at hq
      split_ifs at hq with hhead hij hij
      · obtain ⟨-, -, rfl⟩ := Option.map_eq_some_iff.mp hq
        cases hparked
      · obtain ⟨-, -, rfl⟩ := Option.map_eq_some_iff.mp hq
        cases hparked
      · obtain ⟨-, -, rfl⟩ := Option.map_eq_some_iff.mp hq
        cases hparked
      · exact h.armed j q hq hparked
    · have hmax := h.admits (ne_nil_of_phaseOf hp)
      rw [hadmission]
      show (Number.fin 0).lt s.admission.sem.release.2.max = true
      rw [Semaphore.release]
      cases s.admission.sem.queue <;> exact hmax
  | aborted signal hadmission hcalls htimers =>
    refine ⟨fun j q hq hparked => ?_, fun hne => ?_⟩
    · rw [hcalls, phaseOf, List.getElem?_map, Option.map_map, Option.map_eq_some_iff] at hq
      obtain ⟨call, hcall, rfl⟩ := hq
      -- a submission that still waits has another signal, and its timer is kept
      rcases onAbort_phase signal call with ⟨hsame, hother⟩ | ⟨-, -, hwoken⟩
      · have hpark : call.phase.parked = true := hsame ▸ hparked
        have hp : phaseOf s.calls j = some call.phase := by
          rw [phaseOf, hcall]
          rfl
        rw [htimers, List.mem_filter, hcall]
        exact ⟨h.armed j _ hp hpark, decide_eq_true (hother hpark)⟩
      · exact absurd (hparked.symm.trans hwoken) Bool.noConfusion
    · rw [hadmission]
      apply h.admits
      rintro hnil
      exact hne (by rw [hcalls, hnil]; rfl)

/-- **No slot is leaked while no timer is cleared**: in every run in which `reset`, `cleanup` and `destroy` find
no timer armed, and the semaphore lets somebody in, everything is released once nothing runs. -/
theorem released_of_undisturbed {concurrency maxQueueSize : Option Number} {log : List (SubmissionEvent R)}
    (h : run (step sdk) (init concurrency maxQueueSize) log = some s)
    (hok : EachStep (step sdk) Undisturbed (init concurrency maxQueueSize) log) (hquiet : s.Quiet) : s.Released := by
  have hready : Ready s := run_induction_of (P := fun s _ => Ready s) (ready_init concurrency maxQueueSize)
    (fun _ _ _ _ hs hok he => hs.step hok he) hok h
  rw [(sound_of_run h).released_iff hquiet hready.admits]
  intro call hcall
  obtain ⟨i, hi⟩ := List.getElem?_of_mem hcall
  rw [← Bool.not_eq_true]
  intro hparked
  have hmem := hready.armed i call.phase (by rw [phaseOf, hi]; rfl) hparked
  rw [hquiet.1] at hmem
  cases hmem

theorem step_set (s : Submissions R) (setter : Setter) :
    step sdk s (.set setter) = some { s with builder := s.builder.call sdk setter } := by
  have hrun := s.builder.run_after sdk [setter]
  rw [run_singleton] at hrun
  rw [step, hrun]
  rfl

theorem run_set (s : Submissions R) (setters : List Setter) :
    run (step sdk) s (setters.map .set) = some { s with builder := s.builder.calls sdk setters } := by
  induction setters generalizing s with
  | nil => rfl
  | cons setter setters ih =>
    show (step sdk s (.set setter)).bind _ = _
    rw [step_set, Option.bind_some]
    exact ih _

theorem allSteps_set {check : Submissions R → SubmissionEvent R → Bool}
    (hcheck : ∀ s setter, check s (.set setter) = true) (s : Submissions R) (setters : List Setter)
    (log : List (SubmissionEvent R)) :
    allSteps (step sdk) check s (setters.map .set ++ log) =
      allSteps (step sdk) check { s with builder := s.builder.calls sdk setters } log := by
  induction setters generalizing s with
  | nil => rfl
  | cons setter setters ih =>
    rw [List.map_cons, List.cons_append, allSteps, hcheck, Bool.true_and, step_set]
    exact ih _

end Steps

/-! A builder whose only call fails. -/

/-- A call that fails at first, and is tried again before the builder is reset. -/
def retriedLog : List (SubmissionEvent Unit) :=
  [.submit true {}, .resume 0, .answer 0 (throwNew "connection reset"), .fire 0, .resume 0, .answer 0 (.ok ()),
    .reset]

/-- A call that fails, and a reset while the builder waits to try it again. -/
def strandedLog : List (SubmissionEvent Unit) :=
  [.submit true {}, .resume 0, .answer 0 (throwNew "connection reset"), .reset]

theorem released_of_undisturbed_retried :
    ∃ s, run (step wideStandIn) (init none none) (StreamBuilder.fixedSetters.map .set ++ retriedLog) = some s ∧
      EachStep (step wideStandIn) Undisturbed (init none none)
        (StreamBuilder.fixedSetters.map .set ++ retriedLog) ∧
      s.Quiet ∧ s.Released ∧ s.calls.length = 1 := by
  have hbuilder := StreamBuilder.calls_fixed {}
  have hall : allSteps (step wideStandIn) (fun s e => decide (s.Undisturbed e)) (init none none)
      (StreamBuilder.fixedSetters.map .set ++ retriedLog) = true := by
    rw [allSteps_set (fun _ _ => rfl), init, hbuilder]
    decide
  have hok := EachStep.of_allSteps (fun _ _ h => of_decide_eq_true h) hall
  have hrun : (run (step wideStandIn) (init none none)
      (StreamBuilder.fixedSetters.map .set ++ retriedLog)).any
        fun s => decide s.Quiet && decide (s.calls.length = 1) := by
    rw [run_append, run_set, Option.bind_some, init, hbuilder]
    decide
  obtain ⟨s, hs, hend⟩ := (Option.any_eq_true _ _).mp hrun
  rw [Bool.and_eq_true] at hend
  have hquiet : s.Quiet := of_decide_eq_true hend.1
  exact ⟨s, hs, hok, hquiet, released_of_undisturbed hs hok hquiet, of_decide_eq_true hend.2⟩

/-- **A reset strands a submission that waits to try again**: nothing runs any more, and the slot is not free. -/
theorem reset_strands : ¬ ∀ (log : List (SubmissionEvent Unit)) (s : Submissions Unit),
    run (step wideStandIn) (init none none) log = some s → s.Quiet → s.Released := by
  intro h
  have hrun : (run (step wideStandIn) (init none none)
      (StreamBuilder.fixedSetters.map .set ++ strandedLog)).any
        fun s => decide s.Quiet && !decide s.Released := by
    rw [run_append, run_set, Option.bind_some, init, StreamBuilder.calls_fixed {}]
    decide
  obtain ⟨s, hs, hend⟩ := (Option.any_eq_true _ _).mp hrun
  rw [Bool.and_eq_true, Bool.not_eq_true', decide_eq_false_iff_not] at hend
  exact hend.2 (h _ s hs (of_decide_eq_true hend.1))

end Submissions

end StreamFi
