import StreamFi.Circuit.State
import StreamFi.Errors
import StreamFi.Js.Rounding
import StreamFi.Run.Table

/-!
# The RPC proxy

Every method of the server that `createRpcServer` returns runs under `withRetry`, and what becomes of
it is counted twice: by the endpoint's consecutive timeouts, and by the circuit of its URL.

* `attempt`: which errors `withRetry` tries again after;
* `RpcServer.step`: calls, their answers, the ends of their pauses, and reads of the circuit;
* **`blame_iff`**: the counters grow, and the circuit opens, only where the endpoint was unreachable,
  exactly when no call ends with an error that the endpoint answered.
-/

namespace StreamFi

open Js Run

/-! ## The code -/

/-- `new CircuitOpenError(scope, cooldownUntil)`. -/
def circuitOpenError (scope : String) (cooldownUntil : Option Number) (now : Number) : Thrown :=
  let wait := match cooldownUntil with
    | some t => s!" — retrying in {numToText (Number.max (.fin 0) (t.sub now))}ms"
    | none => ""
  errorOf "CircuitOpenError"
    (s!"Circuit for '{scope}' is open" ++ wait ++ ". Failing fast instead of retrying.")

/-- `maxRetries` of the proxy. -/
def maxRetries : ℕ := 3

variable {V : Type}

/-- What an attempt of `withRetry` ends with; none when it is tried again. -/
def attempt (n : ℕ) : Except Thrown V → Option (Except Thrown V)
  | .ok v => some (.ok v)
  | .error err =>
    let classified := rpcError err
    if n = maxRetries ∨ classified.name ≠ "RateLimitError" then some (.error classified) else none

/-- What the endpoint does with a request: an application error is an answer, too. -/
inductive Answer (V : Type) where
  | success (v : V)
  | application (err : Thrown)
  | unreachable (err : Thrown)

namespace Answer

def outcome : Answer V → Except Thrown V
  | success v => .ok v
  | application err | unreachable err => .error err

/-- Rate limiting and 503 are no answers, and the endpoint throws no error of the circuit's. -/
def Classified : Answer V → Prop
  | application err =>
    fromRpcError err = none ∧ err.name ≠ "RateLimitError" ∧ err.name ≠ "CircuitOpenError"
  | _ => True

instance (answer : Answer V) : Decidable answer.Classified := by
  unfold Classified
  split <;> infer_instance

end Answer

/-- A call of a method: its attempts, with the pauses between them. -/
inductive RpcCall (V : Type) where
  | attempting (n : ℕ)
  | pausing (n : ℕ)
  | settled (r : Except Thrown V)

structure RpcServer (V : Type) where
  circuit : Circuit := {}
  consecutiveTimeouts : ℕ := 0
  calls : List (RpcCall V) := []

inductive RpcEvent (V : Type) where
  | call (clock : ClockReadings)
  | answer (call : ℕ) (answer : Answer V) (clock : ClockReadings)
  | wake (call : ℕ)
  | getCircuitState (now : Number)

namespace RpcServer

/-- The proxy's `.then` and `.catch`. -/
def record (s : RpcServer V) (clock : ClockReadings) : Except Thrown V → RpcServer V
  | .ok _ => { s with consecutiveTimeouts := 0, circuit := s.circuit.recordSuccess clock }
  | .error err =>
    if err.name = "CircuitOpenError" then s
    else { s with
      consecutiveTimeouts := s.consecutiveTimeouts + 1
      circuit := s.circuit.recordFailure {} clock }

/-- A call of a method, up to its first attempt. -/
def call (s : RpcServer V) (rpcUrl : String) (clock : ClockReadings) : RpcServer V :=
  let (circuit, status) := s.circuit.getCircuitState clock.read
  let s := { s with circuit := circuit }
  if status.state = .opened then
    let r := .error (circuitOpenError rpcUrl status.cooldownUntil clock.now)
    { s.record clock r with calls := s.calls ++ [.settled r] }
  else { s with calls := s.calls ++ [.attempting 0] }

/-- The outcome of an attempt, and what is recorded of it. -/
def answer (s : RpcServer V) (i : ℕ) (answer : Answer V) (clock : ClockReadings) :
    Option (RpcServer V) :=
  match s.calls[i]? with
  | some (.attempting n) =>
    match attempt n answer.outcome with
    | some r => some { s.record clock r with calls := s.calls.set i (.settled r) }
    | none => some { s with calls := s.calls.set i (.pausing n) }
  | _ => none

def wake (s : RpcServer V) (i : ℕ) : Option (RpcServer V) :=
  match s.calls[i]? with
  | some (.pausing n) => some { s with calls := s.calls.set i (.attempting (n + 1)) }
  | _ => none

def step (rpcUrl : String) (s : RpcServer V) : RpcEvent V → Option (RpcServer V)
  | .call clock => some (s.call rpcUrl clock)
  | .answer i answer clock => if answer.Classified then s.answer i answer clock else none
  | .wake i => s.wake i
  | .getCircuitState now => some { s with circuit := (s.circuit.getCircuitState now).1 }

end RpcServer

/-! ## Blame -/

namespace Circuit

variable {c : Circuit}

def failureCount (c : Circuit) : ℕ := (c.entry.map (·.failureCount)).getD 0

def cooldownUntil (c : Circuit) : Option Number := c.entry.bind (·.cooldownUntil)

/-- A read changes neither the count of failures nor the cooldown, and half-opens at most. -/
theorem getCircuitState_keeps (c : Circuit) (now : Number) :
    (c.getCircuitState now).1.failureCount = c.failureCount ∧
      (c.getCircuitState now).1.cooldownUntil = c.cooldownUntil ∧
      ((c.getCircuitState now).1.currentState = c.currentState ∨ c.currentState = .opened) := by
  rcases c.getCircuitState_cases now with h | ⟨entry, hentry, hopened, -, hentry', -, -⟩
  · rw [h]
    exact ⟨rfl, rfl, .inl rfl⟩
  · refine ⟨?_, ?_, .inr ?_⟩
    · rw [failureCount, failureCount, hentry', hentry]
      rfl
    · rw [cooldownUntil, cooldownUntil, hentry', hentry]
      rfl
    · rw [currentState, hentry]
      exact hopened

theorem failureCount_recordSuccess (c : Circuit) (clock : ClockReadings) :
    (c.recordSuccess clock).failureCount = 0 := by
  rw [failureCount, entry_recordSuccess]
  cases c.entry with
  | none => rfl
  | some entry => rfl

end Circuit

namespace RpcServer

variable {s s' : RpcServer V} {rpcUrl : String} {e : RpcEvent V}

/-- A consecutive-failure counter has grown, or the circuit has opened. -/
def Worse (s s' : RpcServer V) : Prop :=
  s.consecutiveTimeouts < s'.consecutiveTimeouts ∨
    s.circuit.failureCount < s'.circuit.failureCount ∨
    s.circuit.currentState ≠ .opened ∧ s'.circuit.currentState ≠ s.circuit.currentState ∧
      s'.circuit.currentState ≠ .closed

/-- Only an unreachable endpoint is blamed. -/
def Blames (rpcUrl : String) (s : RpcServer V) (e : RpcEvent V) : Prop :=
  ∀ s', s.step rpcUrl e = some s' → s.Worse s' → ∃ i err clock, e = .answer i (.unreachable err) clock

/-- A call that is rejected leaves the counters and the cooldown. -/
def RejectsQuietly (rpcUrl : String) (s : RpcServer V) (e : RpcEvent V) : Prop :=
  ∀ clock s', e = .call clock → s.step rpcUrl e = some s' →
    (s.circuit.getCircuitState clock.read).2.state = .opened →
      s'.consecutiveTimeouts = s.consecutiveTimeouts ∧
        s'.circuit.failureCount = s.circuit.failureCount ∧
        s'.circuit.cooldownUntil = s.circuit.cooldownUntil

/-- The event is no error that the endpoint answered. -/
def NoApplicationError (_ : RpcServer V) (e : RpcEvent V) : Prop :=
  ∀ i err clock, e ≠ .answer i (.application err) clock

/-- What becomes of an attempt. -/
theorem answer_cases {i : ℕ} {answer : Answer V} {clock : ClockReadings}
    (h : s.answer i answer clock = some s') : ∃ n, s.calls[i]? = some (.attempting n) ∧
      ((∃ r, attempt n answer.outcome = some r ∧
          s' = { s.record clock r with calls := s.calls.set i (.settled r) }) ∨
        attempt n answer.outcome = none ∧ s' = { s with calls := s.calls.set i (.pausing n) }) := by
  unfold RpcServer.answer at h
  split at h
  · rename_i n hn
    refine ⟨n, hn, ?_⟩
    split at h
    · rename_i r hr
      cases h
      exact .inl ⟨r, hr, rfl⟩
    · rename_i hr
      cases h
      exact .inr ⟨hr, rfl⟩
  · cases h

theorem not_worse_of_eq (ht : s'.consecutiveTimeouts = s.consecutiveTimeouts)
    (hc : s'.circuit = s.circuit) : ¬ s.Worse s' := by
  rw [Worse, ht, hc]
  simp

theorem not_worse_of_read {now : Number} (ht : s'.consecutiveTimeouts = s.consecutiveTimeouts)
    (hc : s'.circuit = (s.circuit.getCircuitState now).1) : ¬ s.Worse s' := by
  obtain ⟨hcount, -, hstate⟩ := s.circuit.getCircuitState_keeps now
  rw [Worse, ht, hc, hcount]
  rintro (hlt | hlt | ⟨hopened, hne, -⟩)
  · exact lt_irrefl _ hlt
  · exact lt_irrefl _ hlt
  · exact hstate.elim hne hopened

theorem not_worse_of_success {clock : ClockReadings} (ht : s'.consecutiveTimeouts = 0)
    (hc : s'.circuit = s.circuit.recordSuccess clock) : ¬ s.Worse s' := by
  rw [Worse, ht, hc, Circuit.failureCount_recordSuccess, Circuit.currentState_recordSuccess]
  simp

/-- A rejected call goes through the proxy's `.catch`, which leaves it alone. -/
theorem call_eq (s : RpcServer V) (rpcUrl : String) (clock : ClockReadings) :
    ∃ call, s.call rpcUrl clock = { s with
      circuit := (s.circuit.getCircuitState clock.read).1, calls := s.calls ++ [call] } := by
  unfold call
  by_cases h : (s.circuit.getCircuitState clock.read).2.state = .opened
  · exact ⟨_, if_pos h⟩
  · exact ⟨_, if_neg h⟩

theorem blames_of_ok (hok : s.NoApplicationError e) : s.Blames rpcUrl e := by
  intro s' hs hworse
  cases e with
  | call clock =>
    cases hs
    obtain ⟨call, heq⟩ := s.call_eq rpcUrl clock
    rw [heq] at hworse
    exact absurd hworse (not_worse_of_read rfl rfl)
  | getCircuitState now =>
    cases hs
    exact absurd hworse (not_worse_of_read rfl rfl)
  | wake i =>
    rw [step, wake] at hs
    split at hs
    · cases hs
      exact absurd hworse (not_worse_of_eq rfl rfl)
    · cases hs
  | answer i answer clock =>
    rw [step] at hs
    split_ifs at hs
    obtain ⟨n, -, ⟨r, hr, rfl⟩ | ⟨-, rfl⟩⟩ := answer_cases hs
    · cases answer with
      | success v =>
        cases hr
        exact absurd hworse (not_worse_of_success rfl rfl)
      | application err => exact absurd rfl (hok i err clock)
      | unreachable err => exact ⟨i, err, clock, rfl⟩
    · exact absurd hworse (not_worse_of_eq rfl rfl)

/-- An application error is not tried again, and is counted. -/
theorem application_worse {i : ℕ} {err : Thrown} {clock : ClockReadings}
    (hs : s.step rpcUrl (.answer i (.application err) clock) = some s') : s.Worse s' := by
  rw [step] at hs
  split_ifs at hs with hclassified
  obtain ⟨hrpc, hrate, hopen⟩ := hclassified
  have hattempt (n : ℕ) : attempt n (Answer.application (V := V) err).outcome = some (.error err) := by
    simp [attempt, Answer.outcome, rpcError, hrpc, hrate]
  obtain ⟨n, -, ⟨r, hr, rfl⟩ | ⟨hr, -⟩⟩ := answer_cases hs
  all_goals rw [hattempt] at hr
  · cases hr
    left
    rw [record, if_neg hopen]
    exact Nat.lt_succ_self _
  · cases hr

theorem not_blames_of_application (hbad : ¬ s.NoApplicationError e)
    (hs : s.step rpcUrl e = some s') : ¬ s.Blames rpcUrl e := by
  simp only [NoApplicationError, not_forall, ne_eq, not_not] at hbad
  obtain ⟨i, err, clock, rfl⟩ := hbad
  intro hblames
  obtain ⟨_, _, _, ⟨⟩⟩ := hblames s' hs (application_worse hs)

theorem rejectsQuietly (rpcUrl : String) (s : RpcServer V) (e : RpcEvent V) :
    s.RejectsQuietly rpcUrl e := by
  rintro clock s' rfl ⟨⟩ -
  obtain ⟨call, heq⟩ := s.call_eq rpcUrl clock
  obtain ⟨hcount, hcooldown, -⟩ := s.circuit.getCircuitState_keeps clock.read
  rw [heq]
  exact ⟨rfl, hcount, hcooldown⟩

/-- A closed circuit that is not left worse off stays closed. -/
theorem closed_of_not_worse (hclosed : s.circuit.currentState = .closed) (h : ¬ s.Worse s') :
    s'.circuit.currentState = .closed := by
  by_contra hne
  refine h (.inr (.inr ⟨?_, ?_, hne⟩))
  · rw [hclosed]
    decide
  · rwa [hclosed]

/-- Where only unreachable endpoints are blamed, a reachable one keeps its circuit closed. -/
theorem closed_of_blames {log : List (RpcEvent V)}
    (hblames : EachStep (step rpcUrl) (Blames rpcUrl) {} log)
    (hreachable : ∀ i err clock, .answer i (.unreachable err) clock ∉ log) :
    Throughout (step rpcUrl) (fun s => s.circuit.currentState = .closed) {} log := by
  rintro l l' s rfl hs
  have hok : EachStep (step rpcUrl) (fun s e => s.Blames rpcUrl e ∧ e ∈ l ++ l') {} l := by
    rintro l₁ e l₂ s₁ rfl hs₁
    exact ⟨hblames l₁ e (l₂ ++ l') s₁ (by simp) hs₁, by simp⟩
  refine run_induction_of (P := fun s _ => s.circuit.currentState = .closed) rfl ?_ hok hs
  rintro s₁ _ e s₂ hclosed ⟨hb, hmem⟩ hstep
  refine closed_of_not_worse hclosed fun hworse => ?_
  obtain ⟨i, err, clock, rfl⟩ := hb s₂ hstep hworse
  exact hreachable i err clock hmem

/-- **The counters grow, and the circuit opens, only where the endpoint was unreachable**, so that a
reachable endpoint keeps its circuit closed, and a rejected call changes nothing, exactly when no
call ends with an error that the endpoint answered. -/
theorem blame_iff {log : List (RpcEvent V)} (h : run (step rpcUrl) {} log = some s) :
    EachStep (step rpcUrl) (Blames rpcUrl) {} log ∧
        ((∀ i err clock, .answer i (.unreachable err) clock ∉ log) →
          Throughout (step rpcUrl) (fun s => s.circuit.currentState = .closed) {} log) ∧
        EachStep (step rpcUrl) (RejectsQuietly rpcUrl) {} log ↔
      EachStep (step rpcUrl) NoApplicationError {} log := by
  constructor
  · rintro ⟨hblames, -, -⟩ l e l' s₁ rfl hs₁
    by_contra hbad
    rw [run_append, hs₁, Option.bind_some] at h
    obtain ⟨s₂, hs₂, -⟩ := Option.bind_eq_some_iff.mp h
    exact not_blames_of_application hbad hs₂ (hblames l e l' s₁ rfl hs₁)
  · intro hok
    have hblames : EachStep (step rpcUrl) (Blames rpcUrl) {} log := fun l e l' s₁ heq hs₁ =>
      blames_of_ok (hok l e l' s₁ heq hs₁)
    exact ⟨hblames, closed_of_blames hblames, fun _ e _ s₁ _ _ => rejectsQuietly rpcUrl s₁ e⟩

/-! Nothing is checked of a run but its answers. -/

def checkNoApplicationError (_ : RpcServer V) : RpcEvent V → Bool
  | .answer _ (.application _) _ => false
  | _ => true

def noon (ms : ℕ) : ClockReadings := ⟨.fin ms, .fin ms, .fin ms⟩

def unavailable : Thrown where
  isError := true
  name := "AxiosError"
  text := "Request failed with status code 503"
  status := some 503

/-- Five calls find the endpoint down, one is rejected, and half a minute later one is answered. -/
def downAndUp : List (RpcEvent Unit) :=
  (List.range 5).flatMap (fun i => [.call (noon i), .answer i (.unreachable unavailable) (noon i)]) ++
    [.call (noon 10), .call (noon 40000), .answer 6 (.success ()) (noon 40001)]

theorem blame_down_and_up : ∃ s, run (step "https://rpc") {} downAndUp = some s ∧
    EachStep (step "https://rpc") (Blames "https://rpc") {} downAndUp ∧
    ((∀ i err clock, .answer i (.unreachable err) clock ∉ downAndUp) →
      Throughout (step "https://rpc") (fun s => s.circuit.currentState = .closed) {} downAndUp) ∧
    EachStep (step "https://rpc") (RejectsQuietly "https://rpc") {} downAndUp := by
  have hcheck : ∀ (s : RpcServer Unit) e, checkNoApplicationError s e = true →
      s.NoApplicationError e := by
    rintro s e h i err clock rfl
    cases h
  obtain ⟨s, hs⟩ := Option.isSome_iff_exists.mp
    (by decide +kernel : (run (step "https://rpc") {} downAndUp).isSome = true)
  exact ⟨s, hs, (blame_iff hs).mpr (.of_allSteps hcheck (by decide +kernel))⟩

def accountNotFound : Thrown := errorOf "Error" "Account not found: GA"

/-- Five accounts are looked up that do not exist. -/
def fiveNotFound : List (RpcEvent Unit) :=
  (List.range 5).flatMap fun i =>
    [.call (noon i), .answer i (.application accountNotFound) (noon i)]

theorem not_found_opens : ¬ ∀ (log : List (RpcEvent Unit)) s,
    run (step "https://rpc") {} log = some s →
      EachStep (step "https://rpc") (Blames "https://rpc") {} log ∧
        ((∀ i err clock, .answer i (.unreachable err) clock ∉ log) →
          Throughout (step "https://rpc") (fun s => s.circuit.currentState = .closed) {} log) ∧
        EachStep (step "https://rpc") (RejectsQuietly "https://rpc") {} log := by
  intro h
  obtain ⟨s, hs, hopened⟩ := Option.map_eq_some_iff.mp (by decide +kernel :
    (run (step "https://rpc") {} fiveNotFound).map (fun s => s.circuit.currentState) = some .opened)
  have hclosed := (h fiveNotFound s hs).2.1 (by simp [fiveNotFound]) fiveNotFound [] s
    (List.append_nil _).symm hs
  exact absurd (hopened.symm.trans hclosed) (by decide)

end RpcServer

end StreamFi
