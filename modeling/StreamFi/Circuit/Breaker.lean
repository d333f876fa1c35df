import StreamFi.Circuit.State
import StreamFi.Errors
import StreamFi.Run.Table

/-!
# The circuit breaker

`RpcCircuitBreaker.execute` runs a call under the circuit of its scope. The state is looked at when
the call starts, and an outcome is recorded when it ends; nothing is kept in between.

* `Executions.execute`, `Executions.settle`: the code before and after the `await`;
* `Circuit.periods`: the half-open periods so far, with **`halfOpen_of_periods_eq`**;
* **`single_probe_iff`**: a half-open circuit lets a single probe through exactly when no call comes
  while the probe is in flight.
-/

namespace StreamFi

open Js Run

/-! ## The code -/

def rpcTimeoutError (scope : String) (timeoutMs : Number) : Thrown :=
  errorOf "RpcTimeoutError" s!"RPC {scope} timed out after {numToText timeoutMs}ms"

structure RpcCircuitBreakerOptions where
  failureThreshold : Option Number := none
  cooldownMs : Option Number := none

/-- `DEFAULT_TIMEOUT_THRESHOLD`. -/
def defaultTimeoutThreshold : Number := .fin 3

/-- `DEFAULT_TIMEOUT_COOLDOWN_MS`. -/
def defaultTimeoutCooldownMs : Number := .fin 30000

structure RpcCircuitBreaker where
  scope : String
  threshold : Number
  cooldownMs : Number

/-- What `Promise.race` ends with. -/
inductive Race (V : Type) where
  | fn (r : Except Thrown V)
  | timer

namespace Circuit

/-- How often the circuit was half-opened. -/
def periods (c : Circuit) : ℕ := c.transitions.countP fun t => t.2 = .halfOpen

/-- The half-open period that the circuit is in. -/
def period (c : Circuit) : Option ℕ := if c.currentState = .halfOpen then some c.periods else none

end Circuit

namespace RpcCircuitBreaker

/-- `new RpcCircuitBreaker(scope, options)`. -/
def new (scope : String) (options : RpcCircuitBreakerOptions) : RpcCircuitBreaker where
  scope := scope
  threshold := options.failureThreshold.getD defaultTimeoutThreshold
  cooldownMs := options.cooldownMs.getD defaultTimeoutCooldownMs

variable {V : Type}

/-- What is recorded of an outcome: only a timeout is a failure. -/
def record (b : RpcCircuitBreaker) (c : Circuit) (clock : ClockReadings) :
    Except Thrown V → Circuit
  | .ok _ => c.recordSuccess clock
  | .error err =>
    if err.name = "RpcTimeoutError" then
      c.recordFailure { threshold := some b.threshold, cooldownMs := some b.cooldownMs } clock
    else c.recordSuccess clock

def circuitOpen (b : RpcCircuitBreaker) : Except Thrown V :=
  throwNew s!"RPC circuit open for {b.scope}"

end RpcCircuitBreaker

/-- A call of `execute`, with the half-open period it was let through in, and its result once it has
settled. -/
structure Execution (V : Type) where
  breaker : RpcCircuitBreaker
  timeoutMs : Number
  period : Option ℕ
  result : Option (Except Thrown V) := none

/-- The calls on one scope. -/
structure Executions (V : Type) where
  circuit : Circuit := {}
  calls : List (Execution V) := []

/-- `record` is what else is recorded or read of the scope. -/
inductive ExecuteEvent (V : Type) where
  | execute (breaker : RpcCircuitBreaker) (timeoutMs : Number) (now : Number)
  | settle (call : ℕ) (race : Race V) (clock : ClockReadings)
  | record (call : Circuit.Call) (clock : ClockReadings)

def Execution.raced {V : Type} (call : Execution V) : Race V → Except Thrown V
  | .fn r => r
  | .timer => .error (rpcTimeoutError call.breaker.scope call.timeoutMs)

namespace Executions

variable {V : Type}

/-- `execute`, up to its `await`. -/
def execute (s : Executions V) (breaker : RpcCircuitBreaker) (timeoutMs now : Number) :
    Executions V :=
  let (circuit, status) := s.circuit.getCircuitState now
  let call : Execution V :=
    if status.state = .opened then
      { breaker := breaker, timeoutMs := timeoutMs, period := none
        result := some breaker.circuitOpen }
    else { breaker := breaker, timeoutMs := timeoutMs, period := circuit.period }
  { circuit := circuit, calls := s.calls ++ [call] }

/-- `execute`, after its `await`. -/
def settle (s : Executions V) (i : ℕ) (race : Race V) (clock : ClockReadings) :
    Option (Executions V) := do
  let call ← s.calls[i]?
  if call.result.isSome then none
  else some {
    circuit := call.breaker.record s.circuit clock (call.raced race)
    calls := s.calls.set i { call with result := some (call.raced race) } }

def step (scope : String) (s : Executions V) : ExecuteEvent V → Option (Executions V)
  | .execute breaker timeoutMs now =>
    if breaker.scope = scope then some (s.execute breaker timeoutMs now) else none
  | .settle i race clock => s.settle i race clock
  | .record call clock => some { s with circuit := s.circuit.call clock call }

end Executions

/-! ## Half-open periods -/

namespace Circuit

variable {c c' : Circuit}

theorem periods_le_of_prefix (h : c.transitions <+: c'.transitions) : c.periods ≤ c'.periods := by
  obtain ⟨ts, hts⟩ := h
  rw [periods, periods, ← hts, List.countP_append]
  exact Nat.le_add_right _ _

theorem periods_le_getCircuitState (c : Circuit) (now : Number) :
    c.periods ≤ (c.getCircuitState now).1.periods :=
  periods_le_of_prefix (c.prefix_getCircuitState now)

theorem periods_le_call (c : Circuit) (clock : ClockReadings) (call : Call) :
    c.periods ≤ (c.call clock call).periods :=
  periods_le_of_prefix (c.prefix_call (call, clock))

/-- An outcome is recorded by a call of `recordSuccess` or `recordFailure`. -/
theorem record_eq_call {V : Type} (b : RpcCircuitBreaker) (c : Circuit) (clock : ClockReadings)
    (r : Except Thrown V) : ∃ call, b.record c clock r = c.call clock call := by
  cases r with
  | ok v => exact ⟨.recordSuccess, rfl⟩
  | error err =>
    rw [RpcCircuitBreaker.record]
    split_ifs
    · exact ⟨.recordFailure _, rfl⟩
    · exact ⟨.recordSuccess, rfl⟩

theorem periods_getCircuitState (c : Circuit) (now : Number) :
    (c.getCircuitState now).1 = c ∨ c.periods < (c.getCircuitState now).1.periods := by
  rcases c.getCircuitState_cases now with h | ⟨_, -, -, -, -, ht, -⟩
  · exact .inl (by rw [h])
  · refine .inr ?_
    rw [periods, periods, ht, List.countP_append]
    simp

/-- **A half-open period has a number of its own**: a call that counts no new period and ends
half-open found the circuit half-open. -/
theorem halfOpen_of_periods_eq {clock : ClockReadings} {call : Call}
    (hperiods : (c.call clock call).periods = c.periods)
    (hafter : (c.call clock call).currentState = .halfOpen) : c.currentState = .halfOpen := by
  cases call with
  | getCircuitState =>
    have hstay := (c.periods_getCircuitState clock.read).resolve_right hperiods.not_gt
    rwa [show c.call clock .getCircuitState = c from hstay] at hafter
  | recordSuccess =>
    rw [show c.call clock .recordSuccess = c.recordSuccess clock from rfl,
      currentState_recordSuccess] at hafter
    cases hafter
  | resetCircuit =>
    rw [show c.call clock .resetCircuit = c.resetCircuit clock from rfl,
      currentState_resetCircuit] at hafter
    cases hafter
  | recordFailure options =>
    obtain ⟨-, hcases⟩ := c.failing_state options clock
    change (c.recordFailure options clock).currentState = .halfOpen at hafter
    change (c.recordFailure options clock).periods = c.periods at hperiods
    rw [recordFailure_eq] at hafter hperiods
    simp only at hafter hperiods
    rcases hcases with ⟨hsame, hne⟩ | ⟨hopened, hne⟩
    · rw [if_pos hsame, currentState_setEntry, hsame] at hafter
      exact absurd hafter hne
    · have hdiffers : (c.failing options clock).2.state ≠ (c.readBy clock).currentState := by
        rw [hopened]
        exact hne.symm
      rw [if_neg hdiffers] at hafter hperiods
      set c₂ : Circuit := { c.readBy clock with entry := some (c.failing options clock).2 } with hc₂
      have hnotified : (c₂.notifyState clock.reread).currentState = .halfOpen := by
        split_ifs at hafter <;> rwa [currentState_emitTransition] at hafter
      by_cases hover :
          cooldownOver (c.failing options clock).2.cooldownUntil clock.reread = true
      · -- the notification has half-opened the circuit, which counts
        obtain ⟨ht, -⟩ := notifyState_of_over (c := c₂) rfl hopened hover
        have hread : c.periods ≤ (c.readBy clock).periods :=
          c.withEntry.periods_le_getCircuitState clock.read
        have hnew : (c.readBy clock).periods < (c₂.notifyState clock.reread).periods := by
          rw [periods, periods, ht, List.countP_append]
          simp [hc₂]
        have htold : (c₂.notifyState clock.reread).periods ≤ c.periods := by
          rw [← hperiods]
          split_ifs <;> exact periods_le_of_prefix (prefix_emitTransition _ _ _)
        omega
      · rw [Bool.not_eq_true] at hover
        obtain ⟨-, hentry⟩ := notifyState_of_not_over (c := c₂) rfl (.inr hover)
        rw [currentState, hentry, hc₂] at hnotified
        rw [show (c.failing options clock).2.state = .halfOpen from hnotified] at hopened
        cases hopened

end Circuit

/-! ## The probe -/

namespace Executions

variable {V : Type} {s s' : Executions V} {scope : String}

/-- The calls in flight that were let through in a half-open period. -/
def inFlight (calls : List (Execution V)) (period : ℕ) : ℕ :=
  calls.countP fun call => call.result.isNone && call.period == some period

/-- While the circuit is half-open, at most one call let through in this period is in flight. -/
def SingleProbe (s : Executions V) : Prop :=
  s.circuit.currentState = .halfOpen → inFlight s.calls s.circuit.periods ≤ 1

/-- A call that looks at the circuit now finds it half-open, with a probe in flight. -/
def ProbeOut (s : Executions V) (now : Number) : Prop :=
  (s.circuit.getCircuitState now).1.currentState = .halfOpen ∧
    0 < inFlight s.calls (s.circuit.getCircuitState now).1.periods

/-- A call that comes while the probe is in flight is rejected. -/
def RejectsOthers (s : Executions V) (e : ExecuteEvent V) : Prop :=
  ∀ breaker timeoutMs now, e = .execute breaker timeoutMs now → s.ProbeOut now →
    ∀ call, (s.execute breaker timeoutMs now).calls.getLast? = some call →
      call.result = some breaker.circuitOpen

/-- No call comes while the probe is in flight. -/
def NoOthers (s : Executions V) (e : ExecuteEvent V) : Prop :=
  ∀ breaker timeoutMs now, e = .execute breaker timeoutMs now → ¬ s.ProbeOut now

structure Inv (s : Executions V) : Prop where
  started : ∀ call ∈ s.calls, ∀ p, call.period = some p → p ≤ s.circuit.periods
  single : inFlight s.calls s.circuit.periods ≤ 1

theorem inv_empty : Inv ({} : Executions V) :=
  ⟨by rintro call ⟨⟩, Nat.zero_le _⟩

/-- No call was let through in a period to come. -/
theorem Inv.inFlight_eq_zero (h : s.Inv) {p : ℕ} (hp : s.circuit.periods < p) :
    inFlight s.calls p = 0 := by
  rw [inFlight, List.countP_eq_zero]
  intro call hcall hcond
  rw [Bool.and_eq_true, beq_iff_eq] at hcond
  have := h.started call hcall p hcond.2
  omega

/-- The circuit may go on, and calls may end. -/
theorem Inv.move (h : s.Inv) (hperiods : s.circuit.periods ≤ s'.circuit.periods)
    (hcalls : ∀ call ∈ s'.calls, ∃ call₀ ∈ s.calls, call.period = call₀.period)
    (hcount : ∀ p, inFlight s'.calls p ≤ inFlight s.calls p) : s'.Inv := by
  refine ⟨?_, ?_⟩
  · intro call hcall p hp
    obtain ⟨call₀, hcall₀, heq⟩ := hcalls call hcall
    exact (h.started call₀ hcall₀ p (by rw [← heq, hp])).trans hperiods
  · refine (hcount _).trans ?_
    by_cases hlt : s.circuit.periods < s'.circuit.periods
    · rw [h.inFlight_eq_zero hlt]
      exact Nat.zero_le 1
    · rw [show s'.circuit.periods = s.circuit.periods by omega]
      exact h.single

theorem Inv.settle (h : s.Inv) {i : ℕ} {race : Race V} {clock : ClockReadings}
    (hs : s.settle i race clock = some s') : s'.Inv := by
  simp only [Executions.settle, Option.bind_eq_bind, Option.bind_eq_some_iff] at hs
  obtain ⟨call, hcall, hs⟩ := hs
  split_ifs at hs
  cases hs
  obtain ⟨c, hc⟩ := Circuit.record_eq_call call.breaker s.circuit clock (call.raced race)
  refine h.move ?_ ?_ ?_
  · rw [hc]
    exact s.circuit.periods_le_call clock c
  · intro call' hcall'
    rcases List.mem_or_eq_of_mem_set hcall' with hmem | rfl
    · exact ⟨call', hmem, rfl⟩
    · exact ⟨call, List.mem_of_getElem? hcall, rfl⟩
  · intro p
    rw [inFlight, List.countP_set (lt_of_entry hcall)]
    exact Nat.sub_le _ _

theorem inFlight_concat (calls : List (Execution V)) (call : Execution V) (p : ℕ) :
    inFlight (calls ++ [call]) p =
      inFlight calls p + if call.result.isNone && call.period == some p then 1 else 0 := by
  rw [inFlight, List.countP_append, List.countP_singleton, ← inFlight]

/-- A call is rejected, or let through in the period it finds. -/
theorem execute_cases (s : Executions V) (breaker : RpcCircuitBreaker) (timeoutMs now : Number) :
    ∃ call : Execution V, s.execute breaker timeoutMs now =
        { circuit := (s.circuit.getCircuitState now).1, calls := s.calls ++ [call] } ∧
      ((s.circuit.getCircuitState now).1.currentState = .opened ∧ call.period = none ∧
          call.result = some breaker.circuitOpen ∨
        (s.circuit.getCircuitState now).1.currentState ≠ .opened ∧
          call.period = (s.circuit.getCircuitState now).1.period ∧ call.result = none) := by
  have hstate := s.circuit.getCircuitState_state now
  by_cases h : (s.circuit.getCircuitState now).1.currentState = .opened
  · rw [h] at hstate
    refine ⟨.mk breaker timeoutMs none (some breaker.circuitOpen), ?_, .inl ⟨h, rfl, rfl⟩⟩
    simp only [execute, if_pos hstate]
  · refine ⟨.mk breaker timeoutMs (s.circuit.getCircuitState now).1.period none, ?_,
      .inr ⟨h, rfl, rfl⟩⟩
    simp only [execute, hstate, if_neg h]

theorem Inv.concat (h : s.Inv) {call : Execution V}
    (hcall : ∀ p, call.period = some p → p = s.circuit.periods ∧ inFlight s.calls p = 0) :
    Inv { s with calls := s.calls ++ [call] } := by
  refine ⟨?_, ?_⟩
  · intro call' hmem p hp
    rcases List.mem_append.mp hmem with hmem | hmem
    · exact h.started call' hmem p hp
    · rw [List.mem_singleton.mp hmem] at hp
      exact (hcall p hp).1.le
  · show inFlight (s.calls ++ [call]) s.circuit.periods ≤ 1
    rw [inFlight_concat]
    split_ifs with hcond
    · rw [Bool.and_eq_true, beq_iff_eq] at hcond
      rw [(hcall _ hcond.2).2]
    · exact h.single

theorem Inv.execute (h : s.Inv) {breaker : RpcCircuitBreaker} {timeoutMs now : Number}
    (hok : ¬ s.ProbeOut now) : (s.execute breaker timeoutMs now).Inv := by
  obtain ⟨call, heq, hcall⟩ := s.execute_cases breaker timeoutMs now
  have hread : Inv { s with circuit := (s.circuit.getCircuitState now).1 } :=
    h.move (s.circuit.periods_le_getCircuitState now) (fun c hc => ⟨c, hc, rfl⟩) fun _ => le_rfl
  rw [heq]
  refine hread.concat ?_
  intro p hp
  rcases hcall with ⟨-, hperiod, -⟩ | ⟨-, hperiod, -⟩
  · rw [hperiod] at hp
    cases hp
  · rw [hperiod, Circuit.period] at hp
    split_ifs at hp with hhalf
    cases hp
    exact ⟨rfl, Nat.eq_zero_of_not_pos fun hpos => hok ⟨hhalf, hpos⟩⟩

/-- A call that comes while the probe is in flight is let through. -/
theorem execute_breaks (breaker : RpcCircuitBreaker) (timeoutMs : Number) {now : Number}
    (hbad : s.ProbeOut now) : ¬ (s.execute breaker timeoutMs now).SingleProbe := by
  obtain ⟨hhalf, hpos⟩ := hbad
  obtain ⟨call, heq, ⟨hopened, -⟩ | ⟨-, hperiod, hresult⟩⟩ := s.execute_cases breaker timeoutMs now
  · rw [hhalf] at hopened
    cases hopened
  · rw [Circuit.period, if_pos hhalf] at hperiod
    rw [heq]
    intro hsingle
    have := hsingle hhalf
    simp only [inFlight_concat, hperiod, hresult, Option.isNone_none, beq_self_eq_true,
      Bool.and_self, if_true] at this
    omega

theorem Inv.step (h : s.Inv) {e : ExecuteEvent V} (hok : s.NoOthers e)
    (hs : s.step scope e = some s') : s'.Inv := by
  cases e with
  | execute breaker timeoutMs now =>
    rw [Executions.step] at hs
    split_ifs at hs
    cases hs
    exact h.execute (hok breaker timeoutMs now rfl)
  | settle i race clock => exact h.settle hs
  | record call clock =>
    cases hs
    exact h.move (s.circuit.periods_le_call clock call) (fun c hc => ⟨c, hc, rfl⟩) fun _ => le_rfl

theorem step_breaks {e : ExecuteEvent V} (hbad : ¬ s.NoOthers e) (hs : s.step scope e = some s') :
    ¬ s'.SingleProbe := by
  simp only [NoOthers, not_forall, not_not] at hbad
  obtain ⟨breaker, timeoutMs, now, rfl, hout⟩ := hbad
  rw [step] at hs
  split_ifs at hs
  cases hs
  exact execute_breaks breaker timeoutMs hout

/-- **A half-open circuit lets a single probe through**, and rejects all other calls until it has
settled, exactly when no call comes while the probe is in flight. -/
theorem single_probe_iff {log : List (ExecuteEvent V)} (h : run (step scope) {} log = some s) :
    Throughout (step scope) SingleProbe {} log ∧ EachStep (step scope) RejectsOthers {} log ↔
      EachStep (step scope) NoOthers {} log := by
  have hiff := throughout_iff_eachStep (I := Inv) (S := SingleProbe) (fun _ hs _ => hs.single)
    inv_empty (fun _ _ _ hI hok hs => hI.step hok hs) (fun _ _ _ _ hbad hs => step_breaks hbad hs) h
  constructor
  · intro hsingle
    exact hiff.mp hsingle.1
  · intro hok
    refine ⟨hiff.mpr hok, ?_⟩
    intro l e l' s' hlog hs' breaker timeoutMs now he hout
    exact absurd hout (hok l e l' s' hlog hs' breaker timeoutMs now he)

instance (s : Executions V) (now : Number) : Decidable (s.ProbeOut now) := by
  unfold ProbeOut
  infer_instance

def checkNoOthers (s : Executions V) : ExecuteEvent V → Bool
  | .execute _ _ now => !decide (s.ProbeOut now)
  | _ => true

def testBreaker : RpcCircuitBreaker :=
  .new "https://rpc" { failureThreshold := some (.fin 1), cooldownMs := some (.fin 30000) }

/-- A call times out, and half a minute later a probe is answered. -/
def probeAnswered : List (ExecuteEvent Unit) :=
  [.execute testBreaker (.fin 5000) (.fin 1000),
    .settle 0 .timer ⟨.fin 6000, .fin 6000, .fin 6000⟩,
    .execute testBreaker (.fin 5000) (.fin 36000),
    .settle 1 (.fn (.ok ())) ⟨.fin 36500, .fin 36500, .fin 36500⟩]

theorem single_probe_answered : ∃ s, run (step "https://rpc") {} probeAnswered = some s ∧
    Throughout (step "https://rpc") SingleProbe {} probeAnswered ∧
    EachStep (step "https://rpc") RejectsOthers {} probeAnswered := by
  have hcheck : ∀ (s : Executions Unit) e, checkNoOthers s e = true → s.NoOthers e := by
    rintro s e h breaker timeoutMs now rfl
    rwa [checkNoOthers, Bool.not_eq_true', decide_eq_false_iff_not] at h
  obtain ⟨s, hs⟩ := Option.isSome_iff_exists.mp
    (by decide +kernel : (run (step "https://rpc") {} probeAnswered).isSome = true)
  exact ⟨s, hs, (single_probe_iff hs).mpr (.of_allSteps hcheck (by decide +kernel))⟩

/-- Two calls come once the cooldown is over. -/
def twoProbes : List (ExecuteEvent Unit) :=
  [.execute testBreaker (.fin 5000) (.fin 1000),
    .settle 0 .timer ⟨.fin 6000, .fin 6000, .fin 6000⟩,
    .execute testBreaker (.fin 5000) (.fin 36000),
    .execute testBreaker (.fin 5000) (.fin 36000)]

theorem two_probes_in_flight : ¬ ∀ (log : List (ExecuteEvent Unit)) s,
    run (step "https://rpc") {} log = some s →
      Throughout (step "https://rpc") SingleProbe {} log ∧
        EachStep (step "https://rpc") RejectsOthers {} log := by
  intro h
  obtain ⟨s, hs, hprobes⟩ := Option.map_eq_some_iff.mp (by decide +kernel :
    (run (step "https://rpc") {} twoProbes).map (fun s =>
      (s.circuit.currentState, inFlight s.calls s.circuit.periods)) = some (.halfOpen, 2))
  rw [Prod.mk.injEq] at hprobes
  have := (h twoProbes s hs).1 twoProbes [] s (List.append_nil _).symm hs hprobes.1
  omega

end Executions

end StreamFi
