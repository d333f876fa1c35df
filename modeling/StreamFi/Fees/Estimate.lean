import StreamFi.Fees.Estimator
import StreamFi.Run.Pool
import StreamFi.Run.Table

/-!
# Fee estimates of an operation

`StreamsModule.estimateFee` keeps its estimates for three seconds, by the operation, and asks the fee
estimator under the same key. The simulation sets the instruction count of the call that started it; a
call that shares its promise, or finds the entry of the estimator, has a count of its own, which is `0`.

* `FeeEstimates.step`: calls and simulations, in any order;
* **`estimate_of_simulation`**: an estimate has the fee and the count of one simulation, as long as each
  call that asks the estimator starts a simulation there, which succeeds.
-/

namespace StreamFi

open Js Run

/-- What the fetcher reads of a simulation: `estimateRequiredFee(simResult)`, which is positive, and
`BigInt(simResult.cost?.cpuInsns ?? 0)`. -/
structure FeeSimulation where
  requiredFee : ℕ
  cpuInsns : ℤ
  deriving DecidableEq

structure FeeEstimate where
  totalFee : ℤ
  resourceFee : ℤ
  baseFee : ℤ
  instructions : ℤ
  deriving DecidableEq

structure EstimateEntry where
  estimate : FeeEstimate
  fetchedAt : Number
  deriving DecidableEq

/-- Where a call is suspended: at the caller's address, at the build of the transaction, at a promise of
the estimator, `own` if it started the fetch, or with the answer of the estimator. -/
inductive EstimatePhase where
  | addressing
  | building
  | awaiting (promise : ℕ) (own : Bool)
  | priced (resourceFee cpuInstructions : ℤ)
  | returned (estimate : FeeEstimate)
  | threw (err : Thrown)
  deriving DecidableEq

/-- A call for an operation, which `key` is the text of. -/
structure EstimateCall where
  key : String
  phase : EstimatePhase
  deriving DecidableEq

/-- A fetch of the estimator, by the number of its promise. -/
structure EstimateFetch where
  key : String
  pending : Bool := true
  deriving DecidableEq

/-- The fees of a `StreamsModule`; `simulations` are those that succeeded, with their operations. -/
structure FeeEstimates where
  feeEstimator : FeeEstimator := {}
  feeEstimateCache : Map String EstimateEntry := .empty
  calls : List EstimateCall := []
  fetches : List EstimateFetch := []
  simulations : List (String × FeeSimulation) := []

/-- `now` is what `Date.now()` reads; an error is what the awaited step threw. -/
inductive FeeEstimatesEvent where
  | estimateFee (opType json : String)
  | addressed (call : ℕ) (r : Except Thrown Unit) (now : Number)
  | built (call : ℕ) (r : Except Thrown Unit) (now : Number)
  | simulated (promise : ℕ) (r : Except Thrown FeeSimulation) (now : Number)
  | resume (call : ℕ) (now : Number)

namespace FeeEstimates

/-- `BigInt(BASE_FEE)`. -/
def baseFee : ℤ := 100

def setPhase (s : FeeEstimates) (i : ℕ) (call : EstimateCall) (phase : EstimatePhase) : FeeEstimates :=
  { s with calls := s.calls.set i { call with phase := phase } }

/-- The entry of the module's own cache, while it is fresh. -/
def cachedEstimate (s : FeeEstimates) (key : String) (now : Number) : Option FeeEstimate := do
  let entry ← s.feeEstimateCache.get key
  if (now.sub entry.fetchedAt).lt (.fin 3000) then some entry.estimate else none

/-- The call of the estimator. -/
def askEstimator (s : FeeEstimates) (i : ℕ) (call : EstimateCall) (now : Number) : FeeEstimates :=
  let asked := s.feeEstimator.estimateFee ⟨some call.key, none⟩ now
  let s : FeeEstimates := { s with feeEstimator := asked.2 }
  match asked.1 with
  | .fee fee => s.setPhase i call (.priced fee 0)
  | .threw err => s.setPhase i call (.threw err)
  | .shared promise => s.setPhase i call (.awaiting promise false)
  | .started promise =>
    let s : FeeEstimates := { s with fetches := s.fetches ++ [⟨call.key, true⟩] }
    s.setPhase i call (.awaiting promise true)

end FeeEstimates

/-- The promise that the call awaits has a value; its fetcher set `cpuInstructions` of the call that
started it. -/
def EstimateCall.answered (promise : ℕ) (value : Except Thrown ℤ) (cpuInstructions : ℤ)
    (call : EstimateCall) : EstimateCall :=
  match call.phase with
  | .awaiting k own =>
    if k = promise then
      { call with phase := match value with
          | .ok fee => .priced fee (if own then cpuInstructions else 0)
          | .error err => .threw err }
    else call
  | _ => call

namespace FeeEstimates

def simulated (s : FeeEstimates) (promise : ℕ) (fetch : EstimateFetch) (r : Except Thrown FeeSimulation)
    (now : Number) : FeeEstimates :=
  let settled := s.feeEstimator.settle ⟨some fetch.key, none⟩
    (r.map fun simulation => (simulation.requiredFee : ℤ)) now
  let cpuInstructions := match r with
    | .ok simulation => simulation.cpuInsns
    | .error _ => 0
  { s with
    feeEstimator := settled.2
    fetches := s.fetches.set promise { fetch with pending := false }
    simulations := s.simulations ++ r.toOption.toList.map fun simulation => (fetch.key, simulation)
    calls := s.calls.map (EstimateCall.answered promise settled.1 cpuInstructions) }

def estimateOf (resourceFee cpuInstructions : ℤ) : FeeEstimate where
  totalFee := baseFee + resourceFee
  resourceFee := resourceFee
  baseFee := baseFee
  instructions := cpuInstructions

def step (s : FeeEstimates) : FeeEstimatesEvent → Option FeeEstimates
  | .estimateFee opType json =>
    some { s with calls := s.calls ++ [⟨opType ++ ":" ++ json, .addressing⟩] }
  | .addressed i r now => match s.calls[i]?, r with
    | some ⟨key, .addressing⟩, .ok _ => match s.cachedEstimate key now with
      | some estimate => some (s.setPhase i ⟨key, .addressing⟩ (.returned estimate))
      | none => some (s.setPhase i ⟨key, .addressing⟩ .building)
    | some ⟨key, .addressing⟩, .error err => some (s.setPhase i ⟨key, .addressing⟩ (.threw err))
    | _, _ => none
  | .built i r now => match s.calls[i]?, r with
    | some ⟨key, .building⟩, .ok _ => some (s.askEstimator i ⟨key, .building⟩ now)
    | some ⟨key, .building⟩, .error err => some (s.setPhase i ⟨key, .building⟩ (.threw err))
    | _, _ => none
  | .simulated promise r now => match s.fetches[promise]? with
    | some fetch => if fetch.pending then some (s.simulated promise fetch r now) else none
    | none => none
  | .resume i now => match s.calls[i]? with
    | some ⟨key, .priced resourceFee cpuInstructions⟩ =>
      let estimate := estimateOf resourceFee cpuInstructions
      some { s.setPhase i ⟨key, .priced resourceFee cpuInstructions⟩ (.returned estimate) with
        feeEstimateCache := s.feeEstimateCache.set key ⟨estimate, now⟩ }
    | _ => none

/-- The estimator has no fresh entry and no fetch in flight for the operation of the call, and each
simulation succeeds. -/
def OwnFetch (s : FeeEstimates) : FeeEstimatesEvent → Prop
  | .built i (.ok _) now => ∀ call, s.calls[i]? = some call →
    s.feeEstimator.cached ⟨some call.key, none⟩ now = none ∧
      s.feeEstimator.currentPromises.get call.key = none
  | .simulated _ r _ => r.isOk = true
  | _ => True

/-! ## One simulation for each estimate -/

/-- The fee and the instruction count are those of one simulation of the operation. -/
def OfSimulation (simulations : List (String × FeeSimulation)) (key : String) (fee cpu : ℤ) : Prop :=
  ∃ simulation, (key, simulation) ∈ simulations ∧ fee = simulation.requiredFee ∧
    cpu = simulation.cpuInsns

theorem OfSimulation.mono {l l' : List (String × FeeSimulation)} {key : String} {fee cpu : ℤ}
    (h : OfSimulation l key fee cpu) (hl : l ⊆ l') : OfSimulation l' key fee cpu := by
  obtain ⟨simulation, hmem, hfee, hcpu⟩ := h
  exact ⟨simulation, hl hmem, hfee, hcpu⟩

/-- What holds of a call, by where it is suspended. -/
def PhaseSound (s : FeeEstimates) (key : String) : EstimatePhase → Prop
  | .awaiting promise own => own = true ∧ ∃ fetch, s.fetches[promise]? = some fetch ∧ fetch.key = key
  | .priced fee cpu => OfSimulation s.simulations key fee cpu
  | .returned estimate => OfSimulation s.simulations key estimate.resourceFee estimate.instructions
  | _ => True

structure Sound (s : FeeEstimates) : Prop where
  interval : s.feeEstimator.minRefetchIntervalMs = .fin 0
  started : s.feeEstimator.promises = s.fetches.length
  calls : ∀ call ∈ s.calls, s.PhaseSound call.key call.phase
  cache : ∀ key entry, s.feeEstimateCache.get key = some entry →
    OfSimulation s.simulations key entry.estimate.resourceFee entry.estimate.instructions

variable {s s' : FeeEstimates} {key : String} {call : EstimateCall} {phase : EstimatePhase} {i : ℕ}
  {now : Number}

theorem sound_init : Sound {} where
  interval := rfl
  started := rfl
  calls call hcall := by cases hcall
  cache key entry hentry := by cases hentry

/-- Fetches stay, and simulations are added. -/
theorem PhaseSound.mono (h : s.PhaseSound key phase)
    (hfetches : ∀ (k : ℕ) fetch, s.fetches[k]? = some fetch →
      ∃ fetch', s'.fetches[k]? = some fetch' ∧ fetch'.key = fetch.key)
    (hsimulations : s.simulations ⊆ s'.simulations) : s'.PhaseSound key phase := by
  cases phase with
  | awaiting promise own =>
    obtain ⟨hown, fetch, hfetch, hkey⟩ := h
    obtain ⟨fetch', hfetch', hkey'⟩ := hfetches promise fetch hfetch
    exact ⟨hown, fetch', hfetch', hkey'.trans hkey⟩
  | priced fee cpu => exact OfSimulation.mono h hsimulations
  | returned estimate => exact OfSimulation.mono h hsimulations
  | addressing | building | threw err => trivial

theorem Sound.setPhase (h : Sound s) (hphase : s.PhaseSound call.key phase) :
    Sound (s.setPhase i call phase) where
  interval := h.interval
  started := h.started
  calls call' hcall' := by
    rcases List.mem_or_eq_of_mem_set hcall' with hold | rfl
    · exact h.calls call' hold
    · exact hphase
  cache := h.cache

theorem Sound.cachedEstimate (h : Sound s) {estimate : FeeEstimate}
    (hcached : s.cachedEstimate key now = some estimate) :
    OfSimulation s.simulations key estimate.resourceFee estimate.instructions := by
  obtain ⟨entry, hentry, hfresh⟩ := Option.bind_eq_some_iff.mp hcached
  obtain ⟨-, heq⟩ := Option.ite_none_right_eq_some.mp hfresh
  rw [← Option.some.inj heq]
  exact h.cache key entry hentry

/-- **A call that starts its own fetch.** -/
theorem Sound.askEstimator (h : Sound s)
    (hnone : s.feeEstimator.cached ⟨some call.key, none⟩ now = none)
    (hidle : s.feeEstimator.currentPromises.get call.key = none) :
    Sound (s.askEstimator i call now) := by
  have hthrottled : s.feeEstimator.throttled now = false := by
    rw [FeeEstimator.throttled, h.interval]
    rfl
  have hstarted : s.feeEstimator.estimateFee ⟨some call.key, none⟩ now =
      (.started s.feeEstimator.promises, { s.feeEstimator with
        promises := s.feeEstimator.promises + 1
        currentPromises := s.feeEstimator.currentPromises.set call.key s.feeEstimator.promises }) := by
    have hkey : FeeEstimateOptions.promiseKey ⟨some call.key, none⟩ = call.key := rfl
    simp only [FeeEstimator.estimateFee, hnone, hkey, hidle, hthrottled, Bool.false_eq_true, if_false]
  simp only [FeeEstimates.askEstimator, hstarted]
  refine Sound.setPhase (s := { s with feeEstimator := _, fetches := _ }) ?_ ?_
  · refine ⟨h.interval, by simp [h.started], ?_, h.cache⟩
    intro call' hcall'
    refine (h.calls call' hcall').mono ?_ fun _ => id
    intro k fetch hfetch
    exact ⟨fetch, add_iff.mpr (.inl hfetch), rfl⟩
  · refine ⟨rfl, ⟨call.key, true⟩, ?_, rfl⟩
    rw [h.started]
    exact List.getElem?_concat_length

/-- **A simulation that succeeds** answers the call that started it. -/
theorem Sound.simulated (h : Sound s) {k : ℕ} {fetch : EstimateFetch}
    (hfetch : s.fetches[k]? = some fetch) (simulation : FeeSimulation) :
    Sound (s.simulated k fetch (.ok simulation) now) := by
  have hvalid : FeeEstimator.validFee
      ((Except.ok simulation : Except Thrown FeeSimulation).map fun x => (x.requiredFee : ℤ)) =
        .ok (simulation.requiredFee : ℤ) := by
    simp [FeeEstimator.validFee, Except.map, Except.bind]
  have hsettle : ∃ estimator, s.feeEstimator.settle ⟨some fetch.key, none⟩
      ((Except.ok simulation : Except Thrown FeeSimulation).map fun x => (x.requiredFee : ℤ)) now =
        (.ok (simulation.requiredFee : ℤ), estimator) ∧
      estimator.minRefetchIntervalMs = s.feeEstimator.minRefetchIntervalMs ∧
      estimator.promises = s.feeEstimator.promises := by
    simp only [FeeEstimator.settle, hvalid]
    exact ⟨_, rfl, rfl, rfl⟩
  obtain ⟨estimator, hsettle, hinterval, hpromises⟩ := hsettle
  have hsub : s.simulations ⊆ s.simulations ++ [(fetch.key, simulation)] :=
    List.subset_append_left _ _
  have hkept : ∀ (j : ℕ) fetch', s.fetches[j]? = some fetch' →
      ∃ fetch'', (s.fetches.set k { fetch with pending := false })[j]? = some fetch'' ∧
        fetch''.key = fetch'.key := by
    intro j fetch' hj
    exact kept_put hfetch rfl hj
  simp only [FeeEstimates.simulated, hsettle]
  refine ⟨hinterval.trans h.interval, ?_, ?_, fun key entry hentry => (h.cache key entry hentry).mono hsub⟩
  · rw [List.length_set]
    exact hpromises.trans h.started
  · intro call' hcall'
    obtain ⟨call, hcall, rfl⟩ := List.mem_map.mp hcall'
    have hsound := h.calls call hcall
    obtain ⟨key, phase⟩ := call
    cases phase with
    | awaiting promise own =>
      obtain ⟨rfl, fetch', hfetch', hkey⟩ := hsound
      simp only [EstimateCall.answered]
      split_ifs with hpromise
      · subst hpromise
        cases hfetch.symm.trans hfetch'
        exact ⟨simulation, List.mem_append_right _ (by rw [← hkey]; exact List.mem_singleton_self _),
          rfl, rfl⟩
      · exact PhaseSound.mono (s := s) ⟨rfl, fetch', hfetch', hkey⟩ hkept hsub
    | addressing | building | priced fee cpu | returned estimate | threw err =>
      exact PhaseSound.mono hsound hkept hsub

theorem Sound.step {e : FeeEstimatesEvent} (h : Sound s) (hok : OwnFetch s e)
    (hs : s.step e = some s') : Sound s' := by
  cases e with
  | estimateFee opType json =>
    cases hs
    refine ⟨h.interval, h.started, ?_, h.cache⟩
    intro call hcall
    rcases List.mem_append.mp hcall with hold | hnew
    · exact h.calls call hold
    · rw [List.mem_singleton.mp hnew]
      trivial
  | addressed i r now =>
    simp only [FeeEstimates.step] at hs
    split at hs
    · split at hs
      · cases hs
        exact h.setPhase (h.cachedEstimate ‹_›)
      · cases hs
        exact h.setPhase trivial
    · cases hs
      exact h.setPhase trivial
    · cases hs
  | built i r now =>
    simp only [FeeEstimates.step] at hs
    split at hs
    · next hcall =>
      cases hs
      obtain ⟨hnone, hidle⟩ := hok _ hcall
      exact h.askEstimator hnone hidle
    · cases hs
      exact h.setPhase trivial
    · cases hs
  | simulated promise r now =>
    simp only [FeeEstimates.step] at hs
    split at hs
    · obtain ⟨-, hs⟩ := Option.ite_none_right_eq_some.mp hs
      cases hs
      obtain ⟨simulation, rfl⟩ := ok_of_isOk hok
      exact h.simulated ‹_› simulation
    · cases hs
  | resume i now =>
    simp only [FeeEstimates.step] at hs
    split at hs
    · next key fee cpu hcall =>
      cases hs
      have hsound : OfSimulation s.simulations key fee cpu := h.calls _ (List.mem_of_getElem? hcall)
      have hset : Sound (s.setPhase i ⟨key, .priced fee cpu⟩ (.returned (estimateOf fee cpu))) :=
        h.setPhase hsound
      refine ⟨hset.interval, hset.started, hset.calls, ?_⟩
      intro key' entry hentry
      rw [Map.get_set] at hentry
      split_ifs at hentry with hkey
      · cases hentry
        rw [hkey]
        exact hsound
      · exact h.cache key' entry hentry
    · cases hs

/-- **In every run where each call that asks the estimator starts a fetch of its own**, and simulations
succeed, an estimate has the fee and the instruction count of one simulation of its operation. -/
theorem estimate_of_simulation {log : List FeeEstimatesEvent} (hlog : EachStep step OwnFetch {} log)
    (hs : run step {} log = some s) :
    ∀ call ∈ s.calls, ∀ estimate, call.phase = .returned estimate →
      OfSimulation s.simulations call.key estimate.resourceFee estimate.instructions := by
  have hsound := run_induction_of (P := fun s _ => Sound s) sound_init
    (fun _ _ _ _ h hok hs => h.step hok hs) hlog hs
  intro call hcall estimate hphase
  have hcalls := hsound.calls call hcall
  rwa [hphase] at hcalls

def checkOwn (s : FeeEstimates) : FeeEstimatesEvent → Bool
  | .built i (.ok _) now => match s.calls[i]? with
    | some call => (s.feeEstimator.cached ⟨some call.key, none⟩ now).isNone &&
        (s.feeEstimator.currentPromises.get call.key).isNone
    | none => true
  | .simulated _ r _ => r.isOk
  | _ => true

theorem ownFetch_of_check {e : FeeEstimatesEvent} (h : checkOwn s e = true) : OwnFetch s e := by
  cases e with
  | built i r now =>
    cases r with
    | error err => trivial
    | ok u =>
      intro call hcall
      simp only [checkOwn, hcall, Bool.and_eq_true, Option.isNone_iff_eq_none] at h
      exact h
  | simulated promise r now => exact h
  | estimateFee opType json | addressed i r now | resume i now => trivial

/-- A call that simulates, and one that finds its estimate in the cache of the module. -/
def simulatedOnce : List FeeEstimatesEvent :=
  [.estimateFee "pause" "{}", .addressed 0 (.ok ()) (.fin 1000000), .built 0 (.ok ()) (.fin 1000001),
    .simulated 0 (.ok ⟨500, 77⟩) (.fin 1000002), .resume 0 (.fin 1000003),
    .estimateFee "pause" "{}", .addressed 1 (.ok ()) (.fin 1000004)]

theorem estimate_of_simulation_two :
    ∃ s, run step {} simulatedOnce = some s ∧
      s.calls.map EstimateCall.phase = [.returned ⟨600, 500, 100, 77⟩, .returned ⟨600, 500, 100, 77⟩] ∧
      ∀ call ∈ s.calls, ∀ estimate, call.phase = .returned estimate →
        OfSimulation s.simulations call.key estimate.resourceFee estimate.instructions := by
  obtain ⟨s, hs, hend⟩ := (Option.any_eq_true _ _).mp (by decide +kernel :
    (run step {} simulatedOnce).any fun s => s.calls.map EstimateCall.phase =
      [.returned ⟨600, 500, 100, 77⟩, .returned ⟨600, 500, 100, 77⟩])
  exact ⟨s, hs, of_decide_eq_true hend,
    estimate_of_simulation (.of_allSteps (fun _ _ => ownFetch_of_check) (by decide +kernel)) hs⟩

/-- Two calls that reach the estimator one after the other, before the first has its estimate. -/
def overlapping (second : List FeeEstimatesEvent) : List FeeEstimatesEvent :=
  [.estimateFee "pause" "{}", .estimateFee "pause" "{}", .addressed 0 (.ok ()) (.fin 1000000),
    .addressed 1 (.ok ()) (.fin 1000000), .built 0 (.ok ()) (.fin 1000001)] ++ second

/-- **A call that shares a fetch in flight returns 0 instructions**, and so does the next one, from the
cache of the module; a call that finds the entry of the estimator does too. -/
theorem zero_instructions :
    (∃ s, run step {} (overlapping [.built 1 (.ok ()) (.fin 1000001),
        .simulated 0 (.ok ⟨500, 77⟩) (.fin 1000002), .resume 0 (.fin 1000003), .resume 1 (.fin 1000003),
        .estimateFee "pause" "{}", .addressed 2 (.ok ()) (.fin 1000004)]) = some s ∧
      s.calls.map EstimateCall.phase = [.returned ⟨600, 500, 100, 77⟩, .returned ⟨600, 500, 100, 0⟩,
        .returned ⟨600, 500, 100, 0⟩] ∧ ∀ key, ¬ OfSimulation s.simulations key 500 0) ∧
    ∃ s, run step {} (overlapping [.simulated 0 (.ok ⟨500, 77⟩) (.fin 1000002),
        .built 1 (.ok ()) (.fin 1000003), .resume 0 (.fin 1000003), .resume 1 (.fin 1000003)]) = some s ∧
      s.calls.map EstimateCall.phase = [.returned ⟨600, 500, 100, 77⟩, .returned ⟨600, 500, 100, 0⟩] ∧
        ∀ key, ¬ OfSimulation s.simulations key 500 0 := by
  have hnone (key : String) : ¬ OfSimulation [("pause:{}", ⟨500, 77⟩)] key 500 0 := by
    rintro ⟨simulation, hmem, -, hcpu⟩
    cases List.mem_singleton.mp hmem
    cases hcpu
  constructor
  · obtain ⟨s, hs, hend⟩ := (Option.any_eq_true _ _).mp (by decide +kernel :
      (run step {} (overlapping [.built 1 (.ok ()) (.fin 1000001),
        .simulated 0 (.ok ⟨500, 77⟩) (.fin 1000002), .resume 0 (.fin 1000003), .resume 1 (.fin 1000003),
        .estimateFee "pause" "{}", .addressed 2 (.ok ()) (.fin 1000004)])).any fun s =>
          s.calls.map EstimateCall.phase = [.returned ⟨600, 500, 100, 77⟩, .returned ⟨600, 500, 100, 0⟩,
            .returned ⟨600, 500, 100, 0⟩] ∧ s.simulations = [("pause:{}", ⟨500, 77⟩)])
    obtain ⟨hcalls, hsimulations⟩ := of_decide_eq_true hend
    refine ⟨s, hs, hcalls, ?_⟩
    rw [hsimulations]
    exact hnone
  · obtain ⟨s, hs, hend⟩ := (Option.any_eq_true _ _).mp (by decide +kernel :
      (run step {} (overlapping [.simulated 0 (.ok ⟨500, 77⟩) (.fin 1000002),
        .built 1 (.ok ()) (.fin 1000003), .resume 0 (.fin 1000003), .resume 1 (.fin 1000003)])).any
          fun s => s.calls.map EstimateCall.phase =
            [.returned ⟨600, 500, 100, 77⟩, .returned ⟨600, 500, 100, 0⟩] ∧
              s.simulations = [("pause:{}", ⟨500, 77⟩)])
    obtain ⟨hcalls, hsimulations⟩ := of_decide_eq_true hend
    refine ⟨s, hs, hcalls, ?_⟩
    rw [hsimulations]
    exact hnone

end FeeEstimates

end StreamFi
