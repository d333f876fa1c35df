import StreamFi.Js.Value
import StreamFi.Run.Latest

/-!
# Hooks that fetch

`useStream`, `useStreamedTotal`, `useFactoryPauseStatus`, `useFactoryStreamCount` and `useProtocolFeeBps` show
what one request has found, and count their requests in `requestIdRef`.

* `Readiness`, `FetchState`, `fetching`: the code that they share; then each hook by its own check;
* **`fetching_run`**: what is shown in every run.
-/

namespace StreamFi

open Js Run

/-! ## The code -/

/-- What a hook finds before it sends a request. -/
inductive Readiness where
  | notReady
  | misconfigured
  | ready

/-- What a hook shows. -/
structure FetchState (β : Type) where
  data : Option β := none
  loading : Bool := false
  error : Option Thrown := none

/-- What a hook is called with. -/
structure HookContext where
  isReady : Bool
  hasClient : Bool
  hasFactory : Bool := false
  hasStreamsGet : Bool := false
  streamId : Option String := none

/-- A call, up to its request; is there one? -/
def startFetch {β : Type} (s : FetchState β) : Readiness → FetchState β × Bool
  | .notReady => ({}, false)
  | .misconfigured =>
    ({ error := some (errorOf "Error" "factoryAddress is not configured on the ConduitClient.") }, false)
  | .ready => ({ s with loading := true, error := none }, true)

/-- The code of such a hook, with its check; `setData` is what else may be done to the data. -/
def fetching {β κ : Type} (check : HookContext → Readiness) (setData : κ → Option β → Option β) :
    Requester HookContext (Except Thrown β) κ (FetchState β) where
  start c s := startFetch s (check c)
  finish _ answer s := match answer with
    | .ok data => { s with data := some data, loading := false }
    | .error err => { s with error := some (toError err), loading := false }
  change k s := { s with data := setData k s.data }

def streamReadiness (c : HookContext) : Readiness :=
  if !c.isReady || !c.hasClient || c.streamId.isNone || !c.hasStreamsGet then .notReady else .ready

def totalReadiness (c : HookContext) : Readiness :=
  if !c.isReady || !c.hasClient || c.streamId.isNone then .notReady else .ready

def factoryReadiness (c : HookContext) : Readiness :=
  if !c.isReady || !c.hasClient then .notReady
  else if !c.hasFactory then .misconfigured
  else .ready

/-- `setStream` takes a value or a function of the value before. -/
def useStream (StreamInfo : Type) :
    Requester HookContext (Except Thrown StreamInfo) (Option StreamInfo → Option StreamInfo) (FetchState StreamInfo) :=
  fetching streamReadiness fun setStream stream => setStream stream

def useStreamedTotal : Requester HookContext (Except Thrown ℤ) Empty (FetchState ℤ) :=
  fetching totalReadiness nofun

def useFactoryPauseStatus : Requester HookContext (Except Thrown Bool) Empty (FetchState Bool) :=
  fetching factoryReadiness nofun

def useFactoryStreamCount : Requester HookContext (Except Thrown ℤ) Empty (FetchState ℤ) :=
  fetching factoryReadiness nofun

def useProtocolFeeBps : Requester HookContext (Except Thrown Number) Empty (FetchState Number) :=
  fetching factoryReadiness nofun

/-! ## What is shown -/

section Runs

variable {β κ : Type} {check : HookContext → Readiness} {setData : κ → Option β → Option β}
  {s s' : Slot HookContext (FetchState β)} {log log' : List (SlotEvent HookContext (Except Thrown β) κ)}

/-- The hook is loading while a request counts, and then shows no error. -/
def Loads (s : Single HookContext (FetchState β)) : Prop :=
  s.view.loading = s.current.isSome ∧ (s.view.loading = true → s.view.error = none)

theorem loads_start (s : FetchState β) (c : HookContext) (r : Readiness) :
    Loads ⟨(startFetch s r).1, if (startFetch s r).2 then some c else none⟩ := by
  cases r <;> simp [Loads, startFetch]

theorem Loads.step {s s' : Single HookContext (FetchState β)} {e : SingleEvent HookContext (Except Thrown β) κ}
    (h : Loads s) (hstep : singleStep (fetching check setData) s e = some s') : Loads s' := by
  cases e with
  | call c =>
    cases hstep
    exact loads_start s.view c (check c)
  | answer a =>
    obtain ⟨r, -, rfl⟩ := Option.map_eq_some_iff.mp hstep
    cases a <;> simp [Loads, fetching]
  | change k =>
    cases hstep
    exact h

/-- **What a hook shows.** It is loading while the request of the latest call has no answer, and then it shows no
error. Answers to requests before that one change nothing, whenever they come. -/
theorem fetching_run (h : run (slotStep (fetching check setData)) { view := {} } log = some s) :
    s.view.loading = s.current.isSome ∧ (s.view.loading = true → s.view.error = none) ∧
      ∀ log' s', run (slotStep (fetching check setData)) { view := {} } log' = some s' →
        effective 0 log = effective 0 log' → s.view = s'.view := by
  have hloads : Loads s.single :=
    run_induction (P := fun s _ => Loads s) ⟨rfl, by simp [Slot.single]⟩ (fun _ _ _ _ hs => hs.step)
      (run_effective (by simp [Slot.Numbered]) h)
  exact ⟨hloads.1, hloads.2, fun log' s' h' heq => (view_eq_of_effective h h' heq).1⟩

end Runs

def readyContext : HookContext := { isReady := true, hasClient := true, hasFactory := true }

/-- The second answer comes before the first. -/
def overtakenLog : List (SlotEvent HookContext (Except Thrown Bool) Empty) :=
  [.call readyContext, .call readyContext, .answer 2 (.ok true), .answer 1 (.ok false)]

def overtaken : Slot HookContext (FetchState Bool) := { view := { data := some true }, latest := 2 }

theorem fetching_run_overtaken : overtaken.view.loading = overtaken.current.isSome ∧
    (overtaken.view.loading = true → overtaken.view.error = none) ∧
      ∀ log' s', run (slotStep useFactoryPauseStatus) { view := {} } log' = some s' →
        effective 0 overtakenLog = effective 0 log' → overtaken.view = s'.view :=
  fetching_run rfl

end StreamFi
