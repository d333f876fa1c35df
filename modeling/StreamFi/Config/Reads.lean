import StreamFi.Coalesce
import StreamFi.Config.Readers

/-!
# Reading a configuration

`FactoryModule.getFactoryConfig` and `GovernorModule.getConfig` keep a value for some time, and let
the callers that find none share one fetch through `coalesceAsync`. Every caller deletes the shared
entry when it goes on.

* `ConfigModule.step`: calls, simulations, their answers, continuations and clears, in any order;
* `StepCase`: everything one step can do;
* **`one_fetch_in_flight`**: when callers do not go on under a later fetch, there is one at a time;
* **`reads_after_clear`**: when no fetch is under way at a clear, later reads are later simulations.
-/

namespace StreamFi

open Js Run

/-! ## The machine -/

/-- Where the body of a fetch is. `simulatedAt` holds, for every simulation it started, how often
the cache had been cleared by then. -/
structure FetchProgress where
  answers : List ScVal := []
  simulating : Bool := false
  simulatedAt : List ℕ := []

/-- The cached read, with the fetch it is from. -/
structure CachedConfig (V : Type) where
  value : V
  expiresAt : Number
  source : ℕ

inductive ReadPhase (V : Type) where
  | waiting (promise : ℕ)
  | returned (source : ℕ) (value : V)
  | threw (err : Thrown)

/-- A call, with the number of clears before it. -/
structure ConfigRead (V : Type) where
  clearsBefore : ℕ
  phase : ReadPhase V

structure ConfigModule (V : Type) where
  inFlight : Flights String V := {}
  progress : ℕ → FetchProgress := fun _ => {}
  configCache : Option (CachedConfig V) := none
  reads : List (ConfigRead V) := []
  clears : ℕ := 0

/-- `fail` is a rejection on the way to a simulation; `now` is what `Date.now()` reads. -/
inductive ConfigEvent where
  | call (aborted : Bool) (now : Number)
  | simulate (promise : ℕ)
  | answer (promise : ℕ) (r : Except Thrown ScVal) (now : Number)
  | fail (promise : ℕ) (err : Thrown)
  | react (promise : ℕ)
  | resume (read : ℕ)
  | clear

namespace ConfigModule

variable {V : Type}

def addRead (s : ConfigModule V) (phase : ReadPhase V) : ConfigModule V :=
  { s with reads := s.reads ++ [{ clearsBefore := s.clears, phase := phase }] }

/-- The call, up to its first await. -/
def call (reader : ConfigReader V) (s : ConfigModule V) (aborted : Bool) (now : Number) :
    ConfigModule V :=
  if aborted then s.addRead (.threw abortError)
  else match reader.guard with
    | .error err => s.addRead (.threw err)
    | .ok _ => match s.configCache.filter fun cached => now.lt cached.expiresAt with
      | some cached => s.addRead (.returned cached.source cached.value)
      | none =>
        let (inFlight, promise) := s.inFlight.coalesceAsync "config" none
        { s with inFlight := inFlight }.addRead (.waiting promise)

def setProgress (s : ConfigModule V) (promise : ℕ) (g : FetchProgress) : ConfigModule V :=
  { s with progress := Function.update s.progress promise g }

/-- The end of a fetch: a value is cached before its promise is fulfilled. -/
def finish (reader : ConfigReader V) (s : ConfigModule V) (promise : ℕ) (r : Except Thrown V)
    (now : Number) : Option (ConfigModule V) := do
  let inFlight ← s.inFlight.settle promise r
  match r with
  | .ok value =>
    some { s with
      inFlight := inFlight
      configCache := some
        { value := value, expiresAt := now.add reader.ttlMs, source := promise } }
  | .error _ => some { s with inFlight := inFlight }

def simulate (reader : ConfigReader V) (s : ConfigModule V) (promise : ℕ) :
    Option (ConfigModule V) := do
  let f ← s.inFlight.fetches[promise]?
  let g := s.progress promise
  match f.outcome, reader.body g.answers with
  | none, .simulate _ =>
    if g.simulating then none
    else some (s.setProgress promise
      { g with simulating := true, simulatedAt := g.simulatedAt ++ [s.clears] })
  | _, _ => none

def answer (reader : ConfigReader V) (s : ConfigModule V) (promise : ℕ) (r : Except Thrown ScVal)
    (now : Number) : Option (ConfigModule V) :=
  let g := s.progress promise
  if g.simulating then
    match r with
    | .error err => (s.setProgress promise { g with simulating := false }).finish reader promise
        (.error err) now
    | .ok val =>
      let s := s.setProgress promise { g with simulating := false, answers := g.answers ++ [val] }
      match reader.body (g.answers ++ [val]) with
      | .simulate _ => some s
      | .done r => s.finish reader promise r now
  else none

/-- A caller goes on after its await; a value is returned only after the entry is deleted. -/
def resume (s : ConfigModule V) (c : ℕ) : Option (ConfigModule V) := do
  let read ← s.reads[c]?
  match read.phase with
  | .waiting promise =>
    let f ← s.inFlight.fetches[promise]?
    match f.outcome with
    | some (.ok value) =>
      some { s with
        inFlight := s.inFlight.delete "config"
        reads := s.reads.set c { read with phase := .returned promise value } }
    | some (.error err) => some { s with reads := s.reads.set c { read with phase := .threw err } }
    | none => none
  | _ => none

def step (reader : ConfigReader V) (s : ConfigModule V) : ConfigEvent → Option (ConfigModule V)
  | .call aborted now => some (s.call reader aborted now)
  | .simulate promise => s.simulate reader promise
  | .answer promise r now => s.answer reader promise r now
  | .fail promise err =>
    if (s.progress promise).simulating then none
    else s.finish reader promise (.error err) (.fin 0)
  | .react promise => (s.inFlight.react promise).map fun inFlight => { s with inFlight := inFlight }
  | .resume c => s.resume c
  | .clear => some { s with configCache := none, clears := s.clears + 1 }

/-! ## What one step can do -/

/-- The fetch starts no simulation. -/
def StartsNone (s : ConfigModule V) (promise : ℕ) (g : FetchProgress) : Prop :=
  g.simulatedAt = (s.progress promise).simulatedAt ∧
    (g.simulating = true → (s.progress promise).simulating = true)

/-- Everything one step can do. -/
inductive StepCase (reader : ConfigReader V) (s : ConfigModule V) :
    ConfigEvent → ConfigModule V → Prop
  | call (aborted : Bool) (now : Number) :
      StepCase reader s (.call aborted now) (s.call reader aborted now)
  | simulate (p : ℕ) (f : Fetch String V) (g : FetchProgress)
      (hf : s.inFlight.fetches[p]? = some f) (ho : f.outcome = none)
      (hg : g.simulatedAt = (s.progress p).simulatedAt ++ [s.clears]) :
      StepCase reader s (.simulate p) (s.setProgress p g)
  | proceed (e : ConfigEvent) (he : e ≠ .clear) (p : ℕ) (g : FetchProgress)
      (hg : s.StartsNone p g) : StepCase reader s e (s.setProgress p g)
  | fulfil (e : ConfigEvent) (he : e ≠ .clear) (p : ℕ) (g : FetchProgress) (value : V)
      (expiresAt : Number) (inFlight : Flights String V) (hg : s.StartsNone p g)
      (hsim : (s.progress p).simulating = true)
      (hf : s.inFlight.settle p (.ok value) = some inFlight) :
      StepCase reader s e { s.setProgress p g with
        inFlight := inFlight
        configCache := some { value := value, expiresAt := expiresAt, source := p } }
  | reject (e : ConfigEvent) (he : e ≠ .clear) (p : ℕ) (g : FetchProgress) (err : Thrown)
      (inFlight : Flights String V) (hg : s.StartsNone p g)
      (hf : s.inFlight.settle p (.error err) = some inFlight) :
      StepCase reader s e { s.setProgress p g with inFlight := inFlight }
  | react (p : ℕ) (inFlight : Flights String V) (hf : s.inFlight.react p = some inFlight) :
      StepCase reader s (.react p) { s with inFlight := inFlight }
  | resume (c : ℕ) (read : ConfigRead V) (p : ℕ) (f : Fetch String V) (value : V)
      (hc : s.reads[c]? = some read) (hp : read.phase = .waiting p)
      (hf : s.inFlight.fetches[p]? = some f) (ho : f.outcome = some (.ok value)) :
      StepCase reader s (.resume c) { s with
        inFlight := s.inFlight.delete "config"
        reads := s.reads.set c { read with phase := .returned p value } }
  | rethrow (c : ℕ) (read : ConfigRead V) (err : Thrown) (hc : s.reads[c]? = some read) :
      StepCase reader s (.resume c)
        { s with reads := s.reads.set c { read with phase := .threw err } }
  | clear : StepCase reader s .clear { s with configCache := none, clears := s.clears + 1 }

section Step

variable {reader : ConfigReader V} {s s' : ConfigModule V} {e : ConfigEvent}

theorem finish_case {p : ℕ} {g : FetchProgress} {r : Except Thrown V} {now : Number}
    (he : e ≠ .clear) (h : (s.setProgress p g).finish reader p r now = some s')
    (hg : s.StartsNone p g) (hsim : ∀ value, r = .ok value → (s.progress p).simulating = true) :
    StepCase reader s e s' := by
  simp only [finish, Option.bind_eq_bind, Option.bind_eq_some_iff] at h
  obtain ⟨inFlight, hf, h⟩ := h
  cases r with
  | ok value =>
    cases h
    exact .fulfil e he p g value _ inFlight hg (hsim value rfl) hf
  | error err =>
    cases h
    exact .reject e he p g err inFlight hg hf

theorem setProgress_self (s : ConfigModule V) (p : ℕ) : s.setProgress p (s.progress p) = s := by
  rw [setProgress, Function.update_eq_self]

theorem step_cases (h : s.step reader e = some s') : StepCase reader s e s' := by
  cases e with
  | call aborted now =>
    cases h
    exact .call aborted now
  | simulate p =>
    simp only [step, simulate, Option.bind_eq_bind, Option.bind_eq_some_iff] at h
    obtain ⟨f, hf, h⟩ := h
    split at h
    · split_ifs at h
      cases h
      exact .simulate p f _ hf ‹_› rfl
    · cases h
  | answer p r now =>
    simp only [step, answer] at h
    split_ifs at h with hsim
    cases r with
    | error err =>
      change (s.setProgress p _).finish reader p (.error err) now = some s' at h
      exact finish_case (by simp) h ⟨rfl, by simp⟩ (by simp)
    | ok val =>
      simp only at h
      split at h
      · cases h
        exact .proceed _ (by simp) p _ ⟨rfl, by simp⟩
      · exact finish_case (by simp) h ⟨rfl, by simp⟩ fun _ _ => hsim
  | fail p err =>
    simp only [step] at h
    split_ifs at h
    rw [← s.setProgress_self p] at h
    exact finish_case (by simp) h ⟨rfl, id⟩ (by simp)
  | react p =>
    obtain ⟨inFlight, hf, rfl⟩ := Option.map_eq_some_iff.mp h
    exact .react p inFlight hf
  | resume c =>
    simp only [step, resume, Option.bind_eq_bind, Option.bind_eq_some_iff] at h
    obtain ⟨read, hc, h⟩ := h
    split at h
    · obtain ⟨f, hf, h⟩ := Option.bind_eq_some_iff.mp h
      split at h
      · cases h
        exact .resume c read _ f _ hc ‹_› hf ‹_›
      · cases h
        exact .rethrow c read _ hc
      · cases h
    · cases h
  | clear =>
    cases h
    exact .clear

/-- How a call ends up: settled at once, or waiting for the shared fetch. -/
theorem call_cases (reader : ConfigReader V) (s : ConfigModule V) (aborted : Bool) (now : Number) :
    (∃ err, s.call reader aborted now = s.addRead (.threw err)) ∨
      (∃ cached, s.configCache = some cached ∧
        s.call reader aborted now = s.addRead (.returned cached.source cached.value)) ∨
      s.call reader aborted now =
        { s with inFlight := (s.inFlight.coalesceAsync "config" none).1 }.addRead
          (.waiting (s.inFlight.coalesceAsync "config" none).2) := by
  unfold call
  split_ifs with ha
  · exact .inl ⟨_, rfl⟩
  cases reader.guard with
  | error err => exact .inl ⟨err, rfl⟩
  | ok _ =>
    cases hc : s.configCache.filter fun cached => now.lt cached.expiresAt with
    | some cached => exact .inr (.inl ⟨cached, (Option.filter_eq_some_iff.mp hc).1, rfl⟩)
    | none => exact .inr (.inr rfl)

theorem call_inFlight (reader : ConfigReader V) (s : ConfigModule V) (aborted : Bool)
    (now : Number) : (s.call reader aborted now).inFlight = s.inFlight ∨
      (s.call reader aborted now).inFlight =
        (s.inFlight.share "config" (.coalesceAsync none)).1 := by
  obtain ⟨err, heq⟩ | ⟨cached, -, heq⟩ | heq := s.call_cases reader aborted now
  · exact .inl (by rw [heq]; rfl)
  · exact .inl (by rw [heq]; rfl)
  · exact .inr (by rw [heq]; rfl)

/-- A step shares a fetch or starts nothing. -/
theorem step_inFlight (h : StepCase reader s e s') :
    s'.inFlight = (s.inFlight.share "config" (.coalesceAsync none)).1 ∨
      s.inFlight.Shrinks s'.inFlight := by
  cases h with
  | call aborted now =>
    rcases s.call_inFlight reader aborted now with heq | heq
    · exact .inr (by rw [heq]; exact .refl _)
    · exact .inl heq
  | simulate | proceed | rethrow | clear => exact .inr (.refl _)
  | fulfil _ _ p g value expiresAt inFlight hg hsim hf => exact .inr (Flights.settle_shrinks hf)
  | reject _ _ p g err inFlight hg hf => exact .inr (Flights.settle_shrinks hf)
  | react p inFlight hf => exact .inr (Flights.react_shrinks hf)
  | resume => exact .inr (Flights.delete_shrinks _ _)

end Step

/-! ## One fetch at a time -/

/-- A caller goes on with a value only when no fetch runs. -/
def QuietResume (s : ConfigModule V) (e : ConfigEvent) : Prop :=
  ∀ c read p f value, e = .resume c → s.reads[c]? = some read → read.phase = .waiting p →
    s.inFlight.fetches[p]? = some f → f.outcome = some (.ok value) → s.inFlight.Quiet

/-- A running fetch is the registered one, so there is at most one. -/
structure OneInFlight (s : ConfigModule V) : Prop where
  registered : ∀ p, s.inFlight.Running p → s.inFlight.cache "config" = some p
  one : ∀ p q, s.inFlight.Running p → s.inFlight.Running q → p = q

section InFlight

variable {reader : ConfigReader V} {s s' : ConfigModule V} {e : ConfigEvent}

theorem step_sound (h : s.inFlight.Sound) (hok : s.QuietResume e) (hs : StepCase reader s e s') :
    s'.inFlight.Sound := by
  cases hs with
  | call aborted now =>
    rcases s.call_inFlight reader aborted now with heq | heq
    · rw [heq]
      exact h
    · rw [heq]
      exact Flights.share_sound h "config" _
  | simulate | proceed | rethrow | clear => exact h
  | fulfil _ _ p g value expiresAt inFlight hg hsim hf => exact Flights.settle_sound h hf
  | reject _ _ p g err inFlight hg hf => exact Flights.settle_sound h hf
  | react p inFlight hf => exact Flights.react_sound h hf
  | resume c read p f value hc hp hf ho =>
    exact Flights.delete_sound h (hok c read p f value rfl hc hp hf ho)

theorem step_keyed (hk : ∀ (p : ℕ) f, s.inFlight.fetches[p]? = some f → f.key = "config")
    (hs : StepCase reader s e s') :
    ∀ (p : ℕ) f, s'.inFlight.fetches[p]? = some f → f.key = "config" := by
  rcases step_inFlight hs with heq | hshrinks
  · rw [heq]
    exact Flights.share_keyed hk _
  · exact hshrinks.keyed hk

/-- **One fetch at a time**, in the runs where no caller goes on with a value under a later
fetch. -/
theorem one_fetch_in_flight {log : List ConfigEvent}
    (hok : EachStep (step reader) QuietResume {} log) (h : run (step reader) {} log = some s) :
    s.OneInFlight := by
  have hinv : s.inFlight.Sound ∧
      ∀ (p : ℕ) f, s.inFlight.fetches[p]? = some f → f.key = "config" := by
    refine run_induction_of (P := fun s _ => s.inFlight.Sound ∧
      ∀ (p : ℕ) f, s.inFlight.fetches[p]? = some f → f.key = "config") ?_ ?_ hok h
    · exact ⟨Flights.sound_empty, fun p f hf => by simp at hf⟩
    · intro s l e s' hP hoke hs
      exact ⟨step_sound hP.1 hoke (step_cases hs), step_keyed hP.2 (step_cases hs)⟩
  have hreg : ∀ p, s.inFlight.Running p → s.inFlight.cache "config" = some p := by
    rintro p ⟨f, hf, ho⟩
    rw [← hinv.2 p f hf]
    exact hinv.1.running p f hf ho
  refine ⟨hreg, fun p q hp hq => ?_⟩
  rw [← Option.some.injEq, ← hreg p hp, hreg q hq]

end InFlight

def checkResume (s : ConfigModule V) : ConfigEvent → Bool
  | .resume _ => decide s.inFlight.Quiet
  | _ => true

/-- Two callers share a fetch and go on; a third comes when its value is stale. -/
def sharedReads : List ConfigEvent :=
  [.call false (.fin 0), .call false (.fin 0), .simulate 0, .answer 0 (.ok (.u32 10)) (.fin 5),
    .simulate 0, .answer 0 (.ok .void) (.fin 6), .resume 0, .resume 1, .call false (.fin 400000)]

theorem one_fetch_in_flight_shared : ∃ s : ConfigModule FactoryConfig,
    run (step (factoryReader none)) {} sharedReads = some s ∧ s.OneInFlight := by
  obtain ⟨s, hs⟩ := Option.isSome_iff_exists.mp
    (by decide : (run (step (factoryReader none)) {} sharedReads).isSome = true)
  have hcheck : ∀ (s : ConfigModule FactoryConfig) e, checkResume s e = true → s.QuietResume e := by
    rintro s e h c read p f value rfl - - - -
    exact of_decide_eq_true h
  exact ⟨s, hs, one_fetch_in_flight (.of_allSteps hcheck (by decide)) hs⟩

/-- With no time to live: a caller joins a fetch that has just settled, and goes on after the next
one has started. -/
def lateJoin : List ConfigEvent :=
  [.call false (.fin 0), .simulate 0, .answer 0 (.ok (.u32 10)) (.fin 0), .simulate 0,
    .answer 0 (.ok .void) (.fin 0), .call false (.fin 0), .resume 0, .call false (.fin 0),
    .resume 1, .call false (.fin 0)]

theorem two_fetches_in_flight : ¬ ∀ log (s : ConfigModule FactoryConfig),
    run (step (factoryReader (some (.fin 0)))) {} log = some s → s.OneInFlight := by
  intro h
  obtain ⟨s, hs, hrun⟩ := Option.map_eq_some_iff.mp (by decide +kernel :
    (run (step (factoryReader (some (.fin 0)))) {} lateJoin).map (fun s =>
      decide (s.inFlight.Running 1 ∧ s.inFlight.Running 2)) = some true)
  obtain ⟨h₁, h₂⟩ := of_decide_eq_true hrun
  have := (h lateJoin s hs).one 1 2 h₁ h₂
  omega

/-! ## Reads after a clear -/

/-- The fetch was rejected, or all it simulated was after the first `n` clears. -/
def ServesAfter (s : ConfigModule V) (p n : ℕ) : Prop :=
  (∃ err, s.inFlight.Settled p (.error err)) ∨ ∀ t ∈ (s.progress p).simulatedAt, n ≤ t

/-- The fetch can still end, or a call can still come to wait for it. -/
def Live (s : ConfigModule V) (p : ℕ) : Prop :=
  s.inFlight.Running p ∨ s.inFlight.cache "config" = some p

/-- A clear comes only when every live fetch was rejected, or has not simulated anything. -/
def QuietClear (s : ConfigModule V) (e : ConfigEvent) : Prop :=
  e = .clear → ∀ p, s.Live p →
    (∃ err, s.inFlight.Settled p (.error err)) ∨ (s.progress p).simulatedAt = []

/-- The fetch has a simulation under way, or a value. -/
def Simulated (s : ConfigModule V) (p : ℕ) : Prop :=
  (s.progress p).simulating = true ∨ ∃ value, s.inFlight.Settled p (.ok value)

/-- The value is the outcome of that fetch, which simulated something, all of it after the first
`n` clears. -/
structure FromAfter (s : ConfigModule V) (p : ℕ) (value : V) (n : ℕ) : Prop where
  settled : s.inFlight.Settled p (.ok value)
  simulated : (s.progress p).simulatedAt ≠ []
  after : ∀ t ∈ (s.progress p).simulatedAt, n ≤ t

def FreshRead (s : ConfigModule V) (read : ConfigRead V) : Prop :=
  match read.phase with
  | .waiting p => s.ServesAfter p read.clearsBefore
  | .returned p value => s.FromAfter p value read.clearsBefore
  | .threw _ => True

/-- What every step keeps. -/
structure Fresh (s : ConfigModule V) : Prop where
  blank : ∀ p, s.inFlight.fetches.length ≤ p → (s.progress p).simulatedAt = []
  simulated : ∀ p, s.Simulated p → (s.progress p).simulatedAt ≠ []
  live : ∀ p, s.Live p → s.ServesAfter p s.clears
  cached : ∀ cached, s.configCache = some cached → s.FromAfter cached.source cached.value s.clears
  past : ∀ read ∈ s.reads, read.clearsBefore ≤ s.clears
  reads : ∀ read ∈ s.reads, s.FreshRead read

section Fresh

variable {reader : ConfigReader V} {s s' : ConfigModule V} {e : ConfigEvent} {p n : ℕ} {value : V}

theorem step_keeps (h : StepCase reader s e s') : s.inFlight.Keeps s'.inFlight := by
  rcases step_inFlight h with heq | hshrinks
  · rw [heq]
    exact Flights.share_keeps _ _ _
  · exact hshrinks.keeps

theorem step_clears (h : StepCase reader s e s') :
    s'.clears = s.clears ∧ e ≠ .clear ∨ e = .clear ∧ s'.clears = s.clears + 1 := by
  cases h with
  | call aborted now =>
    obtain ⟨err, heq⟩ | ⟨cached, -, heq⟩ | heq := s.call_cases reader aborted now <;>
      exact .inl ⟨by rw [heq]; rfl, by simp⟩
  | simulate | react | resume | rethrow => exact .inl ⟨rfl, by simp⟩
  | proceed _ he | fulfil _ he | reject _ he => exact .inl ⟨rfl, he⟩
  | clear => exact .inr ⟨rfl, rfl⟩

theorem setProgress_progress (s : ConfigModule V) (p q : ℕ) (g : FetchProgress) :
    (s.setProgress p g).progress q = if q = p then g else s.progress q := by
  simp [setProgress, Function.update_apply]

/-- A step leaves the simulations of a fetch alone, or starts one. -/
theorem step_stamps (h : StepCase reader s e s') (p : ℕ) :
    (s'.progress p).simulatedAt = (s.progress p).simulatedAt ∨ s.inFlight.Running p ∧
      (s'.progress p).simulatedAt = (s.progress p).simulatedAt ++ [s.clears] := by
  have hset : ∀ q g, s.StartsNone q g →
      ((s.setProgress q g).progress p).simulatedAt = (s.progress p).simulatedAt := by
    intro q g hg
    rw [setProgress_progress]
    split_ifs with hp
    · rw [hg.1, hp]
    · rfl
  cases h with
  | call aborted now =>
    obtain ⟨err, heq⟩ | ⟨cached, -, heq⟩ | heq := s.call_cases reader aborted now <;>
      exact .inl (by rw [heq]; rfl)
  | simulate q f g hf ho hg =>
    rw [setProgress_progress]
    split_ifs with hp
    · subst hp
      exact .inr ⟨⟨f, hf, ho⟩, hg⟩
    · exact .inl rfl
  | proceed _ _ q g hg => exact .inl (hset q g hg)
  | fulfil _ _ q g value expiresAt inFlight hg => exact .inl (hset q g hg)
  | reject _ _ q g err inFlight hg => exact .inl (hset q g hg)
  | react | resume | rethrow | clear => exact .inl rfl

theorem step_simulated (h : StepCase reader s e s') (hp : s'.Simulated p) :
    s.Simulated p ∨ (s'.progress p).simulatedAt ≠ [] := by
  have hset : ∀ q g, s.StartsNone q g → ((s.setProgress q g).progress p).simulating = true →
      s.Simulated p := by
    intro q g hg hp
    rw [setProgress_progress] at hp
    split_ifs at hp with hq
    · subst hq
      exact .inl (hg.2 hp)
    · exact .inl hp
  cases h with
  | call aborted now =>
    refine .inl ?_
    rcases hp with hp | ⟨v, hv⟩
    · refine .inl ?_
      obtain ⟨err, heq⟩ | ⟨cached, -, heq⟩ | heq := s.call_cases reader aborted now <;>
        · rw [heq] at hp
          exact hp
    · refine .inr ⟨v, ?_⟩
      rcases s.call_inFlight reader aborted now with heq | heq
      · rwa [heq] at hv
      · rw [heq] at hv
        exact Flights.settled_of_share hv
  | simulate q f g hf ho hg =>
    rcases eq_or_ne p q with rfl | hne
    · refine .inr ?_
      rw [setProgress_progress, if_pos rfl, hg]
      simp
    · refine .inl (hp.imp_left fun hp => ?_)
      rwa [setProgress_progress, if_neg hne] at hp
  | proceed _ _ q g hg => exact .inl (hp.elim (hset q g hg) .inr)
  | fulfil _ _ q g value expiresAt inFlight hg hsim hf =>
    refine .inl (hp.elim (hset q g hg) fun ⟨v, hv⟩ => ?_)
    rcases Flights.settled_of_settle hf hv with ⟨rfl, -⟩ | hv
    · exact .inl hsim
    · exact .inr ⟨v, hv⟩
  | reject _ _ q g err inFlight hg hf =>
    refine .inl (hp.elim (hset q g hg) fun ⟨v, hv⟩ => ?_)
    rcases Flights.settled_of_settle hf hv with ⟨-, h⟩ | hv
    · cases h
    · exact .inr ⟨v, hv⟩
  | react q inFlight hf =>
    exact .inl (hp.imp_right fun ⟨v, hv⟩ => ⟨v, Flights.settled_of_react hf hv⟩)
  | resume | rethrow | clear => exact .inl hp

theorem ServesAfter.step (h : s.ServesAfter p n) (hn : n ≤ s.clears) (hs : StepCase reader s e s') :
    s'.ServesAfter p n := by
  refine h.imp (fun ⟨err, herr⟩ => ⟨err, (step_keeps hs).settled herr⟩) fun h => ?_
  rcases step_stamps hs p with heq | ⟨-, heq⟩
  · rwa [heq]
  · rw [heq]
    intro t ht
    rcases List.mem_append.mp ht with ht | ht
    · exact h t ht
    · rw [List.mem_singleton.mp ht]
      exact hn

/-- A settled fetch simulates no more. -/
theorem FromAfter.step (h : s.FromAfter p value n) (hs : StepCase reader s e s') :
    s'.FromAfter p value n := by
  have hstamps : (s'.progress p).simulatedAt = (s.progress p).simulatedAt :=
    (step_stamps hs p).resolve_right fun hrun => h.settled.not_running hrun.1
  exact ⟨(step_keeps hs).settled h.settled, by rw [hstamps]; exact h.simulated,
    by rw [hstamps]; exact h.after⟩

theorem ServesAfter.fromAfter (h : s.ServesAfter p n) (hsim : (s.progress p).simulatedAt ≠ [])
    (hp : s.inFlight.Settled p (.ok value)) : s.FromAfter p value n := by
  refine ⟨hp, hsim, h.resolve_left ?_⟩
  rintro ⟨err, herr⟩
  cases hp.unique herr

theorem FreshRead.step {read : ConfigRead V} (h : s.FreshRead read)
    (hn : read.clearsBefore ≤ s.clears) (hs : StepCase reader s e s') : s'.FreshRead read := by
  unfold FreshRead at h ⊢
  cases hp : read.phase with
  | waiting p =>
    rw [hp] at h
    exact ServesAfter.step h hn hs
  | returned p value =>
    rw [hp] at h
    exact FromAfter.step h hs
  | threw err => trivial

/-- What a call comes to wait for is live, or new. -/
theorem live_step (h : StepCase reader s e s') (hp : s'.Live p) :
    s.Live p ∨ p = s.inFlight.fetches.length := by
  rcases step_inFlight h with heq | hshrinks
  · rw [Live, heq] at hp
    rcases s.inFlight.share_cases "config" (.coalesceAsync none) with ⟨q, -, hs⟩ | ⟨-, hs⟩
    · rw [hs] at hp
      exact .inl hp
    · rw [hs] at hp
      rcases hp with hp | hp
      · exact (Flights.running_of_start hp).imp_left .inl
      · rcases Flights.start_cache_iff.mp hp with ⟨-, hq⟩ | ⟨hne, -⟩
        · exact .inr hq
        · exact absurd rfl hne
  · exact .inl (hp.imp (hshrinks.running p) (hshrinks.cache _ p))

theorem Fresh.blank_step (h : s.Fresh) (hs : StepCase reader s e s') :
    ∀ p, s'.inFlight.fetches.length ≤ p → (s'.progress p).simulatedAt = [] := by
  intro p hp
  have hle := (step_keeps hs).length_le.trans hp
  rcases step_stamps hs p with heq | ⟨hrun, -⟩
  · rw [heq]
    exact h.blank p hle
  · exact absurd hrun.lt (not_lt.mpr hle)

theorem Fresh.simulated_step (h : s.Fresh) (hs : StepCase reader s e s') :
    ∀ p, s'.Simulated p → (s'.progress p).simulatedAt ≠ [] := by
  intro p hp
  rcases step_simulated hs hp with hp | hp
  · rcases step_stamps hs p with heq | ⟨-, heq⟩
    · rw [heq]
      exact h.simulated p hp
    · rw [heq]
      simp
  · exact hp

theorem Fresh.live_step (h : s.Fresh) (hok : s.QuietClear e) (hs : StepCase reader s e s') :
    ∀ p, s'.Live p → s'.ServesAfter p s'.clears := by
  intro p hp
  rcases step_clears hs with ⟨heq, -⟩ | ⟨rfl, heq⟩
  · rw [heq]
    rcases ConfigModule.live_step hs hp with hp | rfl
    · exact ServesAfter.step (h.live p hp) le_rfl hs
    · refine .inr ?_
      rcases step_stamps hs s.inFlight.fetches.length with heq | ⟨hrun, -⟩
      · rw [heq, h.blank _ le_rfl]
        simp
      · exact absurd hrun.lt (lt_irrefl _)
  · cases hs with
    | proceed _ he | fulfil _ he | reject _ he => exact absurd rfl he
    | clear =>
      rcases hok rfl p hp with herr | hnil
      · exact .inl herr
      · exact .inr (by rw [show (s.progress p).simulatedAt = [] from hnil]; simp)

theorem Fresh.cached_step (h : s.Fresh) (hs : StepCase reader s e s') :
    ∀ cached, s'.configCache = some cached →
      s'.FromAfter cached.source cached.value s'.clears := by
  have hkeep : s'.configCache = s.configCache → s'.clears = s.clears → ∀ cached,
      s'.configCache = some cached → s'.FromAfter cached.source cached.value s'.clears := by
    intro hc hn cached hcached
    rw [hn]
    exact (h.cached cached (hc.symm.trans hcached)).step hs
  cases hs with
  | call aborted now =>
    obtain ⟨err, heq⟩ | ⟨cached, -, heq⟩ | heq := s.call_cases reader aborted now <;>
      · rw [heq] at hkeep ⊢
        exact hkeep rfl rfl
  | simulate | proceed | reject | react | resume | rethrow => exact hkeep rfl rfl
  | fulfil _ he q g value expiresAt inFlight hg hsim hf =>
    intro cached hcached
    cases hcached
    have hlive : s.Live q := .inl (Flights.settle_running hf)
    have hstep : StepCase reader s e _ := .fulfil e he q g value expiresAt inFlight hg hsim hf
    refine ServesAfter.fromAfter (ServesAfter.step (h.live q hlive) le_rfl hstep) ?_ ?_
    · exact h.simulated_step hstep q (.inr ⟨value, Flights.settle_settled hf⟩)
    · exact Flights.settle_settled hf
  | clear =>
    intro cached hcached
    cases hcached

/-- A read is an old one, or fresh. -/
theorem Fresh.reads_step (h : s.Fresh) (hok : s.QuietClear e) (hs : StepCase reader s e s') :
    ∀ read ∈ s'.reads, read ∈ s.reads ∨ read.clearsBefore ≤ s'.clears ∧ s'.FreshRead read := by
  cases hs with
  | simulate | proceed | fulfil | reject | react | clear => exact fun read hread => .inl hread
  | call aborted now =>
    have hs : StepCase reader s _ _ := .call aborted now
    have hlive := h.live_step hok hs
    obtain ⟨err, heq⟩ | ⟨cached, hcached, heq⟩ | heq := s.call_cases reader aborted now <;>
      rw [heq] at hs hlive ⊢ <;> intro read hread <;>
      refine (List.mem_append.mp hread).imp_right fun hread => ?_ <;>
      cases List.mem_singleton.mp hread
    · exact ⟨le_rfl, trivial⟩
    · exact ⟨le_rfl, (h.cached cached hcached).step hs⟩
    · exact ⟨le_rfl, hlive _ (.inr (Flights.share_cache _ _ _))⟩
  | resume c read p f value hc hp hf ho =>
    have hs : StepCase reader s _ _ := .resume c read p f value hc hp hf ho
    intro read' hread'
    refine (List.mem_or_eq_of_mem_set hread').imp_right fun heq => ?_
    subst heq
    have hmem := List.mem_of_getElem? hc
    have hserves := h.reads read hmem
    rw [FreshRead, hp] at hserves
    exact ⟨h.past read hmem, FromAfter.step (hserves.fromAfter
      (h.simulated p (.inr ⟨value, f, hf, ho⟩)) ⟨f, hf, ho⟩) hs⟩
  | rethrow c read err hc =>
    intro read' hread'
    refine (List.mem_or_eq_of_mem_set hread').imp_right fun heq => ?_
    subst heq
    exact ⟨h.past read (List.mem_of_getElem? hc), trivial⟩

theorem Fresh.step (h : s.Fresh) (hok : s.QuietClear e) (hs : StepCase reader s e s') :
    s'.Fresh := by
  have hle : s.clears ≤ s'.clears := by
    rcases step_clears hs with ⟨heq, -⟩ | ⟨-, heq⟩ <;> omega
  refine ⟨h.blank_step hs, h.simulated_step hs, h.live_step hok hs, h.cached_step hs, ?_, ?_⟩
  · intro read hread
    rcases h.reads_step hok hs read hread with hread | ⟨hpast, -⟩
    · exact (h.past read hread).trans hle
    · exact hpast
  · intro read hread
    rcases h.reads_step hok hs read hread with hread | ⟨-, hfresh⟩
    · exact (h.reads read hread).step (h.past read hread) hs
    · exact hfresh

theorem fresh_empty : ({} : ConfigModule V).Fresh where
  blank p _ := rfl
  simulated p hp := by
    rcases hp with hp | ⟨v, f, hf, -⟩
    · cases hp
    · simp at hf
  live p hp := by
    rcases hp with ⟨f, hf, -⟩ | hp
    · simp at hf
    · cases hp
  cached cached h := by cases h
  past read hread := by cases hread
  reads read hread := by cases hread

/-- What is returned was simulated after the clears before the call, and what is cached after all
clears. -/
structure AfterClears (s : ConfigModule V) : Prop where
  returned : ∀ read ∈ s.reads, ∀ p value, read.phase = .returned p value →
    s.FromAfter p value read.clearsBefore
  cached : ∀ cached, s.configCache = some cached → s.FromAfter cached.source cached.value s.clears

/-- **Reads after a clear are simulations after it**, in the runs where no clear lands on a fetch
that has begun to simulate. -/
theorem reads_after_clear {log : List ConfigEvent}
    (hok : EachStep (ConfigModule.step reader) QuietClear {} log)
    (h : run (ConfigModule.step reader) {} log = some s) : s.AfterClears := by
  have hfresh : s.Fresh := run_induction_of (P := fun s _ => s.Fresh) fresh_empty
    (fun _ _ _ _ hP hok hs => hP.step hok (step_cases hs)) hok h
  refine ⟨fun read hread p value hp => ?_, hfresh.cached⟩
  have := hfresh.reads read hread
  rwa [FreshRead, hp] at this

end Fresh

def checkClear (s : ConfigModule V) : ConfigEvent → Bool
  | .clear => decide s.inFlight.Quiet && decide (s.inFlight.cache "config" = none)
  | _ => true

/-- A read, a clear, and another read. -/
def clearBetween : List ConfigEvent :=
  [.call false (.fin 0), .simulate 0, .answer 0 (.ok (.map [])) (.fin 5), .resume 0, .clear,
    .call false (.fin 6), .simulate 1, .answer 1 (.ok (.map [])) (.fin 9), .resume 1]

def testGovernor : ConfigReader GovernorConfig := governorReader (some "GOVERNOR") .testnet none

theorem reads_after_clear_between : ∃ s : ConfigModule GovernorConfig,
    run (step testGovernor) {} clearBetween = some s ∧ s.AfterClears := by
  obtain ⟨s, hs⟩ := Option.isSome_iff_exists.mp
    (by decide : (run (step testGovernor) {} clearBetween).isSome = true)
  have hcheck : ∀ (s : ConfigModule GovernorConfig) e, checkClear s e = true → s.QuietClear e := by
    rintro s e h rfl p hp
    rw [checkClear, Bool.and_eq_true, decide_eq_true_iff, decide_eq_true_iff] at h
    rcases hp with hp | hp
    · exact absurd hp h.1.not_running
    · rw [h.2] at hp
      cases hp
  exact ⟨s, hs, reads_after_clear (.of_allSteps hcheck (by decide)) hs⟩

/-- A clear lands on a fetch that has begun to simulate, and a later call joins it. -/
def clearDuring : List ConfigEvent :=
  [.call false (.fin 0), .simulate 0, .clear, .call false (.fin 1),
    .answer 0 (.ok (.map [])) (.fin 5), .resume 1]

theorem read_from_before_clear : ¬ ∀ log (s : ConfigModule GovernorConfig),
    run (step testGovernor) {} log = some s → s.AfterClears := by
  intro h
  obtain ⟨s, hs, hrun⟩ := Option.map_eq_some_iff.mp (by decide :
    (run (step testGovernor) {} clearDuring).map (fun s =>
      (s.reads.map fun read => (read.clearsBefore, match read.phase with
        | .returned p _ => some p
        | _ => none), (s.progress 0).simulatedAt)) = some ([(0, none), (1, some 0)], [0]))
  rw [Prod.mk.injEq] at hrun
  obtain ⟨read, hread, heq⟩ := List.mem_map.mp (hrun.1 ▸ by simp :
    (1, some 0) ∈ s.reads.map fun read => (read.clearsBefore, match read.phase with
      | .returned p _ => some p
      | _ => none))
  rw [Prod.mk.injEq] at heq
  cases hp : read.phase with
  | returned p value =>
    rw [hp] at heq
    cases heq.2
    have := ((h clearDuring s hs).returned read hread 0 value hp).after 0 (by simp [hrun.2])
    omega
  | waiting p | threw err =>
    rw [hp] at heq
    cases heq.2

end ConfigModule

end StreamFi
