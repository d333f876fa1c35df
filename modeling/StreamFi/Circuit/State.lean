import StreamFi.Js.Number
import StreamFi.Run.Log
import StreamFi.Run.Pool

/-!
# Circuit states

`rpc-circuit-state` keeps a circuit for every RPC endpoint. Reading the state of an open circuit
half-opens it once its cooldown is over, also where the state is read to notify the listeners of
another transition.

* `getCircuitState`, `recordSuccess`, `recordFailure`, `resetCircuit`: the code, for one scope;
* `Circuit.transitions`: what the transition listeners were told;
* **`transitions_linked_iff`**: the transitions form a chain exactly when no failure that opens the
  circuit finds its own cooldown over while it notifies.
-/

namespace StreamFi

open Js Run

/-! ## The code -/

inductive CircuitState where
  | closed
  | opened
  | halfOpen
  deriving DecidableEq

structure CircuitStatus where
  state : CircuitState := .closed
  failureCount : ℕ := 0
  lastFailureAt : Option Number := none
  lastSuccessAt : Option Number := none
  cooldownUntil : Option Number := none
  deriving DecidableEq

/-- What the listeners are called with: those of changes, and those of transitions. -/
inductive CircuitNotice where
  | change (status : CircuitStatus)
  | transition (before after : CircuitState)
  deriving DecidableEq

/-- The entry of one scope, and the notices about it so far. -/
structure Circuit where
  entry : Option CircuitStatus := none
  notices : List CircuitNotice := []
  deriving DecidableEq

/-- What `Date.now()` reads in one call: when the call starts, when the state is read, and when it is
read again to notify. -/
structure ClockReadings where
  now : Number
  read : Number
  reread : Number

namespace Circuit

def notifyListeners (c : Circuit) (status : CircuitStatus) : Circuit :=
  { c with notices := c.notices ++ [.change status] }

def emitTransition (c : Circuit) (before after : CircuitState) : Circuit :=
  if before = after then c else { c with notices := c.notices ++ [.transition before after] }

/-- `cooldownUntil && now >= cooldownUntil`. -/
def cooldownOver (cooldownUntil : Option Number) (now : Number) : Bool :=
  match cooldownUntil with
  | some t => t.truthy && t.le now
  | none => false

def getCircuitState (c : Circuit) (now : Number) : Circuit × CircuitStatus :=
  match c.entry with
  | none => (c, {})
  | some entry =>
    if entry.state = .opened ∧ cooldownOver entry.cooldownUntil now = true then
      let entry := { entry with state := .halfOpen }
      (({ c with entry := some entry }.notifyListeners entry).emitTransition .opened .halfOpen, entry)
    else (c, entry)

/-- `notifyListeners(scope, getCircuitState(scope))`. -/
def notifyState (c : Circuit) (now : Number) : Circuit :=
  let (c, status) := c.getCircuitState now
  c.notifyListeners status

def recordSuccess (c : Circuit) (clock : ClockReadings) : Circuit :=
  match c.entry with
  | none => c
  | some entry =>
    let (c, previous) := c.getCircuitState clock.read
    let entry := { entry with
      state := .closed, failureCount := 0, lastSuccessAt := some clock.now, cooldownUntil := none }
    let c := { c with entry := some entry }
    if previous.state ≠ .closed then
      (c.notifyState clock.reread).emitTransition previous.state .closed
    else c

/-- `DEFAULT_THRESHOLD`. -/
def defaultThreshold : Number := .fin 5

/-- `DEFAULT_COOLDOWN_MS`. -/
def defaultCooldownMs : Number := .fin 30000

structure FailureOptions where
  threshold : Option Number := none
  cooldownMs : Option Number := none
  deriving DecidableEq

/-- Whether one more failure of this entry opens its circuit. -/
def reaches (options : FailureOptions) (entry : CircuitStatus) : Bool :=
  (options.threshold.getD defaultThreshold).le (.fin (entry.failureCount + 1 : ℕ))

/-- The entry after one more failure, `previous` being the entry whose state was just read. -/
def failed (options : FailureOptions) (now : Number) (previous : CircuitStatus) : CircuitStatus :=
  if previous.state = .halfOpen ∨ reaches options previous = true then
    { previous with
      state := .opened, failureCount := previous.failureCount + 1, lastFailureAt := some now
      cooldownUntil := some (now.add (options.cooldownMs.getD defaultCooldownMs)) }
  else { previous with failureCount := previous.failureCount + 1, lastFailureAt := some now }

/-- The state of the entry, at the end of a call. -/
def currentState (c : Circuit) : CircuitState := (c.entry.map (·.state)).getD .closed

/-- An entry is made if there is none. -/
def withEntry (c : Circuit) : Circuit := { c with entry := some (c.entry.getD {}) }

def recordFailure (c : Circuit) (options : FailureOptions) (clock : ClockReadings) : Circuit :=
  let (c, previous) := c.withEntry.getCircuitState clock.read
  let entry := failed options clock.now previous
  let c := { c with entry := some entry }
  -- any failure re-opens a half-open circuit
  if previous.state = .halfOpen then
    (c.notifyState clock.reread).emitTransition previous.state .opened
  else if entry.state ≠ previous.state then
    -- the state is looked at once more, after the listeners have been notified
    let c := c.notifyState clock.reread
    c.emitTransition previous.state c.currentState
  else c

def resetCircuit (c : Circuit) (clock : ClockReadings) : Circuit :=
  match c.entry with
  | none => c
  | some _ =>
    let (c, previous) := c.getCircuitState clock.read
    ({ c with entry := none }.notifyState clock.reread).emitTransition previous.state .closed

/-! ## Runs -/

inductive Call where
  | recordFailure (options : FailureOptions)
  | recordSuccess
  | getCircuitState
  | resetCircuit

def call (c : Circuit) (clock : ClockReadings) : Call → Circuit
  | .recordFailure options => c.recordFailure options clock
  | .recordSuccess => c.recordSuccess clock
  | .getCircuitState => (c.getCircuitState clock.read).1
  | .resetCircuit => c.resetCircuit clock

def step (c : Circuit) (e : Call × ClockReadings) : Option Circuit := some (c.call e.2 e.1)

/-- What the transition listeners were told. -/
def transitions (c : Circuit) : List (CircuitState × CircuitState) :=
  c.notices.filterMap fun
    | .change _ => none
    | .transition before after => some (before, after)

/-! ## Transitions of each function -/

section Transitions

variable {c c' : Circuit}

@[simp] theorem transitions_setEntry (c : Circuit) (entry : Option CircuitStatus) :
    transitions { c with entry := entry } = c.transitions := rfl

@[simp] theorem currentState_setEntry (c : Circuit) (entry : CircuitStatus) :
    currentState { c with entry := some entry } = entry.state := rfl

@[simp] theorem transitions_notifyListeners (c : Circuit) (status : CircuitStatus) :
    (c.notifyListeners status).transitions = c.transitions := by
  simp [transitions, notifyListeners]

@[simp] theorem entry_notifyListeners (c : Circuit) (status : CircuitStatus) :
    (c.notifyListeners status).entry = c.entry := rfl

@[simp] theorem currentState_notifyListeners (c : Circuit) (status : CircuitStatus) :
    (c.notifyListeners status).currentState = c.currentState := rfl

theorem transitions_emitTransition {before after : CircuitState} (h : before ≠ after) :
    (c.emitTransition before after).transitions = c.transitions ++ [(before, after)] := by
  rw [emitTransition, if_neg h]
  simp [transitions]

@[simp] theorem entry_emitTransition (c : Circuit) (before after : CircuitState) :
    (c.emitTransition before after).entry = c.entry := by
  unfold emitTransition
  split_ifs <;> rfl

@[simp] theorem currentState_emitTransition (c : Circuit) (before after : CircuitState) :
    (c.emitTransition before after).currentState = c.currentState := by
  rw [currentState, entry_emitTransition]
  rfl

/-- A read leaves the circuit as it is, or half-opens it. -/
theorem getCircuitState_cases (c : Circuit) (now : Number) :
    c.getCircuitState now = (c, c.entry.getD {}) ∨
      ∃ entry, c.entry = some entry ∧ entry.state = .opened ∧
        cooldownOver entry.cooldownUntil now = true ∧
        (c.getCircuitState now).1.entry = some { entry with state := .halfOpen } ∧
        (c.getCircuitState now).1.transitions = c.transitions ++ [(.opened, .halfOpen)] ∧
        (c.getCircuitState now).2 = { entry with state := .halfOpen } := by
  unfold getCircuitState
  cases hentry : c.entry with
  | none => exact .inl rfl
  | some entry =>
    by_cases h : entry.state = .opened ∧ cooldownOver entry.cooldownUntil now = true
    · refine .inr ⟨entry, rfl, h.1, h.2, ?_⟩
      simp only [if_pos h]
      exact ⟨by simp, by rw [transitions_emitTransition (by decide)]; simp, trivial⟩
    · simp only [if_neg h]
      exact .inl rfl

/-- The state that is read is the one the entry has then. -/
theorem getCircuitState_state (c : Circuit) (now : Number) :
    (c.getCircuitState now).2.state = (c.getCircuitState now).1.currentState := by
  rcases c.getCircuitState_cases now with h | ⟨entry, -, -, -, hentry, -, hstatus⟩
  · rw [h, currentState]
    cases c.entry with
    | none => rfl
    | some entry => rfl
  · rw [hstatus, currentState, hentry]
    rfl

/-- A notification that half-opens nothing. -/
theorem notifyState_of_not_over {entry : CircuitStatus} (hentry : c.entry = some entry)
    {now : Number} (h : entry.state ≠ .opened ∨ cooldownOver entry.cooldownUntil now = false) :
    (c.notifyState now).transitions = c.transitions ∧ (c.notifyState now).entry = c.entry := by
  have hno : ¬ (entry.state = .opened ∧ cooldownOver entry.cooldownUntil now = true) := by
    rintro ⟨hopened, hover⟩
    rcases h with h | h
    · exact h hopened
    · rw [h] at hover
      cases hover
  simp [notifyState, getCircuitState, hentry, if_neg hno]

/-- One that half-opens a circuit. -/
theorem notifyState_of_over {entry : CircuitStatus} (hentry : c.entry = some entry)
    (hopened : entry.state = .opened) {now : Number}
    (h : cooldownOver entry.cooldownUntil now = true) :
    (c.notifyState now).transitions = c.transitions ++ [(.opened, .halfOpen)] ∧
      (c.notifyState now).currentState = .halfOpen := by
  have hover : entry.state = .opened ∧ cooldownOver entry.cooldownUntil now = true := ⟨hopened, h⟩
  simp only [notifyState, getCircuitState, hentry, if_pos hover]
  refine ⟨?_, by simp⟩
  rw [transitions_notifyListeners, transitions_emitTransition (by decide)]
  simp

/-- A notification about a circuit that is closed leaves its entry. -/
theorem entry_notify_closed (c : Circuit) {entry : Option CircuitStatus}
    (hentry : ∀ e, entry = some e → e.state = .closed) (now : Number) :
    ({ c with entry := entry }.notifyState now).transitions = c.transitions ∧
      ({ c with entry := entry }.notifyState now).entry = entry := by
  cases entry with
  | none => exact ⟨by simp [notifyState, getCircuitState], rfl⟩
  | some e => exact notifyState_of_not_over rfl (.inl (by rw [hentry e rfl]; decide))

/-- What a success leaves. -/
theorem entry_recordSuccess (c : Circuit) (clock : ClockReadings) :
    (c.recordSuccess clock).entry = c.entry.map fun entry => { entry with
      state := .closed, failureCount := 0, lastSuccessAt := some clock.now
      cooldownUntil := none } := by
  unfold recordSuccess
  cases hentry : c.entry with
  | none => exact hentry
  | some entry =>
    simp only [Option.map_some]
    split_ifs
    · rw [entry_emitTransition]
      exact (entry_notify_closed _ (by rintro e ⟨⟩; rfl) _).2
    · rfl

theorem entry_resetCircuit (c : Circuit) (clock : ClockReadings) :
    (c.resetCircuit clock).entry = none := by
  unfold resetCircuit
  cases hentry : c.entry with
  | none => exact hentry
  | some entry =>
    simp only [entry_emitTransition]
    exact (entry_notify_closed _ (by rintro e ⟨⟩) _).2

theorem currentState_recordSuccess (c : Circuit) (clock : ClockReadings) :
    (c.recordSuccess clock).currentState = .closed := by
  rw [currentState, entry_recordSuccess]
  cases c.entry with
  | none => rfl
  | some entry => rfl

theorem currentState_resetCircuit (c : Circuit) (clock : ClockReadings) :
    (c.resetCircuit clock).currentState = .closed := by
  rw [currentState, entry_resetCircuit]
  rfl

end Transitions

/-! ## The chain -/

/-- The changes a circuit may go through. -/
def Legal : CircuitState × CircuitState → Prop
  | (.closed, .opened) | (.opened, .halfOpen) | (.halfOpen, .opened) | (_, .closed) => True
  | _ => False

instance : DecidablePred Legal := fun t => by
  unfold Legal
  split <;> infer_instance

/-- The transitions form a chain from `closed` on, of legal changes. -/
def Orderly (c : Circuit) : Prop :=
  Linked .closed c.transitions ∧ ∀ t ∈ c.transitions, Legal t

/-- The chain leads to the state of the entry. -/
structure Tracked (c : Circuit) : Prop where
  orderly : c.Orderly
  leads : ledTo .closed c.transitions = c.currentState

/-- The entry that a failure reads, and the one it leaves. -/
def failing (c : Circuit) (options : FailureOptions) (clock : ClockReadings) :
    CircuitStatus × CircuitStatus :=
  let previous := (c.withEntry.getCircuitState clock.read).2
  (previous, failed options clock.now previous)

/-- A failure that opens the circuit does not find its own cooldown over while it notifies. -/
def Patient (c : Circuit) (e : Call × ClockReadings) : Prop :=
  ∀ options, e.1 = .recordFailure options →
    (c.failing options e.2).2.state ≠ (c.failing options e.2).1.state →
    cooldownOver (c.failing options e.2).2.cooldownUntil e.2.reread = false

section Chain

variable {c c' : Circuit} {clock : ClockReadings} {options : FailureOptions}

theorem orderly_concat_iff {before after : CircuitState}
    (h : c'.transitions = c.transitions ++ [(before, after)]) : c'.Orderly ↔
      c.Orderly ∧ before = ledTo .closed c.transitions ∧ Legal (before, after) := by
  rw [Orderly, h, linked_concat_iff, Orderly]
  simp only [List.mem_append, List.mem_singleton, or_imp, forall_and, forall_eq]
  tauto

theorem Tracked.stay (hc : c.Tracked) (ht : c'.transitions = c.transitions)
    (hs : c'.currentState = c.currentState) : c'.Tracked := by
  refine ⟨?_, by rw [ht, hs, hc.leads]⟩
  rw [Orderly, ht]
  exact hc.orderly

theorem Tracked.move (hc : c.Tracked) {after : CircuitState}
    (ht : c'.transitions = c.transitions ++ [(c.currentState, after)])
    (hs : c'.currentState = after) (hl : Legal (c.currentState, after)) : c'.Tracked := by
  refine ⟨(orderly_concat_iff ht).mpr ⟨hc.orderly, hc.leads.symm, hl⟩, ?_⟩
  rw [ht, ledTo_concat, hs]

theorem Tracked.getCircuitState (hc : c.Tracked) (now : Number) :
    (c.getCircuitState now).1.Tracked := by
  rcases c.getCircuitState_cases now with h | ⟨entry, hentry, hopened, -, hentry', ht, -⟩
  · rw [h]
    exact hc
  · have hs : c.currentState = .opened := by rw [currentState, hentry, ← hopened]; rfl
    refine hc.move (by rw [ht, hs]) ?_ (by rw [hs]; trivial)
    rw [currentState, hentry']
    rfl

/-- Closing a circuit, with a notice if it was not closed. -/
theorem Tracked.close (hc : c.Tracked) (entry : Option CircuitStatus)
    (hentry : ∀ e, entry = some e → e.state = .closed) (now : Number) :
    ((({ c with entry := entry }).notifyState now).emitTransition c.currentState .closed).Tracked ∧
      (c.currentState = .closed → Tracked { c with entry := entry }) := by
  have hnotify := c.entry_notify_closed hentry now
  have hclosed : currentState { c with entry := entry } = .closed := by
    cases entry with
    | none => rfl
    | some e => exact hentry e rfl
  have hstate : ({ c with entry := entry }.notifyState now).currentState = .closed := by
    rw [currentState, hnotify.2]
    exact hclosed
  refine ⟨?_, fun hs => hc.stay rfl (by rw [hclosed, hs])⟩
  by_cases hs : c.currentState = .closed
  · rw [hs, emitTransition, if_pos rfl]
    exact hc.stay hnotify.1 (by rw [hstate, hs])
  · refine hc.move ?_ (by rw [currentState_emitTransition, hstate]) (by cases c.currentState <;> trivial)
    rw [transitions_emitTransition hs, hnotify.1]

theorem Tracked.recordSuccess (hc : c.Tracked) : (c.recordSuccess clock).Tracked := by
  unfold Circuit.recordSuccess
  cases hentry : c.entry with
  | none => exact hc
  | some entry =>
    have hread := hc.getCircuitState clock.read
    have hclose := hread.close (some { entry with
      state := .closed, failureCount := 0, lastSuccessAt := some clock.now, cooldownUntil := none })
      (by rintro e ⟨⟩; rfl) clock.reread
    simp only [getCircuitState_state]
    split_ifs with hs
    · exact hclose.1
    · exact hclose.2 (not_not.mp hs)

theorem Tracked.resetCircuit (hc : c.Tracked) : (c.resetCircuit clock).Tracked := by
  unfold Circuit.resetCircuit
  cases hentry : c.entry with
  | none => exact hc
  | some entry =>
    simp only [getCircuitState_state]
    exact ((hc.getCircuitState clock.read).close none (by rintro e ⟨⟩) clock.reread).1

theorem Tracked.withEntry (hc : c.Tracked) : c.withEntry.Tracked := by
  refine hc.stay rfl ?_
  rw [currentState, currentState, Circuit.withEntry]
  cases c.entry with
  | none => rfl
  | some entry => rfl

/-- The circuit once a failure has read its state. -/
def readBy (c : Circuit) (clock : ClockReadings) : Circuit :=
  (c.withEntry.getCircuitState clock.read).1

/-- A failure leaves the state it read, or opens a circuit that was not open. -/
theorem failing_state (c : Circuit) (options : FailureOptions) (clock : ClockReadings) :
    (c.failing options clock).1.state = (c.readBy clock).currentState ∧
      ((c.failing options clock).2.state = (c.readBy clock).currentState ∧
          (c.readBy clock).currentState ≠ .halfOpen ∨
        (c.failing options clock).2.state = .opened ∧ (c.readBy clock).currentState ≠ .opened) := by
  have hstate := getCircuitState_state c.withEntry clock.read
  refine ⟨hstate, ?_⟩
  rw [readBy, ← hstate]
  simp only [failing, failed]
  split_ifs with h
  · cases hs : (c.withEntry.getCircuitState clock.read).2.state with
    | opened => exact .inl ⟨rfl, by decide⟩
    | closed | halfOpen => exact .inr ⟨rfl, by decide⟩
  · exact .inl ⟨rfl, fun hs => h (.inl hs)⟩

/-- What a failure does, once the state has been read. -/
theorem recordFailure_eq (c : Circuit) (options : FailureOptions) (clock : ClockReadings) :
    c.recordFailure options clock =
      let c₂ := { c.readBy clock with entry := some (c.failing options clock).2 }
      if (c.failing options clock).2.state = (c.readBy clock).currentState then c₂
      else if (c.readBy clock).currentState = .halfOpen then
        (c₂.notifyState clock.reread).emitTransition (c.readBy clock).currentState .opened
      else (c₂.notifyState clock.reread).emitTransition (c.readBy clock).currentState
        (c₂.notifyState clock.reread).currentState := by
  obtain ⟨hread, hcases⟩ := c.failing_state options clock
  have heq : c.recordFailure options clock =
      let c₂ := { c.readBy clock with entry := some (c.failing options clock).2 }
      if (c.failing options clock).1.state = .halfOpen then
        (c₂.notifyState clock.reread).emitTransition (c.failing options clock).1.state .opened
      else if (c.failing options clock).2.state ≠ (c.failing options clock).1.state then
        (c₂.notifyState clock.reread).emitTransition (c.failing options clock).1.state
          (c₂.notifyState clock.reread).currentState
      else c₂ := rfl
  rw [heq, hread]
  rcases hcases with ⟨hsame, hne⟩ | ⟨hopened, hne⟩
  · simp only [if_neg hne, hsame, ne_eq, not_true_eq_false, if_false, if_true]
  · have hdiffers : (c.failing options clock).2.state ≠ (c.readBy clock).currentState := by
      rw [hopened]
      exact hne.symm
    simp only [if_neg hdiffers, if_pos hdiffers]

theorem Tracked.readBy (hc : c.Tracked) (clock : ClockReadings) : (c.readBy clock).Tracked :=
  hc.withEntry.getCircuitState clock.read

theorem Tracked.recordFailure (hc : c.Tracked) (hok : c.Patient (.recordFailure options, clock)) :
    (c.recordFailure options clock).Tracked := by
  obtain ⟨hread, hcases⟩ := c.failing_state options clock
  rw [recordFailure_eq]
  simp only
  rcases hcases with ⟨hsame, -⟩ | ⟨hopened, hne⟩
  · rw [if_pos hsame]
    exact (hc.readBy clock).stay rfl hsame
  · have hdiffers : (c.failing options clock).2.state ≠ (c.readBy clock).currentState := by
      rw [hopened]
      exact hne.symm
    have hover := hok options rfl (by rwa [hread])
    obtain ⟨ht, hentry⟩ := notifyState_of_not_over
      (c := { c.readBy clock with entry := some (c.failing options clock).2 }) rfl (.inr hover)
    have hafter : ({ c.readBy clock with entry := some (c.failing options clock).2 }.notifyState
        clock.reread).currentState = .opened := by
      rw [currentState, hentry]
      exact hopened
    rw [if_neg hdiffers, hafter, ite_self]
    refine (hc.readBy clock).move ?_ (by rw [currentState_emitTransition, hafter]) ?_
    · rw [transitions_emitTransition hne, ht]
      rfl
    · cases hs : (c.readBy clock).currentState with
      | opened => exact absurd hs hne
      | closed | halfOpen => trivial

/-- A failure that half-opens the circuit it opened breaks the chain. -/
theorem recordFailure_breaks (hc : c.Tracked) (hbad : ¬ c.Patient (.recordFailure options, clock)) :
    ¬ (c.recordFailure options clock).Orderly := by
  obtain ⟨hread, hcases⟩ := c.failing_state options clock
  simp only [Patient, not_forall] at hbad
  obtain ⟨_, ⟨⟩, hdiffers, hover⟩ := hbad
  rw [hread] at hdiffers
  rw [Bool.not_eq_false] at hover
  obtain ⟨hsame, -⟩ | ⟨hopened, hne⟩ := hcases
  · exact absurd hsame hdiffers
  obtain ⟨ht, hafter⟩ := notifyState_of_over
    (c := { c.readBy clock with entry := some (c.failing options clock).2 }) rfl hopened hover
  -- the notification tells of `open` to `half-open` before the circuit is told to be open
  have hbreak : ¬ Linked .closed ((c.readBy clock).transitions ++ [(.opened, .halfOpen)]) := by
    rw [linked_concat_iff, (hc.readBy clock).leads]
    exact fun h => hne h.2.symm
  rintro ⟨hlinked, -⟩
  rw [recordFailure_eq] at hlinked
  simp only [if_neg hdiffers, hafter] at hlinked
  split_ifs at hlinked with hhalf
  · rw [transitions_emitTransition (by rw [hhalf]; decide), ht, linked_append_iff] at hlinked
    exact hbreak hlinked.1
  · rw [transitions_emitTransition hhalf, ht, linked_append_iff] at hlinked
    exact hbreak hlinked.1

/-! No call takes back what the listeners were told. -/

theorem prefix_emitTransition (c : Circuit) (before after : CircuitState) :
    c.transitions <+: (c.emitTransition before after).transitions := by
  by_cases h : before = after
  · rw [emitTransition, if_pos h]
  · rw [transitions_emitTransition h]
    exact List.prefix_append _ _

theorem prefix_getCircuitState (c : Circuit) (now : Number) :
    c.transitions <+: (c.getCircuitState now).1.transitions := by
  rcases c.getCircuitState_cases now with h | ⟨_, -, -, -, -, ht, -⟩
  · rw [h]
  · rw [ht]
    exact List.prefix_append _ _

theorem prefix_notifyState (c : Circuit) (now : Number) :
    c.transitions <+: (c.notifyState now).transitions := by
  rw [notifyState, transitions_notifyListeners]
  exact c.prefix_getCircuitState now

/-- Whatever becomes of the entry, a notice is told after what was told before. -/
theorem prefix_tell {entry : Option CircuitStatus} {now : Number} {before after : CircuitState}
    (h : c.transitions <+: c'.transitions) : c.transitions <+:
      (({ c' with entry := entry }.notifyState now).emitTransition before after).transitions :=
  (h.trans (prefix_notifyState { c' with entry := entry } now)).trans (prefix_emitTransition _ _ _)

theorem prefix_call (c : Circuit) (e : Call × ClockReadings) :
    c.transitions <+: (c.call e.2 e.1).transitions := by
  obtain ⟨call, clock⟩ := e
  cases call with
  | recordFailure options =>
    have hread : c.transitions <+: (c.readBy clock).transitions :=
      c.withEntry.prefix_getCircuitState clock.read
    show _ <+: (c.recordFailure options clock).transitions
    rw [recordFailure_eq]
    simp only
    split_ifs
    · exact hread
    · exact prefix_tell hread
    · exact prefix_tell hread
  | recordSuccess =>
    have hread := c.prefix_getCircuitState clock.read
    show _ <+: (c.recordSuccess clock).transitions
    unfold recordSuccess
    cases c.entry with
    | none => exact List.prefix_rfl
    | some entry =>
      simp only
      split_ifs
      · exact prefix_tell hread
      · exact hread
  | getCircuitState => exact c.prefix_getCircuitState clock.read
  | resetCircuit =>
    have hread := c.prefix_getCircuitState clock.read
    show _ <+: (c.resetCircuit clock).transitions
    unfold resetCircuit
    cases c.entry with
    | none => exact List.prefix_rfl
    | some entry => exact prefix_tell hread

theorem Orderly.of_prefix (h : c.transitions <+: c'.transitions) (hc : c'.Orderly) : c.Orderly := by
  obtain ⟨ts, hts⟩ := h
  obtain ⟨hlinked, hlegal⟩ := hc
  rw [← hts] at hlinked hlegal
  exact ⟨(linked_append_iff.mp hlinked).1, fun t ht => hlegal t (List.mem_append_left _ ht)⟩

theorem Tracked.call (hc : c.Tracked) {e : Call × ClockReadings} (hok : c.Patient e) :
    (c.call e.2 e.1).Tracked := by
  obtain ⟨call, clock⟩ := e
  cases call with
  | recordFailure options => exact hc.recordFailure hok
  | recordSuccess => exact hc.recordSuccess
  | getCircuitState => exact hc.getCircuitState clock.read
  | resetCircuit => exact hc.resetCircuit

/-- **The transitions form a chain** from `closed` on exactly when no failure that opens the circuit
finds its own cooldown over while it notifies. -/
theorem transitions_linked_iff {log : List (Call × ClockReadings)} (h : run step {} log = some c) :
    c.Orderly ↔ EachStep step Patient {} log := by
  refine run_iff_eachStep (I := Tracked) (fun _ hc => hc.orderly) ?_ ?_ ?_ ?_ h
  · exact ⟨⟨trivial, by rintro t ⟨⟩⟩, rfl⟩
  · rintro c e c' hc hok ⟨⟩
    exact hc.call hok
  · rintro c ⟨call, clock⟩ c' hc hbad ⟨⟩
    cases call with
    | recordFailure options => exact recordFailure_breaks hc hbad
    | recordSuccess | getCircuitState | resetCircuit => exact absurd (by rintro _ ⟨⟩) hbad
  · rintro c e c' hc ⟨⟩ horderly
    exact hc (horderly.of_prefix (c.prefix_call e))

end Chain

def checkPatient (c : Circuit) (e : Call × ClockReadings) : Bool :=
  match e.1 with
  | .recordFailure options =>
    decide ((c.failing options e.2).2.state = (c.failing options e.2).1.state) ||
      !cooldownOver (c.failing options e.2).2.cooldownUntil e.2.reread
  | _ => true

/-- One failure opens the circuit, a read half-opens it half a minute later, and a success closes
it. -/
def openAndRecover : List (Call × ClockReadings) :=
  [(.recordFailure { threshold := some (.fin 1) }, ⟨.fin 1000, .fin 1000, .fin 1000⟩),
    (.getCircuitState, ⟨.fin 31000, .fin 31000, .fin 31000⟩),
    (.recordSuccess, ⟨.fin 31001, .fin 31001, .fin 31002⟩)]

theorem transitions_linked_recover : ∃ c, run step {} openAndRecover = some c ∧ c.Orderly := by
  have hcheck : ∀ c e, checkPatient c e = true → Patient c e := by
    rintro c ⟨call, clock⟩ h options rfl hdiffers
    simp only [checkPatient, Bool.or_eq_true, decide_eq_true_iff, Bool.not_eq_true'] at h
    exact h.resolve_left hdiffers
  have hsteps : EachStep step Patient {} openAndRecover := .of_allSteps hcheck (by decide +kernel)
  obtain ⟨c, hc⟩ := Option.isSome_iff_exists.mp
    (by decide : (run step {} openAndRecover).isSome = true)
  exact ⟨c, hc, (transitions_linked_iff hc).mpr hsteps⟩

/-- A failure that opens the circuit, with a cooldown of nothing. -/
def noCooldown : List (Call × ClockReadings) :=
  [(.recordFailure { threshold := some (.fin 1), cooldownMs := some (.fin 0) },
    ⟨.fin 1000, .fin 1000, .fin 1000⟩)]

theorem half_opens_before_open : ¬ ∀ log c, run step {} log = some c → c.Orderly := by
  intro h
  obtain ⟨c, hc, ht⟩ := Option.map_eq_some_iff.mp (by decide +kernel :
    (run step {} noCooldown).map transitions = some [(.opened, .halfOpen), (.closed, .halfOpen)])
  have hlinked := (h noCooldown c hc).1
  rw [ht] at hlinked
  cases hlinked.1

end Circuit

end StreamFi
