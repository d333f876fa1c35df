import StreamFi.Js.Value
import StreamFi.Run.Pool
import StreamFi.Run.Recent
import StreamFi.Indexer.Ledgers

/-!
# Subscriptions

`subscribeToStream` polls the events of a stream and dispatches them to handlers. Where it finds a gap
it fetches once more, while it polls on: a skip of sequence numbers is replayed, a skip of ledgers is
backfilled, and a window of recent ids keeps what overlaps apart.

* `Subscription.seen`, `replayGap`, `backfillLedgerGap`: the code;
* `Subscription.step`: requests are answered in any order; a task, once begun, runs on to its next
  `await`, and a handler that it calls may unsubscribe;
* **`step_move`**: what a step can do to the recoveries and to what was dispatched.
-/

namespace StreamFi

open Js Run

/-! ## Events -/

/-- `topics[2]`, as `scValToU64` reads it. -/
inductive SequenceTopic where
  | absent
  | u64 (n : ℕ)
  | malformed
  deriving DecidableEq

/-- `SorobanRpc.Api.EventResponse`. The ledger is there when it is a number. -/
structure EventResponse where
  id : Option String
  ledger : Option Number
  sequence : SequenceTopic
  deriving DecidableEq

/-- The sequence that an event carries. -/
def EventResponse.number (event : EventResponse) : Option ℕ :=
  match event.sequence with
  | .u64 n => some n
  | _ => none

/-- The id under which an event is recorded. -/
def EventResponse.key (event : EventResponse) : Option String := truthyText event.id

/-! ## The code -/

/-- The options among the handlers. -/
structure StreamEventHandlers where
  maxConsecutiveFailures : Option Number := none
  dedupWindowSize : Option Number := none

/-- `DEFAULT_DEDUP_WINDOW`. -/
def defaultDedupWindow : Number := .fin 1000

def StreamEventHandlers.windowSize (handlers : StreamEventHandlers) : Number :=
  handlers.dedupWindowSize.getD defaultDedupWindow

def StreamEventHandlers.maxFailures (handlers : StreamEventHandlers) : Number :=
  handlers.maxConsecutiveFailures.getD (.fin 10)

/-- A request of `getEvents`, for the contract's events. -/
structure EventsRequest where
  cursor : Option String := none
  startLedger : Option Number := none
  limit : ℕ
  deriving DecidableEq

/-- `SorobanRpc.Api.GetEventsResponse`. -/
structure EventsPage where
  events : List EventResponse
  cursor : Option String := none
  latestLedger : Option Number := none
  deriving DecidableEq

/-- What an event is dispatched by. -/
inductive Via where
  | poll
  | replay
  | backfill
  deriving DecidableEq

/-- What is called on the handlers, and when they are let go of. -/
inductive Notice where
  | dispatched (via : Via) (event : EventResponse)
  | gap (expected actual : ℕ)
  | ledgerGap (gap : LedgerGap)
  | error (err : Thrown)
  | unsubscribed
  deriving DecidableEq

inductive Polling where
  | waiting
  | seeding
  | fetching (request : EventsRequest)
  | processing
  | ended
  deriving DecidableEq

/-- A call of `replayGap` whose request is not done with. -/
structure GapReplay where
  expected : ℕ
  actual : ℕ
  request : EventsRequest
  deriving DecidableEq

/-- A call of `backfillLedgerGap` whose request is not done with. -/
structure LedgerBackfill where
  gap : LedgerGap
  request : EventsRequest
  deriving DecidableEq

/-- What is left to do before the next `await`: the poll observes the ledger of an event, delivers it,
and checks its sequence; a recovery delivers its events. -/
inductive Task where
  | observe (rest : List EventResponse) (page : EventsPage)
  | deliver (event : EventResponse) (rest : List EventResponse) (page : EventsPage)
  | check (sequence : ℕ) (rest : List EventResponse) (page : EventsPage)
  | replay (rest : List EventResponse)
  | backfill (rest : List EventResponse)
  deriving DecidableEq

/-- The variables of a subscription. `isReplaying` and `isBackfillingLedgerGap` are set while there
is a replay, and a backfill. -/
structure Subscription where
  startLedger : Number := .fin 0
  ledgerSeeded : Bool := false
  cursor : Option String := none
  consecutiveFailures : ℕ := 0
  stopped : Bool := false
  lastStartLedger : Number := .fin 0
  lastSequence : Option ℕ := none
  recentIds : List String := []
  ledgerGapDetector : LedgerGapDetector := {}
  polling : Polling := .waiting
  replaying : Option GapReplay := none
  backfilling : Option LedgerBackfill := none
  running : Option Task := none
  notices : List Notice := []
  deriving DecidableEq

/-- `this.ids.size > this.size`. -/
def tooMany (size : Number) (n : ℕ) : Bool := size.lt (.fin n)

/-- `RecentIdWindow.seen`: none when the id was seen, and otherwise the ids from then on. -/
def seen (size : Number) (ids : List String) (id : Option String) : Option (List String) :=
  match truthyText id with
  | none => some ids
  | some id => if size.le (.fin 0) then some ids else letIn (tooMany size) ids id

namespace Subscription

def note (s : Subscription) (notice : Notice) : Subscription :=
  { s with notices := s.notices ++ [notice] }

/-- `if (recentIds.seen(event.id)) continue;`, and `dispatchIsolated` otherwise. -/
def dispatch (handlers : StreamEventHandlers) (s : Subscription) (via : Via)
    (event : EventResponse) : Option Subscription :=
  (seen handlers.windowSize s.recentIds event.id).map fun ids =>
    { s with recentIds := ids }.note (.dispatched via event)

/-- `replayGap`, up to its request. -/
def replayGap (s : Subscription) (expected actual : ℕ) : Subscription :=
  if s.replaying.isSome ∨ s.lastStartLedger.le (.fin 0) then s
  else { s with replaying := some {
    expected := expected, actual := actual
    request := { startLedger := some s.lastStartLedger, limit := 200 } } }

/-- The events of a replay, by their sequence; none when one of them cannot be read. -/
def missed (replay : GapReplay) (events : List EventResponse) : Option (List EventResponse) :=
  if .malformed ∈ events.map (·.sequence) then none
  else
    let items := events.filterMap fun event => event.number.map fun n => (n, event)
    some (((items.filter fun item => replay.expected < item.1 ∧ item.1 < replay.actual).insertionSort
      fun a b => a.1 ≤ b.1).map (·.2))

/-- `backfillLedgerGap`, up to its request. -/
def backfillLedgerGap (s : Subscription) (gap : LedgerGap) : Subscription :=
  if s.backfilling.isSome then s
  else { s with backfilling := some {
    gap := gap, request := { startLedger := some gap.expected, limit := 200 } } }

/-- `event.ledger < gap.actual`. -/
def missedLedgers (backfill : LedgerBackfill) (events : List EventResponse) : List EventResponse :=
  events.filter fun event => match event.ledger with
    | some ledger => ledger.lt backfill.gap.actual
    | none => false

/-- The timer of the next poll, if there is to be one. -/
def schedule (s : Subscription) : Subscription :=
  { s with running := none, polling := if s.stopped then .ended else .waiting }

/-- The poll's `catch`. -/
def fail (handlers : StreamEventHandlers) (s : Subscription) (err : Thrown) : Subscription :=
  let error := if err.isError then err else errorOf "Error" err.text
  let failures := s.consecutiveFailures + 1
  schedule { s.note (.error error) with
    consecutiveFailures := failures
    stopped := s.stopped || handlers.maxFailures.le (.fin failures) }

/-- The request of a poll. -/
def request (s : Subscription) : EventsRequest :=
  match s.cursor with
  | some cursor => { cursor := some cursor, limit := 100 }
  | none => { startLedger := some s.startLedger, limit := 100 }

def poll (s : Subscription) : Subscription :=
  if s.stopped then { s with polling := .ended }
  else if ¬ s.ledgerSeeded ∧ s.cursor = none then { s with polling := .seeding }
  else { s with polling := .fetching s.request }

/-- The poll, once it knows the latest ledger. -/
def seed (s : Subscription) (sequence : Number) : Subscription :=
  let s := { s with startLedger := sequence, lastStartLedger := sequence, ledgerSeeded := true }
  { s with polling := .fetching s.request }

/-- The poll, after the last event of its page. -/
def turnPage (s : Subscription) (page : EventsPage) : Subscription :=
  let s := match truthyText page.cursor with
    | some cursor => { s with cursor := some cursor }
    | none =>
      let s := { s with cursor := none }
      match page.latestLedger with
      | some ledger => { s with startLedger := ledger.add (.fin 1), lastStartLedger := ledger }
      | none => s
  schedule { s with consecutiveFailures := 0 }

/-- The poll, with the ledger of its next event. -/
def observe (handlers : StreamEventHandlers) (s : Subscription) (event : EventResponse)
    (rest : List EventResponse) (page : EventsPage) : Subscription :=
  let next := Task.deliver event rest page
  match event.ledger with
  | none => { s with running := some next }
  | some ledger =>
    match s.ledgerGapDetector.observe ledger with
    | .error err => s.fail handlers err
    | .ok (d, none) => { s with ledgerGapDetector := d, running := some next }
    | .ok (d, some gap) =>
      let s := { s with ledgerGapDetector := d }.note (.ledgerGap gap)
      { s.backfillLedgerGap gap with running := some next }

/-- The poll, with the sequence of the event it has dispatched. -/
def check (s : Subscription) (sequence : ℕ) : Subscription :=
  let s := match s.lastSequence with
    | none => s
    | some last =>
      if sequence = last + 1 then s
      else (s.note (.gap (last + 1) sequence)).replayGap last sequence
  { s with lastSequence := some sequence }

/-- The poll, with an event whose ledger it has observed. -/
def deliver (handlers : StreamEventHandlers) (s : Subscription) (event : EventResponse)
    (rest : List EventResponse) (page : EventsPage) : Subscription :=
  match s.dispatch handlers .poll event with
  | none => { s with running := some (.observe rest page) }
  | some s => { s with running := some (match event.number with
    | some n => .check n rest page
    | none => .observe rest page) }

/-- One turn of a task. -/
def next (handlers : StreamEventHandlers) (s : Subscription) : Task → Subscription
  | .observe [] page => s.turnPage page
  | .observe (event :: rest) page => s.observe handlers event rest page
  | .deliver event rest page => s.deliver handlers event rest page
  | .check sequence rest page => { s.check sequence with running := some (.observe rest page) }
  | .replay [] => { s with replaying := none, running := none }
  | .replay (event :: rest) =>
    { (s.dispatch handlers .replay event).getD s with running := some (.replay rest) }
  | .backfill [] => { s with backfilling := none, running := none }
  | .backfill (event :: rest) =>
    { (s.dispatch handlers .backfill event).getD s with running := some (.backfill rest) }

def unsubscribe (s : Subscription) : Subscription :=
  { s.note .unsubscribed with
    stopped := true
    polling := if s.polling = .waiting then .ended else s.polling }

end Subscription

/-! ## Runs -/

/-- `next` goes on with a task; all else but `unsubscribe` waits until there is none. -/
inductive SubscriptionEvent where
  | poll
  | latestLedger (r : Except Thrown Number)
  | page (r : Except Thrown EventsPage)
  | replayed (r : Except Thrown (List EventResponse))
  | backfilled (r : Except Thrown (List EventResponse))
  | next
  | unsubscribe

namespace Subscription

/-- An answer to the request of a poll. -/
def answerPoll (handlers : StreamEventHandlers) (s : Subscription) :
    Except Thrown EventsPage → Subscription
  | .ok page => { s with
      consecutiveFailures := 0, polling := .processing
      running := some (.observe page.events page) }
  | .error err => s.fail handlers err

/-- An answer to the request of a replay. -/
def answerReplay (s : Subscription) (replay : GapReplay) :
    Except Thrown (List EventResponse) → Subscription
  | .ok events =>
    match missed replay events with
    | some events => { s with running := some (.replay events) }
    | none => { s with replaying := none }
  | .error _ => { s with replaying := none }

/-- An answer to the request of a backfill. -/
def answerBackfill (s : Subscription) (backfill : LedgerBackfill) :
    Except Thrown (List EventResponse) → Subscription
  | .ok events => { s with running := some (.backfill (missedLedgers backfill events)) }
  | .error _ => { s with backfilling := none }

def step (handlers : StreamEventHandlers) (s : Subscription) :
    SubscriptionEvent → Option Subscription
  | .unsubscribe => some s.unsubscribe
  | .next => s.running.map fun task => s.next handlers task
  | .poll => if s.running = none ∧ s.polling = .waiting then some s.poll else none
  | .latestLedger r =>
    if s.running = none ∧ s.polling = .seeding then
      match r with
      | .ok sequence => some (s.seed sequence)
      | .error err => some (s.fail handlers err)
    else none
  | .page r =>
    match s.running, s.polling with
    | none, .fetching _ => some (s.answerPoll handlers r)
    | _, _ => none
  | .replayed r =>
    match s.running, s.replaying with
    | none, some replay => some (s.answerReplay replay r)
    | _, _ => none
  | .backfilled r =>
    match s.running, s.backfilling with
    | none, some backfill => some (s.answerBackfill backfill r)
    | _, _ => none

/-! ## What a step does -/

end Subscription

/-- A notice that is about no event and no gap. -/
def Notice.Idle : Notice → Prop
  | .error _ | .unsubscribed => True
  | _ => False

def dispatchedIds (notices : List Notice) : List String :=
  notices.filterMap fun
    | .dispatched _ event => event.key
    | _ => none

namespace Subscription

variable {handlers : StreamEventHandlers} {s s' : Subscription} {e : SubscriptionEvent}

/-- Nothing is left to do, or another event is to be observed. -/
def AtRest (running : Option Task) : Prop :=
  running = none ∨ ∃ rest page, running = some (.observe rest page)

/-- What deduplication and the recoveries depend on is left alone. -/
structure Same (s s' : Subscription) : Prop where
  ids : s'.recentIds = s.recentIds
  sequence : s'.lastSequence = s.lastSequence
  replaying : s'.replaying = s.replaying
  backfilling : s'.backfilling = s.backfilling
  running : s'.running = s.running ∨ AtRest s.running ∧ AtRest s'.running
  notices : ∃ l, s'.notices = s.notices ++ l ∧ ∀ notice ∈ l, notice.Idle

/-- **What a step can do.** -/
inductive Move (handlers : StreamEventHandlers) (s : Subscription) :
    SubscriptionEvent → Subscription → Prop
  | same {e : SubscriptionEvent} {s' : Subscription} (h : s.Same s') : Move handlers s e s'
  | observed {event : EventResponse} {rest : List EventResponse} {page : EventsPage} (d : LedgerGapDetector)
      (hrun : s.running = some (.observe (event :: rest) page)) :
      Move handlers s .next { s with
        ledgerGapDetector := d, running := some (.deliver event rest page) }
  | ledgerGap {event : EventResponse} {rest : List EventResponse} {page : EventsPage}
      {ledger : Number} {d : LedgerGapDetector} {gap : LedgerGap}
      (hrun : s.running = some (.observe (event :: rest) page)) (hledger : event.ledger = some ledger)
      (hgap : s.ledgerGapDetector.observe ledger = .ok (d, some gap)) :
      Move handlers s .next
        { ({ s with ledgerGapDetector := d }.note (.ledgerGap gap)).backfillLedgerGap gap with
          running := some (.deliver event rest page) }
  | heldBack {event : EventResponse} {rest : List EventResponse} {page : EventsPage}
      (hrun : s.running = some (.deliver event rest page))
      (h : s.dispatch handlers .poll event = none) :
      Move handlers s .next { s with running := some (.observe rest page) }
  | delivered {event : EventResponse} {rest : List EventResponse} {page : EventsPage}
      {s₁ : Subscription} (hrun : s.running = some (.deliver event rest page))
      (h : s.dispatch handlers .poll event = some s₁) :
      Move handlers s .next { s₁ with running := some (match event.number with
        | some n => .check n rest page
        | none => .observe rest page) }
  | checked {n : ℕ} {rest : List EventResponse} {page : EventsPage}
      (hrun : s.running = some (.check n rest page)) :
      Move handlers s .next { s.check n with running := some (.observe rest page) }
  | replayAnswered {replay : GapReplay} {r : Except Thrown (List EventResponse)}
      (hrun : s.running = none) (h : s.replaying = some replay) :
      Move handlers s (.replayed r) (s.answerReplay replay r)
  | replayed {event : EventResponse} {rest : List EventResponse}
      (hrun : s.running = some (.replay (event :: rest))) :
      Move handlers s .next
        { (s.dispatch handlers .replay event).getD s with running := some (.replay rest) }
  | replayDone (hrun : s.running = some (.replay [])) :
      Move handlers s .next { s with replaying := none, running := none }
  | backfillAnswered {backfill : LedgerBackfill} {r : Except Thrown (List EventResponse)}
      (hrun : s.running = none) (h : s.backfilling = some backfill) :
      Move handlers s (.backfilled r) (s.answerBackfill backfill r)
  | backfilled {event : EventResponse} {rest : List EventResponse}
      (hrun : s.running = some (.backfill (event :: rest))) :
      Move handlers s .next
        { (s.dispatch handlers .backfill event).getD s with running := some (.backfill rest) }
  | backfillDone (hrun : s.running = some (.backfill [])) :
      Move handlers s .next { s with backfilling := none, running := none }

theorem Same.of_fail (h : AtRest s.running) (err : Thrown) : s.Same (s.fail handlers err) :=
  ⟨rfl, rfl, rfl, rfl, .inr ⟨h, .inl rfl⟩, _, rfl, by simp [Notice.Idle]⟩

theorem Same.of_eq (hids : s'.recentIds = s.recentIds) (hseq : s'.lastSequence = s.lastSequence)
    (hreplaying : s'.replaying = s.replaying) (hbackfilling : s'.backfilling = s.backfilling)
    (hnotices : s'.notices = s.notices)
    (hrun : s'.running = s.running ∨ AtRest s.running ∧ AtRest s'.running) : s.Same s' :=
  ⟨hids, hseq, hreplaying, hbackfilling, hrun, [], by rw [hnotices, List.append_nil], by simp⟩

theorem Same.of_turnPage (h : AtRest s.running) (page : EventsPage) : s.Same (s.turnPage page) := by
  unfold turnPage
  cases truthyText page.cursor with
  | some cursor => exact .of_eq rfl rfl rfl rfl rfl (.inr ⟨h, .inl rfl⟩)
  | none =>
    cases page.latestLedger with
    | some ledger => exact .of_eq rfl rfl rfl rfl rfl (.inr ⟨h, .inl rfl⟩)
    | none => exact .of_eq rfl rfl rfl rfl rfl (.inr ⟨h, .inl rfl⟩)

theorem move_observe {event : EventResponse} {rest : List EventResponse} {page : EventsPage}
    (hrun : s.running = some (.observe (event :: rest) page)) :
    Move handlers s .next (s.observe handlers event rest page) := by
  unfold observe
  cases hledger : event.ledger with
  | none => exact .observed s.ledgerGapDetector hrun
  | some ledger =>
    cases hobserve : s.ledgerGapDetector.observe ledger with
    | error err =>
      simp only [hobserve]
      exact .same (.of_fail (.inr ⟨_, _, hrun⟩) err)
    | ok r =>
      obtain ⟨d, gap⟩ := r
      cases gap with
      | none =>
        simp only [hobserve]
        exact .observed d hrun
      | some gap =>
        simp only [hobserve]
        exact .ledgerGap hrun hledger hobserve

theorem move_next {task : Task} (hrun : s.running = some task) :
    Move handlers s .next (s.next handlers task) := by
  cases task with
  | observe rest page =>
    cases rest with
    | nil => exact .same (.of_turnPage (.inr ⟨_, _, hrun⟩) page)
    | cons event rest => exact move_observe hrun
  | deliver event rest page =>
    change Move handlers s .next (s.deliver handlers event rest page)
    unfold deliver
    cases h : s.dispatch handlers .poll event with
    | none => exact .heldBack hrun h
    | some s₁ => exact .delivered hrun h
  | check n rest page => exact .checked hrun
  | replay rest =>
    cases rest with
    | nil => exact .replayDone hrun
    | cons event rest => exact .replayed hrun
  | backfill rest =>
    cases rest with
    | nil => exact .backfillDone hrun
    | cons event rest => exact .backfilled hrun

/-- **Each step is a move.** -/
theorem step_move (h : s.step handlers e = some s') : Move handlers s e s' := by
  cases e with
  | unsubscribe =>
    cases h
    exact .same ⟨rfl, rfl, rfl, rfl, .inl rfl, _, rfl, by simp [Notice.Idle]⟩
  | next =>
    obtain ⟨task, hrun, rfl⟩ := Option.map_eq_some_iff.mp h
    exact move_next hrun
  | poll =>
    rw [step] at h
    split_ifs at h
    cases h
    unfold poll
    split_ifs <;> exact .same (.of_eq rfl rfl rfl rfl rfl (.inl rfl))
  | latestLedger r =>
    simp only [step] at h
    split_ifs at h with hidle
    cases r with
    | ok sequence =>
      cases h
      exact .same (.of_eq rfl rfl rfl rfl rfl (.inl rfl))
    | error err =>
      cases h
      exact .same (.of_fail (.inl hidle.1) err)
  | page r =>
    simp only [step] at h
    split at h
    · rename_i hrun _
      cases h
      cases r with
      | ok page => exact .same (.of_eq rfl rfl rfl rfl rfl (.inr ⟨.inl hrun, .inr ⟨_, _, rfl⟩⟩))
      | error err => exact .same (.of_fail (.inl hrun) err)
    · cases h
  | replayed r =>
    simp only [step] at h
    split at h
    · rename_i hrun hreplaying
      cases h
      exact .replayAnswered hrun hreplaying
    · cases h
  | backfilled r =>
    simp only [step] at h
    split at h
    · rename_i hrun hbackfilling
      cases h
      exact .backfillAnswered hrun hbackfilling
    · cases h

/-! Each function on the variables it leaves alone. -/

theorem dispatch_eq {via : Via} {event : EventResponse} {s₁ : Subscription}
    (h : s.dispatch handlers via event = some s₁) :
    ∃ ids, seen handlers.windowSize s.recentIds event.id = some ids ∧
      s₁ = { s with recentIds := ids }.note (.dispatched via event) := by
  obtain ⟨ids, hids, rfl⟩ := Option.map_eq_some_iff.mp h
  exact ⟨ids, hids, rfl⟩

/-- An event that a recovery comes to is dispatched, or was seen. -/
theorem dispatch_getD_cases (handlers : StreamEventHandlers) (s : Subscription) (via : Via)
    (event : EventResponse) :
    (seen handlers.windowSize s.recentIds event.id = none ∧
        (s.dispatch handlers via event).getD s = s) ∨
      ∃ ids, seen handlers.windowSize s.recentIds event.id = some ids ∧
        (s.dispatch handlers via event).getD s =
          { s with recentIds := ids }.note (.dispatched via event) := by
  unfold dispatch
  cases h : seen handlers.windowSize s.recentIds event.id with
  | none => exact .inl ⟨rfl, rfl⟩
  | some ids => exact .inr ⟨ids, rfl, rfl⟩

@[simp] theorem lastSequence_dispatch (handlers : StreamEventHandlers) (s : Subscription) (via : Via)
    (event : EventResponse) :
    ((s.dispatch handlers via event).getD s).lastSequence = s.lastSequence := by
  rcases s.dispatch_getD_cases handlers via event with ⟨-, heq⟩ | ⟨ids, -, heq⟩
  · rw [heq]
  · rw [heq]
    rfl

theorem replayGap_cases (s : Subscription) (expected actual : ℕ) :
    s.replayGap expected actual = s ∧
        (s.replaying.isSome = true ∨ s.lastStartLedger.le (.fin 0) = true) ∨
      s.replaying = none ∧ s.lastStartLedger.le (.fin 0) = false ∧
        ∃ request, s.replayGap expected actual =
          { s with replaying := some ⟨expected, actual, request⟩ } := by
  unfold replayGap
  split_ifs with h
  · exact .inl ⟨rfl, h⟩
  · rw [not_or, Option.not_isSome_iff_eq_none, Bool.not_eq_true] at h
    exact .inr ⟨h.1, h.2, _, rfl⟩

theorem backfillLedgerGap_cases (s : Subscription) (gap : LedgerGap) :
    s.backfillLedgerGap gap = s ∧ s.backfilling.isSome = true ∨
      s.backfilling = none ∧
        ∃ request, s.backfillLedgerGap gap = { s with backfilling := some ⟨gap, request⟩ } := by
  unfold backfillLedgerGap
  split_ifs with h
  · exact .inl ⟨rfl, h⟩
  · rw [Option.not_isSome_iff_eq_none] at h
    exact .inr ⟨h, _, rfl⟩

@[simp] theorem recentIds_replayGap (s : Subscription) (expected actual : ℕ) :
    (s.replayGap expected actual).recentIds = s.recentIds := by
  unfold replayGap
  split_ifs <;> rfl

@[simp] theorem notices_replayGap (s : Subscription) (expected actual : ℕ) :
    (s.replayGap expected actual).notices = s.notices := by
  unfold replayGap
  split_ifs <;> rfl

@[simp] theorem recentIds_backfillLedgerGap (s : Subscription) (gap : LedgerGap) :
    (s.backfillLedgerGap gap).recentIds = s.recentIds := by
  unfold backfillLedgerGap
  split_ifs <;> rfl

@[simp] theorem notices_backfillLedgerGap (s : Subscription) (gap : LedgerGap) :
    (s.backfillLedgerGap gap).notices = s.notices := by
  unfold backfillLedgerGap
  split_ifs <;> rfl

@[simp] theorem lastSequence_backfillLedgerGap (s : Subscription) (gap : LedgerGap) :
    (s.backfillLedgerGap gap).lastSequence = s.lastSequence := by
  unfold backfillLedgerGap
  split_ifs <;> rfl

@[simp] theorem replaying_backfillLedgerGap (s : Subscription) (gap : LedgerGap) :
    (s.backfillLedgerGap gap).replaying = s.replaying := by
  unfold backfillLedgerGap
  split_ifs <;> rfl

@[simp] theorem backfilling_replayGap (s : Subscription) (expected actual : ℕ) :
    (s.replayGap expected actual).backfilling = s.backfilling := by
  unfold replayGap
  split_ifs <;> rfl

/-- The answer to a replay's request gives it its events, or ends it. -/
theorem answerReplay_cases (s : Subscription) (replay : GapReplay)
    (r : Except Thrown (List EventResponse)) :
    (∃ page events, r = .ok page ∧ missed replay page = some events ∧
        s.answerReplay replay r = { s with running := some (.replay events) }) ∨
      s.answerReplay replay r = { s with replaying := none } ∧
        ∀ page, r = .ok page → missed replay page = none := by
  unfold answerReplay
  cases r with
  | error err => exact .inr ⟨rfl, by rintro page ⟨⟩⟩
  | ok page =>
    cases hmissed : missed replay page with
    | some events => exact .inl ⟨page, events, rfl, hmissed, by simp only [hmissed]⟩
    | none => exact .inr ⟨by simp only [hmissed], by rintro _ ⟨⟩; exact hmissed⟩

/-- The events of a replay are those of the page that lie in its gap. -/
theorem mem_missed {replay : GapReplay} {page events : List EventResponse}
    (h : missed replay page = some events) {event : EventResponse} : event ∈ events ↔
      event ∈ page ∧ ∃ n, event.number = some n ∧ replay.expected < n ∧ n < replay.actual := by
  unfold missed at h
  split_ifs at h
  cases h
  simp only [List.mem_map, List.mem_insertionSort, List.mem_filter, List.mem_filterMap,
    Option.map_eq_some_iff, decide_eq_true_iff]
  constructor
  · rintro ⟨_, ⟨⟨a, ha, n, hn, rfl⟩, hgap⟩, rfl⟩
    exact ⟨ha, n, hn, hgap⟩
  · rintro ⟨ha, n, hn, hgap⟩
    exact ⟨(n, event), ⟨⟨event, ha, n, hn, rfl⟩, hgap⟩, rfl⟩

/-- The check of a sequence reports a gap, or none. -/
theorem check_cases (s : Subscription) (n : ℕ) :
    s.check n = { s with lastSequence := some n } ∧
        (∀ last, s.lastSequence = some last → n = last + 1) ∨
      ∃ last, s.lastSequence = some last ∧ n ≠ last + 1 ∧
        s.check n = { (s.note (.gap (last + 1) n)).replayGap last n with
          lastSequence := some n } := by
  unfold check
  cases hlast : s.lastSequence with
  | none => exact .inl ⟨rfl, by rintro last ⟨⟩⟩
  | some last =>
    by_cases h : n = last + 1
    · exact .inl ⟨by simp only [if_pos h], by rintro _ ⟨⟩; exact h⟩
    · exact .inr ⟨last, rfl, h, by simp only [if_neg h]⟩

/-- Nothing takes back what was called. -/
theorem Move.notices_grow (hs : Move handlers s e s') : s.notices <+: s'.notices := by
  have hdispatch (via : Via) (event : EventResponse) :
      s.notices <+: ((s.dispatch handlers via event).getD s).notices := by
    rcases s.dispatch_getD_cases handlers via event with ⟨-, heq⟩ | ⟨_, -, heq⟩
    · rw [heq]
    · rw [heq]
      exact List.prefix_append _ _
  cases hs with
  | same h =>
    obtain ⟨l, hl, -⟩ := h.notices
    exact ⟨l, hl.symm⟩
  | observed | heldBack | replayDone | backfillDone => exact List.prefix_rfl
  | ledgerGap => simp only [notices_backfillLedgerGap, note, List.prefix_append]
  | delivered hrun h =>
    obtain ⟨_, -, rfl⟩ := dispatch_eq h
    exact List.prefix_append _ _
  | @checked n rest page hrun =>
    rcases s.check_cases n with ⟨heq, -⟩ | ⟨_, -, -, heq⟩
    · rw [heq]
    · rw [heq]
      simp only [notices_replayGap, note, List.prefix_append]
  | @replayAnswered replay r hrun h =>
    rcases s.answerReplay_cases replay r with ⟨_, _, -, -, heq⟩ | ⟨heq, -⟩ <;> rw [heq]
  | @backfillAnswered backfill r hrun h => cases r <;> exact List.prefix_rfl
  | replayed | backfilled => exact hdispatch _ _

/-! A first poll, and its page. -/

def sequenceEvent (n : ℕ) : EventResponse := ⟨some s!"event-{n}", some (.fin 100), .u64 n⟩

/-- A poll that gets the events of these sequences. -/
def pageOf (ns : List ℕ) : List SubscriptionEvent :=
  [.poll, .latestLedger (.ok (.fin 100)), .page (.ok { events := ns.map sequenceEvent })] ++
    List.replicate (3 * ns.length + 1) .next

end Subscription

end StreamFi
