import StreamFi.Config.Readers
import StreamFi.Js.Rounding

/-!
# Contract events

The first topic of a contract event names its kind, the second the actor, the third its sequence
number; the rest is in its value. The handlers of a subscription, `parseStreamEvent` and
`getStreamHistory` all see an event through `dispatchEvent`, with three tables of handlers.

* `dispatchEvent`, `parseStreamEvent`, `getStreamHistory`: the code;
* **`getStreamHistory_records_iff`**: a page of the history is what `parseStreamEvent` makes of the
  events exactly when none of them is of the four kinds that the history has no handler for.
-/

namespace StreamFi

open Js

/-! ## Topics -/

/-- `TOPIC`. -/
inductive StreamTopic where
  | withdrawn
  | cancelled
  | paused
  | resumed
  | toppedUp
  | clawback
  | created
  | forceCancelled
  | recipientTransferred
  | operatorSet
  | operatorRevoked
  deriving DecidableEq

namespace StreamTopic

def all : List StreamTopic :=
  [withdrawn, cancelled, paused, resumed, toppedUp, clawback, created, forceCancelled,
    recipientTransferred, operatorSet, operatorRevoked]

def name : StreamTopic → String
  | withdrawn => "withdrawn"
  | cancelled => "cancelled"
  | paused => "paused"
  | resumed => "resumed"
  | toppedUp => "topped_up"
  | clawback => "clawback"
  | created => "created"
  | forceCancelled => "force_cxl"
  | recipientTransferred => "xfer_rec"
  | operatorSet => "set_op"
  | operatorRevoked => "rm_op"

/-- The `case` of a name. -/
def ofName (name : String) : Option StreamTopic := all.find? fun topic => topic.name = name

theorem ofName_iff {name : String} {topic : StreamTopic} :
    ofName name = some topic ↔ topic.name = name := by
  constructor
  · intro h
    simpa using List.find?_some h
  · rintro rfl
    cases topic <;> rfl

end StreamTopic

/-- `SorobanRpc.Api.EventResponse`, with its topics and value. -/
structure RawEvent where
  id : Option String
  ledger : Option Number
  ledgerClosedAt : String
  txHash : String
  pagingToken : Option String := none
  topic : List ScVal
  value : ScVal

/-! ## Payloads -/

structure WithdrawEvent where
  recipient : String
  amount : ℤ
  totalWithdrawn : ℤ
  remaining : ℤ
  sequence : Option ℤ
  deriving DecidableEq

structure CancelEvent where
  sender : String
  refundAmount : ℤ
  withdrawnSoFar : ℤ
  sequence : Option ℤ
  deriving DecidableEq

structure PauseEvent where
  sender : String
  pausedAt : Number
  withdrawable : ℤ
  sequence : Option ℤ
  deriving DecidableEq

structure ResumeEvent where
  sender : String
  resumedAt : Number
  sequence : Option ℤ
  deriving DecidableEq

structure StreamTopUpEvent where
  sender : String
  amount : ℤ
  newBalance : ℤ
  sequence : Option ℤ
  deriving DecidableEq

structure StreamClawbackedEvent where
  sender : String
  amount : ℤ
  sequence : Option ℤ
  deriving DecidableEq

structure CreatedEvent where
  sender : String
  recipient : String
  token : String
  depositAmount : ℤ
  ratePerSecond : ℤ
  startTime : Number
  endTime : Number
  sequence : Option ℤ
  deriving DecidableEq

structure ForceCancelEvent where
  recipient : String
  payoutAmount : ℤ
  refundAmount : ℤ
  sequence : Option ℤ
  deriving DecidableEq

structure RecipientTransferEvent where
  previousRecipient : String
  newRecipient : String
  sequence : Option ℤ
  deriving DecidableEq

structure OperatorSetEvent where
  sender : String
  operator : String
  sequence : Option ℤ
  deriving DecidableEq

structure OperatorRevokedEvent where
  sender : String
  operator : String
  sequence : Option ℤ
  deriving DecidableEq

/-! ## The dispatcher -/

/-- `val.vec() ?? []`. -/
def tupleFields : ScVal → Except Thrown (List ScVal)
  | .vec fields => .ok fields
  | .void => .ok []
  | _ => .error (errorOf "TypeError" "vec not set")

/-- A field that is missing is `0n`. -/
def i128Field (fields : List ScVal) (index : ℕ) : Except Thrown ℤ :=
  (fields[index]?.mapM i128OrThrow).map fun n => n.getD 0

def u64Field (fields : List ScVal) (index : ℕ) : Except Thrown Number :=
  (fields[index]?.mapM numberFromU64).map fun n => n.getD (.fin 0)

/-- What is no address is the empty text. -/
def addressField (val : Option ScVal) : String :=
  match val.map addressFromScVal with
  | some (.ok a) => a
  | _ => ""

def addressFieldAt (fields : List ScVal) (index : ℕ) : String := addressField fields[index]?

/-- The handlers that are set, with what a call of one of them is. -/
structure EventHandlers (ρ : Type) where
  onWithdraw : Option (WithdrawEvent → ρ) := none
  onCancel : Option (CancelEvent → ρ) := none
  onPause : Option (PauseEvent → ρ) := none
  onResume : Option (ResumeEvent → ρ) := none
  onTopUp : Option (StreamTopUpEvent → ρ) := none
  onClawback : Option (StreamClawbackedEvent → ρ) := none
  onCreated : Option (CreatedEvent → ρ) := none
  onForceCancel : Option (ForceCancelEvent → ρ) := none
  onRecipientTransfer : Option (RecipientTransferEvent → ρ) := none
  onOperatorSet : Option (OperatorSetEvent → ρ) := none
  onOperatorRevoke : Option (OperatorRevokedEvent → ρ) := none

section Payloads

variable (actor : String) (sequence : Option ℤ) (value : ScVal)

def withdrawEvent : Except Thrown WithdrawEvent := do
  let fields ← tupleFields value
  let amount ← i128Field fields 0
  let totalWithdrawn ← i128Field fields 1
  let remaining ← i128Field fields 2
  return {
    recipient := actor, amount := amount, totalWithdrawn := totalWithdrawn
    remaining := remaining, sequence := sequence }

def cancelEvent : Except Thrown CancelEvent := do
  let fields ← tupleFields value
  let refundAmount ← i128Field fields 0
  let withdrawnSoFar ← i128Field fields 1
  return {
    sender := actor, refundAmount := refundAmount, withdrawnSoFar := withdrawnSoFar
    sequence := sequence }

def pauseEvent : Except Thrown PauseEvent := do
  let fields ← tupleFields value
  let pausedAt ← u64Field fields 0
  let withdrawable ← i128Field fields 1
  return { sender := actor, pausedAt := pausedAt, withdrawable := withdrawable, sequence := sequence }

/-- The value is a bare scalar. -/
def resumeEvent : Except Thrown ResumeEvent := do
  let resumedAt ← numberFromU64 value
  return { sender := actor, resumedAt := resumedAt, sequence := sequence }

def topUpEvent : Except Thrown StreamTopUpEvent := do
  let fields ← tupleFields value
  let amount ← i128Field fields 0
  let newBalance ← i128Field fields 1
  return { sender := actor, amount := amount, newBalance := newBalance, sequence := sequence }

/-- The value is a bare scalar. -/
def clawbackEvent : Except Thrown StreamClawbackedEvent := do
  let amount ← i128OrThrow value
  return { sender := actor, amount := amount, sequence := sequence }

def createdEvent : Except Thrown CreatedEvent := do
  let fields ← tupleFields value
  let depositAmount ← i128Field fields 2
  let ratePerSecond ← i128Field fields 3
  let startTime ← u64Field fields 4
  let endTime ← u64Field fields 5
  return {
    sender := actor, recipient := addressFieldAt fields 0, token := addressFieldAt fields 1
    depositAmount := depositAmount, ratePerSecond := ratePerSecond, startTime := startTime
    endTime := endTime, sequence := sequence }

def forceCancelEvent : Except Thrown ForceCancelEvent := do
  let fields ← tupleFields value
  let payoutAmount ← i128Field fields 0
  let refundAmount ← i128Field fields 1
  return {
    recipient := actor, payoutAmount := payoutAmount, refundAmount := refundAmount
    sequence := sequence }

/-- The value is a bare address. -/
def recipientTransferEvent : Except Thrown RecipientTransferEvent :=
  .ok { previousRecipient := actor, newRecipient := addressField (some value), sequence := sequence }

def operatorSetEvent : Except Thrown OperatorSetEvent :=
  .ok { sender := actor, operator := addressField (some value), sequence := sequence }

def operatorRevokedEvent : Except Thrown OperatorRevokedEvent :=
  .ok { sender := actor, operator := addressField (some value), sequence := sequence }

/-- The `switch`: without a handler for the topic, the value is not looked at. -/
def callHandler {ρ : Type} (handlers : EventHandlers ρ) : StreamTopic → Except Thrown (Option ρ)
  | .withdrawn => handlers.onWithdraw.mapM fun on => on <$> withdrawEvent actor sequence value
  | .cancelled => handlers.onCancel.mapM fun on => on <$> cancelEvent actor sequence value
  | .paused => handlers.onPause.mapM fun on => on <$> pauseEvent actor sequence value
  | .resumed => handlers.onResume.mapM fun on => on <$> resumeEvent actor sequence value
  | .toppedUp => handlers.onTopUp.mapM fun on => on <$> topUpEvent actor sequence value
  | .clawback => handlers.onClawback.mapM fun on => on <$> clawbackEvent actor sequence value
  | .created => handlers.onCreated.mapM fun on => on <$> createdEvent actor sequence value
  | .forceCancelled =>
    handlers.onForceCancel.mapM fun on => on <$> forceCancelEvent actor sequence value
  | .recipientTransferred =>
    handlers.onRecipientTransfer.mapM fun on => on <$> recipientTransferEvent actor sequence value
  | .operatorSet => handlers.onOperatorSet.mapM fun on => on <$> operatorSetEvent actor sequence value
  | .operatorRevoked =>
    handlers.onOperatorRevoke.mapM fun on => on <$> operatorRevokedEvent actor sequence value

end Payloads

/-- `dispatchEvent`: the sequence of the event, and the call of a handler, if there is one. -/
def dispatchEvent {ρ : Type} (event : RawEvent) (handlers : EventHandlers ρ) :
    Except Thrown (Option ℤ × Option ρ) :=
  match event.topic with
  | [] => .ok (none, none)
  | symbol :: _ => do
    let topicName ← keyName symbol
    let sequence ← event.topic[2]?.mapM u64OrThrow
    let called ← (StreamTopic.ofName topicName).elim (.ok none)
      (callHandler (addressField event.topic[1]?) sequence event.value handlers)
    return (sequence, called)

/-- `StreamEvent`. -/
inductive StreamEvent where
  | created (event : CreatedEvent)
  | withdrawn (event : WithdrawEvent)
  | toppedUp (event : StreamTopUpEvent)
  | paused (event : PauseEvent)
  | resumed (event : ResumeEvent)
  | cancelled (event : CancelEvent)
  | clawback (event : StreamClawbackedEvent)
  | forceCancelled (event : ForceCancelEvent)
  | recipientTransferred (event : RecipientTransferEvent)
  | operatorSet (event : OperatorSetEvent)
  | operatorRevoked (event : OperatorRevokedEvent)
  deriving DecidableEq

/-- The handlers of `parseStreamEvent`. -/
def parseHandlers : EventHandlers StreamEvent where
  onCreated := some .created
  onWithdraw := some .withdrawn
  onTopUp := some .toppedUp
  onPause := some .paused
  onResume := some .resumed
  onCancel := some .cancelled
  onClawback := some .clawback
  onForceCancel := some .forceCancelled
  onRecipientTransfer := some .recipientTransferred
  onOperatorSet := some .operatorSet
  onOperatorRevoke := some .operatorRevoked

def parseStreamEvent (event : RawEvent) : Except Thrown (Option StreamEvent) :=
  Prod.snd <$> dispatchEvent event parseHandlers

/-! ## What is called -/

section Called

variable {ρ : Type} (handlers : EventHandlers ρ)

/-- The call that `dispatchEvent` makes; none when it throws before it. -/
def called (event : RawEvent) : Option ρ := (dispatchEvent event handlers).toOption.bind Prod.snd

/-- The handler that is set for a payload, called with it. -/
def EventHandlers.on : StreamEvent → Option ρ
  | .created event => handlers.onCreated.map fun on => on event
  | .withdrawn event => handlers.onWithdraw.map fun on => on event
  | .toppedUp event => handlers.onTopUp.map fun on => on event
  | .paused event => handlers.onPause.map fun on => on event
  | .resumed event => handlers.onResume.map fun on => on event
  | .cancelled event => handlers.onCancel.map fun on => on event
  | .clawback event => handlers.onClawback.map fun on => on event
  | .forceCancelled event => handlers.onForceCancel.map fun on => on event
  | .recipientTransferred event => handlers.onRecipientTransfer.map fun on => on event
  | .operatorSet event => handlers.onOperatorSet.map fun on => on event
  | .operatorRevoked event => handlers.onOperatorRevoke.map fun on => on event

theorem toOption_call {α : Type} (handler : Option (α → ρ)) (x : Except Thrown α) :
    (handler.mapM fun on => on <$> x).toOption.join =
      x.toOption.bind fun event => handler.map fun on => on event := by
  cases handler <;> cases x <;> rfl

theorem callHandler_eq (actor : String) (sequence : Option ℤ) (value : ScVal) (topic : StreamTopic) :
    (callHandler actor sequence value handlers topic).toOption.join =
      (callHandler actor sequence value parseHandlers topic).toOption.join.bind handlers.on := by
  cases topic <;> simp only [callHandler, toOption_call, Option.bind_assoc] <;> rfl

/-- The `case` that an event falls under, and its sequence. -/
def eventCase (event : RawEvent) : Option (StreamTopic × Option ℤ) :=
  match event.topic with
  | [] => none
  | symbol :: _ => do
    let topicName ← (keyName symbol).toOption
    let sequence ← (event.topic[2]?.mapM u64OrThrow).toOption
    let topic ← StreamTopic.ofName topicName
    return (topic, sequence)

theorem called_eq_case (event : RawEvent) :
    called handlers event = (eventCase event).bind fun (topic, sequence) =>
      (callHandler (addressField event.topic[1]?) sequence event.value handlers topic).toOption.join := by
  unfold called dispatchEvent eventCase
  cases event.topic with
  | nil => rfl
  | cons symbol topics =>
    dsimp only
    cases keyName symbol with
    | error err => rfl
    | ok topicName =>
      cases (symbol :: topics)[2]?.mapM u64OrThrow with
      | error err => rfl
      | ok sequence =>
        simp only [ok_seq, Except.toOption, Option.bind_eq_bind, Option.bind_some]
        cases StreamTopic.ofName topicName with
        | none => rfl
        | some topic =>
          dsimp only [Option.elim, Option.pure_def, Option.bind_some]
          cases callHandler (addressField (symbol :: topics)[1]?) sequence event.value handlers
            topic <;> rfl

/-- **The handlers differ only in what they do with a payload.** -/
theorem called_eq (event : RawEvent) :
    called handlers event = (called parseHandlers event).bind handlers.on := by
  rw [called_eq_case, called_eq_case, Option.bind_assoc]
  exact congrArg _ (funext fun _ => callHandler_eq ..)

end Called

theorem keyName_iff {symbol : ScVal} {topic : StreamTopic} :
    keyName symbol = .ok topic.name ↔ symbol = .symbol topic.name := by
  constructor
  · intro h
    cases symbol with
    | symbol s =>
      cases h
      rfl
    | void => exact absurd (Except.ok.inj h) (by cases topic <;> decide)
    | _ => cases h
  · rintro rfl
    rfl

theorem toOption_eq_some_iff {α : Type} {x : Except Thrown α} {a : α} :
    x.toOption = some a ↔ x = .ok a := by
  cases x with
  | ok b => exact ⟨fun h => congrArg _ (Option.some.inj h), fun h => congrArg _ (Except.ok.inj h)⟩
  | error err =>
    constructor <;>
    · intro h
      cases h

theorem eventCase_iff {event : RawEvent} {topic : StreamTopic} {sequence : Option ℤ} :
    eventCase event = some (topic, sequence) ↔
      event.topic.head? = some (.symbol topic.name) ∧
        event.topic[2]?.mapM u64OrThrow = .ok sequence := by
  unfold eventCase
  cases event.topic with
  | nil =>
    constructor
    · intro h
      cases h
    · rintro ⟨h, -⟩
      cases h
  | cons symbol topics =>
    simp only [Option.bind_eq_bind, Option.bind_eq_some_iff, toOption_eq_some_iff,
      StreamTopic.ofName_iff, List.head?_cons, Option.some.injEq]
    constructor
    · rintro ⟨_, hname, _, hsequence, _, rfl, h⟩
      cases h
      exact ⟨keyName_iff.mp hname, hsequence⟩
    · rintro ⟨hsymbol, hsequence⟩
      exact ⟨_, keyName_iff.mpr hsymbol, _, hsequence, _, rfl, rfl⟩

/-! ## History -/

/-- `DEFAULT_HISTORY_LOOKBACK_LEDGERS`. -/
def defaultHistoryLookbackLedgers : Number := .fin 120000

/-- `DEFAULT_HISTORY_PAGE_SIZE`. -/
def defaultHistoryPageSize : Number := .fin 50

/-- `MAX_HISTORY_PAGE_SIZE`. -/
def maxHistoryPageSize : Number := .fin 200

structure StreamHistoryBase where
  id : Option String
  ledger : Option Number
  timestamp : String
  txHash : String
  deriving DecidableEq

/-- The kinds of a `StreamHistoryEntry`. -/
inductive HistoryPayload where
  | created (event : CreatedEvent)
  | withdraw (event : WithdrawEvent)
  | topUp (event : StreamTopUpEvent)
  | pause (event : PauseEvent)
  | resume (event : ResumeEvent)
  | cancel (event : CancelEvent)
  | clawback (event : StreamClawbackedEvent)
  deriving DecidableEq

structure StreamHistoryEntry extends StreamHistoryBase where
  event : HistoryPayload
  deriving DecidableEq

structure StreamEventFilter where
  recipient : Option String := none
  sender : Option String := none
  streamId : Option String := none

structure StreamHistoryOptions where
  cursor : Option String := none
  limit : Option Number := none
  startLedger : Option Number := none
  filter : Option StreamEventFilter := none

structure StreamHistoryPage where
  entries : List StreamHistoryEntry
  nextCursor : Option String
  deriving DecidableEq

/-- A request of `getEvents`, for the events of a contract. -/
structure EventsQuery where
  cursor : Option String := none
  startLedger : Option Number := none
  contractId : String
  limit : Number
  deriving DecidableEq

/-- `SorobanRpc.Api.GetEventsResponse`. -/
structure EventsResponse where
  events : List RawEvent
  cursor : Option String := none

/-- What a `SorobanRpc.Server` answers. -/
structure EventsServer where
  getLatestLedger : Except Thrown Number
  getEvents : EventsQuery → Except Thrown EventsResponse

/-- `actorAddressesOf`. -/
def HistoryPayload.sender : HistoryPayload → Option String
  | .created event => some event.sender
  | .withdraw _ => none
  | .topUp event => some event.sender
  | .pause event => some event.sender
  | .resume event => some event.sender
  | .cancel event => some event.sender
  | .clawback event => some event.sender

def HistoryPayload.recipient : HistoryPayload → Option String
  | .created event => some event.recipient
  | .withdraw event => some event.recipient
  | _ => none

/-- No entry has a `streamId`. -/
def matchesStreamEventFilter (entry : StreamHistoryEntry) (filter : StreamEventFilter) : Bool :=
  (filter.sender = none ∨ entry.event.sender = filter.sender) ∧
    (filter.recipient = none ∨ entry.event.recipient = filter.recipient) ∧ filter.streamId = none

def RawEvent.base (raw : RawEvent) : StreamHistoryBase where
  id := raw.id
  ledger := raw.ledger
  timestamp := raw.ledgerClosedAt
  txHash := raw.txHash

/-- The handlers of `getStreamHistory`. -/
def historyHandlers : EventHandlers HistoryPayload where
  onCreated := some .created
  onWithdraw := some .withdraw
  onTopUp := some .topUp
  onPause := some .pause
  onResume := some .resume
  onCancel := some .cancel
  onClawback := some .clawback

/-- The entry of an event; one that cannot be decoded has none. -/
def historyEntry (raw : RawEvent) : Option StreamHistoryEntry :=
  (called historyHandlers raw).map fun event => { toStreamHistoryBase := raw.base, event := event }

def historyPage (limit : Number) (filter : Option StreamEventFilter) (response : EventsResponse) :
    StreamHistoryPage where
  entries := (response.events.filterMap historyEntry).filter fun entry =>
    filter.all (matchesStreamEventFilter entry)
  nextCursor :=
    if limit.le (.fin response.events.length) then
      response.cursor.or (response.events.getLast?.bind RawEvent.pagingToken)
    else none

/-- The first ledger of the first page. -/
def historyStart (server : EventsServer) (options : StreamHistoryOptions) : Except Thrown Number :=
  match options.startLedger with
  | some startLedger => .ok startLedger
  | none => do
    let latest ← server.getLatestLedger
    return Number.max (.fin 1) (latest.sub defaultHistoryLookbackLedgers)

def historyQuery (server : EventsServer) (streamAddress : String) (options : StreamHistoryOptions) :
    Except Thrown EventsQuery :=
  let limit := options.limit.getD defaultHistoryPageSize
  if ¬ limit.isInteger ∨ limit.lt (.fin 1) ∨ maxHistoryPageSize.lt limit then
    throwNew s!"limit must be an integer between 1 and {numToText maxHistoryPageSize}"
  else
    match truthyText options.cursor with
    | some cursor => .ok { cursor := some cursor, contractId := streamAddress, limit := limit }
    | none => do
      let startLedger ← historyStart server options
      return { startLedger := some startLedger, contractId := streamAddress, limit := limit }

def getStreamHistory (server : EventsServer) (streamAddress : String)
    (options : StreamHistoryOptions) : Except Thrown StreamHistoryPage := do
  let query ← historyQuery server streamAddress options
  let response ← server.getEvents query
  return historyPage query.limit options.filter response

/-! ## What the history records -/

/-- The payload of an entry, as `parseStreamEvent` has it. -/
def HistoryPayload.parsed : HistoryPayload → StreamEvent
  | .created event => .created event
  | .withdraw event => .withdrawn event
  | .topUp event => .toppedUp event
  | .pause event => .paused event
  | .resume event => .resumed event
  | .cancel event => .cancelled event
  | .clawback event => .clawback event

def StreamHistoryEntry.parsed (entry : StreamHistoryEntry) : StreamHistoryBase × StreamEvent :=
  (entry.toStreamHistoryBase, entry.event.parsed)

/-- What `parseStreamEvent` recognises, without throwing. -/
def recognised (raw : RawEvent) : Option (StreamHistoryBase × StreamEvent) :=
  match parseStreamEvent raw with
  | .ok (some event) => some (raw.base, event)
  | _ => none

/-- The history has one entry, in its order and with the same payload, for each event of the page
that `parseStreamEvent` recognises. -/
def RecordsHistory (server : EventsServer) (streamAddress : String) (options : StreamHistoryOptions)
    (response : EventsResponse) : Prop :=
  ∃ page, getStreamHistory server streamAddress options = .ok page ∧
    page.entries.map StreamHistoryEntry.parsed = response.events.filterMap recognised

/-- The kinds without a handler. -/
def StreamTopic.isUnrecorded : StreamTopic → Bool
  | .forceCancelled | .recipientTransferred | .operatorSet | .operatorRevoked => true
  | _ => false

/-- The value is a tuple whose first two fields, if it has them, are an `i128`. -/
def TwoAmounts (value : ScVal) : Prop :=
  value = .void ∨ ∃ fields, value = .vec fields ∧
    ∀ field, fields[0]? = some field ∨ fields[1]? = some field → ∃ hi lo, field = .i128 hi lo

/-- An event of a kind without a handler that can be decoded. -/
def RawEvent.Unrecorded (raw : RawEvent) : Prop :=
  ∃ topic : StreamTopic, topic.isUnrecorded = true ∧ raw.topic.head? = some (.symbol topic.name) ∧
    (∀ sequence, raw.topic[2]? = some sequence → ∃ n, sequence = .u64 n) ∧
    (topic = .forceCancelled → TwoAmounts raw.value)

/-! ## Proof -/

/-- The history has a handler for a payload. -/
def StreamEvent.isRecorded (event : StreamEvent) : Bool := (historyHandlers.on event).isSome

theorem recognised_eq (raw : RawEvent) :
    recognised raw = (called parseHandlers raw).map fun event => (raw.base, event) := by
  unfold recognised parseStreamEvent called
  cases dispatchEvent raw parseHandlers with
  | error err => rfl
  | ok r =>
    obtain ⟨sequence, event⟩ := r
    cases event <;> rfl

theorem historyEntry_parsed (raw : RawEvent) :
    (historyEntry raw).map StreamHistoryEntry.parsed =
      (recognised raw).filter fun x => x.2.isRecorded := by
  rw [historyEntry, recognised_eq, called_eq]
  cases called parseHandlers raw with
  | none => rfl
  | some event => cases event <;> rfl

theorem entries_parsed (events : List RawEvent) :
    (events.filterMap historyEntry).map StreamHistoryEntry.parsed =
      (events.filterMap recognised).filter fun x => x.2.isRecorded := by
  rw [List.map_filterMap, List.filter_filterMap]
  exact congrArg (List.filterMap · events) (funext historyEntry_parsed)

theorem sequence_ok_iff {sequence : Option ScVal} :
    (∃ n, sequence.mapM u64OrThrow = .ok n) ↔ ∀ v, sequence = some v → ∃ n, v = .u64 n := by
  constructor
  · rintro ⟨n, h⟩ v rfl
    cases v with
    | u64 n => exact ⟨n, rfl⟩
    | _ => cases h
  · intro h
    cases sequence with
    | none => exact ⟨none, rfl⟩
    | some v =>
      obtain ⟨n, rfl⟩ := h v rfl
      exact ⟨_, rfl⟩

theorem i128Field_ok_iff {fields : List ScVal} {index : ℕ} :
    (∃ n, i128Field fields index = .ok n) ↔
      ∀ field, fields[index]? = some field → ∃ hi lo, field = .i128 hi lo := by
  unfold i128Field
  constructor
  · rintro ⟨n, h⟩ field hfield
    rw [hfield] at h
    cases field with
    | i128 hi lo => exact ⟨hi, lo, rfl⟩
    | _ => cases h
  · intro h
    cases hfield : fields[index]? with
    | none => exact ⟨0, rfl⟩
    | some field =>
      obtain ⟨hi, lo, rfl⟩ := h field hfield
      exact ⟨_, rfl⟩

theorem forceCancelEvent_ok_iff (actor : String) (sequence : Option ℤ) (value : ScVal) :
    (∃ event, forceCancelEvent actor sequence value = .ok event) ↔ TwoAmounts value := by
  have hfields {fields : List ScVal} (hvalue : tupleFields value = .ok fields) :
      (∃ event, forceCancelEvent actor sequence value = .ok event) ↔
        ∀ field, fields[0]? = some field ∨ fields[1]? = some field →
          ∃ hi lo, field = .i128 hi lo := by
    rw [forceCancelEvent, hvalue, ok_seq]
    constructor
    · rintro ⟨event, h⟩ field hfield
      obtain ⟨n, hn, h⟩ := seq_ok_iff.mp h
      obtain ⟨m, hm, -⟩ := seq_ok_iff.mp h
      exact hfield.elim (i128Field_ok_iff.mp ⟨n, hn⟩ field) (i128Field_ok_iff.mp ⟨m, hm⟩ field)
    · intro h
      obtain ⟨n, hn⟩ := i128Field_ok_iff.mpr fun field hfield => h field (.inl hfield)
      obtain ⟨m, hm⟩ := i128Field_ok_iff.mpr fun field hfield => h field (.inr hfield)
      rw [hn, ok_seq, hm]
      exact ⟨_, rfl⟩
  cases value with
  | void => exact ⟨fun _ => .inl rfl, fun _ => (hfields rfl).mpr fun _ h => by cases h <;> contradiction⟩
  | vec fields =>
    rw [hfields rfl]
    constructor
    · intro h
      exact .inr ⟨fields, rfl, h⟩
    · rintro (h | ⟨_, h, hall⟩)
      · cases h
      · cases h
        exact hall
  | _ =>
    constructor
    · rintro ⟨_, h⟩
      cases h
    · rintro (h | ⟨_, h, -⟩) <;> cases h

section

variable {actor : String} {sequence : Option ℤ} {value : ScVal} {topic : StreamTopic}

theorem isRecorded_of_call {event : StreamEvent}
    (h : (callHandler actor sequence value parseHandlers topic).toOption.join = some event) :
    event.isRecorded = !topic.isUnrecorded := by
  cases topic <;>
  · rw [callHandler, toOption_call] at h
    obtain ⟨_, -, h⟩ := Option.bind_eq_some_iff.mp h
    cases h
    rfl

variable (actor sequence) in
theorem unrecorded_decodes (h : topic.isUnrecorded = true) :
    (∃ event, (callHandler actor sequence value parseHandlers topic).toOption.join = some event) ↔
      (topic = .forceCancelled → TwoAmounts value) := by
  cases topic with
  | forceCancelled =>
    rw [← forceCancelEvent_ok_iff actor sequence]
    simp only [callHandler, toOption_call]
    cases forceCancelEvent actor sequence value with
    | error err =>
      constructor
      · rintro ⟨_, h⟩
        cases h
      · intro h
        obtain ⟨_, h⟩ := h trivial
        cases h
    | ok event => exact ⟨fun _ _ => ⟨event, rfl⟩, fun _ => ⟨_, rfl⟩⟩
  | recipientTransferred | operatorSet | operatorRevoked =>
    constructor
    · intro _ h
      cases h
    · intro _
      exact ⟨_, rfl⟩
  | _ => cases h

end

/-- **What the history has no entry for.** -/
theorem unrecorded_iff (raw : RawEvent) :
    raw.Unrecorded ↔ ∃ x, recognised raw = some x ∧ x.2.isRecorded = false := by
  rw [recognised_eq, called_eq_case]
  constructor
  · rintro ⟨topic, htopic, hhead, hsequence, hvalue⟩
    obtain ⟨n, hn⟩ := sequence_ok_iff.mpr hsequence
    obtain ⟨event, hevent⟩ := (unrecorded_decodes (addressField raw.topic[1]?) n htopic).mpr hvalue
    refine ⟨(raw.base, event), ?_, ?_⟩
    · rw [eventCase_iff.mpr ⟨hhead, hn⟩]
      exact congrArg (Option.map _) hevent
    · rw [isRecorded_of_call hevent, htopic]
      rfl
  · rintro ⟨x, hx, hrecorded⟩
    obtain ⟨event, hevent, rfl⟩ := Option.map_eq_some_iff.mp hx
    obtain ⟨⟨topic, n⟩, hcase, hevent⟩ := Option.bind_eq_some_iff.mp hevent
    obtain ⟨hhead, hn⟩ := eventCase_iff.mp hcase
    have htopic : topic.isUnrecorded = true := by
      rw [isRecorded_of_call hevent] at hrecorded
      exact (Bool.not_eq_eq_eq_not ..).mp hrecorded
    refine ⟨topic, htopic, hhead, sequence_ok_iff.mp ⟨n, hn⟩, ?_⟩
    exact (unrecorded_decodes _ _ htopic).mp ⟨event, hevent⟩

/-- **The history is what `parseStreamEvent` makes of the page**, but for the kinds it has no handler
for. -/
theorem getStreamHistory_records_iff (server : EventsServer) (streamAddress : String)
    (options : StreamHistoryOptions) (response : EventsResponse) (hfilter : options.filter = none)
    (hresponse : historyQuery server streamAddress options >>= server.getEvents = .ok response) :
    RecordsHistory server streamAddress options response ↔
      ∀ raw ∈ response.events, ¬ raw.Unrecorded := by
  obtain ⟨query, hquery, hevents⟩ := seq_ok_iff.mp hresponse
  have hpage : getStreamHistory server streamAddress options =
      .ok (historyPage query.limit none response) := by
    rw [getStreamHistory, hquery, hfilter, ok_seq, hevents]
    rfl
  have hentries : (historyPage query.limit none response).entries = response.events.filterMap historyEntry :=
    List.filter_eq_self.mpr fun _ _ => rfl
  unfold RecordsHistory
  rw [hpage]
  simp only [Except.ok.injEq, exists_eq_left', hentries, entries_parsed, List.filter_eq_self,
    List.mem_filterMap, forall_exists_index, and_imp, unrecorded_iff, not_exists, not_and, Bool.not_eq_false]
  exact ⟨fun h raw hraw x hx => h x raw hraw hx, fun h x raw hraw hx => h raw hraw x hx⟩

/-- An event, and a server that has no other. -/
def lifecycleEvent (topic : StreamTopic) (value : ScVal) : RawEvent where
  id := some "ev-1"
  ledger := some (.fin 1001)
  ledgerClosedAt := "2026-01-01T00:00:01Z"
  txHash := "tx-1"
  topic := [.symbol topic.name, .address "GA", .u64 1]
  value := value

def serverOf (response : EventsResponse) : EventsServer where
  getLatestLedger := .ok (.fin 500000)
  getEvents := fun _ => .ok response

theorem getStreamHistory_records_pause :
    let response : EventsResponse := { events := [lifecycleEvent .paused (.vec [.u64 1500])] }
    let options : StreamHistoryOptions := { startLedger := some (.fin 1) }
    historyQuery (serverOf response) "C" options >>= (serverOf response).getEvents = .ok response ∧
      RecordsHistory (serverOf response) "C" options response := by
  refine ⟨rfl, (getStreamHistory_records_iff _ _ _ _ rfl rfl).mpr fun raw hraw => ?_⟩
  rw [List.mem_singleton.mp hraw]
  rintro ⟨topic, htopic, hhead, -⟩
  cases topic with
  | forceCancelled | recipientTransferred | operatorSet | operatorRevoked =>
    have hname := ScVal.symbol.inj (Option.some.inj hhead)
    revert hname
    decide
  | _ => cases htopic

/-- **A new operator is not in the history.** -/
theorem operatorSet_dropped :
    let response : EventsResponse := { events := [lifecycleEvent .operatorSet (.address "GB")] }
    ¬ RecordsHistory (serverOf response) "C" { startLedger := some (.fin 1) } response := by
  rintro response ⟨page, hpage, h⟩
  cases hpage
  cases h

end StreamFi
