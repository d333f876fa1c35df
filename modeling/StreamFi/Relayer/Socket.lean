import StreamFi.Js.Rounding
import StreamFi.Js.Value
import StreamFi.Run.Pool

/-!
# The relayer and its sockets

`WebSocketRelayer` sends over one socket at a time. `connect`, `send` and a reconnect take turns by a
lock with a queue, and a socket tells of its life in events, at any later time.

* `WebSocketRelayer`, `Socket`, `Thread`: the state; a thread is a call that awaits the lock or has it;
* `Relay.connect`, `Relay.send`, `Relay.onopen`, `Relay.onclose`, ...: the code between two awaits;
* `Relay.step`: calls, resumed threads, timers and events of sockets, in any order.
-/

namespace StreamFi

open Js

/-! ## The state -/

inductive RelayerStateTransition where
  | connecting
  | connected
  | disconnected
  | reconnecting
  | destroyed
  deriving DecidableEq

/-- The options that the code decides by; a delay only says when a timer fires. -/
structure WebSocketRelayerOptions where
  maxPendingMessages : Option Number := none
  maxReconnectAttempts : Option Number := none
  heartbeatIntervalMs : Option Number := none
  offlineBufferTtlMs : Option Number := none

/-- The fields that the constructor sets for good. -/
structure RelayerSettings where
  url : String
  maxPendingMessages : Number
  maxReconnectAttempts : Number
  heartbeatIntervalMs : Number
  offlineBufferTtlMs : Number

def RelayerSettings.new (url : String) (options : WebSocketRelayerOptions) : RelayerSettings where
  url := url
  maxPendingMessages := options.maxPendingMessages.getD (.fin 1000)
  maxReconnectAttempts := options.maxReconnectAttempts.getD (.fin 5)
  heartbeatIntervalMs := options.heartbeatIntervalMs.getD (.fin 30000)
  offlineBufferTtlMs := options.offlineBufferTtlMs.getD (.fin 0)

/-- A message to send, by what `JSON.stringify` makes of it. -/
structure WebSocketMessage where
  json : Except Thrown String
  deriving DecidableEq

/-- A message in the offline buffer; `send` is the position of the call that it came with. -/
structure QueuedMessage where
  send : ℕ
  message : WebSocketMessage
  enqueuedAt : Number
  deriving DecidableEq

/-- What a message is let go of for. -/
inductive DropReason where
  | overflow (length : ℕ)
  | expired (now : Number)
  | destroyed
  deriving DecidableEq

/-- A call of a handler for messages of a type. -/
structure Delivery where
  socket : ℕ
  type : String
  handler : ℕ
  deriving DecidableEq

/-- The fields of a `WebSocketRelayer`, and what it has done: `transitions` are told to the handlers
of state changes, `delivered` to those of messages, `handed` are the calls of `send` whose messages
were handed to a socket. Threads, sockets and timers go by number. -/
@[ext] structure WebSocketRelayer where
  ws : Option ℕ := none
  handlers : List (String × ℕ) := []
  isDestroyed : Bool := false
  isLocked : Bool := false
  lockQueue : List ℕ := []
  connectPromise : Option ℕ := none
  reconnectAttempts : Number := .fin 0
  reconnectEnabled : Bool := true
  reconnectExhausted : Bool := false
  offlineQueue : List QueuedMessage := []
  stateTransition : RelayerStateTransition := .disconnected
  heartbeatInterval : Option ℕ := none
  heartbeatTimeout : Option ℕ := none
  awaitingPong : Bool := false
  timers : ℕ := 0
  transitions : List RelayerStateTransition := []
  delivered : List Delivery := []
  handed : List ℕ := []
  dropped : List (ℕ × DropReason) := []
  deriving DecidableEq

inductive ReadyState where
  | connecting
  | opened
  | closing
  | closed
  deriving DecidableEq

/-- A socket: the handlers that are attached, whether its promise is settled, and whether it has sent
its close event. -/
structure Socket where
  readyState : ReadyState := .connecting
  ended : Bool := false
  settled : Bool := false
  onopen : Bool := true
  onmessage : Bool := true
  onclose : Bool := true
  onerror : Bool := true
  deriving DecidableEq

/-- What a thread awaits the lock for. -/
inductive Job where
  | connect
  | reconnect
  | send (call : ℕ) (message : WebSocketMessage)
  deriving DecidableEq

/-- Where a thread is: in the queue of the lock; about to go on with the lock; in a backoff; at the
promise of a socket, before and after it is settled; done. -/
inductive ThreadPhase where
  | waiting
  | granted
  | sleeping
  | opening (socket : ℕ)
  | opened (r : Except Thrown Unit)
  | settled (r : Except Thrown Unit)
  deriving DecidableEq

structure Thread where
  job : Job
  phase : ThreadPhase
  deriving DecidableEq

/-- The promise of a call: settled at once, or with a thread. -/
inductive Promised where
  | settled (r : Except Thrown Unit)
  | of (thread : ℕ)
  deriving DecidableEq

structure SendCall where
  message : WebSocketMessage
  sentAt : Number
  promise : Promised
  deriving DecidableEq

/-- A relayer, its sockets, and the calls so far. `holder` is the thread that has the lock. -/
structure Relay extends WebSocketRelayer where
  sockets : List Socket := []
  threads : List Thread := []
  holder : Option ℕ := none
  connects : List Promised := []
  sends : List SendCall := []
  deriving DecidableEq

/-- What `new WebSocketCtor(url)` does. -/
inductive Constructed where
  | absent
  | nothing
  | throws (err : Thrown)
  | socket

/-! ## The code -/

namespace Socket

def close (k : Socket) : Socket :=
  { k with readyState := match k.readyState with
    | .connecting | .opened => .closing
    | .closing | .closed => k.readyState }

theorem close_readyState (k : Socket) :
    k.close.readyState ≠ .connecting ∧ k.close.readyState ≠ .opened := by
  cases h : k.readyState <;> simp [close, h]

end Socket

namespace Relay

def destroyedError : Except Thrown Unit := throwNew "WebSocketRelayer has been destroyed"

def exhaustedError (c : RelayerSettings) : Except Thrown Unit :=
  throwNew (s!"WebSocketRelayer: connection to {c.url} is down and reconnect attempts " ++
    s!"({numToText c.maxReconnectAttempts}) are exhausted; message was not queued")

def modifySocket (s : Relay) (i : ℕ) (f : Socket → Socket) : Relay :=
  { s with sockets := s.sockets.modify i f }

def setPhase (s : Relay) (t : ℕ) (phase : ThreadPhase) : Relay :=
  { s with threads := s.threads.modify t fun th => { th with phase := phase } }

/-- `this.ws && this.ws.readyState === 1`. -/
def wsOpen (s : Relay) : Bool :=
  (s.ws.bind fun i => s.sockets[i]?).any fun k => k.readyState = .opened

/-- `acquireLock`, by a thread of its own. -/
def acquireLock (s : Relay) (job : Job) : Relay :=
  let t := s.threads.length
  if ¬ s.isLocked then
    { s with isLocked := true, holder := some t, threads := s.threads ++ [⟨job, .granted⟩] }
  else { s with lockQueue := s.lockQueue ++ [t], threads := s.threads ++ [⟨job, .waiting⟩] }

def releaseLock (s : Relay) : Relay :=
  match s.lockQueue with
  | next :: lockQueue => { s with lockQueue := lockQueue, holder := some next }.setPhase next .granted
  | [] => { s with isLocked := false, holder := none }

/-- `finally { this.releaseLock(); }`, at the end of a thread. -/
def finish (s : Relay) (t : ℕ) (r : Except Thrown Unit) : Relay := s.releaseLock.setPhase t (.settled r)

def emitStateChange (s : Relay) (transition : RelayerStateTransition) : Relay :=
  if s.stateTransition = transition then s
  else { s with stateTransition := transition, transitions := s.transitions ++ [transition] }

def clearHeartbeatTimeout (s : Relay) : Relay := { s with heartbeatTimeout := none }

def stopHeartbeat (s : Relay) : Relay :=
  { s.clearHeartbeatTimeout with heartbeatInterval := none, awaitingPong := false }

def startHeartbeat (c : RelayerSettings) (s : Relay) : Relay :=
  let s := s.stopHeartbeat
  if ¬ Number.lt (.fin 0) c.heartbeatIntervalMs then s
  else { s with heartbeatInterval := some s.timers, timers := s.timers + 1 }

def shouldAttemptReconnect (c : RelayerSettings) (s : Relay) : Bool :=
  !s.isDestroyed && s.reconnectEnabled && s.reconnectAttempts.lt c.maxReconnectAttempts && !s.wsOpen

def isPermanentlyDown (c : RelayerSettings) (s : Relay) : Bool :=
  !s.isDestroyed && s.reconnectEnabled && c.maxReconnectAttempts.le s.reconnectAttempts && !s.wsOpen

/-- What is done where no reconnect is attempted. -/
def giveUp (c : RelayerSettings) (s : Relay) : Relay :=
  let s := if s.isPermanentlyDown c then { s with reconnectExhausted := true } else s
  s.emitStateChange .disconnected

/-- `attemptReconnect`, up to the lock. -/
def attemptReconnect (c : RelayerSettings) (s : Relay) : Relay :=
  if ¬ s.shouldAttemptReconnect c then s.giveUp c else s.acquireLock .reconnect

def _queueMessage (c : RelayerSettings) (s : Relay) (call : ℕ) (message : WebSocketMessage)
    (now : Number) : Relay :=
  let length := s.offlineQueue.length
  let s := if c.maxPendingMessages.le (.fin length) then
      { s with
        offlineQueue := s.offlineQueue.tail
        dropped := s.dropped ++ (s.offlineQueue.take 1).map fun q => (q.send, .overflow length) }
    else s
  { s with offlineQueue := s.offlineQueue ++ [⟨call, message, now⟩] }

/-- `send`, up to the lock, and the promise of the call. -/
def sendMessage (c : RelayerSettings) (s : Relay) (call : ℕ) (message : WebSocketMessage)
    (now : Number) : Relay × Promised :=
  if s.isDestroyed then (s, .settled destroyedError)
  else if s.reconnectExhausted then (s, .settled (exhaustedError c))
  else if ¬ s.wsOpen then (s._queueMessage c call message now, .settled (.ok ()))
  else (s.acquireLock (.send call message), .of s.threads.length)

/-- A call of `send`. -/
def send (c : RelayerSettings) (s : Relay) (message : WebSocketMessage) (now : Number) : Relay :=
  let sent := s.sendMessage c s.sends.length message now
  { sent.1 with sends := sent.1.sends ++ [⟨message, now, sent.2⟩] }

/-- `send`, with the lock. -/
def sendLocked (c : RelayerSettings) (s : Relay) (t call : ℕ) (message : WebSocketMessage)
    (now : Number) : Relay :=
  if s.isDestroyed then
    { s with dropped := s.dropped ++ [(call, DropReason.destroyed)] }.finish t destroyedError
  else if s.reconnectExhausted then s.finish t (exhaustedError c)
  else if ¬ s.wsOpen then (s._queueMessage c call message now).finish t (.ok ())
  else
    match message.json with
    | .error err => s.finish t (.error err)
    | .ok _ => { s with handed := s.handed ++ [call] }.finish t (.ok ())

def isExpired (c : RelayerSettings) (now : Number) (queued : QueuedMessage) : Bool :=
  Number.lt (.fin 0) c.offlineBufferTtlMs && c.offlineBufferTtlMs.lt (now.sub queued.enqueuedAt)

/-- The loop of `flushPendingMessages`: a message is dropped, or sent again. -/
def flushAll (c : RelayerSettings) (now : Number) : List QueuedMessage → Relay → Relay
  | [], s => s
  | queued :: pending, s =>
    flushAll c now pending (if isExpired c now queued then
      { s with dropped := s.dropped ++ [(queued.send, .expired now)] }
    else (s.sendMessage c queued.send queued.message now).1)

def flushPendingMessages (c : RelayerSettings) (s : Relay) (now : Number) : Relay :=
  flushAll c now s.offlineQueue { s with offlineQueue := [] }

/-- `doConnect`, up to the lock. -/
def connect (s : Relay) : Relay :=
  if s.isDestroyed then { s with connects := s.connects ++ [.settled destroyedError] }
  else
    let s := { s with
      reconnectEnabled := true, reconnectExhausted := false, reconnectAttempts := .fin 0 }
    match s.connectPromise with
    | some t => { s with connects := s.connects ++ [.of t] }
    | none =>
      let t := s.threads.length
      { s.acquireLock .connect with connectPromise := some t, connects := s.connects ++ [.of t] }

def establishConnection (s : Relay) (t : ℕ) : Constructed → Relay
  | .absent => (s.emitStateChange .disconnected).setPhase t (.opened (.ok ()))
  | .nothing => s.setPhase t (.opened (.ok ()))
  | .throws err => s.setPhase t (.opened (.error err))
  | .socket =>
    let i := s.sockets.length
    { s with sockets := s.sockets ++ [({} : Socket)], ws := some i }.setPhase t (.opening i)

/-- `doConnect`, with the lock. -/
def connectLocked (s : Relay) (t : ℕ) (ctor : Constructed) : Relay :=
  if s.wsOpen then s.finish t (.ok ())
  else (s.emitStateChange .connecting).establishConnection t ctor

/-- `attemptReconnect`, with the lock. -/
def reconnectLocked (c : RelayerSettings) (s : Relay) (t : ℕ) : Relay :=
  if ¬ s.shouldAttemptReconnect c then (s.giveUp c).finish t (.ok ())
  else
    ({ s with reconnectAttempts := s.reconnectAttempts.add (.fin 1) }.emitStateChange
      .reconnecting).setPhase t .sleeping

/-- `attemptReconnect`, after the backoff. -/
def wake (s : Relay) (t : ℕ) (ctor : Constructed) : Relay :=
  if s.isDestroyed ∨ ¬ s.reconnectEnabled then s.finish t (.ok ()) else s.establishConnection t ctor

/-- `reject` and `resolve` of the promise of a socket. -/
def settle (s : Relay) (i : ℕ) (r : Except Thrown Unit) : Relay :=
  { s with
    sockets := s.sockets.modify i fun k => { k with settled := true }
    threads := s.threads.map fun th =>
      if th.phase = .opening i then { th with phase := .opened r } else th }

def closedError (c : RelayerSettings) : Except Thrown Unit :=
  throwNew s!"WebSocket connection closed before opening: {c.url}"

def failedError (c : RelayerSettings) : Except Thrown Unit :=
  throwNew s!"WebSocket connection failed: {c.url}"

/-- `ws.onopen`, while the promise is not settled. -/
def onopen (c : RelayerSettings) (s : Relay) (i : ℕ) (now : Number) : Relay :=
  let s := { s with reconnectAttempts := .fin 0, reconnectExhausted := false }
  (((s.startHeartbeat c).flushPendingMessages c now).emitStateChange .connected).settle i (.ok ())

/-- `frame` is the type of the parsed message; none when the data is no message. -/
def handleMessageSafe (s : Relay) (i : ℕ) (frame : Option String) : Relay :=
  match frame with
  | none => s
  | some type =>
    if type = "pong" ∧ s.awaitingPong then { s with awaitingPong := false }.clearHeartbeatTimeout
    else { s with delivered := s.delivered ++
      (s.handlers.filter fun h => h.1 = type).map fun h => ⟨i, type, h.2⟩ }

def onmessage (s : Relay) (i : ℕ) (frame : Option String) : Relay :=
  let s := if s.awaitingPong then { s with awaitingPong := false }.clearHeartbeatTimeout else s
  s.handleMessageSafe i frame

/-- What `onclose` and a heartbeat timeout do once the socket is let go of. -/
def reconnectOrGiveUp (c : RelayerSettings) (s : Relay) : Relay :=
  if !s.isDestroyed && s.reconnectEnabled && s.shouldAttemptReconnect c then s.attemptReconnect c
  else s.giveUp c

/-- `ws.onclose`; `settled` is the variable of its socket. -/
def onclose (c : RelayerSettings) (s : Relay) (i : ℕ) (settled : Bool) : Relay :=
  let s := { s.stopHeartbeat with ws := none }
  (if settled then s else s.settle i (closedError c)).reconnectOrGiveUp c

def on (s : Relay) (type : String) (handler : ℕ) : Relay :=
  if (type, handler) ∈ s.handlers then s else { s with handlers := s.handlers ++ [(type, handler)] }

def off (s : Relay) (type : String) (handler : ℕ) : Relay :=
  { s with handlers := s.handlers.filter (· ≠ (type, handler)) }

def disconnect (s : Relay) : Relay :=
  let s := { s with
    reconnectEnabled := false, connectPromise := none, reconnectAttempts := .fin 0
    reconnectExhausted := false }.stopHeartbeat
  let s := match s.ws with
    | some i => { s.modifySocket i Socket.close with ws := none }
    | none => s
  s.emitStateChange .disconnected

/-- The call of `send` that a thread is for. -/
def callOf (s : Relay) (t : ℕ) : Option ℕ :=
  match s.threads[t]? with
  | some ⟨.send call _, _⟩ => some call
  | _ => none

def destroy (c : RelayerSettings) (s : Relay) : Relay :=
  let lost := s.lockQueue.filterMap s.callOf ++ s.offlineQueue.map (·.send)
  let s := { s with
    isDestroyed := true, reconnectEnabled := false, reconnectExhausted := true
    connectPromise := none, offlineQueue := [], reconnectAttempts := c.maxReconnectAttempts
    dropped := s.dropped ++ lost.map fun call => (call, DropReason.destroyed) }.stopHeartbeat
  let s := match s.ws with
    | some i =>
      { s.modifySocket i (fun k =>
          { k with onclose := false, onerror := false, onmessage := false }.close) with ws := none }
    | none => s
  { s.emitStateChange .destroyed with handlers := [], lockQueue := [], isLocked := false }

/-- The interval of the heartbeat. -/
def heartbeat (s : Relay) : Relay :=
  if s.wsOpen ∧ ¬ s.awaitingPong then
    { s with awaitingPong := true, heartbeatTimeout := some s.timers, timers := s.timers + 1 }
  else s

def handleHeartbeatTimeout (c : RelayerSettings) (s : Relay) : Relay :=
  let dead := s.ws
  let s := { s.stopHeartbeat with ws := none }
  let s := match dead with
    | some i => s.modifySocket i fun k =>
        { k with onopen := false, onmessage := false, onclose := false, onerror := false }.close
    | none => s
  if s.isDestroyed then s else s.reconnectOrGiveUp c

/-- The result of a promise, once it is settled. -/
def outcome (s : Relay) : Promised → Option (Except Thrown Unit)
  | .settled r => some r
  | .of t => match s.threads[t]? with
    | some ⟨_, .settled r⟩ => some r
    | _ => none

end Relay

/-! ## Runs -/

/-- `resume` goes on with a thread that has the lock, `wake` is its backoff timer, and `forget` is the
`finally` of `connect`. A socket that was closed while it was connecting may still tell that it is
open, and one that is closing still hands over messages. -/
inductive RelayEvent where
  | connect
  | disconnect
  | destroy
  | send (message : WebSocketMessage) (now : Number)
  | on (type : String) (handler : ℕ)
  | off (type : String) (handler : ℕ)
  | resume (thread : ℕ) (ctor : Constructed) (now : Number)
  | wake (thread : ℕ) (ctor : Constructed)
  | forget
  | opened (socket : ℕ) (now : Number)
  | message (socket : ℕ) (frame : Option String)
  | errored (socket : ℕ)
  | closing (socket : ℕ)
  | closed (socket : ℕ)
  | heartbeat
  | heartbeatTimeout

namespace Relay

/-- A thread goes on, with the lock. -/
def locked (c : RelayerSettings) (s : Relay) (t : ℕ) (ctor : Constructed) (now : Number) : Job → Relay
  | .connect => s.connectLocked t ctor
  | .reconnect => s.reconnectLocked c t
  | .send call message => s.sendLocked c t call message now

def resume (c : RelayerSettings) (s : Relay) (t : ℕ) (ctor : Constructed) (now : Number) :
    Option Relay :=
  match s.threads[t]? with
  | some ⟨job, .granted⟩ => some (s.locked c t ctor now job)
  -- the error of a reconnect is caught
  | some ⟨.reconnect, .opened _⟩ => some (s.finish t (.ok ()))
  | some ⟨_, .opened r⟩ => some (s.finish t r)
  | _ => none

/-- The socket's side of an event, and the handler if it is attached. -/
def socketOpened (c : RelayerSettings) (s : Relay) (i : ℕ) (now : Number) (k : Socket) :
    Option Relay :=
  let run (s : Relay) := if k.onopen ∧ ¬ k.settled then s.onopen c i now else s
  match k.readyState with
  | .connecting => some (run (s.modifySocket i fun k => { k with readyState := .opened }))
  | .closing => some (run s)
  | .opened | .closed => none

def socketClosed (c : RelayerSettings) (s : Relay) (i : ℕ) (k : Socket) : Option Relay :=
  if k.ended then none
  else
    let s := s.modifySocket i fun k => { k with readyState := .closed, ended := true }
    some (if k.onclose then s.onclose c i k.settled else s)

def socketErrored (c : RelayerSettings) (s : Relay) (i : ℕ) (k : Socket) : Option Relay :=
  if k.ended then none
  else
    let s := s.modifySocket i fun k => { k with readyState := .closed }
    some (if k.onerror ∧ ¬ k.settled then s.settle i (failedError c) else s)

def socketMessage (s : Relay) (i : ℕ) (frame : Option String) (k : Socket) : Option Relay :=
  if k.readyState = .opened ∨ k.readyState = .closing then
    some (if k.onmessage then s.onmessage i frame else s)
  else none

def step (c : RelayerSettings) (s : Relay) : RelayEvent → Option Relay
  | .connect => some s.connect
  | .disconnect => some s.disconnect
  | .destroy => some (s.destroy c)
  | .send message now => some (s.send c message now)
  | .on type handler => some (s.on type handler)
  | .off type handler => some (s.off type handler)
  | .resume t ctor now => s.resume c t ctor now
  | .wake t ctor =>
    if (s.threads[t]?).map (·.phase) = some .sleeping then some (s.wake t ctor) else none
  | .forget =>
    match s.connectPromise with
    | some t => (s.outcome (.of t)).map fun _ => { s with connectPromise := none }
    | none => none
  | .opened i now => s.sockets[i]?.bind (s.socketOpened c i now)
  | .message i frame => s.sockets[i]?.bind (s.socketMessage i frame)
  | .errored i => s.sockets[i]?.bind (s.socketErrored c i)
  | .closing i => s.sockets[i]?.bind fun k =>
      if k.readyState = .opened then some (s.modifySocket i fun k => { k with readyState := .closing })
      else none
  | .closed i => s.sockets[i]?.bind (s.socketClosed c i)
  | .heartbeat => s.heartbeatInterval.map fun _ => s.heartbeat
  | .heartbeatTimeout => s.heartbeatTimeout.map fun _ =>
      if s.awaitingPong ∧ s.ws.isSome then s.handleHeartbeatTimeout c else s

/-! ## What the code changes -/

variable (c : RelayerSettings) (s : Relay)

theorem emitStateChange_eq (transition : RelayerStateTransition) : s.emitStateChange transition =
    { s with
      stateTransition := transition
      transitions := if s.stateTransition = transition then s.transitions
        else s.transitions ++ [transition] } := by
  unfold emitStateChange
  by_cases h : s.stateTransition = transition
  · subst h
    simp only [if_pos]
  · simp only [if_neg h]

theorem acquireLock_eq (job : Job) : s.acquireLock job =
    { s with
      isLocked := true
      holder := if s.isLocked then s.holder else some s.threads.length
      lockQueue := if s.isLocked then s.lockQueue ++ [s.threads.length] else s.lockQueue
      threads := s.threads ++ [⟨job, if s.isLocked then .waiting else .granted⟩] } := by
  unfold acquireLock
  cases h : s.isLocked with
  | false => simp
  | true => simp

theorem giveUp_eq : s.giveUp c =
    { s with
      reconnectExhausted := s.reconnectExhausted || s.isPermanentlyDown c
      stateTransition := .disconnected
      transitions := if s.stateTransition = .disconnected then s.transitions
        else s.transitions ++ [.disconnected] } := by
  rw [giveUp, emitStateChange_eq]
  cases h : s.isPermanentlyDown c with
  | false => simp
  | true => simp

theorem _queueMessage_eq (call : ℕ) (message : WebSocketMessage) (now : Number) :
    s._queueMessage c call message now =
    let full := c.maxPendingMessages.le (.fin s.offlineQueue.length)
    { s with
      offlineQueue := (if full then s.offlineQueue.tail else s.offlineQueue) ++ [⟨call, message, now⟩]
      dropped := s.dropped ++ if full then
        (s.offlineQueue.take 1).map fun q => (q.send, .overflow s.offlineQueue.length) else [] } := by
  unfold _queueMessage
  cases h : c.maxPendingMessages.le (.fin s.offlineQueue.length) with
  | false => simp [h]
  | true => simp [h]

/-- A call of `send` is rejected, queues its message, or awaits the lock. -/
theorem sendMessage_cases (call : ℕ) (message : WebSocketMessage) (now : Number) :
    (s.isDestroyed = true ∧
        s.sendMessage c call message now = (s, .settled destroyedError)) ∨
      (s.isDestroyed = false ∧ s.reconnectExhausted = true ∧
        s.sendMessage c call message now = (s, .settled (exhaustedError c))) ∨
      (s.isDestroyed = false ∧ s.reconnectExhausted = false ∧ s.wsOpen = false ∧
        s.sendMessage c call message now =
          (s._queueMessage c call message now, .settled (.ok ()))) ∨
      (s.isDestroyed = false ∧ s.reconnectExhausted = false ∧ s.wsOpen = true ∧
        s.sendMessage c call message now =
          (s.acquireLock (.send call message), .of s.threads.length)) := by
  unfold sendMessage
  cases s.isDestroyed with
  | true => simp
  | false =>
    cases s.reconnectExhausted with
    | true => simp
    | false => cases s.wsOpen <;> simp

/-- A flush goes through the lock and the offline queue only. -/
theorem flushAll_eq (now : Number) (pending : List QueuedMessage) :
    ∃ isLocked lockQueue offlineQueue dropped threads holder, flushAll c now pending s =
      { s with
        isLocked := isLocked, lockQueue := lockQueue, offlineQueue := offlineQueue
        dropped := dropped, threads := threads, holder := holder } := by
  induction pending generalizing s with
  | nil => exact ⟨_, _, _, _, _, _, rfl⟩
  | cons queued pending ih =>
    rw [flushAll]
    obtain ⟨_, _, _, _, _, _, heq⟩ := ih (if isExpired c now queued then
      { s with dropped := s.dropped ++ [(queued.send, .expired now)] }
    else (s.sendMessage c queued.send queued.message now).1)
    rw [heq]
    split_ifs
    · exact ⟨_, _, _, _, _, _, rfl⟩
    · rcases s.sendMessage_cases c queued.send queued.message now with
        ⟨-, h⟩ | ⟨-, -, h⟩ | ⟨-, -, -, h⟩ | ⟨-, -, -, h⟩
      · rw [h]
        exact ⟨_, _, _, _, _, _, rfl⟩
      · rw [h]
        exact ⟨_, _, _, _, _, _, rfl⟩
      · rw [h, _queueMessage_eq]
        exact ⟨_, _, _, _, _, _, rfl⟩
      · rw [h, acquireLock_eq]
        exact ⟨_, _, _, _, _, _, rfl⟩

/-- A call of `connect` is rejected, shares a promise, or awaits the lock. -/
theorem connect_cases :
    (s.isDestroyed = true ∧
        s.connect = { s with connects := s.connects ++ [.settled destroyedError] }) ∨
      (s.isDestroyed = false ∧ ∃ t, s.connectPromise = some t ∧ s.connect = { s with
        reconnectEnabled := true, reconnectExhausted := false, reconnectAttempts := .fin 0
        connects := s.connects ++ [.of t] }) ∨
      (s.isDestroyed = false ∧ s.connectPromise = none ∧ s.connect =
        { { s with
            reconnectEnabled := true, reconnectExhausted := false
            reconnectAttempts := .fin 0 }.acquireLock .connect with
          connectPromise := some s.threads.length
          connects := s.connects ++ [.of s.threads.length] }) := by
  unfold connect
  cases s.isDestroyed with
  | true => simp
  | false =>
    cases s.connectPromise with
    | none => simp
    | some t => simp

/-- `send` with the lock is rejected, queues its message, or hands it over. -/
theorem sendLocked_cases (t call : ℕ) (message : WebSocketMessage) (now : Number) :
    (s.isDestroyed = true ∧ s.sendLocked c t call message now =
        { s with dropped := s.dropped ++ [(call, DropReason.destroyed)] }.finish t destroyedError) ∨
      (s.isDestroyed = false ∧ s.reconnectExhausted = true ∧
        s.sendLocked c t call message now = s.finish t (exhaustedError c)) ∨
      (s.isDestroyed = false ∧ s.reconnectExhausted = false ∧ s.wsOpen = false ∧
        s.sendLocked c t call message now =
          (s._queueMessage c call message now).finish t (.ok ())) ∨
      (s.isDestroyed = false ∧ s.wsOpen = true ∧ ∃ err, message.json = .error err ∧
        s.sendLocked c t call message now = s.finish t (.error err)) ∨
      (s.isDestroyed = false ∧ s.wsOpen = true ∧ message.json.isOk = true ∧
        s.sendLocked c t call message now =
          { s with handed := s.handed ++ [call] }.finish t (.ok ())) := by
  unfold sendLocked
  cases s.isDestroyed with
  | true => simp
  | false =>
    cases s.reconnectExhausted with
    | true => simp
    | false =>
      cases s.wsOpen with
      | false => simp
      | true => cases message.json <;> simp [Except.isOk, Except.toBool]

theorem destroy_eq : s.destroy c =
    { s with
      isDestroyed := true, reconnectEnabled := false, reconnectExhausted := true
      connectPromise := none, offlineQueue := [], reconnectAttempts := c.maxReconnectAttempts
      heartbeatInterval := none, heartbeatTimeout := none, awaitingPong := false
      dropped := s.dropped ++ (s.lockQueue.filterMap s.callOf ++ s.offlineQueue.map (·.send)).map
        fun call => (call, DropReason.destroyed)
      ws := none
      sockets := match s.ws with
        | some i => s.sockets.modify i fun k =>
          { k with onclose := false, onerror := false, onmessage := false }.close
        | none => s.sockets
      stateTransition := .destroyed
      transitions := if s.stateTransition = .destroyed then s.transitions
        else s.transitions ++ [.destroyed]
      handlers := [], lockQueue := [], isLocked := false } := by
  unfold destroy
  simp only [emitStateChange_eq]
  cases s.ws with
  | none => simp [stopHeartbeat, clearHeartbeatTimeout]
  | some i => simp [stopHeartbeat, clearHeartbeatTimeout, modifySocket]

end Relay

/-! ## Events of sockets -/

/-- The socket that an event comes from. -/
def RelayEvent.socket : RelayEvent → Option ℕ
  | .opened i _ | .message i _ | .errored i | .closing i | .closed i => some i
  | _ => none

/-- What the socket itself makes of an event. -/
def Socket.tell (e : RelayEvent) (k : Socket) : Socket :=
  match e with
  | .opened _ _ => if k.readyState = .connecting then { k with readyState := .opened } else k
  | .errored _ => { k with readyState := .closed }
  | .closing _ => { k with readyState := .closing }
  | .closed _ => { k with readyState := .closed, ended := true }
  | _ => k

namespace Relay

variable {c : RelayerSettings} {s s' : Relay} {i : ℕ} {k : Socket} {e : RelayEvent}

/-- The handler of the event is attached, and the socket is in a state to call it; that of a settled
socket does nothing when it opens. -/
def Runs (k : Socket) : RelayEvent → Prop
  | .opened _ _ => (k.readyState = .connecting ∨ k.readyState = .closing) ∧ k.onopen = true ∧
      k.settled = false
  | .message _ _ => (k.readyState = .opened ∨ k.readyState = .closing) ∧ k.onmessage = true
  | .closed _ => k.ended = false ∧ k.onclose = true
  | _ => False

/-- The handler of an event of the socket `k`. -/
def handle (c : RelayerSettings) (s : Relay) (k : Socket) : RelayEvent → Relay
  | .opened i now => s.onopen c i now
  | .message i frame => s.onmessage i frame
  | .closed i => s.onclose c i k.settled
  | _ => s

theorem modifySocket_congr (hk : s.sockets[i]? = some k) {f g : Socket → Socket} (h : f k = g k) :
    s.modifySocket i f = s.modifySocket i g := by
  have hsame : s.sockets.modify i f = s.sockets.modify i g := by
    apply List.ext_getElem?
    intro j
    rw [List.getElem?_modify, List.getElem?_modify]
    by_cases hj : i = j
    · subst hj
      rw [hk, Option.map_eq_map, Option.map_some, Option.map_eq_map, Option.map_some, if_pos rfl,
        if_pos rfl, h]
    · simp only [if_neg hj]
  rw [modifySocket, modifySocket, hsame]

theorem modifySocket_tell_self (hk : s.sockets[i]? = some k) (h : k.tell e = k) :
    s.modifySocket i (Socket.tell e) = s := by
  rw [modifySocket_congr hk (g := id) h, modifySocket, List.modify_id]

theorem step_of_runs (he : e.socket = some i) (hk : s.sockets[i]? = some k) (hruns : Runs k e) :
    s.step c e = some ((s.modifySocket i (Socket.tell e)).handle c k e) := by
  cases e with
  | opened i now =>
    cases he
    obtain ⟨hready, hattached, hsettled⟩ := hruns
    rw [step, hk, Option.bind_some, socketOpened]
    rcases hready with hready | hready
    · rw [modifySocket_congr hk (f := Socket.tell (.opened i now))
        (g := fun k => { k with readyState := .opened }) (by simp only [Socket.tell, hready, if_true])]
      simp only [hready, hattached, hsettled, Bool.false_eq_true, not_false_eq_true, and_self,
        if_true, handle]
    · rw [modifySocket_tell_self hk (by simp [Socket.tell, hready])]
      simp only [hready, hattached, hsettled, Bool.false_eq_true, not_false_eq_true, and_self,
        if_true, handle]
  | message i frame =>
    cases he
    obtain ⟨hready, hattached⟩ := hruns
    rw [step, hk, Option.bind_some, socketMessage, if_pos hready, if_pos hattached,
      modifySocket_tell_self hk rfl, handle]
  | closed i =>
    cases he
    obtain ⟨hended, hattached⟩ := hruns
    rw [step, hk, Option.bind_some, socketClosed, hended, if_neg Bool.false_ne_true, hattached]
    rfl
  | _ => exact hruns.elim

/-- **What an event of a socket does**: it runs its handler, or at most settles the promise. -/
theorem step_socket (he : e.socket = some i) (h : s.step c e = some s') :
    ∃ k, s.sockets[i]? = some k ∧
      (Runs k e ∧ s' = (s.modifySocket i (Socket.tell e)).handle c k e ∨
        ¬ Runs k e ∧ (s' = s.modifySocket i (Socket.tell e) ∨
          ∃ r, e = .errored i ∧ s' = (s.modifySocket i (Socket.tell e)).settle i r)) := by
  have hk : ∃ k, s.sockets[i]? = some k := by
    cases e with
    | opened | message | errored | closing | closed =>
      cases he
      obtain ⟨k, hk, -⟩ := Option.bind_eq_some_iff.mp h
      exact ⟨k, hk⟩
    | _ => cases he
  obtain ⟨k, hk⟩ := hk
  refine ⟨k, hk, ?_⟩
  by_cases hruns : Runs k e
  · cases h.symm.trans (step_of_runs (c := c) he hk hruns)
    exact .inl ⟨hruns, rfl⟩
  refine .inr ⟨hruns, ?_⟩
  cases e with
  | opened j now =>
    cases he
    rw [step, hk, Option.bind_some, socketOpened] at h
    refine .inl ?_
    cases hready : k.readyState with
    | connecting =>
      rw [hready] at h
      simp only at h
      rw [if_neg fun hh => hruns ⟨.inl hready, hh.1, Bool.eq_false_iff.mpr hh.2⟩] at h
      cases h
      exact modifySocket_congr hk (by simp only [Socket.tell, hready, if_true])
    | closing =>
      rw [hready] at h
      simp only at h
      rw [if_neg fun hh => hruns ⟨.inr hready, hh.1, Bool.eq_false_iff.mpr hh.2⟩] at h
      cases h
      exact (modifySocket_tell_self hk (by simp [Socket.tell, hready])).symm
    | opened =>
      rw [hready] at h
      cases h
    | closed =>
      rw [hready] at h
      cases h
  | message j frame =>
    cases he
    rw [step, hk, Option.bind_some, socketMessage, Option.ite_none_right_eq_some] at h
    obtain ⟨hready, h⟩ := h
    rw [if_neg fun hattached => hruns ⟨hready, hattached⟩] at h
    cases h
    exact .inl (modifySocket_tell_self hk rfl).symm
  | errored j =>
    cases he
    rw [step, hk, Option.bind_some, socketErrored, Option.ite_none_left_eq_some] at h
    obtain ⟨-, h⟩ := h
    cases h
    split_ifs
    · exact .inr ⟨_, rfl, rfl⟩
    · exact .inl rfl
  | closing j =>
    cases he
    rw [step, hk, Option.bind_some, Option.ite_none_right_eq_some] at h
    cases h.2
    exact .inl rfl
  | closed j =>
    cases he
    rw [step, hk, Option.bind_some, socketClosed, Option.ite_none_left_eq_some] at h
    obtain ⟨hended, h⟩ := h
    cases h
    rw [if_neg fun hattached => hruns ⟨Bool.eq_false_iff.mpr hended, hattached⟩]
    exact .inl rfl
  | _ => cases he

/-- A thread goes on with the lock, or ends. -/
theorem resume_cases {t : ℕ} {ctor : Constructed} {now : Number}
    (h : s.resume c t ctor now = some s') : ∃ th, s.threads[t]? = some th ∧
      (th.phase = .granted ∧ s' = s.locked c t ctor now th.job ∨
        ∃ r r', th.phase = .opened r ∧ s' = s.finish t r') := by
  unfold resume at h
  split at h
  · rename_i job heq
    cases h
    exact ⟨_, heq, .inl ⟨rfl, rfl⟩⟩
  · rename_i heq
    cases h
    exact ⟨_, heq, .inr ⟨_, _, rfl, rfl⟩⟩
  · rename_i heq
    cases h
    exact ⟨_, heq, .inr ⟨_, _, rfl, rfl⟩⟩
  · cases h

end Relay

end StreamFi
