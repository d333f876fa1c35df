import StreamFi.Indexer.Stream
import StreamFi.Run.Pool

/-!
# Subscriptions of the indexer

`subscribe` opens a `WebSocket`, with reconnects and a heartbeat, or reads an event stream. `unsubscribe`
may be called at any time, and by `onData` and `onError` themselves.

* `IndexerNotice`: what the caller is told, with the sockets that are opened;
* `IndexerSubscription.step`: events of sockets, timers and reads, and calls of `unsubscribe`;
* `Quiet`: the invariant; `Quiet.schedule`, `Quiet.openSocket`: operations that keep it;
* **`silent_iff`**: nothing follows `unsubscribe`, exactly when no step hands a notice over behind it.
-/

namespace StreamFi

open Js Run

/-- What a handler does when it is called; `cleanup` is that of the indexer. -/
inductive HandlerAction where
  | nothing
  | unsubscribe
  | cleanup
  deriving DecidableEq

structure HandlerReaction where
  action : HandlerAction := .nothing
  throws : Bool := false
  deriving DecidableEq

/-- A call of a handler, a new socket, or the first call of `unsubscribe`. -/
inductive IndexerNotice (ι : Type) where
  | data (payload : Value ι)
  | error
  | opened
  | unsubscribed

def IndexerNotice.isUnsubscribed {ι : Type} : IndexerNotice ι → Bool
  | .unsubscribed => true
  | _ => false

/-- The options that matter: `heartbeat` when `heartbeatIntervalMs > 0`, and whether there is a handler
of errors. -/
structure IndexerSettings where
  maxReconnectAttempts : ℕ
  heartbeat : Bool
  onError : Bool

/-- Whether the handlers of a socket are attached, and its `subscribe` message is queued. -/
structure IndexerSocket where
  attached : Bool := true
  queuedSubscribeMessage : Bool := false
  deriving DecidableEq

/-- Where the reader of an event stream is suspended. -/
inductive SsePhase where
  | fetching
  | reading (reader : SseReader)
  | ended
  deriving DecidableEq

/-- A subscription. `timers` are the pending timers of reconnects, and `reconnectTimer` tells whether the
variable refers to one; `heartbeatInterval` goes with a socket. -/
structure IndexerState (ι : Type) where
  unsubscribed : Bool := false
  isDestroyed : Bool := false
  notices : List (IndexerNotice ι) := []
  ws : Option ℕ := none
  sockets : List IndexerSocket := []
  reconnectAttempts : ℕ := 0
  reconnectTimer : Bool := false
  timers : ℕ := 0
  heartbeatInterval : Option ℕ := none
  heartbeatTimeout : Bool := false
  awaitingPong : Bool := false
  sse : SsePhase := .ended

/-- A message of the server; `ack` with whether the `subscribe` message cannot be sent. -/
inductive ServerMessage (ι : Type) where
  | malformed
  | ping
  | pong
  | ack (sendThrows : Bool)
  | next (payload : Value ι)
  | error
  | other

/-- An event, with what the handlers that it calls do, in turn. `constructed` is `false` when the
constructor of a socket throws; `ready` is `socket.readyState === 1`. A read that rejects is `failed`. -/
inductive IndexerEvent (ι : Type) where
  | unsubscribe
  | cleanup
  | open (socket : ℕ) (sendThrows : Bool) (react : ℕ → HandlerReaction)
  | message (socket : ℕ) (message : ServerMessage ι) (react : ℕ → HandlerReaction)
  | socketError (socket : ℕ) (react : ℕ → HandlerReaction)
  | close (socket : ℕ) (react : ℕ → HandlerReaction)
  | reconnect (constructed : Bool) (react : ℕ → HandlerReaction)
  | heartbeat (ready sendThrows : Bool)
  | heartbeatTimeout (react : ℕ → HandlerReaction)
  | response (ok hasBody : Bool) (react : ℕ → HandlerReaction)
  | chunk (value : List UInt8) (react : ℕ → HandlerReaction)
  | bodyEnd
  | failed (isAbort : Bool) (react : ℕ → HandlerReaction)

namespace IndexerState

variable {ι : Type}

def note (s : IndexerState ι) (n : IndexerNotice ι) : IndexerState ι :=
  { s with notices := s.notices ++ [n] }

/-- `unsubscribed || this.isDestroyed`. -/
def halted (s : IndexerState ι) : Bool := s.unsubscribed || s.isDestroyed

def stopHeartbeat (s : IndexerState ι) : IndexerState ι :=
  { s with heartbeatTimeout := false, heartbeatInterval := none, awaitingPong := false }

/-- The handlers of the current socket are set to `null`, and it is let go of. -/
def detach (s : IndexerState ι) : IndexerState ι :=
  match s.ws with
  | some k =>
    { s with ws := none, sockets := s.sockets.modify k fun socket => { socket with attached := false } }
  | none => s

def clearReconnectTimer (s : IndexerState ι) : IndexerState ι :=
  if s.reconnectTimer then { s with reconnectTimer := false, timers := s.timers - 1 } else s

def unsubscribe (s : IndexerState ι) : IndexerState ι :=
  if s.unsubscribed then s
  else (({ s with unsubscribed := true }.clearReconnectTimer.stopHeartbeat).detach).note .unsubscribed

def cleanup (s : IndexerState ι) : IndexerState ι := unsubscribe { s with isDestroyed := true }

def act (s : IndexerState ι) : HandlerAction → IndexerState ι
  | .nothing => s
  | .unsubscribe => s.unsubscribe
  | .cleanup => s.cleanup

/-- `options.onData(payload)`; what it throws is up to the caller. -/
def onData (s : IndexerState ι) (payload : Value ι) (r : HandlerReaction) : IndexerState ι :=
  (s.note (.data payload)).act r.action

/-- What `onError` throws is swallowed. -/
def handleError (c : IndexerSettings) (s : IndexerState ι) (r : HandlerReaction) : IndexerState ι :=
  if c.onError then (s.note .error).act r.action else s

def scheduleReconnect (c : IndexerSettings) (s : IndexerState ι) (r : HandlerReaction) : IndexerState ι :=
  if s.halted then s
  else if c.maxReconnectAttempts ≤ s.reconnectAttempts then (s.handleError c r).unsubscribe
  else { s with
    reconnectAttempts := s.reconnectAttempts + 1, reconnectTimer := true, timers := s.timers + 1 }

def openSocket (c : IndexerSettings) (s : IndexerState ι) (constructed : Bool) (r : HandlerReaction) :
    IndexerState ι :=
  if s.halted then s
  else if constructed then
    { s with ws := some s.sockets.length, sockets := s.sockets ++ [({} : IndexerSocket)] }.note .opened
  else s.handleError c r

def startHeartbeat (c : IndexerSettings) (s : IndexerState ι) (socket : ℕ) : IndexerState ι :=
  if c.heartbeat then { s.stopHeartbeat with heartbeatInterval := some socket } else s.stopHeartbeat

def setQueued (s : IndexerState ι) (socket : ℕ) (queued : Bool) : IndexerState ι :=
  { s with sockets := s.sockets.modify socket fun k => { k with queuedSubscribeMessage := queued } }

def onopen (c : IndexerSettings) (s : IndexerState ι) (socket : ℕ) (sendThrows : Bool)
    (r : HandlerReaction) : IndexerState ι :=
  if s.halted then s.unsubscribe
  else
    let s := startHeartbeat c { s with reconnectAttempts := 0 } socket
    if sendThrows then s.handleError c r else s.setQueued socket true

def onmessage (c : IndexerSettings) (s : IndexerState ι) (socket : ℕ) (message : ServerMessage ι)
    (react : ℕ → HandlerReaction) : IndexerState ι :=
  if s.halted then s
  else match message with
    | .malformed | .error => s.handleError c (react 0)
    | .ping | .other => s
    | .pong => { s with awaitingPong := false, heartbeatTimeout := false }
    | .ack sendThrows =>
      if (s.sockets[socket]?).any IndexerSocket.queuedSubscribeMessage then
        if sendThrows then s.handleError c (react 0) else s.setQueued socket false
      else s
    | .next payload =>
      let s := s.onData payload (react 0)
      if (react 0).throws then s.handleError c (react 1) else s

def onclose (c : IndexerSettings) (s : IndexerState ι) (react : ℕ → HandlerReaction) : IndexerState ι :=
  let s := s.stopHeartbeat
  if s.halted then s else scheduleReconnect c (s.handleError c (react 0)) (react 1)

def handleHeartbeatTimeout (c : IndexerSettings) (s : IndexerState ι) (r : HandlerReaction) :
    IndexerState ι :=
  scheduleReconnect c s.stopHeartbeat.detach r

/-- The calls of `onData` for the payloads of a chunk; what they throw is swallowed. -/
def handAll (react : ℕ → HandlerReaction) : ℕ → List (Value ι) → IndexerState ι → IndexerState ι
  | _, [], s => s
  | k, payload :: payloads, s => handAll react (k + 1) payloads (s.onData payload (react k))

/-- The payloads of the lines that a chunk completes. -/
def chunkPayloads (parse : String → Option (Value ι)) (r : SseReader) (value : List UInt8) :
    List (Value ι) :=
  dispatch ((r.read value).1.map (readLine parse))

/-- The event's handler of a socket, if it is attached. -/
def socketEvent (s : IndexerState ι) (socket : ℕ) (s' : IndexerState ι) : Option (IndexerState ι) :=
  if (s.sockets[socket]?).any IndexerSocket.attached then some s' else none

def step (parse : String → Option (Value ι)) (c : IndexerSettings) (s : IndexerState ι) :
    IndexerEvent ι → Option (IndexerState ι)
  | .unsubscribe => some s.unsubscribe
  | .cleanup => some s.cleanup
  | .open socket sendThrows react => s.socketEvent socket (s.onopen c socket sendThrows (react 0))
  | .message socket message react => s.socketEvent socket (s.onmessage c socket message react)
  | .socketError socket react =>
    s.socketEvent socket (if s.halted then s else s.handleError c (react 0))
  | .close socket react => s.socketEvent socket (s.onclose c react)
  | .reconnect constructed react =>
    if 0 < s.timers then
      let s := { s with timers := s.timers - 1, reconnectTimer := false }
      some (if s.halted then s else s.openSocket c constructed (react 0))
    else none
  | .heartbeat ready sendThrows =>
    if s.heartbeatInterval.isSome then
      some (if !s.halted && ready && !s.awaitingPong && !sendThrows then
        { s with awaitingPong := true, heartbeatTimeout := true } else s)
    else none
  | .heartbeatTimeout react =>
    if s.heartbeatTimeout then
      let s := { s with heartbeatTimeout := false }
      some (if s.awaitingPong then s.handleHeartbeatTimeout c (react 0) else s)
    else none
  | .response ok hasBody react => match s.sse with
    | .fetching =>
      if s.halted then some { s with sse := .ended }
      else if !ok then some (handleError c { s with sse := .ended } (react 0))
      else some { s with sse := if hasBody then .reading {} else .ended }
    | _ => none
  -- the flags are not tested between `await reader.read()` and the lines of the chunk
  | .chunk value react => match s.sse with
    | .reading reader =>
      let s := handAll react 0 (chunkPayloads parse reader value) s
      some { s with sse := if s.halted then .ended else .reading (reader.read value).2 }
    | _ => none
  | .bodyEnd => match s.sse with
    | .reading _ => some { s with sse := .ended }
    | _ => none
  | .failed isAbort react => match s.sse with
    | .ended => none
    | _ =>
      let s := { s with sse := .ended }
      some (if !s.halted && !isAbort then s.handleError c (react 0) else s)

/-- The state that `subscribe` leaves: with a `WebSocket`, which it opens, or with a `fetch`. -/
def subscribed (c : IndexerSettings) (webSocket : Option Bool) (react : ℕ → HandlerReaction) :
    IndexerState ι :=
  match webSocket with
  | some constructed => openSocket c {} constructed (react 0)
  | none => { sse := .fetching }

/-- Nothing follows the first call of `unsubscribe`. -/
def Silent (s : IndexerState ι) : Prop :=
  ∀ before after, s.notices = before ++ IndexerNotice.unsubscribed :: after → after = []

/-- A handler of a `WebSocket` message that unsubscribes does not throw as well, unless nobody handles
errors. A chunk of an event stream that is read after `unsubscribe` has no payloads, and in any other
only the call for its last payload unsubscribes. -/
def Final (parse : String → Option (Value ι)) (c : IndexerSettings) (s : IndexerState ι) :
    IndexerEvent ι → Prop
  | .message _ (.next _) react => s.halted = false → c.onError = true → (react 0).throws = true →
      (react 0).action = .nothing
  | .chunk value react => ∀ reader, s.sse = .reading reader →
      (s.unsubscribed = true → chunkPayloads parse reader value = []) ∧
        ∀ k, k + 1 < (chunkPayloads parse reader value).length → (react k).action = .nothing
  | _ => True

/-! ## The invariant -/

/-- The first call of `unsubscribe` is the last notice. -/
structure Quiet (s : IndexerState ι) : Prop where
  live : s.unsubscribed = false → .unsubscribed ∉ s.notices
  ended : s.unsubscribed = true → ∃ before, s.notices = before ++ [.unsubscribed] ∧
    .unsubscribed ∉ before
  destroyed : s.isDestroyed = true → s.unsubscribed = true

variable {parse : String → Option (Value ι)} {c : IndexerSettings} {s s' : IndexerState ι}
  {react : ℕ → HandlerReaction} {r : HandlerReaction} {n : IndexerNotice ι}

theorem Quiet.silent (h : Quiet s) : s.Silent := by
  intro before after heq
  cases hu : s.unsubscribed with
  | false => exact absurd (heq ▸ List.mem_append_right _ List.mem_cons_self) (h.live hu)
  | true =>
    obtain ⟨b, hb, hno⟩ := h.ended hu
    rcases List.eq_nil_or_concat after with hnil | ⟨after', last, rfl⟩
    · exact hnil
    · have hsplit : b ++ [IndexerNotice.unsubscribed] = before ++ .unsubscribed :: after' ++ [last] := by
        rw [← hb, heq, List.concat_eq_append, List.append_assoc, List.cons_append]
      rw [(List.append_inj' hsplit rfl).1] at hno
      exact absurd (List.mem_append_right before List.mem_cons_self) hno

theorem quiet_init (sse : SsePhase) : Quiet ({ sse } : IndexerState ι) where
  live _ h := by cases h
  ended h := by cases h
  destroyed h := by cases h

theorem Quiet.halted_iff (h : Quiet s) : s.halted = true ↔ s.unsubscribed = true := by
  rw [halted, Bool.or_eq_true, or_iff_left_iff_imp]
  exact h.destroyed

theorem Quiet.live_of_not_halted (h : Quiet s) (hs : ¬ s.halted = true) : s.unsubscribed = false := by
  rw [h.halted_iff] at hs
  exact Bool.eq_false_iff.mpr hs

theorem Quiet.note (h : Quiet s) (hs : s.unsubscribed = false) (hn : n ≠ .unsubscribed) :
    Quiet (s.note n) where
  live hu := by
    show .unsubscribed ∉ s.notices ++ [n]
    rw [List.mem_append, List.mem_singleton, not_or]
    exact ⟨h.live hu, hn.symm⟩
  ended hu := absurd (hs.symm.trans hu) Bool.false_ne_true
  destroyed := h.destroyed

/-- Only notices and the two flags matter. -/
theorem Quiet.congr (h : Quiet s) (hu : s'.unsubscribed = s.unsubscribed)
    (hd : s'.isDestroyed = s.isDestroyed) (hn : s'.notices = s.notices) : Quiet s' where
  live := by
    rw [hu, hn]
    exact h.live
  ended := by
    rw [hu, hn]
    exact h.ended
  destroyed := by
    rw [hu, hd]
    exact h.destroyed

/-- What a change that is not about notices leaves alone. -/
def SameNotices (s s' : IndexerState ι) : Prop :=
  s'.unsubscribed = s.unsubscribed ∧ s'.isDestroyed = s.isDestroyed ∧ s'.notices = s.notices

theorem sameNotices_clearReconnectTimer (s : IndexerState ι) : SameNotices s s.clearReconnectTimer := by
  unfold clearReconnectTimer
  split_ifs <;> exact ⟨rfl, rfl, rfl⟩

theorem sameNotices_detach (s : IndexerState ι) : SameNotices s s.detach := by
  unfold detach
  cases s.ws <;> exact ⟨rfl, rfl, rfl⟩

theorem SameNotices.trans {s'' : IndexerState ι} (h : SameNotices s s') (h' : SameNotices s' s'') :
    SameNotices s s'' :=
  ⟨h'.1.trans h.1, h'.2.1.trans h.2.1, h'.2.2.trans h.2.2⟩

theorem Quiet.of_same (h : Quiet s) (hs : SameNotices s s') : Quiet s' := h.congr hs.1 hs.2.1 hs.2.2

/-- The first call of `unsubscribe`, as far as notices go. -/
theorem unsubscribe_form (hs : s.unsubscribed = false) :
    s.unsubscribe.unsubscribed = true ∧ s.unsubscribe.isDestroyed = s.isDestroyed ∧
      s.unsubscribe.notices = s.notices ++ [.unsubscribed] := by
  have hsame : SameNotices ({ s with unsubscribed := true } : IndexerState ι)
      ({ s with unsubscribed := true }.clearReconnectTimer.stopHeartbeat).detach :=
    ((sameNotices_clearReconnectTimer _).trans ⟨rfl, rfl, rfl⟩).trans (sameNotices_detach _)
  rw [IndexerState.unsubscribe, if_neg (by rw [hs]; exact Bool.false_ne_true)]
  exact ⟨hsame.1, hsame.2.1, congrArg (· ++ [IndexerNotice.unsubscribed]) hsame.2.2⟩

theorem unsubscribe_again (hs : s.unsubscribed = true) : s.unsubscribe = s := by
  rw [IndexerState.unsubscribe, if_pos hs]

theorem quiet_unsubscribe (hlive : s.unsubscribed = false → .unsubscribed ∉ s.notices)
    (hended : s.unsubscribed = true → ∃ before, s.notices = before ++ [.unsubscribed] ∧
      .unsubscribed ∉ before) : Quiet s.unsubscribe ∧ s.unsubscribe.unsubscribed = true := by
  cases hu : s.unsubscribed with
  | true =>
    rw [unsubscribe_again hu]
    exact ⟨⟨hlive, hended, fun _ => hu⟩, hu⟩
  | false =>
    obtain ⟨hun, hdes, hnotices⟩ := unsubscribe_form hu
    refine ⟨⟨?_, ?_, fun _ => hun⟩, hun⟩
    · intro h
      rw [hun] at h
      cases h
    · intro _
      exact ⟨s.notices, hnotices, hlive hu⟩

theorem Quiet.unsubscribe (h : Quiet s) : Quiet s.unsubscribe := (quiet_unsubscribe h.live h.ended).1

theorem Quiet.cleanup (h : Quiet s) : Quiet s.cleanup := by
  have hdestroyed := quiet_unsubscribe (s := { s with isDestroyed := true }) h.live h.ended
  exact hdestroyed.1

theorem Quiet.act (h : Quiet s) (action : HandlerAction) : Quiet (s.act action) := by
  cases action with
  | nothing => exact h
  | unsubscribe => exact h.unsubscribe
  | cleanup => exact h.cleanup

theorem Quiet.onData (h : Quiet s) (hs : s.unsubscribed = false) (payload : Value ι)
    (r : HandlerReaction) : Quiet (s.onData payload r) :=
  (h.note hs (by simp)).act r.action

theorem Quiet.handleError (h : Quiet s) (hs : s.unsubscribed = false) (r : HandlerReaction) :
    Quiet (s.handleError c r) := by
  unfold IndexerState.handleError
  split_ifs
  · exact (h.note hs (by simp)).act r.action
  · exact h

theorem Quiet.scheduleReconnect (h : Quiet s) (r : HandlerReaction) :
    Quiet (s.scheduleReconnect c r) := by
  unfold IndexerState.scheduleReconnect
  split_ifs with hhalted
  · exact h
  · exact (h.handleError (h.live_of_not_halted hhalted) r).unsubscribe
  · exact h.congr rfl rfl rfl

theorem Quiet.openSocket (h : Quiet s) (constructed : Bool) (r : HandlerReaction) :
    Quiet (s.openSocket c constructed r) := by
  unfold IndexerState.openSocket
  split_ifs with hhalted
  · exact h
  · have hlive := h.live_of_not_halted hhalted
    have hnew : Quiet { s with
        ws := some s.sockets.length, sockets := s.sockets ++ [({} : IndexerSocket)] } :=
      h.congr rfl rfl rfl
    exact hnew.note hlive (by simp)
  · exact h.handleError (h.live_of_not_halted hhalted) r

theorem quiet_subscribed (c : IndexerSettings) (webSocket : Option Bool) (react : ℕ → HandlerReaction) :
    Quiet (subscribed c webSocket react : IndexerState ι) := by
  cases webSocket with
  | none => exact quiet_init .fetching
  | some constructed => exact (quiet_init .ended).openSocket constructed (react 0)

theorem sameNotices_startHeartbeat (c : IndexerSettings) (s : IndexerState ι) (socket : ℕ) :
    SameNotices s (startHeartbeat c { s with reconnectAttempts := 0 } socket) := by
  unfold startHeartbeat
  split_ifs <;> exact ⟨rfl, rfl, rfl⟩

theorem Quiet.onopen (h : Quiet s) (socket : ℕ) (sendThrows : Bool) (r : HandlerReaction) :
    Quiet (s.onopen c socket sendThrows r) := by
  have hsame := sameNotices_startHeartbeat c s socket
  unfold IndexerState.onopen
  split_ifs with hhalted hsend
  · exact h.unsubscribe
  · exact (h.of_same hsame).handleError (hsame.1.trans (h.live_of_not_halted hhalted)) r
  · exact (h.of_same hsame).congr rfl rfl rfl

theorem Quiet.onclose (h : Quiet s) (react : ℕ → HandlerReaction) : Quiet (s.onclose c react) := by
  have hstop : Quiet s.stopHeartbeat := h.congr rfl rfl rfl
  unfold IndexerState.onclose
  simp only
  split_ifs with hhalted
  · exact hstop
  · exact (hstop.handleError (hstop.live_of_not_halted hhalted) (react 0)).scheduleReconnect (react 1)

theorem Quiet.handleHeartbeatTimeout (h : Quiet s) (r : HandlerReaction) :
    Quiet (s.handleHeartbeatTimeout c r) := by
  have hstop : Quiet s.stopHeartbeat := h.congr rfl rfl rfl
  exact (hstop.of_same (sameNotices_detach s.stopHeartbeat)).scheduleReconnect r

/-! ## The handlers of messages -/

theorem act_ended (hs : s.unsubscribed = true) (action : HandlerAction) :
    (s.act action).unsubscribed = true ∧ (s.act action).notices = s.notices := by
  cases action with
  | nothing => exact ⟨hs, rfl⟩
  | unsubscribe =>
    show s.unsubscribe.unsubscribed = true ∧ s.unsubscribe.notices = s.notices
    rw [unsubscribe_again hs]
    exact ⟨hs, rfl⟩
  | cleanup =>
    have hagain := unsubscribe_again (s := { s with isDestroyed := true }) hs
    show s.cleanup.unsubscribed = true ∧ s.cleanup.notices = s.notices
    rw [IndexerState.cleanup, hagain]
    exact ⟨hs, rfl⟩

theorem act_live (hs : s.unsubscribed = false) {action : HandlerAction} (ha : action ≠ .nothing) :
    (s.act action).unsubscribed = true ∧ (s.act action).notices = s.notices ++ [.unsubscribed] := by
  cases action with
  | nothing => exact absurd rfl ha
  | unsubscribe =>
    obtain ⟨hun, -, hnotices⟩ := unsubscribe_form hs
    exact ⟨hun, hnotices⟩
  | cleanup =>
    obtain ⟨hun, -, hnotices⟩ := unsubscribe_form (s := { s with isDestroyed := true }) hs
    exact ⟨hun, hnotices⟩

theorem notices_act (s : IndexerState ι) (action : HandlerAction) :
    s.notices <+: (s.act action).notices := by
  cases hs : s.unsubscribed with
  | true => rw [(act_ended hs action).2]
  | false =>
    by_cases ha : action = .nothing
    · rw [ha]
      exact List.prefix_rfl
    · rw [(act_live hs ha).2]
      exact List.prefix_append _ _

theorem notices_onData (s : IndexerState ι) (payload : Value ι) (r : HandlerReaction) :
    s.notices ++ [.data payload] <+: (s.onData payload r).notices :=
  notices_act (s.note (.data payload)) r.action

theorem notices_handAll (react : ℕ → HandlerReaction) (k : ℕ) (payloads : List (Value ι))
    (s : IndexerState ι) : s.notices <+: (handAll react k payloads s).notices := by
  induction payloads generalizing k s with
  | nil => exact List.prefix_rfl
  | cons payload payloads ih =>
    have hdata := (List.prefix_append s.notices [.data payload]).trans (notices_onData s payload (react k))
    exact hdata.trans (ih (k + 1) (s.onData payload (react k)))

/-- Something follows the first call of `unsubscribe`. -/
theorem not_silent {before : List (IndexerNotice ι)} (h : before ++ [.unsubscribed, n] <+: s.notices) :
    ¬ s.Silent := by
  obtain ⟨after, heq⟩ := h
  intro hsilent
  have hnil := hsilent before (n :: after) (by rw [← heq, List.append_assoc]; rfl)
  cases hnil

theorem not_silent_of_note (h : Quiet s) (hs : s.unsubscribed = true)
    (hs' : s.notices ++ [n] <+: s'.notices) : ¬ s'.Silent := by
  obtain ⟨before, hb, -⟩ := h.ended hs
  rw [hb, List.append_assoc] at hs'
  exact not_silent hs'

theorem not_silent_handAll_ended (h : Quiet s) (hs : s.unsubscribed = true) {k : ℕ}
    {payloads : List (Value ι)} (hne : payloads ≠ []) : ¬ (handAll react k payloads s).Silent := by
  cases payloads with
  | nil => exact absurd rfl hne
  | cons payload payloads =>
    refine not_silent_of_note h hs (n := .data payload) ?_
    exact (notices_onData s payload (react k)).trans (notices_handAll react (k + 1) payloads _)

theorem onData_nothing (payload : Value ι) (ha : r.action = .nothing) :
    s.onData payload r = s.note (.data payload) := by
  rw [onData, ha]
  rfl

theorem Quiet.handAll {k : ℕ} {payloads : List (Value ι)} (h : Quiet s) (hs : s.unsubscribed = false)
    (hact : ∀ j, j + 1 < payloads.length → (react (k + j)).action = .nothing) :
    Quiet (handAll react k payloads s) := by
  induction payloads generalizing k s with
  | nil => exact h
  | cons payload payloads ih =>
    have hdata := h.onData hs payload (react k)
    cases payloads with
    | nil => exact hdata
    | cons next rest =>
      have hnothing : (react k).action = .nothing := hact 0 (by simp)
      refine ih hdata ?_ ?_
      · rw [onData_nothing payload hnothing]
        exact hs
      · intro j hj
        rw [Nat.add_right_comm, Nat.add_assoc]
        exact hact (j + 1) (Nat.succ_lt_succ hj)

theorem not_silent_handAll {k j : ℕ} {payloads : List (Value ι)} (h : Quiet s)
    (hs : s.unsubscribed = false) (hj : j + 1 < payloads.length)
    (hact : (react (k + j)).action ≠ .nothing) : ¬ (handAll react k payloads s).Silent := by
  induction payloads generalizing k j s with
  | nil => exact absurd hj (Nat.not_lt_zero _)
  | cons payload payloads ih =>
    have hdata := h.onData hs payload (react k)
    by_cases hk : (react k).action = .nothing
    · cases j with
      | zero => exact absurd hk hact
      | succ j =>
        refine ih (k := k + 1) (j := j) hdata ?_ (Nat.lt_of_succ_lt_succ hj) ?_
        · rw [onData_nothing payload hk]
          exact hs
        · rw [Nat.add_right_comm, Nat.add_assoc]
          exact hact
    · have hended := act_live (s := s.note (.data payload)) hs hk
      refine not_silent_handAll_ended hdata hended.1 ?_
      rintro rfl
      simp at hj

theorem Quiet.onmessage {socket : ℕ} {message : ServerMessage ι} (h : Quiet s)
    (hf : Final parse c s (.message socket message react)) :
    Quiet (s.onmessage c socket message react) := by
  unfold IndexerState.onmessage
  by_cases hhalted : s.halted = true
  · rw [if_pos hhalted]
    exact h
  · rw [if_neg hhalted]
    have hlive := h.live_of_not_halted hhalted
    cases message with
    | malformed => exact h.handleError hlive (react 0)
    | error => exact h.handleError hlive (react 0)
    | ping => exact h
    | other => exact h
    | pong => exact h.congr rfl rfl rfl
    | ack sendThrows =>
      simp only
      split_ifs
      · exact h.handleError hlive (react 0)
      · exact h.congr rfl rfl rfl
      · exact h
    | next payload =>
      have hdata := h.onData hlive payload (react 0)
      simp only
      split_ifs with hthrows
      · cases hc : c.onError with
        | false =>
          rw [IndexerState.handleError, hc]
          exact hdata
        | true =>
          refine hdata.handleError ?_ (react 1)
          rw [onData_nothing payload (hf (Bool.eq_false_iff.mpr hhalted) hc hthrows)]
          exact hlive
      · exact hdata

/-! ## Steps -/

theorem socketEvent_iff {socket : ℕ} {t : IndexerState ι} : s.socketEvent socket t = some s' ↔
    (s.sockets[socket]?).any IndexerSocket.attached = true ∧ t = s' := by
  unfold socketEvent
  split_ifs with hattached
  · simp only [hattached, true_and, Option.some.injEq]
  · simp only [hattached, false_and, reduceCtorEq]

theorem Quiet.step {e : IndexerEvent ι} (h : Quiet s) (hf : Final parse c s e)
    (hs : s.step parse c e = some s') : Quiet s' := by
  cases e with
  | unsubscribe =>
    cases hs
    exact h.unsubscribe
  | cleanup =>
    cases hs
    exact h.cleanup
  | «open» socket sendThrows react =>
    obtain ⟨-, rfl⟩ := socketEvent_iff.mp hs
    exact h.onopen socket sendThrows (react 0)
  | message socket message react =>
    obtain ⟨-, rfl⟩ := socketEvent_iff.mp hs
    exact h.onmessage hf
  | socketError socket react =>
    obtain ⟨-, rfl⟩ := socketEvent_iff.mp hs
    split_ifs with hhalted
    · exact h
    · exact h.handleError (h.live_of_not_halted hhalted) (react 0)
  | close socket react =>
    obtain ⟨-, rfl⟩ := socketEvent_iff.mp hs
    exact h.onclose react
  | reconnect constructed react =>
    simp only [IndexerState.step, Option.ite_none_right_eq_some, Option.some.injEq] at hs
    obtain ⟨-, rfl⟩ := hs
    have hfired : Quiet { s with timers := s.timers - 1, reconnectTimer := false } := h.congr rfl rfl rfl
    split_ifs
    · exact hfired
    · exact hfired.openSocket constructed (react 0)
  | heartbeat ready sendThrows =>
    simp only [IndexerState.step, Option.ite_none_right_eq_some, Option.some.injEq] at hs
    obtain ⟨-, rfl⟩ := hs
    split_ifs
    · exact h.congr rfl rfl rfl
    · exact h
  | heartbeatTimeout react =>
    simp only [IndexerState.step, Option.ite_none_right_eq_some, Option.some.injEq] at hs
    obtain ⟨-, rfl⟩ := hs
    have hfired : Quiet { s with heartbeatTimeout := false } := h.congr rfl rfl rfl
    split_ifs
    · exact hfired.handleHeartbeatTimeout (react 0)
    · exact hfired
  | response ok hasBody react =>
    have hended : Quiet { s with sse := .ended } := h.congr rfl rfl rfl
    simp only [IndexerState.step] at hs
    split at hs
    · split_ifs at hs with hhalted
      · cases hs
        exact hended
      · cases hs
        exact hended.handleError (h.live_of_not_halted hhalted) (react 0)
      · cases hs
        exact h.congr rfl rfl rfl
      · cases hs
        exact hended
    · cases hs
  | chunk value react =>
    simp only [IndexerState.step] at hs
    split at hs
    · rename_i reader hreader
      cases hs
      obtain ⟨hlate, hbefore⟩ := hf reader hreader
      have hall : Quiet (IndexerState.handAll react 0 (chunkPayloads parse reader value) s) := by
        cases hu : s.unsubscribed with
        | true =>
          rw [hlate hu]
          exact h
        | false =>
          refine h.handAll hu fun j hj => ?_
          rw [Nat.zero_add]
          exact hbefore j hj
      exact hall.congr rfl rfl rfl
    · cases hs
  | bodyEnd =>
    simp only [IndexerState.step] at hs
    split at hs
    · cases hs
      exact h.congr rfl rfl rfl
    · cases hs
  | failed isAbort react =>
    have hended : Quiet { s with sse := .ended } := h.congr rfl rfl rfl
    simp only [IndexerState.step] at hs
    split at hs
    · cases hs
    · cases hs
      split_ifs with hlive
      · rw [Bool.and_eq_true, Bool.not_eq_true'] at hlive
        exact hended.handleError (hended.live_of_not_halted (Bool.eq_false_iff.mp hlive.1)) (react 0)
      · exact hended

/-- A step that is not `Final` hands a notice over behind the first call of `unsubscribe`. -/
theorem not_silent_step {e : IndexerEvent ι} (h : Quiet s) (hf : ¬ Final parse c s e)
    (hs : s.step parse c e = some s') : ¬ s'.Silent := by
  cases e with
  | message socket message react =>
    obtain ⟨-, rfl⟩ := socketEvent_iff.mp hs
    cases message with
    | next payload =>
      simp only [Final, not_forall] at hf
      obtain ⟨hhalted, hc, hthrows, haction⟩ := hf
      have hlive : s.unsubscribed = false := h.live_of_not_halted (Bool.eq_false_iff.mp hhalted)
      have hended := act_live (s := s.note (.data payload)) hlive haction
      have hdata := h.onData hlive payload (react 0)
      have hstep : s.onmessage c socket (.next payload) react =
          (s.onData payload (react 0)).handleError c (react 1) := by
        rw [onmessage, hhalted, if_neg Bool.false_ne_true]
        exact if_pos hthrows
      rw [hstep, handleError, if_pos hc]
      exact not_silent_of_note hdata hended.1 (n := .error)
        (notices_act ((s.onData payload (react 0)).note .error) (react 1).action)
    | malformed => exact absurd trivial hf
    | error => exact absurd trivial hf
    | ping => exact absurd trivial hf
    | other => exact absurd trivial hf
    | pong => exact absurd trivial hf
    | ack sendThrows => exact absurd trivial hf
  | chunk value react =>
    simp only [Final, not_forall, not_and_or] at hf
    obtain ⟨reader, hreader, hbad⟩ := hf
    simp only [IndexerState.step, hreader, Option.some.injEq] at hs
    subst hs
    show ¬ (handAll react 0 (chunkPayloads parse reader value) s).Silent
    cases hu : s.unsubscribed with
    | true =>
      refine not_silent_handAll_ended h hu ?_
      intro hnil
      rw [hnil] at hbad
      simp at hbad
    | false =>
      rcases hbad with hlate | hbefore
      · exact absurd (hu.symm.trans hlate.1) Bool.false_ne_true
      · obtain ⟨j, hj, hact⟩ := hbefore
        refine not_silent_handAll h hu hj ?_
        rw [Nat.zero_add]
        exact hact
  | unsubscribe => exact absurd trivial hf
  | cleanup => exact absurd trivial hf
  | «open» socket sendThrows react => exact absurd trivial hf
  | socketError socket react => exact absurd trivial hf
  | close socket react => exact absurd trivial hf
  | reconnect constructed react => exact absurd trivial hf
  | heartbeat ready sendThrows => exact absurd trivial hf
  | heartbeatTimeout react => exact absurd trivial hf
  | response ok hasBody react => exact absurd trivial hf
  | bodyEnd => exact absurd trivial hf
  | failed isAbort react => exact absurd trivial hf

/-- **Nothing follows `unsubscribe`**, in any state of a run, exactly when every step is `Final`. -/
theorem silent_iff {webSocket : Option Bool} {log : List (IndexerEvent ι)}
    (h : run (step parse c) (subscribed c webSocket react) log = some s) :
    Throughout (step parse c) Silent (subscribed c webSocket react) log ↔
      EachStep (step parse c) (Final parse c) (subscribed c webSocket react) log :=
  throughout_iff_eachStep (I := Quiet) (fun _ hs => hs.silent) (quiet_subscribed c webSocket react)
    (fun _ _ _ hs hf he => hs.step hf he) (fun _ _ _ hs hf he => not_silent_step hs hf he) h

/-- A test for `Final`. -/
def finalCheck (parse : String → Option (Value ι)) (c : IndexerSettings) (s : IndexerState ι) :
    IndexerEvent ι → Bool
  | .message _ (.next _) react =>
    s.halted || !c.onError || !(react 0).throws || (react 0).action = .nothing
  | .chunk value react => match s.sse with
    | .reading reader =>
      (!s.unsubscribed || (chunkPayloads parse reader value).isEmpty) &&
        (List.range ((chunkPayloads parse reader value).length - 1)).all fun k =>
          (react k).action = .nothing
    | _ => true
  | _ => true

theorem final_of_check {e : IndexerEvent ι} (h : finalCheck parse c s e = true) : Final parse c s e := by
  cases e with
  | message socket message react =>
    cases message with
    | next payload =>
      intro hhalted hc hthrows
      simpa [finalCheck, hhalted, hc, hthrows] using h
    | _ => trivial
  | chunk value react =>
    intro reader hreader
    simp only [finalCheck, hreader, Bool.and_eq_true, Bool.or_eq_true, Bool.not_eq_true',
      List.isEmpty_iff, List.all_eq_true, List.mem_range, decide_eq_true_eq] at h
    refine ⟨fun hu => h.1.resolve_left (Bool.not_eq_false s.unsubscribed ▸ hu), ?_⟩
    intro k hk
    exact h.2 k (by omega)
  | _ => trivial

theorem silent_iff_two :
    let parse (s : String) : Option (Value Empty) := (bigInt s).map fun n => .number (.fin n)
    let c : IndexerSettings := { maxReconnectAttempts := 1, heartbeat := true, onError := true }
    let stop (n k : ℕ) : HandlerReaction := { action := if k = n then .unsubscribe else .nothing }
    let sse : List (IndexerEvent Empty) := [.response true true (stop 9),
      .chunk (asciiBytes "data: 1\ndata: 2\nda".toList) (stop 1), .unsubscribe]
    let webSocket : List (IndexerEvent Empty) := [.open 0 false (stop 9), .message 0 (.next .null) (stop 9),
      .close 0 (stop 9), .reconnect true (stop 9), .message 1 (.next .null) (stop 0)]
    (∃ s, run (step parse c) (subscribed c none (stop 9)) sse = some s ∧
      s.notices.map IndexerNotice.isUnsubscribed = [false, false, true] ∧
      Throughout (step parse c) Silent (subscribed c none (stop 9)) sse) ∧
    ∃ s, run (step parse c) (subscribed c (some true) (stop 9)) webSocket = some s ∧
      s.notices.map IndexerNotice.isUnsubscribed = [false, false, false, false, false, true] ∧
      Throughout (step parse c) Silent (subscribed c (some true) (stop 9)) webSocket := by
  intro parse c stop sse webSocket
  constructor
  · obtain ⟨s, hs, hend⟩ := (Option.any_eq_true _ _).mp (by decide :
      (run (step parse c) (subscribed c none (stop 9)) sse).any fun s =>
        s.notices.map IndexerNotice.isUnsubscribed = [false, false, true])
    exact ⟨s, hs, of_decide_eq_true hend,
      (silent_iff hs).mpr (.of_allSteps (fun _ _ => final_of_check) (by decide))⟩
  · obtain ⟨s, hs, hend⟩ := (Option.any_eq_true _ _).mp (by decide :
      (run (step parse c) (subscribed c (some true) (stop 9)) webSocket).any fun s =>
        s.notices.map IndexerNotice.isUnsubscribed = [false, false, false, false, false, true])
    exact ⟨s, hs, of_decide_eq_true hend,
      (silent_iff hs).mpr (.of_allSteps (fun _ _ => final_of_check) (by decide))⟩

/-- **Handlers are called after `unsubscribe`**: for the second line of a chunk, whether the first one's
handler unsubscribes or the caller does while the chunk is read, and for what a handler throws. -/
theorem notices_after_unsubscribe :
    let parse (s : String) : Option (Value Empty) := (bigInt s).map fun n => .number (.fin n)
    let c : IndexerSettings := { maxReconnectAttempts := 1, heartbeat := true, onError := true }
    let noReaction (_ : ℕ) : HandlerReaction := {}
    let stop (_ : ℕ) : HandlerReaction := { action := .unsubscribe }
    let stopAndThrow (_ : ℕ) : HandlerReaction := { action := .unsubscribe, throws := true }
    let chunk := asciiBytes "data: 1\ndata: 2\n".toList
    (∃ s, run (step parse c) (subscribed c none noReaction)
        [.response true true noReaction, .chunk chunk stop] = some s ∧
      s.notices.map IndexerNotice.isUnsubscribed = [false, true, false]) ∧
    (∃ s, run (step parse c) (subscribed c none noReaction)
        [.response true true noReaction, .unsubscribe, .chunk chunk noReaction] = some s ∧
      s.notices.map IndexerNotice.isUnsubscribed = [true, false, false]) ∧
    ∃ s, run (step parse c) (subscribed c (some true) noReaction)
        [.open 0 false noReaction, .message 0 (.next .null) stopAndThrow] = some s ∧
      s.notices.map IndexerNotice.isUnsubscribed = [false, false, true, false] := by
  intro parse c noReaction stop stopAndThrow chunk
  refine ⟨?_, ?_, ?_⟩
  · obtain ⟨s, hs, hend⟩ := (Option.any_eq_true _ _).mp (by decide :
      (run (step parse c) (subscribed c none noReaction)
        [.response true true noReaction, .chunk chunk stop]).any fun s =>
          s.notices.map IndexerNotice.isUnsubscribed = [false, true, false])
    exact ⟨s, hs, of_decide_eq_true hend⟩
  · obtain ⟨s, hs, hend⟩ := (Option.any_eq_true _ _).mp (by decide :
      (run (step parse c) (subscribed c none noReaction)
        [.response true true noReaction, .unsubscribe, .chunk chunk noReaction]).any fun s =>
          s.notices.map IndexerNotice.isUnsubscribed = [true, false, false])
    exact ⟨s, hs, of_decide_eq_true hend⟩
  · obtain ⟨s, hs, hend⟩ := (Option.any_eq_true _ _).mp (by decide :
      (run (step parse c) (subscribed c (some true) noReaction)
        [.open 0 false noReaction, .message 0 (.next .null) stopAndThrow]).any fun s =>
          s.notices.map IndexerNotice.isUnsubscribed = [false, false, true, false])
    exact ⟨s, hs, of_decide_eq_true hend⟩

end IndexerState

end StreamFi
