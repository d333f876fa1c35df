import StreamFi.Relayer.Socket

/-!
# Stale sockets

The handlers of a socket close over the relayer. They are taken off when a heartbeat times out, but
not by `disconnect`, so that a socket that was closed still speaks for the relayer.

* `IgnoresStale`: an event of a socket that is not the current one leaves the relayer alone;
* `Harmless`: no handler of such a socket runs, or what it does is done already;
* **`ignores_stale_iff`**: stale events are ignored throughout a run exactly when each is harmless.
-/

namespace StreamFi

open Js Run

namespace Relay

variable {c : RelayerSettings} {s s' : Relay} {i : ℕ} {now : Number}

/-- All is as it was but socket `i`, and the promise that is settled with it. -/
structure LeftAlone (i : ℕ) (s s' : Relay) : Prop where
  relayer : s'.toWebSocketRelayer = s.toWebSocketRelayer
  sockets : ∀ j ≠ i, s'.sockets[j]? = s.sockets[j]?
  threads : s'.threads.length = s.threads.length
  others : ∀ (t : ℕ) th, s.threads[t]? = some th → th.phase ≠ .opening i → s'.threads[t]? = some th
  holder : s'.holder = s.holder
  connects : s'.connects = s.connects
  sends : s'.sends = s.sends

/-- **An event of a socket that is not the current one never changes the relayer's state.** -/
def IgnoresStale (c : RelayerSettings) (s : Relay) (e : RelayEvent) : Prop :=
  ∀ i s', e.socket = some i → s.ws ≠ some i → s.step c e = some s' → LeftAlone i s s'

/-! ## Harmless events -/

/-- None of the messages is dropped as they are queued once more, behind `n` others. -/
def AllKept (c : RelayerSettings) (now : Number) (n : ℕ) (pending : List QueuedMessage) : Prop :=
  (∀ queued ∈ pending, isExpired c now queued = false) ∧
    ∀ m, 0 < n + m → m < pending.length → c.maxPendingMessages.le (.fin (n + m : ℕ)) = false

/-- A flush puts the offline queue back as it was. -/
def Restamped (c : RelayerSettings) (s : Relay) (now : Number) : Prop :=
  s.offlineQueue = [] ∨
    s.isDestroyed = false ∧ s.wsOpen = false ∧
      (∀ queued ∈ s.offlineQueue, queued.enqueuedAt = now) ∧ AllKept c now 0 s.offlineQueue

/-- There is nothing to do for `onopen`. -/
structure Up (c : RelayerSettings) (s : Relay) (now : Number) : Prop where
  noHeartbeat : Number.lt (.fin 0) c.heartbeatIntervalMs = false
  heartbeatInterval : s.heartbeatInterval = none
  heartbeatTimeout : s.heartbeatTimeout = none
  awaitingPong : s.awaitingPong = false
  reconnectAttempts : s.reconnectAttempts = .fin 0
  reconnectExhausted : s.reconnectExhausted = false
  offlineQueue : Restamped c s now
  stateTransition : s.stateTransition = .connected

/-- There is nothing to do for `onclose`. -/
structure Down (c : RelayerSettings) (s : Relay) : Prop where
  ws : s.ws = none
  heartbeatInterval : s.heartbeatInterval = none
  heartbeatTimeout : s.heartbeatTimeout = none
  awaitingPong : s.awaitingPong = false
  noReconnect : s.shouldAttemptReconnect c = false
  reconnectExhausted : s.isPermanentlyDown c = true → s.reconnectExhausted = true
  stateTransition : s.stateTransition = .disconnected

/-- There is nothing to do for `onmessage`. -/
structure Unheard (s : Relay) (frame : Option String) : Prop where
  awaitingPong : s.awaitingPong = false
  handlers : ∀ type ∈ frame, ∀ h ∈ s.handlers, h.1 ≠ type

/-- What the handler of the event does is done already. -/
def Vain (c : RelayerSettings) (s : Relay) : RelayEvent → Prop
  | .opened _ now => Up c s now
  | .message _ frame => Unheard s frame
  | .closed _ => Down c s
  | _ => True

/-- If the event is of a socket that is not the current one, no handler runs, or it does so in
vain. -/
def Harmless (c : RelayerSettings) (s : Relay) (e : RelayEvent) : Prop :=
  ∀ i k, e.socket = some i → s.ws ≠ some i → s.sockets[i]? = some k → Runs k e → Vain c s e

/-! ## What the handlers do -/

theorem leftAlone_modifySocket (s : Relay) (i : ℕ) (f : Socket → Socket) :
    LeftAlone i s (s.modifySocket i f) where
  relayer := rfl
  sockets _ hj := List.getElem?_modify_ne _ _ (Ne.symm hj)
  threads := rfl
  others _ _ h _ := h
  holder := rfl
  connects := rfl
  sends := rfl

theorem LeftAlone.settle (h : LeftAlone i s s') (r : Except Thrown Unit) :
    LeftAlone i s (s'.settle i r) where
  relayer := h.relayer
  sockets j hj := by
    rw [← h.sockets j hj]
    exact List.getElem?_modify_ne _ _ (Ne.symm hj)
  threads := by
    rw [← h.threads]
    exact List.length_map _
  others t th ht hphase := by
    show (s'.threads.map _)[t]? = some th
    rw [List.getElem?_map, h.others t th ht hphase, Option.map_some, if_neg hphase]
  holder := h.holder
  connects := h.connects
  sends := h.sends

theorem wsOpen_modifySocket (h : s.ws ≠ some i) (f : Socket → Socket) :
    (s.modifySocket i f).wsOpen = s.wsOpen := by
  show ((s.ws.bind fun j => (s.sockets.modify i f)[j]?).any _) = (s.ws.bind _).any _
  cases hws : s.ws with
  | none => rfl
  | some j =>
    have hne : i ≠ j := by
      rintro rfl
      exact h hws
    rw [Option.bind_some, Option.bind_some, List.getElem?_modify_ne _ _ hne]

/-! A message. -/

theorem awaitingPong_onmessage (s : Relay) (i : ℕ) (frame : Option String) :
    (s.onmessage i frame).awaitingPong = false := by
  have hclear : (if s.awaitingPong then { s with awaitingPong := false }.clearHeartbeatTimeout
      else s).awaitingPong = false := by
    cases h : s.awaitingPong with
    | false => simp [h]
    | true => rfl
  unfold onmessage handleMessageSafe
  cases frame with
  | none => exact hclear
  | some type =>
    simp only [hclear, Bool.false_eq_true, and_false, if_false]

theorem onmessage_eq (h : s.awaitingPong = false) (i : ℕ) (type : String) :
    s.onmessage i (some type) = { s with delivered := s.delivered ++
      (s.handlers.filter fun h => h.1 = type).map fun h => ⟨i, type, h.2⟩ } := by
  simp only [onmessage, handleMessageSafe, h, Bool.false_eq_true, and_false, if_false]

theorem Unheard.onmessage {frame : Option String} (h : Unheard s frame) (i : ℕ) :
    s.onmessage i frame = s := by
  cases frame with
  | none => simp only [Relay.onmessage, handleMessageSafe, h.awaitingPong, Bool.false_eq_true, if_false]
  | some type =>
    have hnone : (s.handlers.filter fun h => h.1 = type) = [] :=
      List.filter_eq_nil_iff.mpr fun handler hmem => by simpa using h.handlers type rfl handler hmem
    rw [onmessage_eq h.awaitingPong, hnone, List.map_nil, List.append_nil]

theorem onmessage_iff (s : Relay) (i : ℕ) (frame : Option String) :
    (s.onmessage i frame).toWebSocketRelayer = s.toWebSocketRelayer ↔ Unheard s frame := by
  constructor
  · intro h
    have hpong : s.awaitingPong = false := by
      rw [← congrArg WebSocketRelayer.awaitingPong h]
      exact s.awaitingPong_onmessage i frame
    refine ⟨hpong, ?_⟩
    rintro type rfl handler hmem heq
    have hdelivered := congrArg WebSocketRelayer.delivered h
    rw [onmessage_eq hpong] at hdelivered
    have hnone := List.map_eq_nil_iff.mp (List.append_right_eq_self.mp hdelivered)
    exact List.filter_eq_nil_iff.mp hnone handler hmem (decide_eq_true heq)
  · intro h
    rw [h.onmessage i]

/-! A close event. -/

theorem acquireLock_ne (s : Relay) (job : Job) :
    (s.acquireLock job).toWebSocketRelayer ≠ s.toWebSocketRelayer := by
  intro h
  rw [acquireLock_eq] at h
  have hlocked : true = s.isLocked := congrArg WebSocketRelayer.isLocked h
  have hqueue := congrArg WebSocketRelayer.lockQueue h
  simp [← hlocked] at hqueue

/-- `reconnectOrGiveUp` awaits the lock, or gives up. -/
theorem reconnectOrGiveUp_eq (c : RelayerSettings) (s : Relay) : s.reconnectOrGiveUp c =
    if s.shouldAttemptReconnect c then s.acquireLock .reconnect else s.giveUp c := by
  unfold reconnectOrGiveUp attemptReconnect
  by_cases h : s.shouldAttemptReconnect c = true
  · have hon : (!s.isDestroyed && s.reconnectEnabled) = true := by
      simp only [shouldAttemptReconnect, Bool.and_eq_true] at h ⊢
      exact h.1.1
    simp only [hon, h, Bool.and_self, if_true, not_true_eq_false, if_false]
  · rw [Bool.not_eq_true] at h
    simp only [h, Bool.and_false, Bool.false_eq_true, if_false]

theorem giveUp_eq_self (hdown : s.isPermanentlyDown c = true → s.reconnectExhausted = true)
    (htold : s.stateTransition = .disconnected) : s.giveUp c = s := by
  have hexhausted : (s.reconnectExhausted || s.isPermanentlyDown c) = s.reconnectExhausted := by
    cases h : s.isPermanentlyDown c with
    | false => exact Bool.or_false _
    | true => rw [hdown h, Bool.or_true]
  rw [giveUp_eq, hexhausted, if_pos htold, ← htold]

theorem giveUp_iff (c : RelayerSettings) (s : Relay) :
    (s.giveUp c).toWebSocketRelayer = s.toWebSocketRelayer ↔
      (s.isPermanentlyDown c = true → s.reconnectExhausted = true) ∧
        s.stateTransition = .disconnected := by
  constructor
  · intro h
    rw [giveUp_eq] at h
    have hexhausted : (s.reconnectExhausted || s.isPermanentlyDown c) = s.reconnectExhausted :=
      congrArg WebSocketRelayer.reconnectExhausted h
    refine ⟨?_, (congrArg WebSocketRelayer.stateTransition h).symm⟩
    intro hdown
    rw [← hexhausted, hdown, Bool.or_true]
  · rintro ⟨hdown, htold⟩
    rw [giveUp_eq_self hdown htold]

theorem reconnectOrGiveUp_iff (c : RelayerSettings) (s : Relay) :
    (s.reconnectOrGiveUp c).toWebSocketRelayer = s.toWebSocketRelayer ↔
      s.shouldAttemptReconnect c = false ∧
        (s.isPermanentlyDown c = true → s.reconnectExhausted = true) ∧
        s.stateTransition = .disconnected := by
  rw [reconnectOrGiveUp_eq, ← giveUp_iff]
  cases s.shouldAttemptReconnect c with
  | false => simp
  | true => simp [acquireLock_ne]

theorem reconnectOrGiveUp_keeps (c : RelayerSettings) (s : Relay) :
    (s.reconnectOrGiveUp c).ws = s.ws ∧
      (s.reconnectOrGiveUp c).heartbeatInterval = s.heartbeatInterval ∧
      (s.reconnectOrGiveUp c).heartbeatTimeout = s.heartbeatTimeout ∧
      (s.reconnectOrGiveUp c).awaitingPong = s.awaitingPong := by
  rw [reconnectOrGiveUp_eq]
  split_ifs
  · rw [acquireLock_eq]
    exact ⟨rfl, rfl, rfl, rfl⟩
  · rw [giveUp_eq]
    exact ⟨rfl, rfl, rfl, rfl⟩

theorem wsOpen_eq_false (h : s.ws = none) : s.wsOpen = false := by
  rw [wsOpen, h]
  rfl

/-- Without a socket, whether to reconnect is a matter of the relayer's own fields. -/
theorem down_congr (h : s'.toWebSocketRelayer = s.toWebSocketRelayer) (hws : s.ws = none) :
    s'.shouldAttemptReconnect c = s.shouldAttemptReconnect c ∧
      s'.isPermanentlyDown c = s.isPermanentlyDown c := by
  have hws' : s'.ws = none := (congrArg WebSocketRelayer.ws h).trans hws
  simp only [shouldAttemptReconnect, isPermanentlyDown, h, wsOpen_eq_false hws,
    wsOpen_eq_false hws', and_self]

theorem stopHeartbeat_eq_self (hinterval : s.heartbeatInterval = none)
    (htimeout : s.heartbeatTimeout = none) (hpong : s.awaitingPong = false) :
    s.stopHeartbeat = s := by
  have hsame : s.stopHeartbeat.toWebSocketRelayer = s.toWebSocketRelayer := by
    ext1
    all_goals first | rfl | exact hinterval.symm | exact htimeout.symm | exact hpong.symm
  show { s with toWebSocketRelayer := s.stopHeartbeat.toWebSocketRelayer } = s
  rw [hsame]

theorem Down.letGo (h : Down c s) : { s.stopHeartbeat with ws := none } = s := by
  rw [stopHeartbeat_eq_self h.heartbeatInterval h.heartbeatTimeout h.awaitingPong]
  have hsame : { s.toWebSocketRelayer with ws := none } = s.toWebSocketRelayer := by
    ext1
    all_goals first | rfl | exact h.ws.symm
  show { s with toWebSocketRelayer := { s.toWebSocketRelayer with ws := none } } = s
  rw [hsame]

theorem Down.reconnectOrGiveUp (h : Down c s) : s.reconnectOrGiveUp c = s := by
  rw [reconnectOrGiveUp_eq, h.noReconnect, if_neg Bool.false_ne_true,
    giveUp_eq_self h.reconnectExhausted h.stateTransition]

theorem Down.congr (h : Down c s) (heq : s'.toWebSocketRelayer = s.toWebSocketRelayer) :
    Down c s' := by
  obtain ⟨hshould, hdown⟩ := down_congr (c := c) heq h.ws
  refine ⟨?_, ?_, ?_, ?_, hshould.trans h.noReconnect, ?_, ?_⟩
  · rw [heq, h.ws]
  · rw [heq, h.heartbeatInterval]
  · rw [heq, h.heartbeatTimeout]
  · rw [heq, h.awaitingPong]
  · rw [hdown, heq]
    exact h.reconnectExhausted
  · rw [heq, h.stateTransition]

theorem Down.onclose (h : Down c s) (i : ℕ) (settled : Bool) :
    s.onclose c i settled = if settled then s else s.settle i (closedError c) := by
  simp only [Relay.onclose, h.letGo]
  cases settled with
  | true => exact h.reconnectOrGiveUp
  | false =>
    have hsettled : Down c (s.settle i (closedError c)) := h.congr rfl
    exact hsettled.reconnectOrGiveUp

theorem onclose_iff (c : RelayerSettings) (s : Relay) (i : ℕ) (settled : Bool) :
    (s.onclose c i settled).toWebSocketRelayer = s.toWebSocketRelayer ↔ Down c s := by
  constructor
  · intro h
    let s₁ : Relay := { s.stopHeartbeat with ws := none }
    let s₂ := if settled then s₁ else s₁.settle i (closedError c)
    have h₂ : s₂.toWebSocketRelayer = s₁.toWebSocketRelayer := by
      cases settled <;> rfl
    change (s₂.reconnectOrGiveUp c).toWebSocketRelayer = s.toWebSocketRelayer at h
    obtain ⟨hws, hinterval, htimeout, hpong⟩ := s₂.reconnectOrGiveUp_keeps c
    rw [h, h₂] at hws hinterval htimeout hpong
    have h₁ : s₁.toWebSocketRelayer = s.toWebSocketRelayer := by
      ext1
      all_goals first | rfl | exact hws.symm | exact hinterval.symm | exact htimeout.symm | exact hpong.symm
    have h₃ := h₂.trans h₁
    obtain ⟨hshould, hdown⟩ := down_congr (c := c) h₃ hws
    rw [← h₃, reconnectOrGiveUp_iff, hshould, hdown, h₃] at h
    exact ⟨hws, hinterval, htimeout, hpong, h.1, h.2.1, h.2.2⟩
  · intro h
    rw [h.onclose i settled]
    split_ifs <;> rfl

/-! An open event. -/

/-- To a destroyed relayer, or over an open socket, a flush queues nothing. -/
theorem offlineQueue_flushAll (pending : List QueuedMessage)
    (h : s.isDestroyed = true ∨ s.wsOpen = true) :
    (flushAll c now pending s).offlineQueue = s.offlineQueue := by
  induction pending generalizing s with
  | nil => rfl
  | cons queued pending ih =>
    rw [flushAll]
    split_ifs
    · exact ih h
    · rcases s.sendMessage_cases c queued.send queued.message now with
        ⟨-, heq⟩ | ⟨-, -, heq⟩ | ⟨hlive, -, hclosed, -⟩ | ⟨-, -, -, heq⟩
      · rw [heq]
        exact ih h
      · rw [heq]
        exact ih h
      · simp [hlive, hclosed] at h
      · rw [heq, acquireLock_eq]
        exact ih h

theorem dropped_flushAll (c : RelayerSettings) (now : Number) (pending : List QueuedMessage)
    (s : Relay) : s.dropped <+: (flushAll c now pending s).dropped := by
  induction pending generalizing s with
  | nil => exact List.prefix_rfl
  | cons queued pending ih =>
    rw [flushAll]
    refine List.IsPrefix.trans ?_ (ih _)
    split_ifs
    · exact List.prefix_append _ _
    · rcases s.sendMessage_cases c queued.send queued.message now with
        ⟨-, heq⟩ | ⟨-, -, heq⟩ | ⟨-, -, -, heq⟩ | ⟨-, -, -, heq⟩
      · rw [heq]
      · rw [heq]
      · rw [heq, _queueMessage_eq]
        exact List.prefix_append _ _
      · rw [heq, acquireLock_eq]

/-- A message queued once more. -/
def restamp (now : Number) (queued : QueuedMessage) : QueuedMessage :=
  { queued with enqueuedAt := now }

theorem allKept_cons {n : ℕ} {queued : QueuedMessage} {pending : List QueuedMessage} :
    AllKept c now n (queued :: pending) ↔ isExpired c now queued = false ∧
      (0 < n → c.maxPendingMessages.le (.fin n) = false) ∧ AllKept c now (n + 1) pending := by
  constructor
  · rintro ⟨hexpired, hroom⟩
    refine ⟨hexpired queued List.mem_cons_self, ?_, ?_, ?_⟩
    · intro hn
      exact hroom 0 hn (Nat.zero_lt_succ _)
    · intro q hq
      exact hexpired q (List.mem_cons_of_mem _ hq)
    · intro m _ hm
      have := hroom (m + 1) (by omega) (Nat.succ_lt_succ hm)
      rwa [show n + 1 + m = n + (m + 1) by omega]
  · rintro ⟨hq, hn, hexpired, hroom⟩
    refine ⟨List.forall_mem_cons.mpr ⟨hq, hexpired⟩, ?_⟩
    intro m hpos hm
    cases m with
    | zero => exact hn hpos
    | succ m =>
      rw [show n + (m + 1) = n + 1 + m by omega]
      exact hroom m (by omega) (Nat.lt_of_succ_lt_succ hm)

/-- Without an open socket a message is queued. -/
theorem sendMessage_offline (hlive : s.isDestroyed = false) (hexhausted : s.reconnectExhausted = false)
    (hclosed : s.wsOpen = false) (send : ℕ) (message : WebSocketMessage) :
    (s.sendMessage c send message now).1 = s._queueMessage c send message now := by
  rcases s.sendMessage_cases c send message now with ⟨h, -⟩ | ⟨-, h, -⟩ | ⟨-, -, -, h⟩ | ⟨-, -, h, -⟩
  · cases hlive.symm.trans h
  · cases hexhausted.symm.trans h
  · rw [h]
  · cases hclosed.symm.trans h

/-- It drives none out where there is room. -/
theorem _queueMessage_room (queued : QueuedMessage) (hroom : 0 < s.offlineQueue.length →
      c.maxPendingMessages.le (.fin s.offlineQueue.length) = false) :
    s._queueMessage c queued.send queued.message now =
      { s with offlineQueue := s.offlineQueue ++ [restamp now queued] } := by
  rw [_queueMessage_eq]
  cases hfull : c.maxPendingMessages.le (.fin s.offlineQueue.length) with
  | false => simp [restamp]
  | true =>
    have hnil : s.offlineQueue = [] := by
      by_contra hcons
      cases hfull.symm.trans (hroom (List.length_pos_iff.mpr hcons))
    simp [hnil, restamp]

/-- A flush that begins with an expired message drops it. -/
theorem dropped_flushAll_expired {queued : QueuedMessage} (hexpired : isExpired c now queued = true)
    (pending : List QueuedMessage) : (flushAll c now (queued :: pending) s).dropped ≠ s.dropped := by
  rw [flushAll, if_pos hexpired]
  intro h
  have hle := (dropped_flushAll c now pending
    { s with dropped := s.dropped ++ [(queued.send, .expired now)] }).length_le
  rw [h, List.length_append, List.length_singleton] at hle
  omega

/-- One that begins with a full queue drops the first of it. -/
theorem dropped_flushAll_full (queued : QueuedMessage) (hpos : 0 < s.offlineQueue.length)
    (hfull : c.maxPendingMessages.le (.fin s.offlineQueue.length) = true) (pending : List QueuedMessage) :
    (flushAll c now pending (s._queueMessage c queued.send queued.message now)).dropped ≠ s.dropped := by
  intro h
  have hle := (dropped_flushAll c now pending
    (s._queueMessage c queued.send queued.message now)).length_le
  rw [h, _queueMessage_eq] at hle
  simp only [hfull, if_true, List.length_append, List.length_map, List.length_take] at hle
  omega

/-- Without an open socket a flush queues its messages once more, unless it drops one. -/
theorem flushAll_offline (pending : List QueuedMessage) (hlive : s.isDestroyed = false)
    (hexhausted : s.reconnectExhausted = false) (hclosed : s.wsOpen = false) :
    (AllKept c now s.offlineQueue.length pending →
        flushAll c now pending s =
          { s with offlineQueue := s.offlineQueue ++ pending.map (restamp now) }) ∧
      ((flushAll c now pending s).dropped = s.dropped →
        AllKept c now s.offlineQueue.length pending) := by
  induction pending generalizing s with
  | nil =>
    refine ⟨?_, ?_⟩
    · intro _
      rw [List.map_nil, List.append_nil]
      rfl
    · intro _
      exact ⟨by simp, by simp⟩
  | cons queued pending ih =>
    by_cases hexpired : isExpired c now queued = true
    · refine ⟨?_, fun h => absurd h (dropped_flushAll_expired hexpired pending)⟩
      intro hkept
      cases hexpired.symm.trans (allKept_cons.mp hkept).1
    · rw [Bool.not_eq_true] at hexpired
      have hnext : flushAll c now (queued :: pending) s =
          flushAll c now pending (s._queueMessage c queued.send queued.message now) := by
        rw [flushAll, hexpired, if_neg Bool.false_ne_true, sendMessage_offline hlive hexhausted hclosed]
      rw [hnext, allKept_cons]
      by_cases hroom : 0 < s.offlineQueue.length →
          c.maxPendingMessages.le (.fin s.offlineQueue.length) = false
      · have hlen : s.offlineQueue.length + 1 = (s.offlineQueue ++ [restamp now queued]).length := by
          rw [List.length_append, List.length_singleton]
        rw [_queueMessage_room queued hroom]
        obtain ⟨hto, hof⟩ := ih (s := { s with
          offlineQueue := s.offlineQueue ++ [restamp now queued] }) hlive hexhausted hclosed
        refine ⟨?_, ?_⟩
        · rintro ⟨-, -, hkept⟩
          rw [hlen] at hkept
          rw [hto hkept, List.map_cons]
          simp
        · intro h
          refine ⟨hexpired, hroom, ?_⟩
          rw [hlen]
          exact hof h
      · -- it drives the first one out
        obtain ⟨hpos, hfull⟩ := Classical.not_imp.mp hroom
        rw [Bool.not_eq_false] at hfull
        exact ⟨fun h => absurd h.2.1 hroom, fun h => absurd h (dropped_flushAll_full queued hpos hfull pending)⟩

theorem Restamped.flush (h : Restamped c s now) (hexhausted : s.reconnectExhausted = false) :
    s.flushPendingMessages c now = s := by
  have hsame {queue : List QueuedMessage} (heq : queue = s.offlineQueue) :
      { s with offlineQueue := queue } = s := by
    rw [heq]
  rcases h with hnil | ⟨hlive, hclosed, hnow, hkept⟩
  · rw [flushPendingMessages, hnil, flushAll]
    exact hsame hnil.symm
  · obtain ⟨hto, -⟩ := flushAll_offline (c := c)
      (s := { s with offlineQueue := [] }) s.offlineQueue hlive hexhausted hclosed
    rw [flushPendingMessages, hto hkept]
    refine hsame ?_
    show s.offlineQueue.map (restamp now) = s.offlineQueue
    rw [List.map_congr_left (g := id), List.map_id]
    intro queued hmem
    rw [restamp, ← hnow queued hmem]
    rfl

theorem flush_iff (hexhausted : s.reconnectExhausted = false) :
    (s.flushPendingMessages c now).toWebSocketRelayer = s.toWebSocketRelayer ↔ Restamped c s now := by
  constructor
  · intro h
    have hqueue : (s.flushPendingMessages c now).offlineQueue = s.offlineQueue :=
      congrArg WebSocketRelayer.offlineQueue h
    have hdropped : (s.flushPendingMessages c now).dropped = s.dropped :=
      congrArg WebSocketRelayer.dropped h
    rw [flushPendingMessages] at hqueue hdropped
    by_cases hsend : s.isDestroyed = true ∨ s.wsOpen = true
    · rw [offlineQueue_flushAll (s := { s with offlineQueue := [] }) _ hsend] at hqueue
      exact .inl hqueue.symm
    · rw [not_or, Bool.not_eq_true, Bool.not_eq_true] at hsend
      obtain ⟨hto, hof⟩ := flushAll_offline (c := c)
        (s := { s with offlineQueue := [] }) s.offlineQueue hsend.1 hexhausted hsend.2
      have hkept := hof hdropped
      have hsame : s.offlineQueue.map (restamp now) = s.offlineQueue := by
        rwa [hto hkept] at hqueue
      refine .inr ⟨hsend.1, hsend.2, ?_, hkept⟩
      intro queued hmem
      rw [← hsame] at hmem
      obtain ⟨q, -, rfl⟩ := List.mem_map.mp hmem
      rfl
  · intro h
    rw [h.flush hexhausted]

theorem startHeartbeat_eq (h : Number.lt (.fin 0) c.heartbeatIntervalMs = false) (s : Relay) :
    s.startHeartbeat c = s.stopHeartbeat := by
  rw [startHeartbeat, h, if_pos Bool.false_ne_true]

theorem Up.onopen (h : Up c s now) (i : ℕ) : s.onopen c i now = s.settle i (.ok ()) := by
  have hsame : { s with reconnectAttempts := .fin 0, reconnectExhausted := false } = s := by
    rw [← h.reconnectAttempts, ← h.reconnectExhausted]
  simp only [Relay.onopen, hsame]
  rw [startHeartbeat_eq h.noHeartbeat,
    stopHeartbeat_eq_self h.heartbeatInterval h.heartbeatTimeout h.awaitingPong,
    h.offlineQueue.flush h.reconnectExhausted, emitStateChange, if_pos h.stateTransition]

theorem onopen_iff (c : RelayerSettings) (s : Relay) (i : ℕ) (now : Number) :
    (s.onopen c i now).toWebSocketRelayer = s.toWebSocketRelayer ↔ Up c s now := by
  constructor
  · intro h
    let s₁ : Relay := { s with reconnectAttempts := .fin 0, reconnectExhausted := false }
    let s₂ := s₁.startHeartbeat c
    change (((s₂.flushPendingMessages c now).emitStateChange .connected).settle i
      (.ok ())).toWebSocketRelayer = s.toWebSocketRelayer at h
    have hall := h
    rw [emitStateChange_eq] at h
    -- the flush leaves the timers alone
    obtain ⟨_, _, _, _, _, _, hflush⟩ :=
      flushAll_eq c { s₂ with offlineQueue := [] } now s₂.offlineQueue
    have htimers : s₂.timers = s.timers := by
      rw [← congrArg WebSocketRelayer.timers h, flushPendingMessages, hflush]
      rfl
    have hoff : Number.lt (.fin 0) c.heartbeatIntervalMs = false := by
      by_contra hon
      rw [Bool.not_eq_false] at hon
      have hnext : s₂.timers = s.timers + 1 := by
        simp only [s₂, startHeartbeat, hon, not_true_eq_false, if_false]
        rfl
      omega
    have hstop : s₂ = s₁.stopHeartbeat := startHeartbeat_eq hoff s₁
    have hinterval : s.heartbeatInterval = none := by
      rw [← congrArg WebSocketRelayer.heartbeatInterval h, flushPendingMessages, hflush, hstop]
      rfl
    have htimeout : s.heartbeatTimeout = none := by
      rw [← congrArg WebSocketRelayer.heartbeatTimeout h, flushPendingMessages, hflush, hstop]
      rfl
    have hpong : s.awaitingPong = false := by
      rw [← congrArg WebSocketRelayer.awaitingPong h, flushPendingMessages, hflush, hstop]
      rfl
    have hattempts : s.reconnectAttempts = .fin 0 := by
      rw [← congrArg WebSocketRelayer.reconnectAttempts h, flushPendingMessages, hflush, hstop]
      rfl
    have hexhausted : s.reconnectExhausted = false := by
      rw [← congrArg WebSocketRelayer.reconnectExhausted h, flushPendingMessages, hflush, hstop]
      rfl
    have htold : s.stateTransition = .connected := (congrArg WebSocketRelayer.stateTransition h).symm
    have hsame : s₂ = s := by
      have hs₁ : s₁ = s := by
        show { s with reconnectAttempts := .fin 0, reconnectExhausted := false } = s
        rw [← hattempts, ← hexhausted]
      rw [hstop, hs₁]
      exact stopHeartbeat_eq_self hinterval htimeout hpong
    refine ⟨hoff, hinterval, htimeout, hpong, hattempts, hexhausted, ?_, htold⟩
    have hconnected : (s₂.flushPendingMessages c now).stateTransition = .connected := by
      rw [flushPendingMessages, hflush, ← htold, hsame]
    rw [emitStateChange, if_pos hconnected, hsame] at hall
    exact (flush_iff hexhausted).mp hall
  · intro h
    rw [h.onopen i]
    rfl

/-! ## Stale events -/

theorem handle_iff (c : RelayerSettings) (s : Relay) (k : Socket) (e : RelayEvent) :
    (s.handle c k e).toWebSocketRelayer = s.toWebSocketRelayer ↔ Vain c s e := by
  cases e with
  | opened i now => exact s.onopen_iff c i now
  | message i frame => exact s.onmessage_iff i frame
  | closed i => exact s.onclose_iff c i k.settled
  | _ => exact iff_of_true rfl trivial

theorem Vain.handle {e : RelayEvent} (h : Vain c s e) (he : e.socket = some i) (k : Socket) :
    s.handle c k e = s ∨ ∃ r, s.handle c k e = s.settle i r := by
  cases e with
  | opened i now =>
    cases he
    exact .inr ⟨_, Up.onopen h i⟩
  | message i frame => exact .inl (Unheard.onmessage h i)
  | closed i =>
    cases he
    have hclose : s.handle c k (.closed i) = _ := Down.onclose h i k.settled
    rw [hclose]
    cases k.settled with
    | true => exact .inl rfl
    | false => exact .inr ⟨_, rfl⟩
  | _ => exact .inl rfl

theorem Vain.congr {e : RelayEvent} (h : Vain c s e)
    (hr : s'.toWebSocketRelayer = s.toWebSocketRelayer) (hopen : s'.wsOpen = s.wsOpen) :
    Vain c s' e := by
  cases e with
  | opened i now =>
    have h : Up c s now := h
    refine ⟨h.noHeartbeat, ?_, ?_, ?_, ?_, ?_, ?_, ?_⟩
    · rw [hr, h.heartbeatInterval]
    · rw [hr, h.heartbeatTimeout]
    · rw [hr, h.awaitingPong]
    · rw [hr, h.reconnectAttempts]
    · rw [hr, h.reconnectExhausted]
    · rw [Restamped, hr, hopen]
      exact h.offlineQueue
    · rw [hr, h.stateTransition]
  | message i frame =>
    have h : Unheard s frame := h
    refine ⟨?_, ?_⟩
    · rw [hr, h.awaitingPong]
    · rw [hr]
      exact h.handlers
  | closed i => exact Down.congr h hr
  | _ => trivial

/-- **Stale events are ignored exactly when they are harmless.** -/
theorem ignoresStale_iff (c : RelayerSettings) (s : Relay) (e : RelayEvent) :
    IgnoresStale c s e ↔ Harmless c s e := by
  constructor
  · intro h i k he hws hk hruns
    have hstep := step_of_runs (c := c) he hk hruns
    have hvain : Vain c (s.modifySocket i (Socket.tell e)) e :=
      (handle_iff c _ k e).mp (h i _ he hws hstep).relayer
    exact hvain.congr rfl (wsOpen_modifySocket hws _).symm
  · intro h i s' he hws hstep
    have hleft := s.leftAlone_modifySocket i (Socket.tell e)
    obtain ⟨k, hk, ⟨hruns, rfl⟩ | ⟨-, rfl | ⟨r, -, rfl⟩⟩⟩ := step_socket he hstep
    · have hvain : Vain c (s.modifySocket i (Socket.tell e)) e :=
        (h i k he hws hk hruns).congr rfl (wsOpen_modifySocket hws _)
      rcases hvain.handle he k with heq | ⟨r, heq⟩
      · rw [heq]
        exact hleft
      · rw [heq]
        exact hleft.settle r
    · exact hleft
    · exact hleft.settle r

/-- **Stale events are ignored throughout a run exactly when each is harmless.** -/
theorem ignores_stale_iff (c : RelayerSettings) (log : List RelayEvent) :
    EachStep (step c) (IgnoresStale c) {} log ↔ EachStep (step c) (Harmless c) {} log := by
  simp only [EachStep, ignoresStale_iff]

/-! The close event of a socket that was let go of by `disconnect`. -/

/-- A call of `connect`, by a new thread, and its socket. -/
def connected (t i : ℕ) : List RelayEvent :=
  [.connect, .resume t .socket (.fin 0), .opened i (.fin 0), .resume t .socket (.fin 0), .forget]

/-- **A late close event takes the current socket away**, and its heartbeat, and schedules a
reconnect. -/
theorem late_close_disconnects :
    let c := RelayerSettings.new "wss://relay.example" {}
    (run (step c) {} (connected 0 0 ++ .disconnect :: connected 1 1)).map
        (fun s => (s.ws, s.heartbeatInterval.isSome, s.wsOpen, s.threads.length)) =
      some (some 1, true, true, 2) ∧
    (run (step c) {} (connected 0 0 ++ .disconnect :: connected 1 1 ++ [.closed 0])).map
        (fun s => (s.ws, s.heartbeatInterval.isSome, s.wsOpen, s.threads.length)) =
      some (none, false, false, 3) ∧
    ¬ EachStep (step c) (IgnoresStale c) {}
      (connected 0 0 ++ .disconnect :: connected 1 1 ++ [.closed 0]) := by
  intro c
  have hafter : (run (step c) {} (connected 0 0 ++ .disconnect :: connected 1 1 ++ [.closed 0])).map
      (fun s => (s.ws, s.heartbeatInterval.isSome, s.wsOpen, s.threads.length)) =
      some (none, false, false, 3) := by
    decide
  refine ⟨by decide, hafter, ?_⟩
  intro h
  obtain ⟨s, hs, hws⟩ := Option.map_eq_some_iff.mp
    (by decide : (run (step c) {} (connected 0 0 ++ .disconnect :: connected 1 1)).map
      (fun s => s.ws) = some (some 1))
  obtain ⟨s', hs', heq⟩ := Option.map_eq_some_iff.mp hafter
  rw [run_append, hs, Option.bind_some, run_singleton] at hs'
  have hleft := h _ (.closed 0) [] s rfl hs 0 s' rfl (by rw [hws]; decide) hs'
  have hsame : s'.ws = s.ws := congrArg WebSocketRelayer.ws hleft.relayer
  have hnone : s'.ws = none := (Prod.ext_iff.mp heq).1
  rw [hws, hnone] at hsame
  cases hsame

end Relay

end StreamFi
