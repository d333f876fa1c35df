import StreamFi.Relayer.Line

/-!
# Messages of the relayer

A message waits in the offline queue or in the line for the lock. A flush moves it from the queue to the
line, and it goes back to the end of the queue when its turn comes and the socket is gone.

* `places`: where the message of each call is;
* `Entered`, `Turned`, `Emptied`: a call, the turn of a message, and a flush;
* `Traffic`, **`step_traffic`**: what a step does to the messages.
-/

namespace StreamFi

open Js Run

namespace Relay

def queued (s : Relay) : List ℕ := s.offlineQueue.map (·.send)

/-- The calls by where their messages are. -/
def places (s : Relay) : List ℕ := s.handed ++ s.line ++ s.queued ++ s.dropped.map (·.1)

variable {c : RelayerSettings} {s s' s'' : Relay} {t u i m n : ℕ} {th : Thread} {job : Job} {now : Number}
  {r : Except Thrown Unit}

/-! ## The offline queue -/

/-- What stays of the offline queue when a message joins it. -/
def staying (c : RelayerSettings) (s : Relay) : List QueuedMessage :=
  if c.maxPendingMessages.le (.fin s.offlineQueue.length) then s.offlineQueue.tail else s.offlineQueue

/-- What is dropped from it then. -/
def overflowed (c : RelayerSettings) (s : Relay) : List (ℕ × DropReason) :=
  if c.maxPendingMessages.le (.fin s.offlineQueue.length) then
    (s.offlineQueue.take 1).map fun q => (q.send, .overflow s.offlineQueue.length)
  else []

theorem queueMessage_form (c : RelayerSettings) (s : Relay) (call : ℕ) (message : WebSocketMessage)
    (now : Number) : s._queueMessage c call message now = { s with
      offlineQueue := s.staying c ++ [⟨call, message, now⟩]
      dropped := s.dropped ++ s.overflowed c } :=
  _queueMessage_eq c s call message now

theorem queued_eq (c : RelayerSettings) (s : Relay) :
    s.queued = (s.overflowed c).map (·.1) ++ (s.staying c).map (·.send) := by
  unfold queued overflowed staying
  split_ifs
  · cases s.offlineQueue <;> rfl
  · rfl

theorem mem_overflowed {d : ℕ × DropReason} (hd : d ∈ s.overflowed c) :
    ∃ length : ℕ, d.2 = .overflow length ∧ c.maxPendingMessages.le (.fin length) = true := by
  unfold overflowed at hd
  split_ifs at hd with hfull
  · obtain ⟨q, -, rfl⟩ := List.mem_map.mp hd
    exact ⟨_, rfl, hfull⟩
  · cases hd

theorem staying_sublist (c : RelayerSettings) (s : Relay) :
    ((s.staying c).map (·.send)).Sublist s.queued := by
  rw [s.queued_eq c]
  exact List.sublist_append_right _ _

theorem mem_staying {q : QueuedMessage} (hq : q ∈ s.staying c) : q ∈ s.offlineQueue := by
  unfold staying at hq
  split_ifs at hq
  · exact List.mem_of_mem_tail hq
  · exact hq

/-- An offline queue of this length has not been filled beyond its bound. -/
def Roomy (c : RelayerSettings) (n : ℕ) : Prop :=
  ∀ k : ℕ, 0 < k → k < n → c.maxPendingMessages.le (.fin k) = false

theorem Roomy.mono (h : Roomy c n) (hm : m ≤ n) : Roomy c m := fun k hk hlt => h k hk (hlt.trans_le hm)

theorem Roomy.staying (h : Roomy c s.offlineQueue.length) : Roomy c ((s.staying c).length + 1) := by
  intro k hk hlt
  unfold Relay.staying at hlt
  split_ifs at hlt with hfull
  · rw [List.length_tail] at hlt
    exact h k hk (by omega)
  · rcases Nat.lt_succ_iff_lt_or_eq.mp hlt with hlt | rfl
    · exact h k hk hlt
    · exact Bool.eq_false_iff.mpr hfull

/-- Nothing is dropped while there is room. -/
theorem Roomy.queueMessage (h : Roomy c (s.offlineQueue.length + 1)) (call : ℕ) (message : WebSocketMessage)
    (now : Number) : s._queueMessage c call message now =
      { s with offlineQueue := s.offlineQueue ++ [⟨call, message, now⟩] } := by
  rw [_queueMessage_eq]
  cases hqueue : s.offlineQueue with
  | nil => simp
  | cons q rest =>
    have hfree := h (rest.length + 1) (Nat.succ_pos _) (by rw [hqueue]; exact Nat.lt_succ_self _)
    rw [Nat.cast_add, Nat.cast_one] at hfree
    simp [hfree]

theorem line_destroy (c : RelayerSettings) (s : Relay) :
    (s.destroy c).line = s.holder.toList.filterMap s.callOf := by
  rw [destroy_eq, line, List.append_nil]
  rfl

theorem line_eq (s : Relay) :
    s.line = s.holder.toList.filterMap s.callOf ++ s.lockQueue.filterMap s.callOf := List.filterMap_append

theorem places_destroy (c : RelayerSettings) (s : Relay) : (s.destroy c).places.Perm s.places := by
  rw [List.perm_iff_count]
  intro n
  rw [places, places, line_destroy, line_eq, destroy_eq]
  simp only [queued, List.map_nil, List.append_nil, List.map_append, List.map_map, List.count_append,
    Function.comp_def, List.map_id']
  omega

/-! ## A flush -/

/-- The messages that a flush at `now` goes on with. -/
def fresh (c : RelayerSettings) (now : Number) (pending : List QueuedMessage) : List QueuedMessage :=
  pending.filter fun q => !isExpired c now q

def expired (c : RelayerSettings) (now : Number) (pending : List QueuedMessage) : List QueuedMessage :=
  pending.filter (isExpired c now)

theorem mem_fresh {q : QueuedMessage} {pending : List QueuedMessage} :
    q ∈ fresh c now pending ↔ q ∈ pending ∧ isExpired c now q = false := by
  rw [fresh, List.mem_filter, Bool.not_eq_true']

/-- What a flush makes of the messages that it goes through. -/
structure Flushed (c : RelayerSettings) (now : Number) (pending : List QueuedMessage)
    (s s' : Relay) : Prop where
  handed : s'.handed = s.handed
  sends : s'.sends = s.sends
  dead : s'.isDestroyed = s.isDestroyed
  line : s'.line = s.line ++ if s.wsOpen then (fresh c now pending).map (·.send) else []
  queue : s'.offlineQueue = s.offlineQueue ++
    if s.wsOpen then [] else (fresh c now pending).map fun q => { q with enqueuedAt := now }
  dropped : s'.dropped = s.dropped ++ (expired c now pending).map fun q => (q.send, .expired now)
  kept : ∀ t v, s.ticket t = some v → s'.ticket t = some v
  new : ∀ t v, s'.ticket t = some v →
    s.ticket t = some v ∨ v.2 = none ∧ ∃ q ∈ pending, v.1 = .send q.send q.message

theorem Flushed.nil (c : RelayerSettings) (now : Number) (s : Relay) : Flushed c now [] s s where
  handed := rfl
  sends := rfl
  dead := rfl
  line := by simp [fresh]
  queue := by simp [fresh]
  dropped := by simp [Relay.expired]
  kept t v hv := hv
  new t v hv := .inl hv

theorem Flushed.cons {q : QueuedMessage} {pending : List QueuedMessage} (h : Flushed c now [q] s s')
    (hopen : s'.wsOpen = s.wsOpen) (h' : Flushed c now pending s' s'') :
    Flushed c now (q :: pending) s s'' where
  handed := h'.handed.trans h.handed
  sends := h'.sends.trans h.sends
  dead := h'.dead.trans h.dead
  line := by
    rw [h'.line, h.line, hopen, List.append_assoc]
    cases s.wsOpen with
    | true =>
      simp only [if_true, fresh]
      rw [← List.map_append, ← List.filter_append, List.singleton_append]
    | false => simp
  queue := by
    rw [h'.queue, h.queue, hopen, List.append_assoc]
    cases s.wsOpen with
    | true => simp
    | false =>
      simp only [Bool.false_eq_true, if_false, fresh]
      rw [← List.map_append, ← List.filter_append, List.singleton_append]
  dropped := by
    rw [h'.dropped, h.dropped, List.append_assoc, ← List.map_append, Relay.expired, Relay.expired,
      ← List.filter_append, List.singleton_append]
    rfl
  kept t v hv := h'.kept t v (h.kept t v hv)
  new t v hv := by
    rcases h'.new t v hv with hold | ⟨hnone, q₀, hq₀, hjob⟩
    · rcases h.new t v hold with hold | ⟨hnone, q₀, hq₀, hjob⟩
      · exact .inl hold
      · cases List.mem_singleton.mp hq₀
        exact .inr ⟨hnone, q, List.mem_cons_self, hjob⟩
    · exact .inr ⟨hnone, q₀, List.mem_cons_of_mem q hq₀, hjob⟩

theorem Flushed.drop {q : QueuedMessage} (hq : isExpired c now q = true) :
    Flushed c now [q] s { s with dropped := s.dropped ++ [(q.send, .expired now)] } where
  handed := rfl
  sends := rfl
  dead := rfl
  line := by
    simp only [fresh, List.filter_singleton, hq, Bool.not_true, cond_false, List.map_nil, ite_self,
      List.append_nil]
    rfl
  queue := by
    simp only [fresh, List.filter_singleton, hq, Bool.not_true, cond_false, List.map_nil, ite_self,
      List.append_nil]
  dropped := by
    simp only [Relay.expired, List.filter_singleton, hq, cond_true, List.map_cons, List.map_nil]
  kept t v hv := hv
  new t v hv := .inl hv

theorem Flushed.back {q : QueuedMessage} (hq : isExpired c now q = false) (hclosed : s.wsOpen = false) :
    Flushed c now [q] s { s with offlineQueue := s.offlineQueue ++ [⟨q.send, q.message, now⟩] } where
  handed := rfl
  sends := rfl
  dead := rfl
  line := by
    rw [hclosed, if_neg Bool.false_ne_true, List.append_nil]
    rfl
  queue := by
    rw [hclosed, if_neg Bool.false_ne_true, fresh, List.filter_singleton, hq]
    rfl
  dropped := by
    simp only [Relay.expired, List.filter_singleton, hq, cond_false, List.map_nil, List.append_nil]
  kept t v hv := hv
  new t v hv := .inl hv

theorem Flushed.lined {q : QueuedMessage} (h : Orderly s) (hlive : s.isDestroyed = false)
    (hq : isExpired c now q = false) (hopen : s.wsOpen = true) :
    Flushed c now [q] s (s.acquireLock (.send q.send q.message)) := by
  have hline := h.line_acquireLock hlive (.send q.send q.message)
  have hticket := s.ticket_acquireLock (.send q.send q.message)
  rw [acquireLock_eq] at hline hticket ⊢
  refine ⟨rfl, rfl, rfl, ?_, ?_, ?_, ?_, ?_⟩
  · rw [hline, hopen, if_pos rfl, fresh, List.filter_singleton, hq]
    rfl
  · rw [hopen, if_pos rfl, List.append_nil]
  · simp only [Relay.expired, List.filter_singleton, hq, cond_false, List.map_nil, List.append_nil]
  · intro t v hv
    have ht : t ≠ s.threads.length := by
      rintro rfl
      rw [ticket, List.getElem?_eq_none le_rfl] at hv
      cases hv
    rw [hticket, if_neg ht, hv]
  · intro t v hv
    rw [hticket] at hv
    split_ifs at hv
    · cases hv
      exact .inr ⟨rfl, q, List.mem_singleton_self q, rfl⟩
    · exact .inl hv

/-- **A flush** lets the messages join the line, or the offline queue once more. -/
theorem flushed_flushAll {pending : List QueuedMessage} (h : Orderly s) (hlive : s.isDestroyed = false)
    (hup : s.reconnectExhausted = false) (hroom : Roomy c (s.offlineQueue.length + pending.length)) :
    Flushed c now pending s (flushAll c now pending s) := by
  induction pending generalizing s with
  | nil => exact .nil c now s
  | cons q pending ih =>
    have hrest : Roomy c (s.offlineQueue.length + pending.length) := hroom.mono (by simp)
    rw [Relay.flushAll]
    split_ifs with hq
    · have h₁ : Orderly { s with dropped := s.dropped ++ [(q.send, DropReason.expired now)] } :=
        h.congr rfl rfl rfl rfl rfl h.dead h.fresh h.online
      exact (Flushed.drop hq).cons rfl (ih h₁ hlive hup hrest)
    · rw [Bool.not_eq_true] at hq
      have h₁ := h.sendMessage (c := c) q.send q.message now
      rcases s.sendMessage_cases c q.send q.message now with
        ⟨hdead, -⟩ | ⟨-, hexhausted, -⟩ | ⟨-, -, hclosed, heq⟩ | ⟨-, -, hopen, heq⟩
      · cases hlive.symm.trans hdead
      · cases hup.symm.trans hexhausted
      · have hone : Roomy c (s.offlineQueue.length + 1) := hroom.mono (by simp)
        rw [heq, hone.queueMessage] at h₁ ⊢
        refine (Flushed.back hq hclosed).cons rfl (ih h₁ hlive hup (hroom.mono ?_))
        simp only [List.length_append, List.length_cons, List.length_nil]
        omega
      · rw [heq] at h₁ ⊢
        have hsame := s.acquireLock_eq (.send q.send q.message)
        refine (Flushed.lined h hlive hq hopen).cons (by rw [hsame]; rfl) (ih h₁ ?_ ?_ ?_)
        · rw [hsame]
          exact hlive
        · rw [hsame]
          exact hup
        · rw [hsame]
          exact hrest

/-- What an open event does to the messages; `isOpen` is whether the relayer's socket is open then. -/
structure Emptied (c : RelayerSettings) (now : Number) (isOpen : Bool) (s s' : Relay) : Prop where
  handed : s'.handed = s.handed
  sends : s'.sends = s.sends
  dead : s'.isDestroyed = s.isDestroyed
  line : s'.line = s.line ++ if isOpen then (fresh c now s.offlineQueue).map (·.send) else []
  queue : s'.offlineQueue =
    if isOpen then [] else (fresh c now s.offlineQueue).map fun q => { q with enqueuedAt := now }
  dropped : s'.dropped = s.dropped ++
    (expired c now s.offlineQueue).map fun q => (q.send, .expired now)
  kept : ∀ t n message r, s.ticket t = some (.send n message, r) → s'.ticket t = some (.send n message, r)
  new : ∀ t n message r, s'.ticket t = some (.send n message, r) →
    s.ticket t = some (.send n message, r) ∨ r = none ∧ ∃ q ∈ s.offlineQueue, q.send = n ∧ q.message = message

theorem emptied_of_flushed {s₀ : Relay} (h : Orderly s) (hroom : Roomy c s.offlineQueue.length)
    (h₀ : Orderly s₀) (hmail : s₀.mail = { s with offlineQueue := [] }.mail)
    (hup : s₀.reconnectExhausted = false) (hs : Aside (flushAll c now s.offlineQueue s₀) s') :
    Emptied c now s₀.wsOpen s s' := by
  have hold : Aside { s with offlineQueue := [] } s₀ := .of_mail hmail
  have hqueue : s₀.offlineQueue = [] := hold.queue
  have hline : s₀.line = s.line := hold.line
  have hdropped : s₀.dropped = s.dropped := hold.dropped
  have htickets (t n : ℕ) (message : WebSocketMessage) (r : Option (Except Thrown Unit)) :
      s₀.ticket t = some (.send n message, r) ↔ s.ticket t = some (.send n message, r) :=
    hold.tickets t n message r
  have hflush : Flushed c now s.offlineQueue s₀ (flushAll c now s.offlineQueue s₀) := by
    cases hdead : s₀.isDestroyed with
    | false => exact flushed_flushAll h₀ hdead hup (by rwa [hqueue, List.length_nil, Nat.zero_add])
    | true =>
      rw [(h.dead (hold.dead.symm.trans hdead)).2]
      exact .nil c now s₀
  refine ⟨?_, ?_, ?_, ?_, ?_, ?_, ?_, ?_⟩
  · exact hs.handed.trans (hflush.handed.trans hold.handed)
  · exact hs.sends.trans (hflush.sends.trans hold.sends)
  · exact hs.dead.trans (hflush.dead.trans hold.dead)
  · rw [hs.line, hflush.line, hline]
  · rw [hs.queue, hflush.queue, hqueue, List.nil_append]
  · rw [hs.dropped, hflush.dropped, hdropped]
  · intro t n message r ht
    exact (hs.tickets t n message r).mpr (hflush.kept t _ ((htickets t n message r).mpr ht))
  · intro t n message r ht
    rcases hflush.new t _ ((hs.tickets t n message r).mp ht) with hold | ⟨hnone, q, hq, hjob⟩
    · exact .inl ((htickets t n message r).mp hold)
    · cases hjob
      exact .inr ⟨hnone, q, hq, rfl, rfl⟩

theorem Emptied.places {isOpen : Bool} (h : Emptied c now isOpen s s') : s'.places.Perm s.places := by
  have hsplit := ((List.filter_append_perm (isExpired c now) s.offlineQueue).map (·.send))
  rw [List.perm_iff_count] at hsplit ⊢
  intro n
  have hn := hsplit n
  cases isOpen <;>
  · simp only [Relay.places, queued, h.handed, h.line, h.queue, h.dropped, fresh, Relay.expired,
      List.map_append, List.map_map, List.map_nil, List.append_nil, List.count_append, if_true,
      Bool.false_eq_true, if_false, Function.comp_def] at hn ⊢
    omega

theorem Emptied.mem_queue {isOpen : Bool} (h : Emptied c now isOpen s s') {q : QueuedMessage}
    (hq : q ∈ s'.offlineQueue) : isOpen = false ∧ ∃ q₀ ∈ s.offlineQueue, isExpired c now q₀ = false ∧
      q = { q₀ with enqueuedAt := now } := by
  rw [h.queue] at hq
  cases isOpen with
  | true => cases hq
  | false =>
    obtain ⟨q₀, hq₀, rfl⟩ := List.mem_map.mp hq
    obtain ⟨hq₀, hfresh⟩ := mem_fresh.mp hq₀
    exact ⟨rfl, q₀, hq₀, hfresh, rfl⟩

/-! ## The turn of a message -/

/-- What becomes of a message whose turn it is, by the result of its thread. -/
inductive Turn (c : RelayerSettings) (s : Relay) (call : ℕ) (message : WebSocketMessage) (now : Number)
    (s' : Relay) : Except Thrown Unit → Prop
  | gone (err : Thrown) (hdead : s.isDestroyed = true) (handed : s'.handed = s.handed)
      (queue : s'.offlineQueue = s.offlineQueue)
      (dropped : s'.dropped = s.dropped ++ [(call, DropReason.destroyed)]) : Turn c s call message now s' (.error err)
  | refused (err : Thrown) (hlive : s.isDestroyed = false)
      (hwhy : s.reconnectExhausted = true ∨ s.wsOpen = true ∧ message.json.isOk = false)
      (handed : s'.handed = s.handed) (queue : s'.offlineQueue = s.offlineQueue)
      (dropped : s'.dropped = s.dropped) : Turn c s call message now s' (.error err)
  | back (hlive : s.isDestroyed = false) (hup : s.reconnectExhausted = false) (hclosed : s.wsOpen = false)
      (handed : s'.handed = s.handed)
      (queue : s'.offlineQueue = s.staying c ++ [⟨call, message, now⟩])
      (dropped : s'.dropped = s.dropped ++ s.overflowed c) : Turn c s call message now s' (.ok ())
  | through (hlive : s.isDestroyed = false) (hopen : s.wsOpen = true) (hjson : message.json.isOk = true)
      (handed : s'.handed = s.handed ++ [call])
      (queue : s'.offlineQueue = s.offlineQueue) (dropped : s'.dropped = s.dropped) :
      Turn c s call message now s' (.ok ())

structure Turned (c : RelayerSettings) (s : Relay) (t call : ℕ) (message : WebSocketMessage) (now : Number)
    (s' : Relay) (r : Except Thrown Unit) : Prop where
  line : s.line = call :: s'.line
  sends : s'.sends = s.sends
  dead : s'.isDestroyed = s.isDestroyed
  ticket : ∀ u, s'.ticket u = if t = u then some (.send call message, some r) else s.ticket u
  turn : Turn c s call message now s' r

/-- The thread ends after a change to the messages. -/
theorem turned_finish {s₁ : Relay} {call : ℕ} {message : WebSocketMessage} (h : Orderly s) (h₁ : Orderly s₁)
    (ht : s.threads[t]? = some ⟨.send call message, .granted⟩) (hthreads : s₁.threads = s.threads)
    (hlockQueue : s₁.lockQueue = s.lockQueue) (hsends : s₁.sends = s.sends)
    (hdead : s₁.isDestroyed = s.isDestroyed) (hturn : Turn c s call message now s₁ r) :
    Turned c s t call message now (s₁.finish t r) r := by
  have hticket₁ (u : ℕ) : s₁.ticket u = s.ticket u := by rw [Relay.ticket, Relay.ticket, hthreads]
  have hcall : s₁.callOf = s.callOf := by
    funext u
    rw [callOf_eq, callOf_eq, hticket₁]
  have hline : s.line = call :: (s₁.finish t r).line := by
    rw [h₁.line_finish, h.line_of_holds ht trivial, hlockQueue, hcall]
    rfl
  have hticket (u : ℕ) : (s₁.finish t r).ticket u =
      if t = u then some (.send call message, some r) else s.ticket u := by
    rw [ticket_finish h₁, hticket₁]
    split_ifs with htu
    · subst htu
      rw [ticket_of ht]
      rfl
    · rfl
  obtain ⟨_, _, _, _, heq⟩ := s₁.finish_eq t r
  rw [heq] at hline hticket ⊢
  refine ⟨hline, hsends, hdead, hticket, ?_⟩
  cases hturn with
  | gone err hdead handed queue dropped => exact .gone err hdead handed queue dropped
  | refused err hlive hwhy handed queue dropped => exact .refused err hlive hwhy handed queue dropped
  | back hlive hup hclosed handed queue dropped => exact .back hlive hup hclosed handed queue dropped
  | through hlive hopen hjson handed queue dropped => exact .through hlive hopen hjson handed queue dropped

/-- **The turn of a message.** -/
theorem turned_sendLocked {call : ℕ} {message : WebSocketMessage} (h : Orderly s)
    (ht : s.threads[t]? = some ⟨.send call message, .granted⟩) (now : Number) :
    ∃ r, Turned c s t call message now (s.sendLocked c t call message now) r := by
  rcases s.sendLocked_cases c t call message now with
    ⟨hdead, heq⟩ | ⟨hlive, hexhausted, heq⟩ | ⟨hlive, hup, hclosed, heq⟩ | ⟨hlive, hopen, err, herr, heq⟩ |
      ⟨hlive, hopen, hjson, heq⟩
  · set s₁ : Relay := { s with dropped := s.dropped ++ [(call, DropReason.destroyed)] }
    have h₁ : Orderly s₁ := h.congr rfl rfl rfl rfl rfl h.dead h.fresh h.online
    rw [heq]
    exact ⟨_, turned_finish h h₁ ht rfl rfl rfl rfl (.gone _ hdead rfl rfl rfl)⟩
  · rw [heq]
    exact ⟨_, turned_finish h h ht rfl rfl rfl rfl (.refused _ hlive (.inl hexhausted) rfl rfl rfl)⟩
  · have h₁ := h._queueMessage (c := c) hlive hclosed call message now
    rw [heq]
    rw [queueMessage_form] at h₁ ⊢
    exact ⟨_, turned_finish h h₁ ht rfl rfl rfl rfl (.back hlive hup hclosed rfl rfl rfl)⟩
  · have hfails : message.json.isOk = false := by rw [herr]; rfl
    rw [heq]
    exact ⟨_, turned_finish h h ht rfl rfl rfl rfl (.refused _ hlive (.inr ⟨hopen, hfails⟩) rfl rfl rfl)⟩
  · set s₁ : Relay := { s with handed := s.handed ++ [call] }
    have h₁ : Orderly s₁ := h.congr rfl rfl rfl rfl rfl h.dead h.fresh h.online
    rw [heq]
    exact ⟨_, turned_finish h h₁ ht rfl rfl rfl rfl (.through hlive hopen hjson rfl rfl rfl)⟩

theorem Turned.count_line {call : ℕ} {message : WebSocketMessage} (h : Turned c s t call message now s' r)
    (n : ℕ) : s.line.count n = [call].count n + s'.line.count n := by
  rw [h.line, ← List.singleton_append, List.count_append]

/-- A message that is refused is nowhere any more. -/
theorem Turned.lost {call : ℕ} {message : WebSocketMessage} (h : Turned c s t call message now s' r)
    (hhanded : s'.handed = s.handed) (hqueue : s'.offlineQueue = s.offlineQueue)
    (hdropped : s'.dropped = s.dropped) : s.places.Perm (call :: s'.places) := by
  rw [List.perm_iff_count]
  intro n
  rw [← List.singleton_append]
  simp only [Relay.places, queued, hhanded, hqueue, hdropped, List.count_append, h.count_line]
  omega

/-- A message is where it was, or somewhere else, unless it is refused. -/
theorem Turned.places {call : ℕ} {message : WebSocketMessage} (h : Turned c s t call message now s' r) :
    s'.places.Perm s.places ∨
      r ≠ .ok () ∧ s.isDestroyed = false ∧
        (s.reconnectExhausted = true ∨ s.wsOpen = true ∧ message.json.isOk = false) ∧
        s.places.Perm (call :: s'.places) := by
  cases h.turn with
  | gone err hdead handed queue dropped =>
    refine .inl (List.perm_iff_count.mpr fun n => ?_)
    simp only [Relay.places, queued, handed, queue, dropped, List.map_append, List.map_cons, List.map_nil,
      List.count_append, h.count_line]
    omega
  | refused err hlive hwhy handed queue dropped =>
    exact .inr ⟨nofun, hlive, hwhy, h.lost handed queue dropped⟩
  | back hlive hup hclosed handed queue dropped =>
    refine .inl (List.perm_iff_count.mpr fun n => ?_)
    have hsplit := congrArg (List.count n) (s.queued_eq c)
    rw [List.count_append] at hsplit
    simp only [Relay.places, queued, handed, queue, dropped, List.map_append, List.map_cons, List.map_nil,
      List.count_append, h.count_line] at hsplit ⊢
    omega
  | through hlive hopen hjson handed queue dropped =>
    refine .inl (List.perm_iff_count.mpr fun n => ?_)
    simp only [Relay.places, queued, handed, queue, dropped, List.count_append, h.count_line]
    omega

theorem Turned.room {call : ℕ} {message : WebSocketMessage} (h : Turned c s t call message now s' r)
    (hroom : Roomy c s.offlineQueue.length) : Roomy c s'.offlineQueue.length := by
  cases h.turn with
  | back hlive hup hclosed handed queue dropped =>
    rw [queue, List.length_append]
    exact hroom.staying
  | gone err hdead handed queue dropped => exact queue ▸ hroom
  | refused err hlive hwhy handed queue dropped => exact queue ▸ hroom
  | through hlive hopen hjson handed queue dropped => exact queue ▸ hroom

theorem Turned.mem_queue {call : ℕ} {message : WebSocketMessage} (h : Turned c s t call message now s' r)
    {q : QueuedMessage} (hq : q ∈ s'.offlineQueue) :
    q ∈ s.offlineQueue ∨
      q = ⟨call, message, now⟩ ∧ s.isDestroyed = false ∧ s.reconnectExhausted = false ∧ s.wsOpen = false := by
  cases h.turn with
  | back hlive hup hclosed handed queue dropped =>
    rw [queue] at hq
    rcases List.mem_append.mp hq with hq | hq
    · exact .inl (mem_staying hq)
    · exact .inr ⟨List.mem_singleton.mp hq, hlive, hup, hclosed⟩
  | gone err hdead handed queue dropped => exact .inl (queue ▸ hq)
  | refused err hlive hwhy handed queue dropped => exact .inl (queue ▸ hq)
  | through hlive hopen hjson handed queue dropped => exact .inl (queue ▸ hq)

theorem Turned.mem_dropped {call : ℕ} {message : WebSocketMessage} (h : Turned c s t call message now s' r)
    {d : ℕ × DropReason} (hd : d ∈ s'.dropped) :
    d ∈ s.dropped ∨ d ∈ s.overflowed c ∨ d = (call, .destroyed) ∧ s.isDestroyed = true := by
  cases h.turn with
  | back hlive hup hclosed handed queue dropped =>
    rw [dropped] at hd
    rcases List.mem_append.mp hd with hd | hd
    · exact .inl hd
    · exact .inr (.inl hd)
  | gone err hdead handed queue dropped =>
    rw [dropped] at hd
    rcases List.mem_append.mp hd with hd | hd
    · exact .inl hd
    · exact .inr (.inr ⟨List.mem_singleton.mp hd, hdead⟩)
  | refused err hlive hwhy handed queue dropped => exact .inl (dropped ▸ hd)
  | through hlive hopen hjson handed queue dropped => exact .inl (dropped ▸ hd)

/-- Where a call leaves its message, by its promise. -/
inductive Entry (c : RelayerSettings) (s : Relay) (message : WebSocketMessage) (now : Number) (s' : Relay) :
    Promised → Prop
  | refused (err : Thrown) (line : s'.line = s.line) (queue : s'.offlineQueue = s.offlineQueue)
      (dropped : s'.dropped = s.dropped) (ticket : ∀ u, s'.ticket u = s.ticket u) :
      Entry c s message now s' (.settled (.error err))
  | stored (line : s'.line = s.line)
      (queue : s'.offlineQueue = s.staying c ++ [⟨s.sends.length, message, now⟩])
      (dropped : s'.dropped = s.dropped ++ s.overflowed c) (ticket : ∀ u, s'.ticket u = s.ticket u) :
      Entry c s message now s' (.settled (.ok ()))
  | lined (line : s'.line = s.line ++ [s.sends.length]) (queue : s'.offlineQueue = s.offlineQueue)
      (dropped : s'.dropped = s.dropped) (hnew : s.ticket s.threads.length = none)
      (ticket : ∀ u, s'.ticket u =
        if u = s.threads.length then some (.send s.sends.length message, none) else s.ticket u) :
      Entry c s message now s' (.of s.threads.length)

structure Entered (c : RelayerSettings) (s : Relay) (message : WebSocketMessage) (now : Number) (s' : Relay)
    (p : Promised) : Prop where
  handed : s'.handed = s.handed
  sends : s'.sends = s.sends ++ [⟨message, now, p⟩]
  dead : s'.isDestroyed = s.isDestroyed
  entry : Entry c s message now s' p

/-- **A call of `send`.** -/
theorem entered_send (h : Orderly s) (message : WebSocketMessage) (now : Number) :
    ∃ p, Entered c s message now (s.send c message now) p := by
  unfold Relay.send
  rcases s.sendMessage_cases c s.sends.length message now with
    ⟨hdead, heq⟩ | ⟨hlive, hexhausted, heq⟩ | ⟨hlive, hup, hclosed, heq⟩ | ⟨hlive, hup, hopen, heq⟩
  · rw [heq]
    exact ⟨_, rfl, rfl, rfl, .refused _ rfl rfl rfl fun u => rfl⟩
  · rw [heq]
    exact ⟨_, rfl, rfl, rfl, .refused _ rfl rfl rfl fun u => rfl⟩
  · rw [heq, queueMessage_form]
    exact ⟨_, rfl, rfl, rfl, .stored rfl rfl rfl fun u => rfl⟩
  · have hline := h.line_acquireLock hlive (.send s.sends.length message)
    have hticket := s.ticket_acquireLock (.send s.sends.length message)
    have hnew : s.ticket s.threads.length = none := by
      rw [Relay.ticket, List.getElem?_eq_none le_rfl, Option.map_none]
    rw [heq]
    rw [acquireLock_eq] at hline hticket ⊢
    exact ⟨_, rfl, rfl, rfl, .lined hline rfl rfl hnew hticket⟩

theorem Entered.places {message : WebSocketMessage} {p : Promised} (h : Entered c s message now s' p) :
    (∃ err, p = .settled (.error err)) ∧ s'.places.Perm s.places ∨
      s'.places.Perm (s.places ++ [s.sends.length]) := by
  cases h.entry with
  | refused err line queue dropped ticket =>
    refine .inl ⟨⟨err, rfl⟩, ?_⟩
    rw [Relay.places, Relay.places, queued, queued, h.handed, line, queue, dropped]
  | stored line queue dropped ticket =>
    refine .inr (List.perm_iff_count.mpr fun n => ?_)
    have hsplit := congrArg (List.count n) (s.queued_eq c)
    rw [List.count_append] at hsplit
    simp only [Relay.places, queued, h.handed, line, queue, dropped, List.map_append, List.map_cons,
      List.map_nil, List.count_append] at hsplit ⊢
    omega
  | lined line queue dropped hnew ticket =>
    refine .inr (List.perm_iff_count.mpr fun n => ?_)
    simp only [Relay.places, queued, h.handed, line, queue, dropped, List.count_append]
    omega

theorem Entered.kept {message : WebSocketMessage} {p : Promised} (h : Entered c s message now s' p)
    {v : Job × Option (Except Thrown Unit)} (ht : s.ticket t = some v) : s'.ticket t = some v := by
  cases h.entry with
  | refused err line queue dropped ticket => rwa [ticket]
  | stored line queue dropped ticket => rwa [ticket]
  | lined line queue dropped hnew ticket =>
    rw [ticket, if_neg, ht]
    rintro rfl
    cases hnew.symm.trans ht

theorem Entered.room {message : WebSocketMessage} {p : Promised} (h : Entered c s message now s' p)
    (hroom : Roomy c s.offlineQueue.length) : Roomy c s'.offlineQueue.length := by
  cases h.entry with
  | stored line queue dropped ticket =>
    rw [queue, List.length_append]
    exact hroom.staying
  | refused err line queue dropped ticket => exact queue ▸ hroom
  | lined line queue dropped hnew ticket => exact queue ▸ hroom

theorem Entered.mem_queue {message : WebSocketMessage} {p : Promised} (h : Entered c s message now s' p)
    {q : QueuedMessage} (hq : q ∈ s'.offlineQueue) :
    q ∈ s.offlineQueue ∨ q = ⟨s.sends.length, message, now⟩ := by
  cases h.entry with
  | stored line queue dropped ticket =>
    rw [queue] at hq
    rcases List.mem_append.mp hq with hq | hq
    · exact .inl (mem_staying hq)
    · exact .inr (List.mem_singleton.mp hq)
  | refused err line queue dropped ticket => exact .inl (queue ▸ hq)
  | lined line queue dropped hnew ticket => exact .inl (queue ▸ hq)

theorem Entered.mem_dropped {message : WebSocketMessage} {p : Promised} (h : Entered c s message now s' p)
    {d : ℕ × DropReason} (hd : d ∈ s'.dropped) : d ∈ s.dropped ∨ d ∈ s.overflowed c := by
  cases h.entry with
  | stored line queue dropped ticket =>
    rw [dropped] at hd
    exact List.mem_append.mp hd
  | refused err line queue dropped ticket => exact .inl (dropped ▸ hd)
  | lined line queue dropped hnew ticket => exact .inl (dropped ▸ hd)

/-- A thread is new if it is for the new call. -/
theorem Entered.new {message : WebSocketMessage} {p : Promised} (h : Entered c s message now s' p)
    {v : Job × Option (Except Thrown Unit)} (ht : s'.ticket t = some v) :
    s.ticket t = some v ∨ v = (.send s.sends.length message, none) := by
  cases h.entry with
  | refused err line queue dropped ticket => exact .inl (by rwa [ticket] at ht)
  | stored line queue dropped ticket => exact .inl (by rwa [ticket] at ht)
  | lined line queue dropped hnew ticket =>
    rw [ticket] at ht
    split_ifs at ht
    · exact .inr (Option.some.inj ht).symm
    · exact .inl ht

/-- A call that is not settled has a thread. -/
theorem Entered.own {message : WebSocketMessage} (h : Entered c s message now s' (.of t)) :
    s'.ticket t = some (.send s.sends.length message, none) := by
  cases h.entry with
  | lined line queue dropped hnew ticket => rw [ticket, if_pos rfl]

theorem Aside.places (h : Aside s s') : s'.places = s.places := by
  rw [Relay.places, Relay.places, queued, queued, h.handed, h.line, h.queue, h.dropped]

/-! ## Steps -/

/-- What a step does to the messages: it lets one in, it goes on with one, it flushes or destroys the
offline queue, or it leaves them alone. -/
inductive Traffic (c : RelayerSettings) (s : Relay) (e : RelayEvent) (s' : Relay) : Prop
  | aside (h : Aside s s')
  | entered (message : WebSocketMessage) (now : Number) (p : Promised) (he : e = .send message now)
      (h : Entered c s message now s' p)
  | turned (t : ℕ) (ctor : Constructed) (now : Number) (call : ℕ) (message : WebSocketMessage)
      (r : Except Thrown Unit) (he : e = .resume t ctor now)
      (ht : s.threads[t]? = some ⟨.send call message, .granted⟩) (h : Turned c s t call message now s' r)
  | emptied (i : ℕ) (now : Number) (k : Socket) (he : e = .opened i now) (hk : s.sockets[i]? = some k)
      (hruns : Runs k e) (h : Emptied c now (s.modifySocket i (Socket.tell e)).wsOpen s s')
  | destroyed (he : e = .destroy) (h : s' = s.destroy c)

/-- **An open event** flushes the offline queue. -/
theorem emptied_onopen (h : Orderly s) (hroom : Roomy c s.offlineQueue.length) (i : ℕ) (now : Number) :
    Emptied c now (s.modifySocket i (Socket.tell (.opened i now))).wsOpen s
      ((s.modifySocket i (Socket.tell (.opened i now))).onopen c i now) := by
  set told := s.modifySocket i (Socket.tell (.opened i now))
  obtain ⟨interval, timers, hstart⟩ := startHeartbeat_form c
    { told with reconnectAttempts := .fin 0, reconnectExhausted := false }
  set s₀ : Relay := { told with
    reconnectAttempts := .fin 0, reconnectExhausted := false, heartbeatInterval := interval
    heartbeatTimeout := none, awaitingPong := false, timers := timers, offlineQueue := [] }
  have hempty : Orderly { told with offlineQueue := [], reconnectExhausted := false } := by
    refine h.opened fun k hfresh hready => ?_
    simp only [Socket.tell] at hready ⊢
    split_ifs at hready ⊢ with hconnecting
    exact absurd hready hconnecting
  have h₀ : Orderly s₀ := hempty.congr rfl rfl rfl rfl rfl hempty.dead hempty.fresh hempty.online
  have heq : told.onopen c i now =
      ((flushAll c now s.offlineQueue s₀).emitStateChange .connected).settle i (.ok ()) := by
    unfold Relay.onopen
    simp only [hstart, flushPendingMessages]
    rfl
  have hflush : Emptied c now s₀.wsOpen s
      (((flushAll c now s.offlineQueue s₀).emitStateChange .connected).settle i (.ok ())) :=
    emptied_of_flushed h hroom h₀ rfl rfl
      ((aside_emitStateChange _ .connected).trans (aside_settle _ i (.ok ())))
  rw [heq]
  exact hflush

theorem traffic_hear (h : Orderly s) (hroom : Roomy c s.offlineQueue.length) {e : RelayEvent}
    (he : e.socket = some i) (hs : s.step c e = some s') : Traffic c s e s' := by
  have htell (e : RelayEvent) : Aside s (s.modifySocket i (Socket.tell e)) := .of_mail rfl
  obtain ⟨k, hk, ⟨hruns, rfl⟩ | ⟨-, rfl | ⟨r, -, rfl⟩⟩⟩ := step_socket he hs
  · cases e with
    | opened j now =>
      cases he
      exact .emptied i now k rfl hk hruns (emptied_onopen h hroom i now)
    | message j frame =>
      cases he
      obtain ⟨_, _, _, heq⟩ := (s.modifySocket i (Socket.tell (.message i frame))).onmessage_form i frame
      refine .aside ((htell (.message i frame)).trans ?_)
      show Aside _ (Relay.onmessage _ i frame)
      rw [heq]
      exact .of_mail rfl
    | closed j =>
      cases he
      have hclosed : Orderly (s.modifySocket i (Socket.tell (.closed i))) :=
        h.modifySocket (fun k _ hready => by cases hready) fun k hready => by cases hready
      refine .aside ((htell (.closed i)).trans (aside_onclose hclosed ?_ _))
      intro k' hk' hready
      have hk' : (s.sockets.modify i (Socket.tell (.closed i)))[i]? = some k' := hk'
      rw [List.getElem?_modify_eq, hk] at hk'
      cases hk'
      cases hready
    | _ => exact hruns.elim
  · exact .aside (htell e)
  · exact .aside ((htell e).trans (aside_settle _ i r))

/-- **What a step does to the messages.** -/
theorem step_traffic (h : Orderly s) (hroom : Roomy c s.offlineQueue.length) {e : RelayEvent}
    (hs : s.step c e = some s') : Traffic c s e s' := by
  cases e with
  | opened | message | errored | closing | closed => exact traffic_hear h hroom rfl hs
  | connect =>
    cases hs
    exact .aside (aside_connect h)
  | disconnect =>
    cases hs
    unfold Relay.disconnect
    simp only
    split
    · exact .aside ((aside_emitStateChange _ _).after rfl)
    · exact .aside ((aside_emitStateChange _ _).after rfl)
  | destroy =>
    cases hs
    exact .destroyed rfl rfl
  | send message now =>
    cases hs
    obtain ⟨p, hp⟩ := entered_send (c := c) h message now
    exact .entered message now p rfl hp
  | on type handler =>
    cases hs
    unfold Relay.on
    split_ifs
    · exact .aside (.of_mail rfl)
    · exact .aside (.of_mail rfl)
  | off type handler =>
    cases hs
    exact .aside (.of_mail rfl)
  | resume t ctor now =>
    have hs : s.resume c t ctor now = some s' := hs
    obtain ⟨⟨job, phase⟩, ht, ⟨hphase, rfl⟩ | ⟨r, r', hphase, rfl⟩⟩ := resume_cases hs
    · have hphase : phase = .granted := hphase
      subst hphase
      cases job with
      | connect => exact .aside (aside_connectLocked h ht trivial rfl ctor)
      | reconnect => exact .aside (aside_reconnectLocked h ht trivial rfl)
      | send call message =>
        obtain ⟨r, hr⟩ := turned_sendLocked (c := c) h ht now
        exact .turned t ctor now call message r rfl ht hr
    · have hphase : phase = .opened r := hphase
      subst hphase
      have hfits := h.fits _ (List.mem_of_getElem? ht)
      cases job with
      | send call message => exact hfits.elim
      | connect | reconnect => exact .aside (aside_finish h ht trivial rfl r')
  | wake t ctor =>
    obtain ⟨hphase, hs⟩ := Option.ite_none_right_eq_some.mp hs
    cases hs
    obtain ⟨th, ht, hth⟩ := Option.map_eq_some_iff.mp hphase
    exact .aside (aside_wake h ht hth ctor)
  | forget =>
    simp only [Relay.step] at hs
    split at hs
    · obtain ⟨_, -, rfl⟩ := Option.map_eq_some_iff.mp hs
      exact .aside (.of_mail rfl)
    · cases hs
  | heartbeat =>
    obtain ⟨_, -, rfl⟩ := Option.map_eq_some_iff.mp hs
    unfold Relay.heartbeat
    split_ifs
    · exact .aside (.of_mail rfl)
    · exact .aside (.of_mail rfl)
  | heartbeatTimeout =>
    obtain ⟨_, -, rfl⟩ := Option.map_eq_some_iff.mp hs
    split_ifs
    · exact .aside (aside_handleHeartbeatTimeout h)
    · exact .aside (.of_mail rfl)

end Relay

end StreamFi
