import StreamFi.Relayer.Lock

/-!
# The line for the lock

The messages that await the lock stand in a line: that of the thread that has it, if it has just got it,
and those of the queue behind it.

* `ticket`: what a thread is for and what it came to; `line`: the calls of `send` in the line;
* **`Orderly.line_acquireLock`**, **`Orderly.line_finish`**: it is joined at the end and left at the front;
* `Aside`, with `aside_connect`, `aside_onclose`, ...: what has nothing to do with messages.
-/

namespace StreamFi

open Js Run

/-- What the promise of the thread was settled with. -/
def ThreadPhase.result : ThreadPhase → Option (Except Thrown Unit)
  | .settled r => some r
  | _ => none

def Job.call : Job → Option ℕ
  | .send call _ => some call
  | _ => none

namespace Relay

/-- What a thread is for, and its result. -/
def ticket (s : Relay) (t : ℕ) : Option (Job × Option (Except Thrown Unit)) :=
  (s.threads[t]?).map fun th => (th.job, th.phase.result)

/-- The calls whose messages await the lock, the next one first. -/
def line (s : Relay) : List ℕ := (s.holder.toList ++ s.lockQueue).filterMap s.callOf

variable {c : RelayerSettings} {s s' s'' : Relay} {t u i n : ℕ} {th : Thread} {job : Job}
  {phase : ThreadPhase} {now : Number} {r : Except Thrown Unit}

/-! ## Threads and the line -/

theorem outcome_of (s : Relay) (t : ℕ) : s.outcome (.of t) = (s.ticket t).bind Prod.snd := by
  cases ht : s.threads[t]? with
  | none => simp only [outcome, ticket, ht, Option.map_none, Option.bind_none]
  | some th =>
    obtain ⟨job, phase⟩ := th
    simp only [outcome, ticket, ht, Option.map_some, Option.bind_some]
    cases phase <;> rfl

theorem callOf_eq (s : Relay) (t : ℕ) : s.callOf t = (s.ticket t).bind fun v => v.1.call := by
  cases ht : s.threads[t]? with
  | none => simp only [callOf, ticket, ht, Option.map_none, Option.bind_none]
  | some th =>
    obtain ⟨job, phase⟩ := th
    simp only [callOf, ticket, ht, Option.map_some, Option.bind_some]
    cases job <;> rfl

theorem ticket_setPhase (s : Relay) (t : ℕ) (phase : ThreadPhase) (u : ℕ) :
    (s.setPhase t phase).ticket u =
      if t = u then (s.ticket u).map fun v => (v.1, phase.result) else s.ticket u := by
  have hthreads : (s.setPhase t phase).threads[u]? =
      (s.threads.modify t fun th => { th with phase := phase })[u]? := rfl
  rw [ticket, ticket, hthreads, List.getElem?_modify]
  split_ifs <;> cases s.threads[u]? <;> rfl

theorem ticket_setPhase_same (ht : s.threads[t]? = some th) (h : phase.result = th.phase.result) :
    (s.setPhase t phase).ticket u = s.ticket u := by
  rw [ticket_setPhase]
  split_ifs with htu
  · subst htu
    rw [ticket, ht, Option.map_some, Option.map_some, h]
  · rfl

theorem ticket_releaseLock (h : Orderly s) (u : ℕ) : s.releaseLock.ticket u = s.ticket u := by
  cases hqueue : s.lockQueue with
  | nil =>
    rw [releaseLock, hqueue]
    rfl
  | cons next lockQueue =>
    obtain ⟨th, hth, hphase⟩ := h.waiting next (by rw [hqueue]; exact List.mem_cons_self)
    rw [releaseLock, hqueue]
    let s₁ : Relay := { s with lockQueue := lockQueue, holder := some next }
    exact ticket_setPhase_same (s := s₁) hth (by rw [hphase]; rfl)

theorem ticket_finish (h : Orderly s) (t : ℕ) (r : Except Thrown Unit) (u : ℕ) :
    (s.finish t r).ticket u =
      if t = u then (s.ticket u).map fun v => (v.1, some r) else s.ticket u := by
  rw [Relay.finish, ticket_setPhase, ticket_releaseLock h]
  rfl

theorem threads_acquireLock (s : Relay) (job : Job) :
    ∃ phase : ThreadPhase, phase.result = none ∧ (s.acquireLock job).threads = s.threads ++ [⟨job, phase⟩] := by
  rw [acquireLock_eq]
  refine ⟨_, ?_, rfl⟩
  split_ifs <;> rfl

theorem ticket_acquireLock (s : Relay) (job : Job) (u : ℕ) :
    (s.acquireLock job).ticket u = if u = s.threads.length then some (job, none) else s.ticket u := by
  obtain ⟨phase, hphase, hthreads⟩ := s.threads_acquireLock job
  rw [ticket, ticket, hthreads]
  rcases lt_trichotomy u s.threads.length with h | h | h
  · rw [if_neg h.ne, List.getElem?_append_left h]
  · subst h
    rw [if_pos rfl, List.getElem?_concat_length, Option.map_some, hphase]
  · rw [if_neg h.ne', List.getElem?_eq_none h.le, List.getElem?_eq_none]
    rw [List.length_append, List.length_singleton]
    exact h

theorem ticket_settle (s : Relay) (i : ℕ) (r : Except Thrown Unit) (u : ℕ) :
    (s.settle i r).ticket u = s.ticket u := by
  have hthreads : (s.settle i r).threads[u]? = (s.threads[u]?).map fun th =>
      if th.phase = .opening i then { th with phase := .opened r } else th := List.getElem?_map
  rw [ticket, ticket, hthreads, Option.map_map]
  congr 1
  funext th
  by_cases hth : th.phase = .opening i
  · rw [Function.comp_apply, if_pos hth, hth]
    rfl
  · rw [Function.comp_apply, if_neg hth]

theorem callOf_of (ht : s.threads[t]? = some th) : s.callOf t = th.job.call := by
  rw [callOf_eq, ticket, ht, Option.map_some, Option.bind_some]

theorem callOf_finish (h : Orderly s) (t : ℕ) (r : Except Thrown Unit) :
    (s.finish t r).callOf = s.callOf := by
  funext u
  rw [callOf_eq, callOf_eq, ticket_finish h]
  split_ifs
  · cases s.ticket u <;> rfl
  · rfl

/-- The thread with the lock is the first of the line. -/
theorem Orderly.line_of_holds (h : Orderly s) (ht : s.threads[t]? = some th) (hth : th.phase.Holds) :
    s.line = th.job.call.toList ++ s.lockQueue.filterMap s.callOf := by
  rw [line, h.exclusive t th ht hth, Option.toList_some, List.singleton_append, List.filterMap_cons,
    callOf_of ht]
  cases th.job.call <;> rfl

theorem Orderly.line_finish (h : Orderly s) (t : ℕ) (r : Except Thrown Unit) :
    (s.finish t r).line = s.lockQueue.filterMap s.callOf := by
  have hnext : (s.finish t r).holder.toList ++ (s.finish t r).lockQueue = s.lockQueue := by
    unfold Relay.finish releaseLock
    cases s.lockQueue <;> rfl
  rw [line, hnext, callOf_finish h]

/-- Who awaits the lock has a thread. -/
theorem Orderly.mem_threads (h : Orderly s) (hu : u ∈ s.holder.toList ++ s.lockQueue) :
    u < s.threads.length := by
  rcases List.mem_append.mp hu with hu | hu
  · obtain ⟨th, hth, -⟩ := h.held u (Option.mem_toList.mp hu)
    exact lt_of_entry hth
  · obtain ⟨th, hth, -⟩ := h.waiting u hu
    exact lt_of_entry hth

theorem Orderly.line_acquireLock (h : Orderly s) (hlive : s.isDestroyed = false) (job : Job) :
    (s.acquireLock job).line = s.line ++ job.call.toList := by
  have hnext : (s.acquireLock job).holder.toList ++ (s.acquireLock job).lockQueue =
      (s.holder.toList ++ s.lockQueue) ++ [s.threads.length] := by
    rw [acquireLock_eq]
    cases hlocked : s.isLocked with
    | true => simp
    | false =>
      have hfree := h.locked hlive
      rw [hlocked, eq_comm, Option.isSome_eq_false_iff, Option.isNone_iff_eq_none] at hfree
      simp [hfree, h.unlocked hlocked]
  have hold : (s.holder.toList ++ s.lockQueue).filterMap (s.acquireLock job).callOf =
      (s.holder.toList ++ s.lockQueue).filterMap s.callOf := by
    refine List.filterMap_congr fun u hu => ?_
    rw [callOf_eq, callOf_eq, ticket_acquireLock, if_neg (h.mem_threads hu).ne]
  have hnew : (s.acquireLock job).callOf s.threads.length = job.call := by
    rw [callOf_eq, ticket_acquireLock, if_pos rfl, Option.bind_some]
  rw [line, hnext, List.filterMap_append, hold, line, List.filterMap_cons, hnew]
  cases job.call <;> rfl

/-! ## What has nothing to do with messages -/

/-- The messages are where they were, and no thread of `send` has gone on. -/
structure Aside (s s' : Relay) : Prop where
  handed : s'.handed = s.handed
  line : s'.line = s.line
  queue : s'.offlineQueue = s.offlineQueue
  dropped : s'.dropped = s.dropped
  sends : s'.sends = s.sends
  dead : s'.isDestroyed = s.isDestroyed
  tickets : ∀ t n message r,
    s'.ticket t = some (.send n message, r) ↔ s.ticket t = some (.send n message, r)

/-- All that messages depend on. -/
def mail (s : Relay) : List ℕ × List Thread × Option ℕ × List ℕ × List QueuedMessage ×
    List (ℕ × DropReason) × List SendCall × Bool :=
  (s.handed, s.threads, s.holder, s.lockQueue, s.offlineQueue, s.dropped, s.sends, s.isDestroyed)

theorem Aside.of_mail (h : s'.mail = s.mail) : Aside s s' := by
  simp only [mail, Prod.mk.injEq] at h
  obtain ⟨hhanded, hthreads, hholder, hlockQueue, hqueue, hdropped, hsends, hdead⟩ := h
  have hticket (t : ℕ) : s'.ticket t = s.ticket t := by rw [ticket, ticket, hthreads]
  refine ⟨hhanded, ?_, hqueue, hdropped, hsends, hdead, ?_⟩
  · have hcall : s'.callOf = s.callOf := by
      funext t
      rw [callOf_eq, callOf_eq, hticket]
    rw [Relay.line, Relay.line, hholder, hlockQueue, hcall]
  · intro t n message r
    rw [hticket]

theorem Aside.trans (h : Aside s s') (h' : Aside s' s'') : Aside s s'' where
  handed := h'.handed.trans h.handed
  line := h'.line.trans h.line
  queue := h'.queue.trans h.queue
  dropped := h'.dropped.trans h.dropped
  sends := h'.sends.trans h.sends
  dead := h'.dead.trans h.dead
  tickets t n message r := (h'.tickets t n message r).trans (h.tickets t n message r)

theorem Aside.after (h : Aside s' s'') (hmail : s'.mail = s.mail) : Aside s s'' := (Aside.of_mail hmail).trans h

theorem ticket_of (ht : s.threads[t]? = some th) : s.ticket t = some (th.job, th.phase.result) := by
  rw [ticket, ht, Option.map_some]

theorem ticket_ne (hjob : job.call = none) (r r' : Option (Except Thrown Unit)) (n : ℕ)
    (message : WebSocketMessage) : some (job, r') ≠ some (.send n message, r) := by
  intro heq
  have hsend : job = .send n message := (Prod.ext_iff.mp (Option.some.inj heq)).1
  rw [hsend] at hjob
  cases hjob

/-- A change to a thread that is for no call of `send`. -/
theorem tickets_of_change (ht : s.threads[t]? = some th) (hjob : th.job.call = none)
    {r₀ : Option (Except Thrown Unit)}
    (h : ∀ u, s'.ticket u = if t = u then (s.ticket u).map fun v => (v.1, r₀) else s.ticket u)
    (u n : ℕ) (message : WebSocketMessage) (r : Option (Except Thrown Unit)) :
    s'.ticket u = some (.send n message, r) ↔ s.ticket u = some (.send n message, r) := by
  rw [h]
  split_ifs with htu
  · subst htu
    rw [ticket_of ht, Option.map_some]
    exact iff_of_false (ticket_ne hjob _ _ n message) (ticket_ne hjob _ _ n message)
  · rfl

theorem aside_setPhase (ht : s.threads[t]? = some th) (hjob : th.job.call = none)
    (phase : ThreadPhase) : Aside s (s.setPhase t phase) where
  handed := rfl
  line := by
    have hcall : (s.setPhase t phase).callOf = s.callOf := by
      funext u
      rw [callOf_eq, callOf_eq, ticket_setPhase]
      split_ifs
      · cases s.ticket u <;> rfl
      · rfl
    rw [Relay.line, Relay.line, hcall]
    rfl
  queue := rfl
  dropped := rfl
  sends := rfl
  dead := rfl
  tickets := tickets_of_change ht hjob (ticket_setPhase s t phase)

theorem finish_eq (s : Relay) (t : ℕ) (r : Except Thrown Unit) :
    ∃ isLocked lockQueue threads holder, s.finish t r = { s with
      isLocked := isLocked, lockQueue := lockQueue, threads := threads, holder := holder } := by
  unfold Relay.finish releaseLock
  cases s.lockQueue <;> exact ⟨_, _, _, _, rfl⟩

theorem aside_finish (h : Orderly s) (ht : s.threads[t]? = some th) (hth : th.phase.Holds)
    (hjob : th.job.call = none) (r : Except Thrown Unit) : Aside s (s.finish t r) := by
  have hline : (s.finish t r).line = s.line := by
    rw [h.line_finish, h.line_of_holds ht hth, hjob, Option.toList_none, List.nil_append]
  have htickets := tickets_of_change ht hjob (ticket_finish h t r)
  obtain ⟨_, _, _, _, heq⟩ := s.finish_eq t r
  rw [heq] at hline htickets ⊢
  exact ⟨rfl, hline, rfl, rfl, rfl, rfl, htickets⟩

theorem aside_acquireLock (h : Orderly s) (hlive : s.isDestroyed = false) (hjob : job.call = none) :
    Aside s (s.acquireLock job) where
  handed := by rw [acquireLock_eq]
  line := by rw [h.line_acquireLock hlive, hjob, Option.toList_none, List.append_nil]
  queue := by rw [acquireLock_eq]
  dropped := by rw [acquireLock_eq]
  sends := by rw [acquireLock_eq]
  dead := by rw [acquireLock_eq]
  tickets u n message r := by
    rw [ticket_acquireLock]
    split_ifs with hu
    · subst hu
      have hnone : s.ticket s.threads.length = none := by
        rw [ticket, List.getElem?_eq_none le_rfl, Option.map_none]
      rw [hnone]
      exact iff_of_false (ticket_ne hjob _ _ n message) nofun
    · rfl

theorem aside_settle (s : Relay) (i : ℕ) (r : Except Thrown Unit) : Aside s (s.settle i r) where
  handed := rfl
  line := by
    have hcall : (s.settle i r).callOf = s.callOf := by
      funext u
      rw [callOf_eq, callOf_eq, ticket_settle]
    rw [Relay.line, Relay.line, hcall]
    rfl
  queue := rfl
  dropped := rfl
  sends := rfl
  dead := rfl
  tickets u n message r' := by rw [ticket_settle]

theorem aside_emitStateChange (s : Relay) (transition : RelayerStateTransition) :
    Aside s (s.emitStateChange transition) := by
  rw [emitStateChange_eq]
  exact .of_mail rfl

theorem aside_giveUp (c : RelayerSettings) (s : Relay) : Aside s (s.giveUp c) := by
  rw [giveUp_eq]
  exact .of_mail rfl

theorem aside_attemptReconnect (h : Orderly s) : Aside s (s.attemptReconnect c) := by
  unfold Relay.attemptReconnect
  split_ifs with hshould
  · exact aside_acquireLock h (shouldAttemptReconnect_live hshould) rfl
  · exact aside_giveUp c s

theorem aside_reconnectOrGiveUp (h : Orderly s) : Aside s (s.reconnectOrGiveUp c) := by
  unfold Relay.reconnectOrGiveUp
  split_ifs
  · exact aside_attemptReconnect h
  · exact aside_giveUp c s

theorem aside_onclose (h : Orderly s) (hk : ∀ k, s.sockets[i]? = some k → k.readyState ≠ .connecting)
    (settled : Bool) : Aside s (s.onclose c i settled) := by
  unfold Relay.onclose
  cases settled with
  | true => exact (aside_reconnectOrGiveUp h.letGo).after rfl
  | false =>
    have hsettle := aside_settle { s.stopHeartbeat with ws := none } i (closedError c)
    exact (hsettle.trans (aside_reconnectOrGiveUp (h.letGo.settle hk _))).after rfl

theorem aside_connect (h : Orderly s) : Aside s s.connect := by
  rcases s.connect_cases with ⟨-, heq⟩ | ⟨-, t, -, heq⟩ | ⟨hlive, -, heq⟩
  · rw [heq]
    exact .of_mail rfl
  · rw [heq]
    exact .of_mail rfl
  · rw [heq]
    set s₁ : Relay := { s with
      reconnectEnabled := true, reconnectExhausted := false, reconnectAttempts := .fin 0 }
    have hs₁ : Orderly s₁ := h.congr rfl rfl rfl rfl rfl h.dead h.fresh fun hon => ⟨(h.online hon).1, rfl⟩
    have hlock : Aside s₁ (s₁.acquireLock .connect) := aside_acquireLock hs₁ hlive rfl
    have hpromise : Aside (s₁.acquireLock .connect) { s₁.acquireLock .connect with
        connectPromise := some s.threads.length, connects := s.connects ++ [.of s.threads.length] } :=
      .of_mail rfl
    exact (hlock.trans hpromise).after rfl

theorem aside_establishConnection (ht : s.threads[t]? = some th) (hjob : th.job.call = none)
    (ctor : Constructed) : Aside s (s.establishConnection t ctor) := by
  cases ctor with
  | absent =>
    have ht' : (s.emitStateChange .disconnected).threads[t]? = some th := by
      rw [emitStateChange_eq]
      exact ht
    exact (aside_emitStateChange s .disconnected).trans (aside_setPhase ht' hjob _)
  | nothing => exact aside_setPhase ht hjob _
  | throws err => exact aside_setPhase ht hjob _
  | socket =>
    set s₁ : Relay := { s with sockets := s.sockets ++ [({} : Socket)], ws := some s.sockets.length }
    have ht' : s₁.threads[t]? = some th := ht
    have hopening : Aside s₁ (s₁.setPhase t (.opening s.sockets.length)) := aside_setPhase ht' hjob _
    exact hopening.after rfl

theorem aside_connectLocked (h : Orderly s) (ht : s.threads[t]? = some th) (hth : th.phase.Holds)
    (hjob : th.job.call = none) (ctor : Constructed) : Aside s (s.connectLocked t ctor) := by
  unfold Relay.connectLocked
  split_ifs
  · exact aside_finish h ht hth hjob _
  · refine (aside_emitStateChange s .connecting).trans (aside_establishConnection ?_ hjob ctor)
    rw [emitStateChange_eq]
    exact ht

theorem aside_reconnectLocked (h : Orderly s) (ht : s.threads[t]? = some th) (hth : th.phase.Holds)
    (hjob : th.job.call = none) : Aside s (s.reconnectLocked c t) := by
  unfold Relay.reconnectLocked
  split_ifs
  · set s₁ : Relay := { s with reconnectAttempts := s.reconnectAttempts.add (.fin 1) }
    have ht' : (s₁.emitStateChange .reconnecting).threads[t]? = some th := by
      rw [emitStateChange_eq]
      exact ht
    exact ((aside_emitStateChange s₁ .reconnecting).trans (aside_setPhase ht' hjob _)).after rfl
  · refine (aside_giveUp c s).trans (aside_finish h.giveUp ?_ hth hjob _)
    rw [giveUp_eq]
    exact ht

theorem aside_wake (h : Orderly s) (ht : s.threads[t]? = some th) (hth : th.phase = .sleeping)
    (ctor : Constructed) : Aside s (s.wake t ctor) := by
  have hholds : th.phase.Holds := by
    rw [hth]
    trivial
  have hjob : th.job.call = none := by
    have hfits := h.fits th (List.mem_of_getElem? ht)
    cases hjob : th.job with
    | send call message => simp only [Thread.Fits, hjob, hth] at hfits
    | connect | reconnect => rfl
  unfold Relay.wake
  split_ifs
  · exact aside_finish h ht hholds hjob _
  · exact aside_establishConnection ht hjob ctor

theorem aside_handleHeartbeatTimeout (h : Orderly s) : Aside s (s.handleHeartbeatTimeout c) := by
  unfold Relay.handleHeartbeatTimeout
  simp only
  cases s.ws with
  | none =>
    split_ifs
    · exact .of_mail rfl
    · exact (aside_reconnectOrGiveUp h.letGo).after rfl
  | some i =>
    have hdead := h.letGo.closeSocket i fun k =>
      { k with onopen := false, onmessage := false, onclose := false, onerror := false }
    split_ifs
    · exact .of_mail rfl
    · exact (aside_reconnectOrGiveUp hdead).after rfl

end Relay

end StreamFi
