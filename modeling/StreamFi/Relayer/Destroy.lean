import StreamFi.Relayer.Stale
import StreamFi.Relayer.Lock

/-!
# Promises after `destroy`

`destroy` empties the queue of the lock, and takes the handlers off the current socket. The threads in
the queue and at the socket are told nothing.

* `AllSettled`, `Resting`: what is due to the callers, and when there is nothing left to do;
* `Thread.stuck`, `Answerable`: the threads that get nowhere, and the promises without one;
* `Winds`: what a step does to a destroyed relayer;
* **`none_parked_iff`**: a destroyed relayer at rest has settled all promises exactly when no promise
  had such a thread at `destroy`.
-/

namespace StreamFi

open Js Run

/-- There is nothing that the thread itself has to do. -/
def ThreadPhase.idle : ThreadPhase → Bool
  | .waiting | .opening _ | .settled _ => true
  | .granted | .sleeping | .opened _ => false

/-- The thread waits for the lock or for a socket, or will as soon as it goes on. -/
def Thread.stuck : Thread → Bool
  | ⟨_, .waiting⟩ | ⟨_, .opening _⟩ | ⟨.connect, .granted⟩ => true
  | _ => false

namespace Relay

/-- The promises of `connect` and `send` so far. -/
def promises (s : Relay) : List Promised := s.connects ++ s.sends.map SendCall.promise

def AllSettled (s : Relay) : Prop := ∀ p ∈ s.promises, (s.outcome p).isSome = true

/-- No timer of a reconnect is pending, and no thread goes on by itself. -/
def Resting (s : Relay) : Prop := ∀ th ∈ s.threads, th.phase.idle = true

instance (s : Relay) : Decidable s.AllSettled :=
  inferInstanceAs (Decidable (∀ p ∈ s.promises, (s.outcome p).isSome = true))

instance (s : Relay) : Decidable s.Resting :=
  inferInstanceAs (Decidable (∀ th ∈ s.threads, th.phase.idle = true))

/-- No promise has a thread that is stuck. -/
def Answerable (s : Relay) : Prop :=
  ∀ t, Promised.of t ∈ s.promises → ∃ th, s.threads[t]? = some th ∧ th.stuck = false

/-- **Nobody is left waiting** by a `destroy`, whatever follows. -/
def NoneParked (c : RelayerSettings) (s : Relay) (e : RelayEvent) : Prop :=
  e = .destroy → ∀ log s', run (step c) s (e :: log) = some s' → s'.Resting → s'.AllSettled

def AnswerableAtDestroy (s : Relay) (e : RelayEvent) : Prop := e = .destroy → s.Answerable

/-! ## Steps of a destroyed relayer -/

/-- The relayer stays destroyed, its threads do not get stuck, and new promises are settled. -/
structure Winds (s s' : Relay) : Prop where
  dead : s'.isDestroyed = true
  threads : ∀ (t : ℕ) th, s.threads[t]? = some th → th.stuck = false →
    ∃ th', s'.threads[t]? = some th' ∧ th'.stuck = false
  promises : ∀ t, Promised.of t ∈ s'.promises → Promised.of t ∈ s.promises

variable {c : RelayerSettings} {s s' s'' : Relay} {t i : ℕ} {th : Thread} {phase : ThreadPhase}

theorem Winds.of_eq (hdead : s'.isDestroyed = true) (hthreads : s'.threads = s.threads)
    (hpromises : s'.promises = s.promises) : Winds s s' where
  dead := hdead
  threads t th ht hth := ⟨th, by rw [hthreads, ht], hth⟩
  promises t ht := by rwa [hpromises] at ht

theorem Winds.trans (h : Winds s s') (h' : Winds s' s'') : Winds s s'' where
  dead := h'.dead
  threads t th ht hth := by
    obtain ⟨th', ht', hth'⟩ := h.threads t th ht hth
    exact h'.threads t th' ht' hth'
  promises t ht := h.promises t (h'.promises t ht)

theorem Winds.answerable (h : Winds s s') (hs : s.Answerable) : s'.Answerable := by
  intro t ht
  obtain ⟨th, hth, hstuck⟩ := hs t (h.promises t ht)
  exact h.threads t th hth hstuck

theorem winds_setPhase (hdead : s.isDestroyed = true) (ht : s.threads[t]? = some th)
    (hth : th.stuck = true ∨ Thread.stuck ⟨th.job, phase⟩ = false) : Winds s (s.setPhase t phase) where
  dead := hdead
  threads u th' hu hstuck := by
    by_cases htu : t = u
    · subst htu
      cases ht.symm.trans hu
      refine ⟨_, getElem?_setPhase_self ht phase, ?_⟩
      rcases hth with hth | hth
      · cases hth.symm.trans hstuck
      · exact hth
    · exact ⟨th', by rwa [getElem?_setPhase_ne htu], hstuck⟩
  promises _ hp := hp

theorem winds_settle (hdead : s.isDestroyed = true) (i : ℕ) (r : Except Thrown Unit) :
    Winds s (s.settle i r) where
  dead := hdead
  threads u th hu hstuck := by
    have hphase : th.phase ≠ .opening i := by
      intro hphase
      obtain ⟨job, phase⟩ := th
      cases (hphase : phase = .opening i)
      cases job <;> cases hstuck
    refine ⟨th, ?_, hstuck⟩
    show (s.threads.map _)[u]? = some th
    rw [List.getElem?_map, hu, Option.map_some, if_neg hphase]
  promises _ hp := hp

theorem finish_dead (h : Orderly s) (hdead : s.isDestroyed = true) (t : ℕ) (r : Except Thrown Unit) :
    s.finish t r = { s with isLocked := false, holder := none }.setPhase t (.settled r) := by
  rw [Relay.finish, releaseLock, h.unlocked (h.dead hdead).1]

theorem winds_finish (h : Orderly s) (hdead : s.isDestroyed = true) (ht : s.threads[t]? = some th)
    (r : Except Thrown Unit) : Winds s (s.finish t r) := by
  have hfree : Winds s { s with isLocked := false, holder := none } := .of_eq hdead rfl rfl
  rw [finish_dead h hdead]
  refine hfree.trans (winds_setPhase hdead ht (.inr ?_))
  cases th.job <;> rfl

theorem winds_emitStateChange (hdead : s.isDestroyed = true) (transition : RelayerStateTransition) :
    Winds s (s.emitStateChange transition) := by
  rw [emitStateChange_eq]
  exact .of_eq hdead rfl rfl

theorem winds_giveUp (hdead : s.isDestroyed = true) : Winds s (s.giveUp c) := by
  rw [giveUp_eq]
  exact .of_eq hdead rfl rfl

theorem shouldAttemptReconnect_dead (hdead : s.isDestroyed = true) :
    s.shouldAttemptReconnect c = false := by
  rw [Bool.eq_false_iff]
  intro hshould
  cases hdead.symm.trans (shouldAttemptReconnect_live hshould)

theorem winds_reconnectOrGiveUp (hdead : s.isDestroyed = true) : Winds s (s.reconnectOrGiveUp c) := by
  rw [reconnectOrGiveUp_eq, shouldAttemptReconnect_dead hdead, if_neg Bool.false_ne_true]
  exact winds_giveUp hdead

theorem winds_establishConnection (hdead : s.isDestroyed = true) (ht : s.threads[t]? = some th)
    (hth : th.stuck = true) (ctor : Constructed) : Winds s (s.establishConnection t ctor) := by
  cases ctor with
  | absent =>
    have hemit := winds_emitStateChange hdead .disconnected
    refine hemit.trans (winds_setPhase hemit.dead ?_ (.inl hth))
    rw [emitStateChange_eq]
    exact ht
  | nothing => exact winds_setPhase hdead ht (.inl hth)
  | throws err => exact winds_setPhase hdead ht (.inl hth)
  | socket =>
    have hnew : Winds s { s with
        sockets := s.sockets ++ [({} : Socket)], ws := some s.sockets.length } :=
      .of_eq hdead rfl rfl
    exact hnew.trans (winds_setPhase hdead ht (.inl hth))

theorem winds_resume (h : Orderly s) (hdead : s.isDestroyed = true) {ctor : Constructed}
    {now : Number} (hs : s.resume c t ctor now = some s') : Winds s s' := by
  obtain ⟨⟨job, phase⟩, ht, ⟨hphase, rfl⟩ | ⟨r, r', -, rfl⟩⟩ := resume_cases hs
  · cases (hphase : phase = .granted)
    cases job with
    | connect =>
      show Winds s (s.connectLocked t ctor)
      unfold connectLocked
      split_ifs
      · exact winds_finish h hdead ht _
      · have hemit := winds_emitStateChange hdead .connecting
        have ht' : (s.emitStateChange .connecting).threads[t]? = some ⟨.connect, .granted⟩ := by
          rw [emitStateChange_eq]
          exact ht
        exact hemit.trans (winds_establishConnection hemit.dead ht' rfl ctor)
    | reconnect =>
      show Winds s (s.reconnectLocked c t)
      have hgive : Winds s (s.giveUp c) := winds_giveUp hdead
      unfold reconnectLocked
      rw [shouldAttemptReconnect_dead hdead, if_pos Bool.false_ne_true]
      have ht' : (s.giveUp c).threads[t]? = some ⟨.reconnect, .granted⟩ := by
        rw [giveUp_eq]
        exact ht
      exact hgive.trans (winds_finish h.giveUp hgive.dead ht' _)
    | send call message =>
      show Winds s (s.sendLocked c t call message now)
      let s₁ : Relay := { s with dropped := s.dropped ++ [(call, DropReason.destroyed)] }
      have hlog : Orderly s₁ := h.congr rfl rfl rfl rfl rfl h.dead h.fresh h.online
      have hkeep : Winds s s₁ := .of_eq hdead rfl rfl
      unfold sendLocked
      rw [if_pos hdead]
      exact hkeep.trans (winds_finish hlog hdead ht _)
  · exact winds_finish h hdead ht r'

theorem winds_onopen (hdead : s.isDestroyed = true) (hempty : s.offlineQueue = []) (now : Number) :
    Winds s (s.onopen c i now) := by
  obtain ⟨interval, timers, hstart⟩ := startHeartbeat_form c
    { s with reconnectAttempts := .fin 0, reconnectExhausted := false }
  have hkeep : Winds s { s with
      reconnectAttempts := .fin 0, reconnectExhausted := false, heartbeatInterval := interval
      heartbeatTimeout := none, awaitingPong := false, timers := timers, offlineQueue := [] } :=
    .of_eq hdead rfl rfl
  unfold onopen
  simp only [hstart, flushPendingMessages]
  rw [hempty, flushAll]
  have hemit := hkeep.trans (winds_emitStateChange hkeep.dead .connected)
  exact hemit.trans (winds_settle hemit.dead i _)

theorem winds_onclose (hdead : s.isDestroyed = true) (settled : Bool) :
    Winds s (s.onclose c i settled) := by
  have hgone : Winds s { s.stopHeartbeat with ws := none } := .of_eq hdead rfl rfl
  unfold onclose
  cases settled with
  | true => exact hgone.trans (winds_reconnectOrGiveUp hgone.dead)
  | false =>
    have hsettle := hgone.trans (winds_settle hgone.dead i (closedError c))
    exact hsettle.trans (winds_reconnectOrGiveUp hsettle.dead)

theorem winds_hear (h : Orderly s) (hdead : s.isDestroyed = true) {e : RelayEvent}
    (he : e.socket = some i) (hs : s.step c e = some s') : Winds s s' := by
  have htell : Winds s (s.modifySocket i (Socket.tell e)) := .of_eq hdead rfl rfl
  obtain ⟨k, hk, ⟨hruns, rfl⟩ | ⟨-, rfl | ⟨r, -, rfl⟩⟩⟩ := step_socket he hs
  · cases e with
    | opened j now =>
      have hempty : (s.modifySocket i (Socket.tell (.opened j now))).offlineQueue = [] :=
        (h.dead hdead).2
      exact htell.trans (winds_onopen htell.dead hempty now)
    | message j frame =>
      obtain ⟨_, _, _, heq⟩ := (s.modifySocket i (Socket.tell (.message j frame))).onmessage_form j frame
      show Winds s (Relay.onmessage _ j frame)
      rw [heq]
      exact .of_eq hdead rfl rfl
    | closed j => exact htell.trans (winds_onclose htell.dead _)
    | _ => exact hruns.elim
  · exact htell
  · exact htell.trans (winds_settle htell.dead i r)

/-- **A destroyed relayer winds up** with every step. -/
theorem winds_step (h : Orderly s) (hdead : s.isDestroyed = true) {e : RelayEvent}
    (hs : s.step c e = some s') : Winds s s' := by
  cases e with
  | opened | message | errored | closing | closed => exact winds_hear h hdead rfl hs
  | resume t ctor now => exact winds_resume h hdead hs
  | connect =>
    cases hs
    have heq : s.connect = { s with connects := s.connects ++ [.settled destroyedError] } := by
      simp only [Relay.connect, hdead, if_true]
    rw [heq]
    refine ⟨hdead, fun t th ht hth => ⟨th, ht, hth⟩, ?_⟩
    intro t ht
    simpa [promises] using ht
  | disconnect =>
    cases hs
    unfold Relay.disconnect
    simp only [emitStateChange_eq]
    split <;> exact .of_eq hdead rfl rfl
  | destroy =>
    cases hs
    rw [destroy_eq]
    exact .of_eq rfl rfl rfl
  | send message now =>
    cases hs
    have heq : s.send c message now =
        { s with sends := s.sends ++ [⟨message, now, .settled destroyedError⟩] } := by
      simp only [Relay.send, sendMessage, hdead, if_true]
    rw [heq]
    refine ⟨hdead, fun t th ht hth => ⟨th, ht, hth⟩, ?_⟩
    intro t ht
    simpa [promises] using ht
  | on type handler =>
    cases hs
    unfold Relay.on
    split_ifs
    · exact .of_eq hdead rfl rfl
    · exact .of_eq hdead rfl rfl
  | off type handler =>
    cases hs
    exact .of_eq hdead rfl rfl
  | wake t ctor =>
    obtain ⟨hphase, hs⟩ := Option.ite_none_right_eq_some.mp hs
    cases hs
    obtain ⟨th, ht, -⟩ := Option.map_eq_some_iff.mp hphase
    unfold Relay.wake
    rw [if_pos (.inl hdead)]
    exact winds_finish h hdead ht _
  | forget =>
    simp only [Relay.step] at hs
    split at hs
    · obtain ⟨_, -, rfl⟩ := Option.map_eq_some_iff.mp hs
      exact .of_eq hdead rfl rfl
    · cases hs
  | heartbeat =>
    obtain ⟨_, -, rfl⟩ := Option.map_eq_some_iff.mp hs
    unfold Relay.heartbeat
    split_ifs <;> exact .of_eq hdead rfl rfl
  | heartbeatTimeout =>
    obtain ⟨_, -, rfl⟩ := Option.map_eq_some_iff.mp hs
    split_ifs
    · unfold Relay.handleHeartbeatTimeout
      simp only
      split <;> rw [if_pos (by exact hdead)] <;> exact .of_eq hdead rfl rfl
    · exact .of_eq hdead rfl rfl

theorem Answerable.run {log : List RelayEvent} (ha : s.Answerable) (h : Orderly s)
    (hdead : s.isDestroyed = true) (hs : run (step c) s log = some s') : s'.Answerable := by
  have hall : Orderly s' ∧ s'.isDestroyed = true ∧ s'.Answerable := by
    refine run_induction (P := fun s _ => Orderly s ∧ s.isDestroyed = true ∧ s.Answerable)
      ⟨h, hdead, ha⟩ ?_ hs
    rintro s l e s' ⟨h, hdead, ha⟩ hstep
    have hwinds := winds_step h hdead hstep
    exact ⟨h.step hstep, hwinds.dead, hwinds.answerable ha⟩
  exact hall.2.2

/-- At rest, a thread is stuck or done. -/
theorem Answerable.allSettled (h : s.Answerable) (hrest : s.Resting) : s.AllSettled := by
  intro p hp
  cases p with
  | settled r => rfl
  | of t =>
    obtain ⟨⟨job, phase⟩, ht, hstuck⟩ := h t hp
    have hidle : phase.idle = true := hrest _ (List.mem_of_getElem? ht)
    simp only [outcome, ht]
    cases phase with
    | settled r => rfl
    | granted | sleeping | opened r => cases hidle
    | waiting | opening i => cases job <;> cases hstuck

/-! ## A way to rest -/

theorem ThreadPhase.idle_of_not_holds (h : ¬ phase.Holds) : phase.idle = true := by
  cases phase with
  | waiting | settled r => rfl
  | granted | sleeping | opening i | opened r => exact absurd trivial h

/-- A step that a thread comes to an end or to a socket with. -/
structure Settles (c : RelayerSettings) (s : Relay) (t : ℕ) (th : Thread) (e : RelayEvent)
    (s' : Relay) (phase : ThreadPhase) : Prop where
  step : s.step c e = some s'
  threads : s'.threads = (s.setPhase t phase).threads
  promises : s'.promises = s.promises
  idle : phase.idle = true
  stuck : th.stuck = true → ∀ r, phase ≠ .settled r

theorem exists_settles_finish {e : RelayEvent} {r : Except Thrown Unit} (h : Orderly s')
    (hdead : s'.isDestroyed = true) (hthreads : s'.threads = s.threads)
    (hpromises : s'.promises = s.promises) (hth : th.stuck = false)
    (hstep : s.step c e = some (s'.finish t r)) : ∃ e s' phase, Settles c s t th e s' phase := by
  refine ⟨e, _, .settled r, hstep, ?_, ?_, rfl, ?_⟩
  · rw [finish_dead h hdead]
    show s'.threads.modify t _ = s.threads.modify t _
    rw [hthreads]
  · rw [finish_dead h hdead]
    exact hpromises
  · intro hstuck
    cases hth.symm.trans hstuck

/-- The thread with the lock ends, or goes on to a socket that tells nothing. -/
theorem exists_settles (h : Orderly s) (hdead : s.isDestroyed = true) (hclosed : s.wsOpen = false)
    (ht : s.threads[t]? = some th) (hbusy : th.phase.idle = false) :
    ∃ e s' phase, Settles c s t th e s' phase := by
  obtain ⟨job, phase⟩ := th
  cases phase with
  | waiting | opening i | settled r => cases hbusy
  | sleeping =>
    have hstep : s.step c (.wake t .absent) = some (s.finish t (.ok ())) := by
      simp only [Relay.step, ht, Option.map_some, if_true, wake, hdead, true_or]
    exact exists_settles_finish h hdead rfl rfl (by cases job <;> rfl) hstep
  | opened r =>
    have hstep : ∃ r', s.step c (.resume t .absent (.fin 0)) = some (s.finish t r') := by
      simp only [Relay.step, resume, ht]
      cases job with
      | reconnect => exact ⟨.ok (), rfl⟩
      | connect | send call message => exact ⟨r, rfl⟩
    obtain ⟨r', hstep⟩ := hstep
    exact exists_settles_finish h hdead rfl rfl (by cases job <;> rfl) hstep
  | granted =>
    have hstep : s.step c (.resume t .socket (.fin 0)) =
        some (s.locked c t .socket (.fin 0) job) := by
      simp only [Relay.step, resume, ht]
    cases job with
    | connect =>
      refine ⟨_, _, .opening s.sockets.length, hstep, ?_, ?_, rfl, ?_⟩
      · simp only [locked, connectLocked, hclosed, Bool.false_eq_true, if_false, emitStateChange_eq,
          establishConnection]
        rfl
      · simp only [locked, connectLocked, hclosed, Bool.false_eq_true, if_false, emitStateChange_eq,
          establishConnection]
        rfl
      · rintro _ r ⟨⟩
    | reconnect =>
      have hgive : Winds s (s.giveUp c) := winds_giveUp hdead
      refine exists_settles_finish h.giveUp hgive.dead ?_ ?_ rfl (r := .ok ()) (hstep.trans ?_)
      · rw [giveUp_eq]
      · rw [giveUp_eq]
        rfl
      · rw [locked, reconnectLocked, shouldAttemptReconnect_dead hdead, if_pos Bool.false_ne_true]
    | send call message =>
      let s₁ : Relay := { s with dropped := s.dropped ++ [(call, DropReason.destroyed)] }
      have hlog : Orderly s₁ := h.congr rfl rfl rfl rfl rfl h.dead h.fresh h.online
      have hsend : s.locked c t .socket (.fin 0) (.send call message) = s₁.finish t destroyedError := by
        rw [locked, sendLocked, if_pos hdead]
      exact exists_settles_finish hlog hdead rfl rfl rfl (hstep.trans (congrArg some hsend))

theorem outcome_eq_none (h : ∀ th, s.threads[t]? = some th → ∀ r, th.phase ≠ .settled r) :
    s.outcome (.of t) = none := by
  cases ht : s.threads[t]? with
  | none => simp only [outcome, ht]
  | some th =>
    obtain ⟨job, phase⟩ := th
    cases phase with
    | settled r => exact absurd rfl (h _ ht r)
    | waiting | granted | sleeping | opening i | opened r => simp only [outcome, ht]

theorem Thread.not_settled {th : Thread} (h : th.stuck = true) (r : Except Thrown Unit) :
    th.phase ≠ .settled r := by
  obtain ⟨job, phase⟩ := th
  rintro ⟨⟩
  cases job <;> cases h

/-- A destroyed relayer comes to rest, and what was stuck is not settled by then. -/
theorem exists_rest (h : Orderly s) (hdead : s.isDestroyed = true) (hclosed : s.wsOpen = false) :
    ∃ log s', run (step c) s log = some s' ∧ s'.Resting ∧ s'.promises = s.promises ∧
      ∀ t, (∀ th, s.threads[t]? = some th → th.stuck = true) → s'.outcome (.of t) = none := by
  have hidle {u : ℕ} {th : Thread} (hu : s.threads[u]? = some th) (hne : s.holder ≠ some u) :
      th.phase.idle = true :=
    ThreadPhase.idle_of_not_holds fun hholds => hne (h.exclusive u th hu hholds)
  by_cases hrest : s.Resting
  · refine ⟨[], s, rfl, hrest, rfl, ?_⟩
    intro t hstuck
    exact outcome_eq_none fun th ht => Thread.not_settled (hstuck th ht)
  · obtain ⟨th, hmem, hbusy⟩ : ∃ th ∈ s.threads, ¬ th.phase.idle = true := by
      simpa [Resting] using hrest
    rw [Bool.not_eq_true] at hbusy
    obtain ⟨t, ht⟩ := List.mem_iff_getElem?.mp hmem
    have hholder : s.holder = some t := by
      by_contra hne
      cases hbusy.symm.trans (hidle ht hne)
    obtain ⟨e, s', phase, hs⟩ := exists_settles (c := c) h hdead hclosed ht hbusy
    have hself : s'.threads[t]? = some { th with phase := phase } := by
      rw [hs.threads]
      exact getElem?_setPhase_self ht phase
    have hother {u : ℕ} (hu : t ≠ u) : s'.threads[u]? = s.threads[u]? := by
      rw [hs.threads]
      exact getElem?_setPhase_ne hu s phase
    refine ⟨[e], s', ?_, ?_, hs.promises, ?_⟩
    · rw [run_singleton, hs.step]
    · intro th' hth'
      obtain ⟨u, hu⟩ := List.mem_iff_getElem?.mp hth'
      by_cases htu : t = u
      · subst htu
        cases hself.symm.trans hu
        exact hs.idle
      · rw [hother htu] at hu
        refine hidle hu ?_
        rw [hholder]
        exact fun heq => htu (Option.some.inj heq)
    · intro u hstuck
      apply outcome_eq_none
      intro th' hu
      by_cases htu : t = u
      · subst htu
        cases hself.symm.trans hu
        exact hs.stuck (hstuck th ht)
      · rw [hother htu] at hu
        exact Thread.not_settled (hstuck th' hu)

/-! ## What destroys a relayer -/

@[simp] theorem isDestroyed_emitStateChange (transition : RelayerStateTransition) :
    (s.emitStateChange transition).isDestroyed = s.isDestroyed := by
  rw [emitStateChange_eq]

@[simp] theorem isDestroyed_acquireLock (job : Job) :
    (s.acquireLock job).isDestroyed = s.isDestroyed := by
  rw [acquireLock_eq]

@[simp] theorem isDestroyed_setPhase : (s.setPhase t phase).isDestroyed = s.isDestroyed := rfl

@[simp] theorem isDestroyed_settle (r : Except Thrown Unit) :
    (s.settle i r).isDestroyed = s.isDestroyed := rfl

@[simp] theorem isDestroyed_finish (r : Except Thrown Unit) :
    (s.finish t r).isDestroyed = s.isDestroyed := by
  unfold Relay.finish releaseLock
  cases s.lockQueue <;> rfl

@[simp] theorem isDestroyed_giveUp : (s.giveUp c).isDestroyed = s.isDestroyed := by
  rw [giveUp_eq]

@[simp] theorem isDestroyed_reconnectOrGiveUp :
    (s.reconnectOrGiveUp c).isDestroyed = s.isDestroyed := by
  rw [reconnectOrGiveUp_eq]
  split_ifs <;> simp

@[simp] theorem isDestroyed_sendMessage (call : ℕ) (message : WebSocketMessage) (now : Number) :
    (s.sendMessage c call message now).1.isDestroyed = s.isDestroyed := by
  rcases s.sendMessage_cases c call message now with
    ⟨-, h⟩ | ⟨-, -, h⟩ | ⟨-, -, -, h⟩ | ⟨-, -, -, h⟩ <;> simp [h, _queueMessage_eq]

@[simp] theorem isDestroyed_sendLocked (call : ℕ) (message : WebSocketMessage) (now : Number) :
    (s.sendLocked c t call message now).isDestroyed = s.isDestroyed := by
  rcases s.sendLocked_cases c t call message now with
    ⟨-, h⟩ | ⟨-, -, h⟩ | ⟨-, -, -, h⟩ | ⟨-, -, err, -, h⟩ | ⟨-, -, -, h⟩ <;>
      simp [h, _queueMessage_eq]

@[simp] theorem isDestroyed_establishConnection (ctor : Constructed) :
    (s.establishConnection t ctor).isDestroyed = s.isDestroyed := by
  cases ctor <;> simp [establishConnection]

@[simp] theorem isDestroyed_onopen (now : Number) :
    (s.onopen c i now).isDestroyed = s.isDestroyed := by
  obtain ⟨interval, timers, hstart⟩ := startHeartbeat_form c
    { s with reconnectAttempts := .fin 0, reconnectExhausted := false }
  unfold onopen
  simp only [hstart, flushPendingMessages]
  obtain ⟨_, _, _, _, _, _, hflush⟩ := flushAll_eq c { s with
    reconnectAttempts := .fin 0, reconnectExhausted := false, heartbeatInterval := interval
    heartbeatTimeout := none, awaitingPong := false, timers := timers, offlineQueue := [] } now
    s.offlineQueue
  simp [hflush]

theorem isDestroyed_handle (k : Socket) (e : RelayEvent) :
    (s.handle c k e).isDestroyed = s.isDestroyed := by
  cases e with
  | opened i now => exact isDestroyed_onopen now
  | message i frame =>
    obtain ⟨_, _, _, heq⟩ := s.onmessage_form i frame
    simp [handle, heq]
  | closed i =>
    cases hk : k.settled <;> simp [handle, onclose, hk, stopHeartbeat, clearHeartbeatTimeout]
  | _ => rfl

/-- **Only `destroy` does.** -/
theorem isDestroyed_step {e : RelayEvent} (he : e ≠ .destroy) (hs : s.step c e = some s') :
    s'.isDestroyed = s.isDestroyed := by
  cases e with
  | opened i | message i | errored i | closing i | closed i =>
    obtain ⟨k, -, ⟨-, rfl⟩ | ⟨-, rfl | ⟨r, -, rfl⟩⟩⟩ := step_socket (i := i) rfl hs
    · exact isDestroyed_handle k _
    · rfl
    · rfl
  | destroy => exact absurd rfl he
  | connect =>
    cases hs
    rcases s.connect_cases with ⟨-, h⟩ | ⟨-, t, -, h⟩ | ⟨-, -, h⟩ <;> simp [h]
  | disconnect =>
    cases hs
    unfold Relay.disconnect
    simp only [isDestroyed_emitStateChange]
    split <;> rfl
  | send message now =>
    cases hs
    exact isDestroyed_sendMessage s.sends.length message now
  | on type handler =>
    cases hs
    unfold Relay.on
    split_ifs <;> rfl
  | off type handler =>
    cases hs
    rfl
  | resume t ctor now =>
    obtain ⟨⟨job, phase⟩, -, ⟨-, rfl⟩ | ⟨r, r', -, rfl⟩⟩ := resume_cases hs
    · cases job with
      | connect =>
        simp only [locked, connectLocked]
        split_ifs <;> simp
      | reconnect =>
        simp only [locked, reconnectLocked]
        split_ifs <;> simp
      | send call message => exact isDestroyed_sendLocked call message now
    · exact isDestroyed_finish r'
  | wake t ctor =>
    obtain ⟨-, hs⟩ := Option.ite_none_right_eq_some.mp hs
    cases hs
    unfold Relay.wake
    split_ifs <;> simp
  | forget =>
    simp only [Relay.step] at hs
    split at hs
    · obtain ⟨_, -, rfl⟩ := Option.map_eq_some_iff.mp hs
      rfl
    · cases hs
  | heartbeat =>
    obtain ⟨_, -, rfl⟩ := Option.map_eq_some_iff.mp hs
    unfold Relay.heartbeat
    split_ifs <;> rfl
  | heartbeatTimeout =>
    obtain ⟨_, -, rfl⟩ := Option.map_eq_some_iff.mp hs
    split_ifs
    · unfold Relay.handleHeartbeatTimeout
      simp only
      split <;> split_ifs
      · rfl
      · exact isDestroyed_reconnectOrGiveUp
      · rfl
      · exact isDestroyed_reconnectOrGiveUp
    · rfl

/-! ## Nobody is left waiting -/

theorem noneParked_iff (h : Orderly s) (e : RelayEvent) :
    NoneParked c s e ↔ AnswerableAtDestroy s e := by
  constructor
  · rintro hnone rfl t ht
    have hclosed : (s.destroy c).wsOpen = false := by
      rw [destroy_eq]
      rfl
    have hdead : (s.destroy c).isDestroyed = true := by rw [destroy_eq]
    have hthreads : (s.destroy c).threads = s.threads := by rw [destroy_eq]
    obtain ⟨log, s', hs', hrest, hpromises, hstuck⟩ :=
      exists_rest (c := c) (h.destroy (c := c)) hdead hclosed
    have hsettled := hnone rfl log s' hs' hrest
    have hmem : Promised.of t ∈ s'.promises := by
      rw [hpromises, destroy_eq]
      exact ht
    by_contra hno
    have hunsettled := hsettled _ hmem
    rw [hstuck t] at hunsettled
    · cases hunsettled
    · intro th hth
      rw [hthreads] at hth
      by_contra hfree
      exact hno ⟨th, hth, Bool.eq_false_iff.mpr hfree⟩
  · rintro ha rfl log s' hrun hrest
    have hs' : run (step c) (s.destroy c) log = some s' := hrun
    have hanswerable : (s.destroy c).Answerable := by
      rw [destroy_eq]
      exact ha rfl
    have hdead : (s.destroy c).isDestroyed = true := by rw [destroy_eq]
    exact (hanswerable.run h.destroy hdead hs').allSettled hrest

/-- **After a run whose every `destroy` finds all promises answerable**, a destroyed relayer at rest
has settled them. -/
theorem allSettled_run {log : List RelayEvent} (hlog : EachStep (step c) AnswerableAtDestroy {} log)
    (hs : run (step c) {} log = some s) (hdead : s.isDestroyed = true) (hrest : s.Resting) :
    s.AllSettled := by
  have hall : Orderly s ∧ (s.isDestroyed = true → s.Answerable) := by
    refine run_induction_of (P := fun s _ => Orderly s ∧ (s.isDestroyed = true → s.Answerable))
      ⟨orderly_init, fun hdead => nomatch hdead⟩ ?_ hlog hs
    rintro s l e s' ⟨h, ha⟩ hok hstep
    refine ⟨h.step hstep, ?_⟩
    intro hdead
    by_cases he : e = .destroy
    · subst he
      cases hstep
      rw [destroy_eq]
      exact hok rfl
    · rw [isDestroyed_step he hstep] at hdead
      exact (winds_step h hdead hstep).answerable (ha hdead)
  exact (hall.2 hdead).allSettled hrest

/-- **A destroyed relayer at rest has settled every promise**, whatever the order of calls, events and
timers, exactly when each `destroy` finds no promise whose thread is stuck. -/
theorem none_parked_iff (c : RelayerSettings) (log : List RelayEvent) :
    (EachStep (step c) (NoneParked c) {} log ↔ EachStep (step c) AnswerableAtDestroy {} log) ∧
      (EachStep (step c) AnswerableAtDestroy {} log → ∀ s, run (step c) {} log = some s →
        s.isDestroyed = true → s.Resting → s.AllSettled) := by
  refine ⟨⟨?_, ?_⟩, fun hlog s => allSettled_run hlog⟩
  · intro h l e l' s hlog hs
    exact (noneParked_iff (orderly_run hs) e).mp (h l e l' s hlog hs)
  · intro h l e l' s hlog hs
    exact (noneParked_iff (orderly_run hs) e).mpr (h l e l' s hlog hs)

def checkAnswerable (s : Relay) : RelayEvent → Bool
  | .destroy => s.promises.all fun p => match p with
    | .settled _ => true
    | .of t => (s.threads[t]?).any fun th => !th.stuck
  | _ => true

theorem answerable_of_check {e : RelayEvent} (h : checkAnswerable s e = true) :
    AnswerableAtDestroy s e := by
  rintro rfl t ht
  obtain ⟨th, hth, hstuck⟩ := (Option.any_eq_true _ _).mp (List.all_eq_true.mp h _ ht)
  exact ⟨th, hth, by simpa using hstuck⟩

def pingMessage : WebSocketMessage := ⟨.ok "ping"⟩

/-- A call of `send` is through at the first `destroy`, and another one is rejected after it. -/
theorem none_parked_two :
    let c := RelayerSettings.new "wss://relay.example" {}
    ∃ s, run (step c) {} (connected 0 0 ++ [.send pingMessage (.fin 1), .resume 1 .absent (.fin 1),
        .destroy, .send pingMessage (.fin 2), .connect]) = some s ∧
      s.isDestroyed = true ∧ s.promises.length = 4 ∧ s.AllSettled := by
  intro c
  obtain ⟨s, hs, hend⟩ := (Option.any_eq_true _ _).mp (by decide :
    (run (step c) {} (connected 0 0 ++ [.send pingMessage (.fin 1), .resume 1 .absent (.fin 1),
      .destroy, .send pingMessage (.fin 2), .connect])).any fun s =>
        s.isDestroyed = true ∧ s.promises.length = 4 ∧ s.Resting)
  obtain ⟨hdead, hlen, hrest⟩ := of_decide_eq_true hend
  exact ⟨s, hs, hdead, hlen, (none_parked_iff c _).2
    (.of_allSteps (fun _ _ => answerable_of_check) (by decide)) s hs hdead hrest⟩

/-- **A `connect` whose socket is closed by `destroy`, and a `send` that waits for the lock then, are
left waiting**, although nothing is left to happen. -/
theorem parked_forever :
    let c := RelayerSettings.new "wss://relay.example" {}
    (∃ s, run (step c) {} [.connect, .resume 0 .socket (.fin 0), .destroy, .closed 0] = some s ∧
      s.isDestroyed = true ∧ s.Resting ∧ ¬ s.AllSettled ∧ s.connects.map s.outcome = [none]) ∧
    ∃ s, run (step c) {} (connected 0 0 ++ [.send pingMessage (.fin 1), .send pingMessage (.fin 1),
        .destroy, .resume 1 .absent (.fin 2)]) = some s ∧
      s.isDestroyed = true ∧ s.Resting ∧ ¬ s.AllSettled ∧
        s.sends.map (fun call => s.outcome call.promise) = [some destroyedError, none] := by
  intro c
  constructor
  · obtain ⟨s, hs, hend⟩ := (Option.any_eq_true _ _).mp (by decide :
      (run (step c) {} [.connect, .resume 0 .socket (.fin 0), .destroy, .closed 0]).any fun s =>
        s.isDestroyed = true ∧ s.Resting ∧ ¬ s.AllSettled ∧ s.connects.map s.outcome = [none])
    exact ⟨s, hs, of_decide_eq_true hend⟩
  · obtain ⟨s, hs, hend⟩ := (Option.any_eq_true _ _).mp (by decide :
      (run (step c) {} (connected 0 0 ++ [.send pingMessage (.fin 1), .send pingMessage (.fin 1),
        .destroy, .resume 1 .absent (.fin 2)])).any fun s =>
          s.isDestroyed = true ∧ s.Resting ∧ ¬ s.AllSettled ∧
            s.sends.map (fun call => s.outcome call.promise) = [some destroyedError, none])
    exact ⟨s, hs, of_decide_eq_true hend⟩

end Relay

end StreamFi
