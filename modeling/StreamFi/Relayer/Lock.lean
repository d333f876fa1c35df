import StreamFi.Relayer.Socket
import StreamFi.Run.Table

/-!
# The lock of the relayer

`acquireLock` and `releaseLock` hand a flag on through a queue. All that waits for the lock is in the
queue, and one thread at a time has it, also across `destroy`, which drops the queue.

* `Orderly`: the invariant; what the lock, the sockets and the offline queue keep to;
* `Orderly.acquireLock`, `Orderly.finish`, ...: each piece of the code keeps it;
* **`orderly_run`**: it holds after every run.
-/

namespace StreamFi

open Js Run

/-- A thread in this phase has the lock. -/
def ThreadPhase.Holds : ThreadPhase → Prop
  | .granted | .sleeping | .opening _ | .opened _ => True
  | .waiting | .settled _ => False

/-- A call of `send` awaits nothing but the lock. -/
def Thread.Fits (th : Thread) : Prop :=
  match th.job, th.phase with
  | .send _ _, .sleeping | .send _ _, .opening _ | .send _ _, .opened _ => False
  | _, _ => True

/-- A socket that is connecting may still open. -/
def Socket.Fresh (k : Socket) : Prop := k.readyState = .connecting → k.onopen = true ∧ k.settled = false

namespace Relay

/-- **The invariant.** -/
structure Orderly (s : Relay) : Prop where
  exclusive : ∀ (t : ℕ) th, s.threads[t]? = some th → th.phase.Holds → s.holder = some t
  held : ∀ t, s.holder = some t → ∃ th, s.threads[t]? = some th ∧ th.phase.Holds
  locked : s.isDestroyed = false → s.isLocked = s.holder.isSome
  unlocked : s.isLocked = false → s.lockQueue = []
  waiting : ∀ t ∈ s.lockQueue, ∃ th, s.threads[t]? = some th ∧ th.phase = .waiting
  nodup : s.lockQueue.Nodup
  fits : ∀ th ∈ s.threads, th.Fits
  dead : s.isDestroyed = true → s.isLocked = false ∧ s.offlineQueue = []
  fresh : ∀ k ∈ s.sockets, k.Fresh
  online : s.wsOpen = true → s.offlineQueue = [] ∧ s.reconnectExhausted = false

variable {c : RelayerSettings} {s s' : Relay} {t i : ℕ} {th : Thread} {job : Job}
  {phase : ThreadPhase} {now : Number}

theorem orderly_init : Orderly {} where
  exclusive t th h := by simp at h
  held t h := by cases h
  locked _ := rfl
  unlocked _ := rfl
  waiting t h := by simp at h
  nodup := List.nodup_nil
  fits th h := by simp at h
  dead h := by cases h
  fresh k h := by simp at h
  online h := by cases h

/-! ## Threads -/

theorem getElem?_setPhase_self (ht : s.threads[t]? = some th) (phase : ThreadPhase) :
    (s.setPhase t phase).threads[t]? = some { th with phase := phase } := by
  show (s.threads.modify t _)[t]? = _
  rw [List.getElem?_modify_eq, ht]
  rfl

theorem getElem?_setPhase_ne {u : ℕ} (h : t ≠ u) (s : Relay) (phase : ThreadPhase) :
    (s.setPhase t phase).threads[u]? = s.threads[u]? :=
  List.getElem?_modify_ne _ _ h

theorem Orderly.ne_of_waits (h : Orderly s) {u : ℕ} (ht : s.threads[t]? = some th)
    (hth : th.phase.Holds) (hu : u ∈ s.lockQueue) : t ≠ u := by
  rintro rfl
  obtain ⟨th', hth', hwaiting⟩ := h.waiting t hu
  cases ht.symm.trans hth'
  rw [hwaiting] at hth
  exact hth

/-- A thread that keeps the lock. -/
theorem Orderly.setPhase (h : Orderly s) (ht : s.threads[t]? = some th) (hth : th.phase.Holds)
    (hphase : phase.Holds) (hfits : Thread.Fits ⟨th.job, phase⟩) : Orderly (s.setPhase t phase) where
  exclusive u th' hu hholds := by
    by_cases htu : t = u
    · subst htu
      exact h.exclusive t th ht hth
    · rw [getElem?_setPhase_ne htu] at hu
      exact h.exclusive u th' hu hholds
  held u hu := by
    have hholder : s.holder = some u := hu
    cases (h.exclusive t th ht hth).symm.trans hholder
    exact ⟨_, getElem?_setPhase_self ht phase, hphase⟩
  locked := h.locked
  unlocked := h.unlocked
  waiting u hu := by
    obtain ⟨th', hth', hwaiting⟩ := h.waiting u hu
    exact ⟨th', by rwa [getElem?_setPhase_ne (h.ne_of_waits ht hth hu)], hwaiting⟩
  nodup := h.nodup
  fits th' hth' := by
    rcases mem_modify hth' with hmem | ⟨th₀, hth₀, rfl⟩
    · exact h.fits th' hmem
    · cases ht.symm.trans hth₀
      exact hfits
  dead := h.dead
  fresh := h.fresh
  online := h.online

theorem Orderly.acquireLock (h : Orderly s) (hlive : s.isDestroyed = false) (job : Job) :
    Orderly (s.acquireLock job) := by
  have hfits (phase : ThreadPhase) (hphase : phase = .waiting ∨ phase = .granted) :
      ∀ th ∈ s.threads ++ [⟨job, phase⟩], th.Fits := by
    intro th hth
    rcases List.mem_append.mp hth with hth | hth
    · exact h.fits th hth
    · cases List.mem_singleton.mp hth
      rcases hphase with rfl | rfl <;> cases job <;> trivial
  have hold {u : ℕ} {th new : Thread} (hu : s.threads[u]? = some th) :
      (s.threads ++ [new])[u]? = some th := add_iff.mpr (.inl hu)
  rw [acquireLock_eq]
  cases hlocked : s.isLocked with
  | true =>
    refine ⟨?_, ?_, ?_, ?_, ?_, ?_, hfits _ (.inl rfl), ?_, h.fresh, h.online⟩
    · intro u th hu hholds
      rcases add_iff.mp hu with hu | ⟨-, rfl⟩
      · exact h.exclusive u th hu hholds
      · exact hholds.elim
    · intro u hu
      obtain ⟨th, hth, hholds⟩ := h.held u hu
      exact ⟨th, hold hth, hholds⟩
    · intro _
      exact hlocked.symm.trans (h.locked hlive)
    · intro hunlocked
      cases hunlocked
    · intro u hu
      rcases List.mem_append.mp hu with hu | hu
      · obtain ⟨th, hth, hphase⟩ := h.waiting u hu
        exact ⟨th, hold hth, hphase⟩
      · cases List.mem_singleton.mp hu
        exact ⟨_, add_iff.mpr (.inr ⟨rfl, rfl⟩), rfl⟩
    · refine List.nodup_append.mpr ⟨h.nodup, List.nodup_singleton _, ?_⟩
      rintro u hu v hv rfl
      obtain ⟨th, hth, -⟩ := h.waiting u hu
      have := lt_of_entry hth
      rw [List.mem_singleton.mp hv] at this
      exact lt_irrefl _ this
    · intro hdead
      cases hlive.symm.trans hdead
  | false =>
    have hfree : s.holder = none := by
      have := h.locked hlive
      rw [hlocked] at this
      exact Option.not_isSome_iff_eq_none.mp (Bool.eq_false_iff.mp this.symm)
    have hempty : s.lockQueue = [] := h.unlocked hlocked
    refine ⟨?_, ?_, ?_, ?_, ?_, ?_, hfits _ (.inr rfl), ?_, h.fresh, h.online⟩
    · intro u th hu hholds
      rcases add_iff.mp hu with hu | ⟨rfl, -⟩
      · cases hfree.symm.trans (h.exclusive u th hu hholds)
      · rfl
    · intro u hu
      cases hu
      exact ⟨_, add_iff.mpr (.inr ⟨rfl, rfl⟩), trivial⟩
    · intro _
      rfl
    · intro hunlocked
      cases hunlocked
    · intro u hu
      have hu : u ∈ s.lockQueue := hu
      rw [hempty] at hu
      cases hu
    · exact h.nodup
    · intro hdead
      cases hlive.symm.trans hdead

theorem Orderly.eq_of_holds (h : Orderly s) {u : ℕ} {th' : Thread} (ht : s.threads[t]? = some th)
    (hth : th.phase.Holds) (hu : s.threads[u]? = some th') (hth' : th'.phase.Holds) : u = t :=
  Option.some.inj ((h.exclusive u th' hu hth').symm.trans (h.exclusive t th ht hth))

/-- A waiter waits for a lock that is taken. -/
theorem Orderly.taken (h : Orderly s) (hqueue : s.lockQueue ≠ []) :
    s.isLocked = true ∧ s.isDestroyed = false := by
  have hlocked : s.isLocked = true := by
    by_contra hunlocked
    exact hqueue (h.unlocked (Bool.eq_false_iff.mpr hunlocked))
  refine ⟨hlocked, Bool.eq_false_iff.mpr fun hdead => ?_⟩
  cases hlocked.symm.trans (h.dead hdead).1

theorem Orderly.finish_nil (h : Orderly s) (ht : s.threads[t]? = some th) (hth : th.phase.Holds)
    (hqueue : s.lockQueue = []) (r : Except Thrown Unit) : Orderly (s.finish t r) := by
  have heq : s.finish t r = { s with isLocked := false, holder := none }.setPhase t (.settled r) := by
    rw [Relay.finish, releaseLock, hqueue]
  rw [heq]
  set s₁ : Relay := { s with isLocked := false, holder := none }
  refine ⟨?_, ?_, ?_, ?_, ?_, h.nodup, ?_, ?_, h.fresh, h.online⟩
  · intro u th' hu hholds
    by_cases htu : t = u
    · subst htu
      cases (getElem?_setPhase_self (s := s₁) ht (.settled r)).symm.trans hu
      exact hholds.elim
    · rw [getElem?_setPhase_ne htu] at hu
      exact absurd (h.eq_of_holds ht hth hu hholds).symm htu
  · intro u hu
    cases hu
  · intro _
    rfl
  · intro _
    exact hqueue
  · intro u hu
    have hu : u ∈ s.lockQueue := hu
    rw [hqueue] at hu
    cases hu
  · intro th' hth'
    rcases mem_modify hth' with hmem | ⟨⟨job, phase⟩, -, rfl⟩
    · exact h.fits th' hmem
    · cases job <;> trivial
  · intro hdead
    exact ⟨rfl, (h.dead hdead).2⟩

theorem Orderly.finish_cons (h : Orderly s) (ht : s.threads[t]? = some th) (hth : th.phase.Holds)
    {next : ℕ} {lockQueue : List ℕ} (hqueue : s.lockQueue = next :: lockQueue)
    (r : Except Thrown Unit) : Orderly (s.finish t r) := by
  have hmem {u : ℕ} (hu : u = next ∨ u ∈ lockQueue) : u ∈ s.lockQueue := by
    rw [hqueue]
    exact List.mem_cons.mpr hu
  obtain ⟨thn, hthn, -⟩ := h.waiting next (hmem (.inl rfl))
  have hnt : t ≠ next := h.ne_of_waits ht hth (hmem (.inl rfl))
  have hnodup : next ∉ lockQueue ∧ lockQueue.Nodup := by
    have := h.nodup
    rwa [hqueue, List.nodup_cons] at this
  obtain ⟨hlocked, hlive⟩ := h.taken (List.ne_nil_of_mem (hmem (.inl rfl)))
  have heq : s.finish t r = ({ s with lockQueue := lockQueue, holder := some next }.setPhase next
      .granted).setPhase t (.settled r) := by
    rw [Relay.finish, releaseLock, hqueue]
  rw [heq]
  set s₁ : Relay := { s with lockQueue := lockQueue, holder := some next }
  have hself : (s₁.setPhase next .granted).threads[t]? = some th :=
    (getElem?_setPhase_ne hnt.symm s₁ .granted).trans ht
  have hnext : ((s₁.setPhase next .granted).setPhase t (.settled r)).threads[next]? =
      some { thn with phase := .granted } := by
    rw [getElem?_setPhase_ne hnt]
    exact getElem?_setPhase_self (s := s₁) hthn .granted
  have hother {u : ℕ} (hut : t ≠ u) (hun : next ≠ u) :
      ((s₁.setPhase next .granted).setPhase t (.settled r)).threads[u]? = s.threads[u]? := by
    rw [getElem?_setPhase_ne hut, getElem?_setPhase_ne hun]
  refine ⟨?_, ?_, ?_, ?_, ?_, hnodup.2, ?_, ?_, h.fresh, h.online⟩
  · intro u th' hu hholds
    by_cases hut : t = u
    · subst hut
      cases (getElem?_setPhase_self hself (.settled r)).symm.trans hu
      exact hholds.elim
    · by_cases hun : next = u
      · subst hun
        rfl
      · rw [hother hut hun] at hu
        exact absurd (h.eq_of_holds ht hth hu hholds).symm hut
  · intro u hu
    cases hu
    exact ⟨_, hnext, trivial⟩
  · intro _
    exact hlocked
  · intro hunlocked
    cases hlocked.symm.trans hunlocked
  · intro u hu
    obtain ⟨th', hth', hphase⟩ := h.waiting u (hmem (.inr hu))
    refine ⟨th', ?_, hphase⟩
    rw [hother (h.ne_of_waits ht hth (hmem (.inr hu))) (ne_of_mem_of_not_mem hu hnodup.1).symm, hth']
  · intro th' hth'
    rcases mem_modify hth' with hmem | ⟨⟨job, phase⟩, -, rfl⟩
    · rcases mem_modify hmem with hmem | ⟨⟨job, phase⟩, -, rfl⟩
      · exact h.fits th' hmem
      · cases job <;> trivial
    · cases job <;> trivial
  · intro hdead
    cases hlive.symm.trans hdead

/-- **A thread that is done hands the lock on.** -/
theorem Orderly.finish (h : Orderly s) (ht : s.threads[t]? = some th) (hth : th.phase.Holds)
    (r : Except Thrown Unit) : Orderly (s.finish t r) := by
  cases hqueue : s.lockQueue with
  | nil => exact h.finish_nil ht hth hqueue r
  | cons next lockQueue => exact h.finish_cons ht hth hqueue r

/-! ## Sockets -/

/-- The threads and the lock are as they were. -/
theorem Orderly.congr (h : Orderly s) (hthreads : s'.threads = s.threads)
    (hholder : s'.holder = s.holder) (hdestroyed : s'.isDestroyed = s.isDestroyed)
    (hlocked : s'.isLocked = s.isLocked) (hqueue : s'.lockQueue = s.lockQueue)
    (hdead : s'.isDestroyed = true → s'.isLocked = false ∧ s'.offlineQueue = [])
    (hfresh : ∀ k ∈ s'.sockets, k.Fresh)
    (honline : s'.wsOpen = true → s'.offlineQueue = [] ∧ s'.reconnectExhausted = false) :
    Orderly s' := by
  refine ⟨?_, ?_, ?_, ?_, ?_, ?_, ?_, hdead, hfresh, honline⟩
  · rw [hthreads, hholder]
    exact h.exclusive
  · rw [hthreads, hholder]
    exact h.held
  · rw [hdestroyed, hlocked, hholder]
    exact h.locked
  · rw [hlocked, hqueue]
    exact h.unlocked
  · rw [hqueue, hthreads]
    exact h.waiting
  · rw [hqueue]
    exact h.nodup
  · rw [hthreads]
    exact h.fits

theorem Orderly.emitStateChange (h : Orderly s) (transition : RelayerStateTransition) :
    Orderly (s.emitStateChange transition) := by
  rw [emitStateChange_eq]
  exact h.congr rfl rfl rfl rfl rfl h.dead h.fresh h.online

theorem Orderly.giveUp (h : Orderly s) : Orderly (s.giveUp c) := by
  rw [giveUp_eq]
  refine h.congr rfl rfl rfl rfl rfl h.dead h.fresh ?_
  intro hon
  have hon : s.wsOpen = true := hon
  have hup : s.isPermanentlyDown c = false := by
    rw [isPermanentlyDown, hon, Bool.not_true, Bool.and_false]
  refine ⟨(h.online hon).1, ?_⟩
  show (s.reconnectExhausted || s.isPermanentlyDown c) = false
  rw [(h.online hon).2, hup, Bool.or_false]

theorem shouldAttemptReconnect_live (h : s.shouldAttemptReconnect c = true) :
    s.isDestroyed = false := by
  simp only [shouldAttemptReconnect, Bool.and_eq_true, Bool.not_eq_true'] at h
  exact h.1.1.1

theorem Orderly.attemptReconnect (h : Orderly s) : Orderly (s.attemptReconnect c) := by
  unfold Relay.attemptReconnect
  split_ifs with hshould
  · exact h.acquireLock (shouldAttemptReconnect_live hshould) .reconnect
  · exact h.giveUp

theorem Orderly.reconnectOrGiveUp (h : Orderly s) : Orderly (s.reconnectOrGiveUp c) := by
  unfold Relay.reconnectOrGiveUp
  split_ifs
  · exact h.attemptReconnect
  · exact h.giveUp

theorem Orderly.letGo (h : Orderly s) : Orderly { s.stopHeartbeat with ws := none } :=
  h.congr rfl rfl rfl rfl rfl h.dead h.fresh fun hon => by cases hon

theorem wsOpen_iff : s.wsOpen = true ↔
    ∃ i k, s.ws = some i ∧ s.sockets[i]? = some k ∧ k.readyState = .opened := by
  rw [wsOpen, Option.any_eq_true]
  constructor
  · rintro ⟨k, hk, hready⟩
    obtain ⟨i, hi, hk⟩ := Option.bind_eq_some_iff.mp hk
    exact ⟨i, k, hi, hk, of_decide_eq_true hready⟩
  · rintro ⟨i, k, hi, hk, hready⟩
    exact ⟨k, Option.bind_eq_some_iff.mpr ⟨i, hi, hk⟩, decide_eq_true hready⟩

/-- A socket that does not open. -/
theorem Orderly.modifySocket (h : Orderly s) {f : Socket → Socket}
    (hfresh : ∀ k : Socket, k.Fresh → (f k).Fresh)
    (hopen : ∀ k : Socket, (f k).readyState = .opened → k.readyState = .opened) :
    Orderly (s.modifySocket i f) := by
  refine h.congr rfl rfl rfl rfl rfl h.dead ?_ ?_
  · intro k hk
    rcases mem_modify hk with hk | ⟨k₀, hk₀, rfl⟩
    · exact h.fresh k hk
    · exact hfresh k₀ (h.fresh k₀ (List.mem_of_getElem? hk₀))
  · intro hon
    obtain ⟨j, k, hj, hk, hready⟩ := wsOpen_iff.mp hon
    have hk : (s.sockets.modify i f)[j]? = some k := hk
    refine h.online (wsOpen_iff.mpr ?_)
    rw [List.getElem?_modify, Option.map_eq_map, Option.map_eq_some_iff] at hk
    obtain ⟨k₀, hk₀, rfl⟩ := hk
    refine ⟨j, k₀, hj, hk₀, ?_⟩
    split_ifs at hready
    · exact hopen k₀ hready
    · exact hready

/-- A socket whose open event empties the offline queue. -/
theorem Orderly.opened (h : Orderly s) {f : Socket → Socket}
    (hfresh : ∀ k : Socket, k.Fresh → (f k).Fresh) :
    Orderly { s.modifySocket i f with offlineQueue := [], reconnectExhausted := false } := by
  refine h.congr rfl rfl rfl rfl rfl (fun hdead => ⟨(h.dead hdead).1, rfl⟩) ?_ fun _ => ⟨rfl, rfl⟩
  intro k hk
  rcases mem_modify hk with hk | ⟨k₀, hk₀, rfl⟩
  · exact h.fresh k hk
  · exact hfresh k₀ (h.fresh k₀ (List.mem_of_getElem? hk₀))

/-- The socket whose promise is settled is not connecting any more. -/
theorem Orderly.settle (h : Orderly s) (hk : ∀ k, s.sockets[i]? = some k → k.readyState ≠ .connecting)
    (r : Except Thrown Unit) : Orderly (s.settle i r) := by
  let g (th : Thread) : Thread := if th.phase = .opening i then { th with phase := .opened r } else th
  have hget {t : ℕ} {th' : Thread} (ht : (s.settle i r).threads[t]? = some th') :
      ∃ th, s.threads[t]? = some th ∧ th' = g th := by
    have ht : (s.threads.map g)[t]? = some th' := ht
    rw [List.getElem?_map, Option.map_eq_some_iff] at ht
    obtain ⟨th, hth, rfl⟩ := ht
    exact ⟨th, hth, rfl⟩
  have hput {t : ℕ} {th : Thread} (ht : s.threads[t]? = some th) :
      (s.settle i r).threads[t]? = some (g th) := by
    show (s.threads.map g)[t]? = _
    rw [List.getElem?_map, ht, Option.map_some]
  have hholds (th : Thread) : (g th).phase.Holds ↔ th.phase.Holds := by
    by_cases hth : th.phase = .opening i
    · simp only [g, if_pos hth, hth, ThreadPhase.Holds]
    · simp only [g, if_neg hth]
  refine ⟨?_, ?_, h.locked, h.unlocked, ?_, h.nodup, ?_, h.dead, ?_, ?_⟩
  · intro t th' ht hth'
    obtain ⟨th, hth, rfl⟩ := hget ht
    exact h.exclusive t th hth ((hholds th).mp hth')
  · intro t ht
    obtain ⟨th, hth, hphase⟩ := h.held t ht
    exact ⟨g th, hput hth, (hholds th).mpr hphase⟩
  · intro t ht
    obtain ⟨th, hth, hphase⟩ := h.waiting t ht
    refine ⟨g th, hput hth, ?_⟩
    have hne : th.phase ≠ .opening i := by
      rw [hphase]
      rintro ⟨⟩
    simp only [g, if_neg hne, hphase]
  · intro th' hth'
    obtain ⟨t, ht⟩ := List.mem_iff_getElem?.mp hth'
    obtain ⟨th, hth, rfl⟩ := hget ht
    have hfits := h.fits th (List.mem_of_getElem? hth)
    by_cases hphase : th.phase = .opening i
    · simp only [g, if_pos hphase]
      cases hjob : th.job with
      | send call message => simp only [Thread.Fits, hjob, hphase] at hfits
      | connect | reconnect => simp only [Thread.Fits]
    · simp only [g, if_neg hphase]
      exact hfits
  · intro k' hk'
    rcases mem_modify hk' with hmem | ⟨k, hmem, rfl⟩
    · exact h.fresh k' hmem
    · intro hready
      exact absurd hready (hk k hmem)
  · intro hon
    obtain ⟨j, k', hj, hk', hready⟩ := wsOpen_iff.mp hon
    have hk' : (s.sockets.modify i fun k => { k with settled := true })[j]? = some k' := hk'
    refine h.online (wsOpen_iff.mpr ?_)
    rw [List.getElem?_modify, Option.map_eq_map, Option.map_eq_some_iff] at hk'
    obtain ⟨k, hk, rfl⟩ := hk'
    refine ⟨j, k, hj, hk, ?_⟩
    split_ifs at hready <;> exact hready

/-! ## Calls -/

theorem Orderly._queueMessage (h : Orderly s) (hlive : s.isDestroyed = false)
    (hclosed : s.wsOpen = false) (call : ℕ) (message : WebSocketMessage) (now : Number) :
    Orderly (s._queueMessage c call message now) := by
  rw [_queueMessage_eq]
  refine h.congr rfl rfl rfl rfl rfl ?_ h.fresh ?_
  · intro hdead
    cases hlive.symm.trans hdead
  · intro hon
    cases hclosed.symm.trans hon

theorem Orderly.sendMessage (h : Orderly s) (call : ℕ) (message : WebSocketMessage) (now : Number) :
    Orderly (s.sendMessage c call message now).1 := by
  rcases s.sendMessage_cases c call message now with
    ⟨-, heq⟩ | ⟨-, -, heq⟩ | ⟨hlive, -, hclosed, heq⟩ | ⟨hlive, -, -, heq⟩
  · rw [heq]
    exact h
  · rw [heq]
    exact h
  · rw [heq]
    exact h._queueMessage hlive hclosed call message now
  · rw [heq]
    exact h.acquireLock hlive _

theorem Orderly.flushAll (h : Orderly s) (pending : List QueuedMessage) :
    Orderly (flushAll c now pending s) := by
  induction pending generalizing s with
  | nil => exact h
  | cons queued pending ih =>
    rw [Relay.flushAll]
    refine ih ?_
    split_ifs
    · exact h.congr rfl rfl rfl rfl rfl h.dead h.fresh h.online
    · exact h.sendMessage queued.send queued.message now

theorem startHeartbeat_form (c : RelayerSettings) (s : Relay) :
    ∃ interval timers, s.startHeartbeat c = { s with
      heartbeatInterval := interval, heartbeatTimeout := none, awaitingPong := false
      timers := timers } := by
  unfold startHeartbeat
  split_ifs
  · exact ⟨_, _, rfl⟩
  · exact ⟨_, _, rfl⟩

/-- `onopen` flushes the offline queue over the open socket. -/
theorem Orderly.onopen (h : Orderly { s with offlineQueue := [], reconnectExhausted := false })
    (hk : ∀ k, s.sockets[i]? = some k → k.readyState ≠ .connecting) (now : Number) :
    Orderly (s.onopen c i now) := by
  obtain ⟨interval, timers, hstart⟩ := startHeartbeat_form c
    { s with reconnectAttempts := .fin 0, reconnectExhausted := false }
  unfold Relay.onopen
  simp only [hstart, flushPendingMessages]
  refine Orderly.settle (Orderly.emitStateChange (Orderly.flushAll ?_ _) _) ?_ _
  · exact h.congr rfl rfl rfl rfl rfl h.dead h.fresh h.online
  · obtain ⟨_, _, _, _, _, _, hflush⟩ := flushAll_eq c { s with
      reconnectAttempts := .fin 0, reconnectExhausted := false, heartbeatInterval := interval
      heartbeatTimeout := none, awaitingPong := false, timers := timers, offlineQueue := [] } now
      s.offlineQueue
    rw [emitStateChange_eq, hflush]
    exact hk

theorem onmessage_form (s : Relay) (i : ℕ) (frame : Option String) :
    ∃ timeout pong delivered, s.onmessage i frame = { s with
      heartbeatTimeout := timeout, awaitingPong := pong, delivered := delivered } := by
  unfold onmessage handleMessageSafe
  cases frame with
  | none =>
    split_ifs
    · exact ⟨_, _, _, rfl⟩
    · exact ⟨_, _, _, rfl⟩
  | some type =>
    simp only
    split_ifs <;> exact ⟨_, _, _, rfl⟩

theorem Orderly.onmessage (h : Orderly s) (frame : Option String) : Orderly (s.onmessage i frame) := by
  obtain ⟨_, _, _, heq⟩ := s.onmessage_form i frame
  rw [heq]
  exact h.congr rfl rfl rfl rfl rfl h.dead h.fresh h.online

theorem Orderly.onclose (h : Orderly s) (hk : ∀ k, s.sockets[i]? = some k → k.readyState ≠ .connecting)
    (settled : Bool) : Orderly (s.onclose c i settled) := by
  unfold Relay.onclose
  refine Orderly.reconnectOrGiveUp ?_
  cases settled with
  | true => exact h.letGo
  | false => exact h.letGo.settle hk _

theorem Orderly.connect (h : Orderly s) : Orderly s.connect := by
  have hreset : Orderly { s with
      reconnectEnabled := true, reconnectExhausted := false, reconnectAttempts := .fin 0 } :=
    h.congr rfl rfl rfl rfl rfl h.dead h.fresh fun hon => ⟨(h.online hon).1, rfl⟩
  rcases s.connect_cases with ⟨-, heq⟩ | ⟨-, t, -, heq⟩ | ⟨hlive, -, heq⟩
  · rw [heq]
    exact h.congr rfl rfl rfl rfl rfl h.dead h.fresh h.online
  · rw [heq]
    exact hreset.congr rfl rfl rfl rfl rfl hreset.dead hreset.fresh hreset.online
  · rw [heq]
    have hlock := hreset.acquireLock hlive .connect
    exact hlock.congr rfl rfl rfl rfl rfl hlock.dead hlock.fresh hlock.online

theorem Orderly.establishConnection (h : Orderly s) (ht : s.threads[t]? = some th)
    (hth : th.phase.Holds) (hjob : ∀ call message, th.job ≠ .send call message) (ctor : Constructed) :
    Orderly (s.establishConnection t ctor) := by
  have hfits (phase : ThreadPhase) : Thread.Fits ⟨th.job, phase⟩ := by
    cases hth : th.job with
    | send call message => exact absurd hth (hjob call message)
    | connect | reconnect => simp only [Thread.Fits]
  cases ctor with
  | absent =>
    have hemit : (s.emitStateChange .disconnected).threads = s.threads := by
      rw [emitStateChange_eq]
    exact (h.emitStateChange .disconnected).setPhase (by rw [hemit]; exact ht) hth trivial (hfits _)
  | nothing => exact h.setPhase ht hth trivial (hfits _)
  | throws err => exact h.setPhase ht hth trivial (hfits _)
  | socket =>
    have hnew : Orderly { s with sockets := s.sockets ++ [({} : Socket)], ws := some s.sockets.length } := by
      refine h.congr rfl rfl rfl rfl rfl h.dead ?_ ?_
      · intro k hk
        rcases List.mem_append.mp hk with hk | hk
        · exact h.fresh k hk
        · cases List.mem_singleton.mp hk
          exact fun _ => ⟨rfl, rfl⟩
      · intro hon
        obtain ⟨i, k, hi, hk, hready⟩ := wsOpen_iff.mp hon
        cases hi
        rcases add_iff.mp hk with hk | ⟨-, rfl⟩
        · exact absurd (lt_of_entry hk) (lt_irrefl _)
        · cases hready
    exact hnew.setPhase ht hth trivial (hfits _)

/-- A socket that is closed, with or without its handlers. -/
theorem Orderly.closeSocket (h : Orderly s) (i : ℕ) (f : Socket → Socket) :
    Orderly { s.modifySocket i fun k => (f k).close with ws := none } := by
  have hclosed : Orderly (s.modifySocket i fun k => (f k).close) :=
    h.modifySocket (fun k _ hready => absurd hready (f k).close_readyState.1)
      fun k hready => absurd hready (f k).close_readyState.2
  exact hclosed.congr rfl rfl rfl rfl rfl hclosed.dead hclosed.fresh fun hon => by cases hon

theorem Orderly.disconnect (h : Orderly s) : Orderly s.disconnect := by
  have hreset : Orderly { s with
      reconnectEnabled := false, connectPromise := none, reconnectAttempts := .fin 0
      reconnectExhausted := false }.stopHeartbeat :=
    h.congr rfl rfl rfl rfl rfl h.dead h.fresh fun hon => ⟨(h.online hon).1, rfl⟩
  unfold Relay.disconnect
  refine Orderly.emitStateChange ?_ _
  split
  · exact hreset.closeSocket _ id
  · exact hreset

theorem Orderly.destroy (h : Orderly s) : Orderly (s.destroy c) := by
  rw [destroy_eq]
  refine ⟨h.exclusive, h.held, ?_, fun _ => rfl, ?_, List.nodup_nil, h.fits, fun _ => ⟨rfl, rfl⟩, ?_, ?_⟩
  · intro hlive
    cases hlive
  · intro t ht
    cases ht
  · cases s.ws with
    | none => exact h.fresh
    | some i =>
      have hclosed := h.closeSocket i fun k =>
        { k with onclose := false, onerror := false, onmessage := false }
      exact hclosed.fresh
  · intro hon
    cases hon

theorem Orderly.heartbeat (h : Orderly s) : Orderly s.heartbeat := by
  unfold Relay.heartbeat
  split_ifs
  · exact h.congr rfl rfl rfl rfl rfl h.dead h.fresh h.online
  · exact h

theorem Orderly.handleHeartbeatTimeout (h : Orderly s) : Orderly (s.handleHeartbeatTimeout c) := by
  unfold Relay.handleHeartbeatTimeout
  simp only
  cases s.ws with
  | none =>
    split_ifs
    · exact h.letGo
    · exact h.letGo.reconnectOrGiveUp
  | some i =>
    have hdead := h.letGo.closeSocket i fun k =>
      { k with onopen := false, onmessage := false, onclose := false, onerror := false }
    split_ifs
    · exact hdead
    · exact hdead.reconnectOrGiveUp

theorem Orderly.sendLocked (h : Orderly s) (ht : s.threads[t]? = some th) (hth : th.phase.Holds)
    (call : ℕ) (message : WebSocketMessage) (now : Number) :
    Orderly (s.sendLocked c t call message now) := by
  rcases s.sendLocked_cases c t call message now with
    ⟨-, heq⟩ | ⟨-, -, heq⟩ | ⟨hlive, -, hclosed, heq⟩ | ⟨-, -, err, -, heq⟩ | ⟨-, -, -, heq⟩
  · have hlog : Orderly { s with dropped := s.dropped ++ [(call, DropReason.destroyed)] } :=
      h.congr rfl rfl rfl rfl rfl h.dead h.fresh h.online
    rw [heq]
    exact hlog.finish ht hth _
  · rw [heq]
    exact h.finish ht hth _
  · rw [heq]
    refine Orderly.finish (h._queueMessage hlive hclosed call message now) ?_ hth _
    rw [_queueMessage_eq]
    exact ht
  · rw [heq]
    exact h.finish ht hth _
  · have hlog : Orderly { s with handed := s.handed ++ [call] } :=
      h.congr rfl rfl rfl rfl rfl h.dead h.fresh h.online
    rw [heq]
    exact hlog.finish ht hth _

theorem Orderly.connectLocked (h : Orderly s) (ht : s.threads[t]? = some th) (hth : th.phase.Holds)
    (hjob : th.job = .connect) (ctor : Constructed) : Orderly (s.connectLocked t ctor) := by
  unfold Relay.connectLocked
  split_ifs
  · exact h.finish ht hth _
  · refine (h.emitStateChange .connecting).establishConnection ?_ hth ?_ ctor
    · rw [emitStateChange_eq]
      exact ht
    · intro call message heq
      cases hjob.symm.trans heq

theorem Orderly.reconnectLocked (h : Orderly s) (ht : s.threads[t]? = some th)
    (hth : th.phase.Holds) (hjob : th.job = .reconnect) : Orderly (s.reconnectLocked c t) := by
  unfold Relay.reconnectLocked
  split_ifs
  · have hattempt : Orderly { s with reconnectAttempts := s.reconnectAttempts.add (.fin 1) } :=
      h.congr rfl rfl rfl rfl rfl h.dead h.fresh h.online
    refine (hattempt.emitStateChange .reconnecting).setPhase ?_ hth trivial ?_
    · rw [emitStateChange_eq]
      exact ht
    · rw [hjob]
      trivial
  · refine h.giveUp.finish ?_ hth _
    rw [giveUp_eq]
    exact ht

theorem Orderly.resume (h : Orderly s) {ctor : Constructed} (hs : s.resume c t ctor now = some s') :
    Orderly s' := by
  obtain ⟨⟨job, phase⟩, ht, ⟨hphase, rfl⟩ | ⟨r, r', hphase, rfl⟩⟩ := resume_cases hs
  · have hholds : phase.Holds := by
      rw [show phase = .granted from hphase]
      trivial
    cases job with
    | connect => exact h.connectLocked ht hholds rfl ctor
    | reconnect => exact h.reconnectLocked ht hholds rfl
    | send call message => exact h.sendLocked ht hholds call message now
  · have hholds : phase.Holds := by
      rw [show phase = .opened r from hphase]
      trivial
    exact h.finish ht hholds r'

theorem Orderly.wake (h : Orderly s) (ht : s.threads[t]? = some th) (hth : th.phase = .sleeping)
    (ctor : Constructed) : Orderly (s.wake t ctor) := by
  have hholds : th.phase.Holds := by
    rw [hth]
    trivial
  unfold Relay.wake
  split_ifs
  · exact h.finish ht hholds _
  · refine h.establishConnection ht hholds ?_ ctor
    intro call message hjob
    have hfits := h.fits th (List.mem_of_getElem? ht)
    simp only [Thread.Fits, hjob, hth] at hfits

/-- A handler that runs keeps the invariant. -/
theorem Orderly.handle (h : Orderly s) {e : RelayEvent} {k : Socket} (he : e.socket = some i)
    (hk : s.sockets[i]? = some k) (hruns : Runs k e) :
    Orderly ((s.modifySocket i (Socket.tell e)).handle c k e) := by
  have hget {f : Socket → Socket} {k' : Socket}
      (hk' : (s.modifySocket i f).sockets[i]? = some k') : k' = f k := by
    have hk' : (s.sockets.modify i f)[i]? = some k' := hk'
    rw [List.getElem?_modify_eq, hk] at hk'
    exact (Option.some.inj hk').symm
  cases e with
  | opened j now =>
    cases he
    refine Orderly.onopen (h.opened ?_) ?_ now
    · intro k hfresh hready
      simp only [Socket.tell] at hready ⊢
      split_ifs at hready ⊢ with hconnecting
      exact absurd hready hconnecting
    · intro k' hk' hready
      rw [hget hk'] at hready
      simp only [Socket.tell] at hready
      split_ifs at hready with hconnecting
      exact hconnecting hready
  | message j frame =>
    cases he
    rw [modifySocket_tell_self hk rfl]
    exact h.onmessage frame
  | closed j =>
    cases he
    refine Orderly.onclose (h.modifySocket ?_ ?_) ?_ _
    · intro k _ hready
      cases hready
    · intro k hready
      cases hready
    · intro k' hk' hready
      rw [hget hk'] at hready
      cases hready
  | _ => exact hruns.elim

theorem Orderly.hear (h : Orderly s) {e : RelayEvent} (he : e.socket = some i)
    (hs : s.step c e = some s') : Orderly s' := by
  obtain ⟨k, hk, ⟨hruns, rfl⟩ | ⟨hruns, hs'⟩⟩ := step_socket he hs
  · exact h.handle he hk hruns
  have hmodify : Orderly (s.modifySocket i (Socket.tell e)) := by
    cases e with
    | opened j now =>
      -- a socket that is connecting has its handler
      have hready : k.readyState ≠ .connecting := by
        intro hready
        obtain ⟨hattached, hsettled⟩ := h.fresh k (List.mem_of_getElem? hk) hready
        exact hruns ⟨.inl hready, hattached, hsettled⟩
      rw [modifySocket_tell_self hk (by simp only [Socket.tell, if_neg hready])]
      exact h
    | message j frame =>
      rw [modifySocket_tell_self hk rfl]
      exact h
    | errored | closing | closed =>
      refine h.modifySocket ?_ ?_
      · intro k _ hready
        cases hready
      · intro k hready
        cases hready
    | _ => cases he
  rcases hs' with rfl | ⟨r, rfl, rfl⟩
  · exact hmodify
  · refine hmodify.settle ?_ r
    intro k' hk' hready
    have hk' : (s.sockets.modify i (Socket.tell (.errored i)))[i]? = some k' := hk'
    rw [List.getElem?_modify_eq, hk] at hk'
    cases hk'
    cases hready

/-- **Every step keeps the invariant.** -/
theorem Orderly.step {e : RelayEvent} (h : Orderly s) (hs : s.step c e = some s') : Orderly s' := by
  cases e with
  | opened | message | errored | closing | closed => exact h.hear rfl hs
  | connect =>
    cases hs
    exact h.connect
  | disconnect =>
    cases hs
    exact h.disconnect
  | destroy =>
    cases hs
    exact h.destroy
  | send message now =>
    cases hs
    have hsent := h.sendMessage (c := c) s.sends.length message now
    exact hsent.congr rfl rfl rfl rfl rfl hsent.dead hsent.fresh hsent.online
  | on type handler =>
    cases hs
    unfold Relay.on
    split_ifs
    · exact h
    · exact h.congr rfl rfl rfl rfl rfl h.dead h.fresh h.online
  | off type handler =>
    cases hs
    exact h.congr rfl rfl rfl rfl rfl h.dead h.fresh h.online
  | resume t ctor now => exact h.resume hs
  | wake t ctor =>
    obtain ⟨hphase, hs⟩ := Option.ite_none_right_eq_some.mp hs
    cases hs
    obtain ⟨th, ht, hth⟩ := Option.map_eq_some_iff.mp hphase
    exact h.wake ht hth ctor
  | forget =>
    simp only [Relay.step] at hs
    split at hs
    · obtain ⟨_, -, rfl⟩ := Option.map_eq_some_iff.mp hs
      exact h.congr rfl rfl rfl rfl rfl h.dead h.fresh h.online
    · cases hs
  | heartbeat =>
    obtain ⟨_, -, rfl⟩ := Option.map_eq_some_iff.mp hs
    exact h.heartbeat
  | heartbeatTimeout =>
    obtain ⟨_, -, rfl⟩ := Option.map_eq_some_iff.mp hs
    split_ifs
    · exact h.handleHeartbeatTimeout
    · exact h

/-- **The lock, the sockets and the offline queue are in order after every run.** -/
theorem orderly_run {log : List RelayEvent} (h : run (step c) {} log = some s) : Orderly s :=
  run_induction (P := fun s _ => Orderly s) orderly_init (fun _ _ _ _ hs => hs.step) h

end Relay

end StreamFi
