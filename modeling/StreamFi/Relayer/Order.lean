import StreamFi.Relayer.Traffic

/-!
# The order of messages

The messages should be handed over in the order of the calls of `send`, and none that was promised should
be lost. A message that goes back to the offline queue goes behind newer ones, with the present as its age.

* `Ledger`: a message is in one place, and goes with its own call; **`Ledger.step`**;
* `Accounted`: the messages are in order, as old as their calls, and none is lost;
* `Undisturbed`: the step puts no message behind newer ones, renews no age, and breaks no promise;
* **`accounted_iff`**: the messages are accounted for throughout a run exactly when each step is
  undisturbed.
-/

namespace StreamFi

open Js Run

namespace Relay

/-- The promise of the call was resolved. -/
def Resolved (s : Relay) (n : ℕ) : Prop :=
  ∃ sent, s.sends[n]? = some sent ∧ s.outcome sent.promise = some (.ok ())

variable {c : RelayerSettings} {s s' : Relay} {t i n : ℕ} {now : Number} {r : Except Thrown Unit}

/-! ## The ledger -/

/-- The message of a call is in one place, and goes with its own call. -/
structure Ledger (c : RelayerSettings) (s : Relay) : Prop where
  room : Roomy c s.offlineQueue.length
  once : ∀ n, s.places.count n ≤ 1
  known : ∀ n ∈ s.places, n < s.sends.length
  own : ∀ (n : ℕ) sent t, s.sends[n]? = some sent → sent.promise = .of t →
    ∃ r, s.ticket t = some (.send n sent.message, r)
  jobs : ∀ t n message r, s.ticket t = some (.send n message, r) →
    ∃ sent, s.sends[n]? = some sent ∧ sent.message = message
  stored : ∀ q ∈ s.offlineQueue, ∃ sent, s.sends[q.send]? = some sent ∧ sent.message = q.message

theorem ledger_init : Ledger c {} where
  room k hk hlt := by cases hlt
  once n := by simp [places, line, queued]
  known n hn := by cases hn
  own n sent t hn := by simp at hn
  jobs t n message r ht := by simp [ticket] at ht
  stored q hq := by cases hq

theorem Ledger.aside (h : Ledger c s) (hs : Aside s s') : Ledger c s' where
  room := by
    rw [hs.queue]
    exact h.room
  once n := by
    rw [hs.places]
    exact h.once n
  known n hn := by
    rw [hs.places] at hn
    rw [hs.sends]
    exact h.known n hn
  own n sent t hn hp := by
    rw [hs.sends] at hn
    obtain ⟨r, ht⟩ := h.own n sent t hn hp
    exact ⟨r, (hs.tickets t n _ r).mpr ht⟩
  jobs t n message r ht := by
    rw [hs.sends]
    exact h.jobs t n message r ((hs.tickets t n message r).mp ht)
  stored q hq := by
    rw [hs.queue] at hq
    rw [hs.sends]
    exact h.stored q hq

theorem Ledger.entered (h : Ledger c s) {message : WebSocketMessage} {p : Promised}
    (hs : Entered c s message now s' p) : Ledger c s' := by
  have hsends {n : ℕ} {sent : SendCall} : s'.sends[n]? = some sent ↔
      s.sends[n]? = some sent ∨ n = s.sends.length ∧ sent = ⟨message, now, p⟩ := by
    rw [hs.sends]
    exact add_iff
  have hfresh : s.places.count s.sends.length = 0 :=
    List.count_eq_zero.mpr fun hmem => lt_irrefl _ (h.known _ hmem)
  have hlength : s'.sends.length = s.sends.length + 1 := by
    rw [hs.sends, List.length_append, List.length_singleton]
  refine ⟨hs.room h.room, ?_, ?_, ?_, ?_, ?_⟩
  · intro n
    rcases hs.places with ⟨-, hplaces⟩ | hplaces
    · rw [hplaces.count_eq]
      exact h.once n
    · rw [hplaces.count_eq, List.count_append]
      by_cases hn : n = s.sends.length
      · subst hn
        rw [hfresh, List.count_singleton_self]
      · rw [List.count_singleton, if_neg (by simpa using Ne.symm hn)]
        exact h.once n
  · intro n hn
    rw [hlength]
    rcases hs.places with ⟨-, hplaces⟩ | hplaces
    · exact Nat.lt_succ_of_lt (h.known n (hplaces.mem_iff.mp hn))
    · rcases List.mem_append.mp (hplaces.mem_iff.mp hn) with hn | hn
      · exact Nat.lt_succ_of_lt (h.known n hn)
      · rw [List.mem_singleton.mp hn]
        exact Nat.lt_succ_self _
  · intro n sent t hn hp
    rcases hsends.mp hn with hn | ⟨rfl, rfl⟩
    · obtain ⟨r, ht⟩ := h.own n sent t hn hp
      exact ⟨r, hs.kept ht⟩
    · have hp : p = .of t := hp
      subst hp
      exact ⟨none, hs.own⟩
  · intro t n message' r ht
    rcases hs.new ht with hold | hnew
    · obtain ⟨sent, hn, hmessage⟩ := h.jobs t n message' r hold
      exact ⟨sent, hsends.mpr (.inl hn), hmessage⟩
    · cases hnew
      exact ⟨_, hsends.mpr (.inr ⟨rfl, rfl⟩), rfl⟩
  · intro q hq
    rcases hs.mem_queue hq with hold | rfl
    · obtain ⟨sent, hn, hmessage⟩ := h.stored q hold
      exact ⟨sent, hsends.mpr (.inl hn), hmessage⟩
    · exact ⟨_, hsends.mpr (.inr ⟨rfl, rfl⟩), rfl⟩

theorem Ledger.turned (h : Ledger c s) {call : ℕ} {message : WebSocketMessage}
    (ht : s.threads[t]? = some ⟨.send call message, .granted⟩)
    (hs : Turned c s t call message now s' r) : Ledger c s' := by
  have hticket : s.ticket t = some (.send call message, none) := ticket_of ht
  have hmem {n : ℕ} (hn : n ∈ s'.places) : n ∈ s.places := by
    rcases hs.places with hplaces | ⟨-, -, -, hplaces⟩
    · exact hplaces.mem_iff.mp hn
    · exact hplaces.mem_iff.mpr (List.mem_cons_of_mem call hn)
  refine ⟨hs.room h.room, ?_, ?_, ?_, ?_, ?_⟩
  · intro n
    rcases hs.places with hplaces | ⟨-, -, -, hplaces⟩
    · rw [hplaces.count_eq]
      exact h.once n
    · have honce := h.once n
      rw [hplaces.count_eq] at honce
      exact List.count_le_count_cons.trans honce
  · intro n hn
    rw [hs.sends]
    exact h.known n (hmem hn)
  · intro n sent u hn hp
    rw [hs.sends] at hn
    obtain ⟨r', hu⟩ := h.own n sent u hn hp
    rw [hs.ticket]
    split_ifs with htu
    · subst htu
      cases hticket.symm.trans hu
      exact ⟨_, rfl⟩
    · exact ⟨r', hu⟩
  · intro u n message' r' hu
    rw [hs.ticket] at hu
    rw [hs.sends]
    split_ifs at hu with htu
    · cases hu
      exact h.jobs t call message none hticket
    · exact h.jobs u n message' r' hu
  · intro q hq
    rw [hs.sends]
    rcases hs.mem_queue hq with hold | ⟨rfl, -⟩
    · exact h.stored q hold
    · exact h.jobs t call message none hticket

theorem Ledger.emptied (h : Ledger c s) {isOpen : Bool} (hs : Emptied c now isOpen s s') : Ledger c s' where
  room := by
    refine h.room.mono ?_
    rw [hs.queue]
    cases isOpen with
    | true => exact Nat.zero_le _
    | false =>
      simp only [Bool.false_eq_true, if_false, List.length_map]
      exact List.length_filter_le _ _
  once n := by
    rw [hs.places.count_eq]
    exact h.once n
  known n hn := by
    rw [hs.sends]
    exact h.known n (hs.places.mem_iff.mp hn)
  own n sent t hn hp := by
    rw [hs.sends] at hn
    obtain ⟨r, ht⟩ := h.own n sent t hn hp
    exact ⟨r, hs.kept t n _ r ht⟩
  jobs t n message r ht := by
    rw [hs.sends]
    rcases hs.new t n message r ht with hold | ⟨-, q, hq, rfl, rfl⟩
    · exact h.jobs t n message r hold
    · exact h.stored q hq
  stored q hq := by
    rw [hs.sends]
    obtain ⟨-, q₀, hq₀, -, rfl⟩ := hs.mem_queue hq
    exact h.stored q₀ hq₀

theorem Ledger.destroyed (h : Ledger c s) : Ledger c (s.destroy c) := by
  have hplaces := places_destroy c s
  have hmem {n : ℕ} (hn : n ∈ (s.destroy c).places) : n < s.sends.length := h.known n (hplaces.mem_iff.mp hn)
  have hcount (n : ℕ) : (s.destroy c).places.count n ≤ 1 := by
    rw [hplaces.count_eq]
    exact h.once n
  rw [destroy_eq] at hmem hcount ⊢
  refine ⟨?_, hcount, fun n hn => hmem hn, h.own, h.jobs, ?_⟩
  · intro k hk hlt
    cases hlt
  · intro q hq
    cases hq

/-- **Every step keeps the ledger.** -/
theorem Ledger.step (h : Ledger c s) (ho : Orderly s) {e : RelayEvent} (hs : s.step c e = some s') :
    Ledger c s' := by
  cases step_traffic ho h.room hs with
  | aside haside => exact h.aside haside
  | entered message now p he hentered => exact h.entered hentered
  | turned t ctor now call message r he ht hturned => exact h.turned ht hturned
  | emptied i now k he hk hruns hemptied => exact h.emptied hemptied
  | destroyed he hdestroy =>
    rw [hdestroy]
    exact h.destroyed

/-! ## The order of messages -/

/-- What a message may be dropped for. -/
def Given (c : RelayerSettings) (s : Relay) (n : ℕ) : DropReason → Prop
  | .overflow length => c.maxPendingMessages.le (.fin length) = true
  | .expired now => Number.lt (.fin 0) c.offlineBufferTtlMs = true ∧
      ∃ sent, s.sends[n]? = some sent ∧ c.offlineBufferTtlMs.lt (now.sub sent.sentAt) = true
  | .destroyed => s.isDestroyed = true

/-- **The messages are accounted for.** They are handed over in the order of the calls, and await the lock
and the next flush in this order; a message that was promised to be sent is in one place, its age is that
of its call, and it is not dropped for nothing. -/
structure Accounted (c : RelayerSettings) (s : Relay) : Prop extends Ledger c s where
  order : (s.handed ++ s.line).Pairwise (· < ·)
  ahead : (s.handed ++ s.queued).Pairwise (· < ·)
  placed : ∀ n, s.Resolved n → n ∈ s.places
  age : Number.lt (.fin 0) c.offlineBufferTtlMs = true → ∀ q ∈ s.offlineQueue,
    ∃ sent, s.sends[q.send]? = some sent ∧ q.enqueuedAt = sent.sentAt
  reasons : ∀ d ∈ s.dropped, Given c s d.1 d.2

/-- A message whose turn it is may be refused if its call was not resolved; where it goes back to the
offline queue, it is the newest one there, and as old as its call. -/
structure Steady (c : RelayerSettings) (s : Relay) (call : ℕ) (message : WebSocketMessage)
    (now : Number) : Prop where
  kept : s.reconnectExhausted = true ∨ s.wsOpen = true ∧ message.json.isOk = false → ¬ s.Resolved call
  newest : s.reconnectExhausted = false → s.wsOpen = false → ∀ q ∈ s.staying c, q.send < call
  age : s.reconnectExhausted = false → s.wsOpen = false → Number.lt (.fin 0) c.offlineBufferTtlMs = true →
    ∀ sent, s.sends[call]? = some sent → sent.sentAt = now

/-- A flush finds no newer message in the line; where the messages go back to the offline queue, they are
as old as they were. -/
structure Orderable (c : RelayerSettings) (s : Relay) (now : Number) (isOpen : Bool) : Prop where
  newest : isOpen = true → ∀ n ∈ s.line, ∀ q ∈ s.offlineQueue, isExpired c now q = false → n < q.send
  age : isOpen = false → Number.lt (.fin 0) c.offlineBufferTtlMs = true → ∀ q ∈ s.offlineQueue,
    isExpired c now q = false → q.enqueuedAt = now

/-- The step puts no message behind newer ones, renews no age, and breaks no promise. -/
def Undisturbed (c : RelayerSettings) (s : Relay) : RelayEvent → Prop
  | .resume t _ now => ∀ call message, s.threads[t]? = some ⟨.send call message, .granted⟩ →
      s.isDestroyed = false → Steady c s call message now
  | .opened i now => ∀ k, s.sockets[i]? = some k → Runs k (.opened i now) →
      Orderable c s now (s.modifySocket i (Socket.tell (.opened i now))).wsOpen
  | _ => True

theorem Given.mono {reason : DropReason} (h : Given c s n reason)
    (hsends : ∀ (n : ℕ) sent, s.sends[n]? = some sent → s'.sends[n]? = some sent)
    (hdead : s.isDestroyed = true → s'.isDestroyed = true) : Given c s' n reason := by
  cases reason with
  | overflow length => exact h
  | expired now =>
    obtain ⟨hpos, sent, hn, hage⟩ := h
    exact ⟨hpos, sent, hsends n sent hn, hage⟩
  | destroyed => exact hdead h

theorem given_overflowed {d : ℕ × DropReason} (hd : d ∈ s.overflowed c) : Given c s' d.1 d.2 := by
  obtain ⟨length, hreason, hfull⟩ := mem_overflowed hd
  rw [hreason]
  exact hfull

theorem accounted_init : Accounted c {} where
  toLedger := ledger_init
  order := List.Pairwise.nil
  ahead := List.Pairwise.nil
  placed n hn := by
    obtain ⟨sent, hn, -⟩ := hn
    simp at hn
  age _ q hq := by cases hq
  reasons d hd := by cases hd

/-- The promise of a call is as its thread is. -/
theorem Ledger.outcome_eq (h : Ledger c s) {sent : SendCall} (hn : s.sends[n]? = some sent)
    (hkeep : ∀ t n message r, s.ticket t = some (.send n message, r) → s'.ticket t = some (.send n message, r)) :
    s'.outcome sent.promise = s.outcome sent.promise := by
  cases hp : sent.promise with
  | settled r => rfl
  | of t =>
    obtain ⟨r, ht⟩ := h.own n sent t hn hp
    rw [outcome_of, outcome_of, ht, hkeep t n _ r ht]

theorem Ledger.resolved_iff (h : Ledger c s) (hsends : s'.sends = s.sends)
    (hkeep : ∀ t n message r, s.ticket t = some (.send n message, r) → s'.ticket t = some (.send n message, r)) :
    s'.Resolved n ↔ s.Resolved n := by
  unfold Resolved
  rw [hsends]
  constructor
  · rintro ⟨sent, hn, hok⟩
    exact ⟨sent, hn, (h.outcome_eq hn hkeep).symm.trans hok⟩
  · rintro ⟨sent, hn, hok⟩
    exact ⟨sent, hn, (h.outcome_eq hn hkeep).trans hok⟩

theorem Accounted.aside (h : Accounted c s) (hs : Aside s s') : Accounted c s' where
  toLedger := h.toLedger.aside hs
  order := by
    rw [hs.handed, hs.line]
    exact h.order
  ahead := by
    rw [queued, hs.handed, hs.queue]
    exact h.ahead
  placed n hn := by
    rw [hs.places]
    exact h.placed n ((h.resolved_iff hs.sends fun t n message r => (hs.tickets t n message r).mpr).mp hn)
  age hpos q hq := by
    rw [hs.queue] at hq
    rw [hs.sends]
    exact h.age hpos q hq
  reasons d hd := by
    rw [hs.dropped] at hd
    refine (h.reasons d hd).mono ?_ ?_
    · rw [hs.sends]
      exact fun n sent hn => hn
    · rw [hs.dead]
      exact id

/-- A new call is newer than all the others. -/
theorem Ledger.lt_length (h : Ledger c s) (hn : n ∈ s.handed ++ s.line ∨ n ∈ s.handed ++ s.queued) :
    n < s.sends.length := by
  refine h.known n ?_
  simp only [Relay.places, List.mem_append] at hn ⊢
  tauto

theorem pairwise_concat {l : List ℕ} (hl : l.Pairwise (· < ·)) (hn : ∀ m ∈ l, m < n) :
    (l ++ [n]).Pairwise (· < ·) := by
  refine List.pairwise_append.mpr ⟨hl, List.pairwise_singleton _ _, ?_⟩
  intro m hm k hk
  rw [List.mem_singleton.mp hk]
  exact hn m hm

/-- A message that joins the offline queue as the newest one. -/
theorem Accounted.pairwise_stored (h : Accounted c s) (hhanded : ∀ m ∈ s.handed, m < n)
    (hstaying : ∀ q ∈ s.staying c, q.send < n) :
    (s.handed ++ ((s.staying c).map (·.send) ++ [n])).Pairwise (· < ·) := by
  have hold : (s.handed ++ (s.staying c).map (·.send)).Pairwise (· < ·) :=
    h.ahead.sublist ((staying_sublist c s).append_left _)
  rw [← List.append_assoc]
  refine pairwise_concat hold fun m hm => ?_
  rcases List.mem_append.mp hm with hm | hm
  · exact hhanded m hm
  · obtain ⟨q, hq, rfl⟩ := List.mem_map.mp hm
    exact hstaying q hq

theorem Accounted.placed_entered (h : Accounted c s) {message : WebSocketMessage} {p : Promised}
    (hs : Entered c s message now s' p) (n : ℕ) (hn : s'.Resolved n) : n ∈ s'.places := by
  obtain ⟨sent, hn, hok⟩ := hn
  rw [hs.sends] at hn
  rcases add_iff.mp hn with hn | ⟨rfl, rfl⟩
  · have hmem : n ∈ s.places := h.placed n ⟨sent, hn, (h.outcome_eq hn fun t n m r => hs.kept).symm.trans hok⟩
    rcases hs.places with ⟨-, hplaces⟩ | hplaces
    · exact hplaces.mem_iff.mpr hmem
    · exact hplaces.mem_iff.mpr (List.mem_append_left _ hmem)
  · rcases hs.places with ⟨⟨err, rfl⟩, -⟩ | hplaces
    · cases hok
    · exact hplaces.mem_iff.mpr (List.mem_append_right _ (List.mem_singleton_self _))

theorem Accounted.entered (h : Accounted c s) {message : WebSocketMessage} {p : Promised}
    (hs : Entered c s message now s' p) : Accounted c s' := by
  have hsends (n : ℕ) (sent : SendCall) (hn : s.sends[n]? = some sent) : s'.sends[n]? = some sent := by
    rw [hs.sends]
    exact add_iff.mpr (.inl hn)
  refine ⟨h.toLedger.entered hs, ?_, ?_, h.placed_entered hs, ?_, ?_⟩
  · rw [hs.handed]
    cases hs.entry with
    | refused err line queue dropped ticket => exact line ▸ h.order
    | stored line queue dropped ticket => exact line ▸ h.order
    | lined line queue dropped hnew ticket =>
      rw [line, ← List.append_assoc]
      exact pairwise_concat h.order fun m hm => h.lt_length (.inl hm)
  · rw [queued, hs.handed]
    cases hs.entry with
    | refused err line queue dropped ticket => exact queue ▸ h.ahead
    | lined line queue dropped hnew ticket => exact queue ▸ h.ahead
    | stored line queue dropped ticket =>
      rw [queue, List.map_append]
      refine h.pairwise_stored (fun m hm => h.lt_length (.inl (List.mem_append_left _ hm))) fun q hq => ?_
      exact h.lt_length (.inr (List.mem_append_right _ (List.mem_map_of_mem (mem_staying hq))))
  · intro hpos q hq
    rcases hs.mem_queue hq with hold | rfl
    · obtain ⟨sent, hn, heq⟩ := h.age hpos q hold
      exact ⟨sent, hsends _ sent hn, heq⟩
    · refine ⟨⟨message, now, p⟩, ?_, rfl⟩
      rw [hs.sends]
      exact add_iff.mpr (.inr ⟨rfl, rfl⟩)
  · intro d hd
    rcases hs.mem_dropped hd with hold | hnew
    · exact (h.reasons d hold).mono hsends fun hdead => hs.dead.trans hdead
    · exact given_overflowed hnew

/-- A call whose turn has come is resolved if its thread succeeds. -/
theorem Turned.resolved {call : ℕ} {message : WebSocketMessage} (h : Ledger c s)
    (ht : s.threads[t]? = some ⟨.send call message, .granted⟩) (hs : Turned c s t call message now s' r)
    (hn : s'.Resolved n) : s.Resolved n ∨ n = call ∧ r = .ok () := by
  obtain ⟨sent, hn, hok⟩ := hn
  rw [hs.sends] at hn
  cases hp : sent.promise with
  | settled r' =>
    rw [hp] at hok
    exact .inl ⟨sent, hn, by rw [hp]; exact hok⟩
  | of u =>
    obtain ⟨r', hu⟩ := h.own n sent u hn hp
    rw [hp, outcome_of, hs.ticket] at hok
    split_ifs at hok with htu
    · subst htu
      cases (ticket_of ht).symm.trans hu
      exact .inr ⟨rfl, Option.some.inj hok⟩
    · refine .inl ⟨sent, hn, ?_⟩
      rw [hp, outcome_of]
      exact hok

theorem Accounted.placed_turned (h : Accounted c s) {call : ℕ} {message : WebSocketMessage}
    (ht : s.threads[t]? = some ⟨.send call message, .granted⟩) (hs : Turned c s t call message now s' r)
    (hok : s.isDestroyed = false → Steady c s call message now) (n : ℕ) (hn : s'.Resolved n) :
    n ∈ s'.places := by
  have hmem : n ∈ s.places := by
    rcases hs.resolved h.toLedger ht hn with hn | ⟨rfl, -⟩
    · exact h.placed n hn
    · rw [Relay.places, hs.line]
      simp
  rcases hs.places with hplaces | ⟨herr, hlive, hwhy, hplaces⟩
  · exact hplaces.mem_iff.mpr hmem
  · rcases List.mem_cons.mp (hplaces.mem_iff.mp hmem) with rfl | hmem
    -- a promise that was kept so far is not broken now
    · rcases hs.resolved h.toLedger ht hn with hn | ⟨-, hr⟩
      · exact absurd hn ((hok hlive).kept hwhy)
      · exact absurd hr herr
    · exact hmem

theorem Accounted.turned (h : Accounted c s) (ho : Orderly s) {call : ℕ} {message : WebSocketMessage}
    (ht : s.threads[t]? = some ⟨.send call message, .granted⟩) (hs : Turned c s t call message now s' r)
    (hok : s.isDestroyed = false → Steady c s call message now) : Accounted c s' := by
  have horder : (s.handed ++ call :: s'.line).Pairwise (· < ·) := hs.line ▸ h.order
  have hrest : (s.handed ++ s'.line).Pairwise (· < ·) :=
    horder.sublist ((List.sublist_cons_self call s'.line).append_left _)
  have hfirst (m : ℕ) (hm : m ∈ s.handed) : m < call :=
    (List.pairwise_append.mp horder).2.2 m hm call List.mem_cons_self
  refine ⟨h.toLedger.turned ht hs, ?_, ?_, h.placed_turned ht hs hok, ?_, ?_⟩
  · cases hs.turn with
    | gone err hdead handed queue dropped => exact handed ▸ hrest
    | refused err hlive hwhy handed queue dropped => exact handed ▸ hrest
    | back hlive hup hclosed handed queue dropped => exact handed ▸ hrest
    | through hlive hopen hjson handed queue dropped =>
      rw [handed, List.append_assoc]
      exact horder
  · rw [queued]
    cases hs.turn with
    | gone err hdead handed queue dropped =>
      rw [handed, queue]
      exact h.ahead
    | refused err hlive hwhy handed queue dropped =>
      rw [handed, queue]
      exact h.ahead
    | back hlive hup hclosed handed queue dropped =>
      rw [handed, queue, List.map_append]
      exact h.pairwise_stored hfirst ((hok hlive).newest hup hclosed)
    | through hlive hopen hjson handed queue dropped =>
      rw [handed, queue, (ho.online hopen).1, List.map_nil, List.append_nil]
      exact pairwise_concat (List.pairwise_append.mp h.order).1 hfirst
  · intro hpos q hq
    rw [hs.sends]
    rcases hs.mem_queue hq with hold | ⟨rfl, hlive, hup, hclosed⟩
    · exact h.age hpos q hold
    · obtain ⟨sent, hsent, -⟩ := h.jobs t call message none (ticket_of ht)
      exact ⟨sent, hsent, ((hok hlive).age hup hclosed hpos sent hsent).symm⟩
  · intro d hd
    rcases hs.mem_dropped hd with hold | hover | ⟨rfl, hdead⟩
    · refine (h.reasons d hold).mono ?_ fun hdead => hs.dead.trans hdead
      rw [hs.sends]
      exact fun n sent hn => hn
    · exact given_overflowed hover
    · exact hs.dead.trans hdead

theorem Accounted.emptied (h : Accounted c s) {isOpen : Bool} (hs : Emptied c now isOpen s s')
    (hok : Orderable c s now isOpen) : Accounted c s' where
  toLedger := h.toLedger.emptied hs
  order := by
    rw [hs.handed, hs.line]
    cases isOpen with
    | false => simpa using h.order
    | true =>
      have hqueue := List.pairwise_append.mp h.ahead
      have hsub : ((fresh c now s.offlineQueue).map (·.send)).Sublist s.queued := List.filter_sublist.map _
      rw [if_pos rfl, ← List.append_assoc]
      refine List.pairwise_append.mpr ⟨h.order, hqueue.2.1.sublist hsub, ?_⟩
      intro m hm k hk
      rcases List.mem_append.mp hm with hm | hm
      · exact hqueue.2.2 m hm k (hsub.subset hk)
      · obtain ⟨q, hq, rfl⟩ := List.mem_map.mp hk
        obtain ⟨hq, hfresh⟩ := mem_fresh.mp hq
        exact hok.newest rfl m hm q hq hfresh
  ahead := by
    have hsub : s'.queued.Sublist s.queued := by
      rw [queued, hs.queue]
      cases isOpen with
      | true => exact List.nil_sublist _
      | false =>
        rw [if_neg Bool.false_ne_true, List.map_map]
        exact List.filter_sublist.map _
    rw [hs.handed]
    exact h.ahead.sublist (hsub.append_left _)
  placed n hn := by
    have hn := (h.resolved_iff hs.sends hs.kept).mp hn
    exact hs.places.mem_iff.mpr (h.placed n hn)
  age hpos q hq := by
    obtain ⟨hclosed, q₀, hq₀, hfresh, rfl⟩ := hs.mem_queue hq
    obtain ⟨sent, hn, heq⟩ := h.age hpos q₀ hq₀
    rw [hs.sends]
    exact ⟨sent, hn, (hok.age hclosed hpos q₀ hq₀ hfresh).symm.trans heq⟩
  reasons d hd := by
    rw [hs.dropped] at hd
    rcases List.mem_append.mp hd with hd | hd
    · refine (h.reasons d hd).mono ?_ fun hdead => hs.dead.trans hdead
      rw [hs.sends]
      exact fun n sent hn => hn
    · obtain ⟨q, hq, rfl⟩ := List.mem_map.mp hd
      obtain ⟨hq, hexpired⟩ := List.mem_filter.mp hq
      rw [isExpired, Bool.and_eq_true] at hexpired
      obtain ⟨sent, hn, heq⟩ := h.age hexpired.1 q hq
      refine ⟨hexpired.1, sent, ?_, ?_⟩
      · rw [hs.sends]
        exact hn
      · rw [← heq]
        exact hexpired.2

theorem Accounted.destroyed (h : Accounted c s) : Accounted c (s.destroy c) := by
  have hledger := h.toLedger.destroyed (c := c)
  have hplaces := places_destroy c s
  have hline := s.line_destroy c
  have hsends : (s.destroy c).sends = s.sends := by rw [destroy_eq]
  have hticket (t : ℕ) : (s.destroy c).ticket t = s.ticket t := by
    rw [destroy_eq]
    rfl
  have hhanded : (s.destroy c).handed = s.handed := by rw [destroy_eq]
  have hqueue : (s.destroy c).offlineQueue = [] := by rw [destroy_eq]
  refine ⟨hledger, ?_, ?_, ?_, ?_, ?_⟩
  · rw [hhanded, hline]
    refine h.order.sublist (List.Sublist.append_left ?_ _)
    rw [line_eq]
    exact List.sublist_append_left _ _
  · rw [queued, hhanded, hqueue, List.map_nil, List.append_nil]
    exact h.order.sublist (List.sublist_append_left _ _)
  · intro n hn
    refine hplaces.mem_iff.mpr (h.placed n ((h.resolved_iff hsends fun t n message r ht => ?_).mp hn))
    rw [hticket, ht]
  · rw [hqueue]
    intro hpos q hq
    cases hq
  · intro d hd
    rw [destroy_eq] at hd
    rcases List.mem_append.mp hd with hd | hd
    · refine (h.reasons d hd).mono ?_ fun _ => by rw [destroy_eq]
      rw [hsends]
      exact fun n sent hn => hn
    · obtain ⟨n, -, rfl⟩ := List.mem_map.mp hd
      show (s.destroy c).isDestroyed = true
      rw [destroy_eq]

/-- **An undisturbed step keeps the accounts.** -/
theorem Accounted.step (h : Accounted c s) (ho : Orderly s) {e : RelayEvent} (hok : Undisturbed c s e)
    (hs : s.step c e = some s') : Accounted c s' := by
  cases step_traffic ho h.room hs with
  | aside haside => exact h.aside haside
  | entered message now p he hentered => exact h.entered hentered
  | turned t ctor now call message r he ht hturned =>
    subst he
    exact h.turned ho ht hturned (hok call message ht)
  | emptied i now k he hk hruns hemptied =>
    subst he
    exact h.emptied hemptied (hok k hk hruns)
  | destroyed he hdestroy =>
    rw [hdestroy]
    exact h.destroyed

/-! ## A step that is not undisturbed -/

theorem Turned.resolved_mono {call : ℕ} {message : WebSocketMessage}
    (ht : s.threads[t]? = some ⟨.send call message, .granted⟩) (hs : Turned c s t call message now s' r)
    (hn : s.Resolved n) : s'.Resolved n := by
  obtain ⟨sent, hn, hok⟩ := hn
  refine ⟨sent, by rw [hs.sends, hn], ?_⟩
  cases hp : sent.promise with
  | settled r' =>
    rw [hp] at hok
    exact hok
  | of u =>
    rw [hp, outcome_of] at hok
    rw [outcome_of, hs.ticket, if_neg, hok]
    rintro rfl
    rw [ticket_of ht] at hok
    cases hok

theorem Accounted.steady (h : Accounted c s) (ho : Orderly s) {call : ℕ} {message : WebSocketMessage}
    (ht : s.threads[t]? = some ⟨.send call message, .granted⟩) (hs : Turned c s t call message now s' r)
    (hlive : s.isDestroyed = false) (h' : Accounted c s') : Steady c s call message now := by
  cases hs.turn with
  | gone err hdead handed queue dropped => cases hlive.symm.trans hdead
  | refused err hlive hwhy handed queue dropped =>
    have hdown : s.reconnectExhausted = false → s.wsOpen = false → False := by
      intro hup hclosed
      rcases hwhy with hexhausted | ⟨hopen, -⟩
      · cases hup.symm.trans hexhausted
      · cases hclosed.symm.trans hopen
    refine ⟨?_, fun hup hclosed => (hdown hup hclosed).elim, fun hup hclosed => (hdown hup hclosed).elim⟩
    -- the message would be in two places before
    intro _ hresolved
    have hmem : call ∈ s'.places := h'.placed call (hs.resolved_mono ht hresolved)
    have honce := h.once call
    rw [(hs.lost handed queue dropped).count_eq, List.count_cons_self] at honce
    have hpos := List.count_pos_iff.mpr hmem
    omega
  | back hlive hup hclosed handed queue dropped =>
    refine ⟨?_, ?_, ?_⟩
    · rintro (hexhausted | ⟨hopen, -⟩)
      · cases hup.symm.trans hexhausted
      · cases hclosed.symm.trans hopen
    · intro _ _ q hq
      have hahead := (List.pairwise_append.mp h'.ahead).2.1
      rw [queued, queue, List.map_append] at hahead
      exact (List.pairwise_append.mp hahead).2.2 q.send (List.mem_map_of_mem hq) call (List.mem_singleton_self _)
    · intro _ _ hpos sent hsent
      have hlast : (⟨call, message, now⟩ : QueuedMessage) ∈ s'.offlineQueue := by
        rw [queue]
        exact List.mem_append_right _ (List.mem_singleton_self _)
      obtain ⟨sent', hsent', hage⟩ := h'.age hpos _ hlast
      rw [hs.sends] at hsent'
      cases hsent.symm.trans hsent'
      exact hage.symm
  | through hlive hopen hjson handed queue dropped =>
    refine ⟨?_, fun _ hclosed => ?_, fun _ hclosed => ?_⟩
    · rintro (hexhausted | ⟨-, hfails⟩)
      · cases (ho.online hopen).2.symm.trans hexhausted
      · cases hjson.symm.trans hfails
    · cases hclosed.symm.trans hopen
    · cases hclosed.symm.trans hopen

theorem Accounted.orderable (h : Accounted c s) {isOpen : Bool} (hs : Emptied c now isOpen s s')
    (h' : Accounted c s') : Orderable c s now isOpen := by
  refine ⟨?_, ?_⟩
  · rintro rfl n hn q hq hfresh
    have horder := (List.pairwise_append.mp h'.order).2.1
    rw [hs.line, if_pos rfl] at horder
    exact (List.pairwise_append.mp horder).2.2 n hn q.send (List.mem_map_of_mem (mem_fresh.mpr ⟨hq, hfresh⟩))
  · rintro rfl hpos q hq hfresh
    have hback : { q with enqueuedAt := now } ∈ s'.offlineQueue := by
      rw [hs.queue, if_neg Bool.false_ne_true]
      exact List.mem_map_of_mem (mem_fresh.mpr ⟨hq, hfresh⟩)
    obtain ⟨sent, hsent, hold⟩ := h.age hpos q hq
    obtain ⟨sent', hsent', hnew⟩ := h'.age hpos _ hback
    rw [hs.sends] at hsent'
    cases hsent.symm.trans hsent'
    exact hold.trans hnew.symm

/-- **Only an undisturbed step keeps the accounts.** -/
theorem Accounted.undisturbed (h : Accounted c s) (ho : Orderly s) {e : RelayEvent}
    (hs : s.step c e = some s') (h' : Accounted c s') : Undisturbed c s e := by
  cases e with
  | resume t ctor now =>
    intro call message ht hlive
    have heq : s.step c (.resume t ctor now) = some (s.sendLocked c t call message now) := by
      simp only [Relay.step, resume, ht, locked]
    cases hs.symm.trans heq
    obtain ⟨r, hturned⟩ := turned_sendLocked (c := c) ho ht now
    exact h.steady ho ht hturned hlive h'
  | opened i now =>
    intro k hk hruns
    cases hs.symm.trans (step_of_runs rfl hk hruns)
    exact h.orderable (emptied_onopen ho h.room i now) h'
  | _ => trivial

/-- **The messages are accounted for throughout a run** exactly when each step is undisturbed. -/
theorem accounted_iff {log : List RelayEvent} (h : run (step c) {} log = some s) :
    Throughout (step c) (Accounted c) {} log ↔ EachStep (step c) (Undisturbed c) {} log :=
  throughout_iff_eachStep (I := fun s => Orderly s ∧ Accounted c s) (fun _ hs => hs.2)
    ⟨orderly_init, accounted_init⟩ (fun _ _ _ hs hok hstep => ⟨hs.1.step hstep, hs.2.step hs.1 hok hstep⟩)
    (fun _ _ _ hs hbad hstep h' => hbad (hs.2.undisturbed hs.1 hstep h')) h

/-! A flush that is interrupted, and one that is not. -/

instance (s : Relay) (n : ℕ) : Decidable (s.Resolved n) :=
  decidable_of_iff ((s.sends[n]?).any fun sent => s.outcome sent.promise = some (.ok ())) <| by
    simp [Resolved, Option.any_eq_true]

instance (c : RelayerSettings) (s : Relay) (call : ℕ) (message : WebSocketMessage) (now : Number) :
    Decidable (Steady c s call message now) :=
  decidable_of_iff
    ((s.reconnectExhausted = true ∨ s.wsOpen = true ∧ message.json.isOk = false → ¬ s.Resolved call) ∧
      (s.reconnectExhausted = false → s.wsOpen = false → ∀ q ∈ s.staying c, q.send < call) ∧
      (s.reconnectExhausted = false → s.wsOpen = false → Number.lt (.fin 0) c.offlineBufferTtlMs = true →
        ∀ sent ∈ s.sends[call]?, sent.sentAt = now))
    ⟨fun h => ⟨h.1, h.2.1, h.2.2⟩, fun h => ⟨h.kept, h.newest, h.age⟩⟩

instance (c : RelayerSettings) (s : Relay) (now : Number) (isOpen : Bool) :
    Decidable (Orderable c s now isOpen) :=
  decidable_of_iff
    ((isOpen = true → ∀ n ∈ s.line, ∀ q ∈ s.offlineQueue, isExpired c now q = false → n < q.send) ∧
      (isOpen = false → Number.lt (.fin 0) c.offlineBufferTtlMs = true → ∀ q ∈ s.offlineQueue,
        isExpired c now q = false → q.enqueuedAt = now))
    ⟨fun h => ⟨h.1, h.2⟩, fun h => ⟨h.newest, h.age⟩⟩

def checkUndisturbed (c : RelayerSettings) (s : Relay) : RelayEvent → Bool
  | .resume t _ now => match s.threads[t]? with
    | some ⟨.send call message, .granted⟩ => s.isDestroyed || decide (Steady c s call message now)
    | _ => true
  | .opened i now => decide (Orderable c s now (s.modifySocket i (Socket.tell (.opened i now))).wsOpen)
  | _ => true

theorem undisturbed_of_check {e : RelayEvent} (h : checkUndisturbed c s e = true) : Undisturbed c s e := by
  cases e with
  | resume t ctor now =>
    intro call message ht hlive
    simpa [checkUndisturbed, ht, hlive] using h
  | opened i now =>
    intro k hk hruns
    exact of_decide_eq_true h
  | _ => trivial

def noteMessage : WebSocketMessage := ⟨.ok "note"⟩

/-- A message with a bigint in it. -/
def bigMessage : WebSocketMessage := ⟨.error (errorOf "TypeError" "Do not know how to serialize a BigInt")⟩

/-- A message is queued, flushed, and interrupted by `disconnect`; what is sent meanwhile is `others`. -/
def interrupted (others : List RelayEvent) : List RelayEvent :=
  [.send noteMessage (.fin 0), .connect, .resume 0 .socket (.fin 900), .opened 0 (.fin 900), .disconnect] ++ others ++
    [.resume 0 .socket (.fin 900), .resume 1 .socket (.fin 900)]

/-- The next connection, after so many messages are queued. -/
def resumed (n : ℕ) : List RelayEvent :=
  [.connect, .resume 2 .socket (.fin 1500), .opened 1 (.fin 1500)] ++
    (List.range (n + 1)).map fun t => .resume (2 + t) .socket (.fin 1500)

theorem accounted_alone :
    let c := RelayerSettings.new "wss://relay.example" {}
    Throughout (step c) (Accounted c) {} (interrupted [] ++ resumed 1) ∧
      (run (step c) {} (interrupted [] ++ resumed 1)).map (·.handed) = some [0] := by
  intro c
  obtain ⟨s, hs, hhanded⟩ := Option.map_eq_some_iff.mp
    (by decide : (run (step c) {} (interrupted [] ++ resumed 1)).map (·.handed) = some [0])
  refine ⟨(accounted_iff hs).mpr (.of_allSteps (fun _ _ => undisturbed_of_check) (by decide)), ?_⟩
  rw [hs, Option.map_some, hhanded]

/-- **The message goes behind a newer one**, with its age renewed, and is handed over after it, although it
is older than `offlineBufferTtlMs`. One that fails to be serialized is nowhere any more. -/
theorem interrupted_flush_reorders :
    let c := RelayerSettings.new "wss://relay.example" { offlineBufferTtlMs := some (.fin 1000) }
    (run (step c) {} (interrupted [.send noteMessage (.fin 900)])).map (·.offlineQueue) =
      some [⟨1, noteMessage, .fin 900⟩, ⟨0, noteMessage, .fin 900⟩] ∧
    (∃ s, run (step c) {} (interrupted [.send noteMessage (.fin 900)] ++ resumed 2) = some s ∧
      s.handed = [1, 0] ∧ s.dropped = [] ∧ s.Resolved 0 ∧ s.Resolved 1 ∧ ¬ Accounted c s) ∧
    ∃ s, run (step c) {} [.send bigMessage (.fin 0), .connect, .resume 0 .socket (.fin 1), .opened 0 (.fin 1),
        .resume 0 .socket (.fin 1), .resume 1 .socket (.fin 1)] = some s ∧
      s.Resolved 0 ∧ s.places = [] ∧ ¬ Accounted c s := by
  intro c
  refine ⟨by decide +kernel, ?_, ?_⟩
  · obtain ⟨s, hs, hend⟩ := (Option.any_eq_true _ _).mp (by decide +kernel :
      (run (step c) {} (interrupted [.send noteMessage (.fin 900)] ++ resumed 2)).any fun s =>
        s.handed = [1, 0] ∧ s.dropped = [] ∧ s.Resolved 0 ∧ s.Resolved 1)
    obtain ⟨hhanded, hdropped, h₀, h₁⟩ := of_decide_eq_true hend
    refine ⟨s, hs, hhanded, hdropped, h₀, h₁, ?_⟩
    intro h
    have horder := (List.pairwise_append.mp h.order).1
    rw [hhanded] at horder
    revert horder
    decide
  · obtain ⟨s, hs, hend⟩ := (Option.any_eq_true _ _).mp (by decide +kernel :
      (run (step c) {} [.send bigMessage (.fin 0), .connect, .resume 0 .socket (.fin 1), .opened 0 (.fin 1),
        .resume 0 .socket (.fin 1), .resume 1 .socket (.fin 1)]).any fun s => s.Resolved 0 ∧ s.places = [])
    obtain ⟨h₀, hplaces⟩ := of_decide_eq_true hend
    refine ⟨s, hs, h₀, hplaces, ?_⟩
    intro h
    have hmem := h.placed 0 h₀
    rw [hplaces] at hmem
    cases hmem

end Relay

end StreamFi
