import StreamFi.Events.Unsubscribe

/-!
# Subscriptions that begin later

`StreamsModule.subscribe` and `StreamsModule.subscribeToStreams` return a handle at once, look up the addresses
of the streams, and poll them from then on. The handle may be let go of at any time.

* `DeferredSubscription.turn`: one turn of the code, with what is called in it;
* **`deferred_quiet_iff`**: when nothing is called after `unsubscribe`;
* **`deferred_settled`**: which streams are reported and which are polled, and that no poll is left over.
-/

namespace StreamFi

open Js Run

/-! ## The code -/

/-- How far `subscribeAsync` or `subscribeToStreamsAsync` is: it waits for addresses, it has errors to report
before it imports the module, its promise is resolved or rejected, and `.then` or `.catch` has run. -/
inductive DeferredPhase where
  | resolving (outcomes : List (Option (Except Thrown String)))
  | reporting (errors : List Thrown) (addresses : List String)
  | created
  | rejected (err : Thrown)
  | settled

/-- `stopped` and `handlers` are the variables of the handle, and `inner` is set while `isInner`. -/
structure DeferredSubscription (ρ : Type) where
  phase : DeferredPhase
  handlers : UserHandlers ρ
  stopped : Bool := false
  isInner : Bool := false
  polls : List (String × LiveSubscription ρ) := []
  actions : List (UserAction ρ) := []

/-- `address` answers `streamAddress` for an id; `imported` is the import, with the server for the url. -/
inductive DeferredEvent where
  | address (i : ℕ) (r : Except Thrown (Option String))
  | next
  | imported (r : Except Thrown Unit)
  | poll (i : ℕ) (e : SubscriptionEvent)
  | unsubscribe

/-- `if (!address) throw new Error(...)` -/
def addressOf (id : String) (r : Except Thrown (Option String)) : Except Thrown String := do
  match truthyText (← r) with
  | some address => pure address
  | none => throwNew s!"Stream {id} not found"

def errorsOf (answers : List (Except Thrown String)) : List Thrown :=
  answers.filterMap fun answer => match answer with
    | .error err => some err
    | .ok _ => none

def addressesOf (answers : List (Except Thrown String)) : List String :=
  answers.filterMap fun answer => match answer with
    | .ok address => some address
    | .error _ => none

/-- What follows the addresses: `subscribeToStreamsAsync` reports those that failed, `subscribeAsync` throws. -/
def resolved (many : Bool) (answers : List (Except Thrown String)) : DeferredPhase :=
  if many then .reporting ((errorsOf answers).map toError) (addressesOf answers)
  else match errorsOf answers with
    | err :: _ => .rejected err
    | [] => .reporting [] (addressesOf answers)

def UserAction.isCall {ρ : Type} : UserAction ρ → Bool
  | .called _ => true
  | .unsubscribed => false

/-- `unsubscribe`, as `subscribeToStream` returns it. -/
def LiveSubscription.unsubscribe {ρ : Type} (s : LiveSubscription ρ) : LiveSubscription ρ where
  subscription := s.subscription.unsubscribe
  handlers := {}
  actions := s.actions ++ [.unsubscribed]

/-- `handlers.onError?.(error)` -/
def reportTo {ρ : Type} (handlers : UserHandlers ρ) (err : Thrown) : List (UserAction ρ) :=
  (handlers.onError.map fun onError => UserAction.called (onError err)).toList

namespace DeferredSubscription

variable {ρ : Type} (options : StreamEventHandlers) (content : EventResponse → RawEvent) (many : Bool)
  (ids : List String) (given : UserHandlers ρ)

/-- A handle, before anything is answered. -/
def start : DeferredSubscription ρ where
  phase := .resolving (ids.map fun _ => none)
  handlers := given

/-- `sub.unsubscribe()` -/
def letGo (s : DeferredSubscription ρ) : DeferredSubscription ρ :=
  { s with polls := s.polls.map fun poll => (poll.1, poll.2.unsubscribe) }

/-- The function goes on. -/
def goOn (s : DeferredSubscription ρ) : Option (DeferredSubscription ρ × List (UserAction ρ)) :=
  match s.phase with
  | .resolving outcomes =>
    (outcomes.mapM fun outcome => outcome).map fun answers => ({ s with phase := resolved many answers }, [])
  | .reporting (err :: errors) addresses =>
    -- the parameter `handlers`, which `unsubscribe` does not reach
    some ({ s with phase := .reporting errors addresses }, reportTo given err)
  | .created =>
    some (if s.stopped then ({ s.letGo with phase := .settled }, [])
      else ({ s with phase := .settled, isInner := true }, []))
  | .rejected err => some ({ s with phase := .settled }, reportTo s.handlers (toError err))
  | .reporting [] _ | .settled => none

/-- A poll goes on, with its own `handlers`. -/
def pollOn (s : DeferredSubscription ρ) (i : ℕ) (e : SubscriptionEvent) :
    Option (DeferredSubscription ρ × List (UserAction ρ)) := do
  let (address, live) ← s.polls[i]?
  let live' ← live.step options content e
  return ({ s with polls := s.polls.set i (address, live') },
    (live'.actions.drop live.actions.length).filter UserAction.isCall)

/-- One turn, and what happens on the side of the user. -/
def turn (s : DeferredSubscription ρ) : DeferredEvent → Option (DeferredSubscription ρ × List (UserAction ρ))
  | .address i r =>
    match s.phase with
    | .resolving outcomes =>
      match outcomes[i]?, ids[i]? with
      | some none, some id => some ({ s with phase := .resolving (outcomes.set i (some (addressOf id r))) }, [])
      | _, _ => none
    | _ => none
  | .next => s.goOn many given
  | .imported r =>
    match s.phase with
    | .reporting [] addresses => match r with
      | .ok () =>
        -- each poll is under way when `subscribeToStream` returns
        let live : LiveSubscription ρ := { subscription := Subscription.poll {}, handlers := given }
        some ({ s with phase := .created, polls := addresses.map fun address => (address, live) }, [])
      | .error err => some ({ s with phase := .rejected err }, [])
    | _ => none
  | .poll _ .unsubscribe => none
  | .poll i e => s.pollOn options content i e
  | .unsubscribe =>
    some ({ (if s.isInner then s.letGo else s) with stopped := true, isInner := false, handlers := {} },
      [.unsubscribed])

def step (s : DeferredSubscription ρ) (e : DeferredEvent) : Option (DeferredSubscription ρ) :=
  (s.turn options content many ids given e).map fun r => { r.1 with actions := s.actions ++ r.2 }

end DeferredSubscription

/-! ## A poll that is let go of -/

section Live

variable {ρ : Type} {options : StreamEventHandlers} {content : EventResponse → RawEvent}

theorem prefix_actOn (s : UserHandlers ρ × List (UserAction ρ)) (notices : List Notice) :
    s.2 <+: (notices.foldl (actOn content) s).2 := by
  induction notices generalizing s with
  | nil => simp
  | cons notice notices ih =>
    refine List.IsPrefix.trans ?_ (ih (actOn content s notice))
    unfold actOn
    split_ifs <;> simp

/-- A poll and its own handle. -/
abbrev LiveSubscription.Released (s : LiveSubscription ρ) : Prop := StreamFi.Released (s.handlers, s.actions)

/-- What one step of a poll calls. -/
def LiveSubscription.calls (s s' : LiveSubscription ρ) : List (UserAction ρ) :=
  (s'.actions.drop s.actions.length).filter UserAction.isCall

theorem released_nil (handlers : UserHandlers ρ) : Released (handlers, ([] : List (UserAction ρ))) :=
  ⟨by simp, List.Pairwise.nil⟩

theorem LiveSubscription.Released.step {s s' : LiveSubscription ρ} {e : SubscriptionEvent} (h : s.Released)
    (hs : s.step options content e = some s') : s'.Released ∧ s.actions <+: s'.actions := by
  obtain ⟨subscription, -, rfl⟩ := Option.map_eq_some_iff.mp hs
  exact ⟨StreamFi.Released.acts content h _, prefix_actOn (s.handlers, s.actions) _⟩

theorem LiveSubscription.released_unsubscribe {s : LiveSubscription ρ} (h : s.Released) :
    s.unsubscribe.Released := by
  refine ⟨fun _ => rfl, List.pairwise_append.mpr ⟨h.quiet, by simp, by simp⟩⟩

/-- A poll that was let go of calls nothing. -/
theorem LiveSubscription.calls_eq_nil {s s' : LiveSubscription ρ} {e : SubscriptionEvent} (h : s.Released)
    (hgone : .unsubscribed ∈ s.actions) (hs : s.step options content e = some s') : s.calls s' = [] := by
  obtain ⟨h', t, ht⟩ := h.step hs
  have hquiet : ∀ a ∈ s.actions, ∀ b ∈ t, a = .unsubscribed → b = .unsubscribed :=
    (List.pairwise_append.mp (ht ▸ h'.quiet)).2.2
  rw [calls, ← ht, List.drop_left, List.filter_eq_nil_iff]
  intro a ha
  rw [hquiet _ hgone a ha rfl, UserAction.isCall]
  simp

end Live

/-! ## What is called -/

/-- Nothing is polled yet. -/
def DeferredPhase.isBefore : DeferredPhase → Bool
  | .resolving _ | .reporting _ _ | .rejected _ => true
  | .created | .settled => false

namespace DeferredSubscription

variable {ρ : Type} {options : StreamEventHandlers} {content : EventResponse → RawEvent} {many : Bool}
  {ids : List String} {given : UserHandlers ρ} {s s' : DeferredSubscription ρ} {log : List DeferredEvent}

/-- A step that calls a handler before `.then` has run: an error is reported, or a poll that is under way finds
something. -/
def Early (options : StreamEventHandlers) (content : EventResponse → RawEvent) (given : UserHandlers ρ)
    (s : DeferredSubscription ρ) : DeferredEvent → Prop
  | .next => given.onError.isSome ∧ ∃ err errors addresses, s.phase = .reporting (err :: errors) addresses
  | .poll i e => s.phase = .created ∧ ∃ poll live,
      s.polls[i]? = some poll ∧ poll.2.step options content e = some live ∧ poll.2.calls live ≠ []
  | _ => False

/-- **What a turn can do.** -/
inductive Turn (options : StreamEventHandlers) (content : EventResponse → RawEvent) (many : Bool)
    (ids : List String) (given : UserHandlers ρ) (s : DeferredSubscription ρ) :
    DeferredEvent → DeferredSubscription ρ → List (UserAction ρ) → Prop
  | answered {i : ℕ} {id : String} {r : Except Thrown (Option String)}
      {outcomes : List (Option (Except Thrown String))} (h : s.phase = .resolving outcomes)
      (hnone : outcomes[i]? = some none) (hid : ids[i]? = some id) :
      Turn options content many ids given s (.address i r)
        { s with phase := .resolving (outcomes.set i (some (addressOf id r))) } []
  | resolved {outcomes : List (Option (Except Thrown String))} {answers : List (Except Thrown String)}
      (h : s.phase = .resolving outcomes) (hall : (outcomes.mapM fun outcome => outcome) = some answers) :
      Turn options content many ids given s .next { s with phase := resolved many answers } []
  | reported {err : Thrown} {errors : List Thrown} {addresses : List String}
      (h : s.phase = .reporting (err :: errors) addresses) :
      Turn options content many ids given s .next { s with phase := .reporting errors addresses } (reportTo given err)
  | imported {addresses : List String} (h : s.phase = .reporting [] addresses) :
      Turn options content many ids given s (.imported (.ok ())) { s with
        phase := .created
        polls := addresses.map fun address =>
          (address, { subscription := Subscription.poll {}, handlers := given }) } []
  | failed {err : Thrown} {addresses : List String} (h : s.phase = .reporting [] addresses) :
      Turn options content many ids given s (.imported (.error err)) { s with phase := .rejected err } []
  | dropped (h : s.phase = .created) (hstopped : s.stopped = true) :
      Turn options content many ids given s .next { s.letGo with phase := .settled } []
  | taken (h : s.phase = .created) (hstopped : s.stopped = false) :
      Turn options content many ids given s .next { s with phase := .settled, isInner := true } []
  | caught {err : Thrown} (h : s.phase = .rejected err) :
      Turn options content many ids given s .next { s with phase := .settled } (reportTo s.handlers (toError err))
  | polled {i : ℕ} {e : SubscriptionEvent} {poll : String × LiveSubscription ρ} {live : LiveSubscription ρ}
      (h : s.polls[i]? = some poll) (hlive : poll.2.step options content e = some live) :
      Turn options content many ids given s (.poll i e) { s with polls := s.polls.set i (poll.1, live) }
        (poll.2.calls live)
  | unsubscribed :
      Turn options content many ids given s .unsubscribe
        { (if s.isInner then s.letGo else s) with stopped := true, isInner := false, handlers := {} }
        [.unsubscribed]

theorem goOn_turn {acts : List (UserAction ρ)} (h : s.goOn many given = some (s', acts)) :
    Turn options content many ids given s .next s' acts := by
  unfold goOn at h
  cases hphase : s.phase with
  | resolving outcomes =>
    rw [hphase] at h
    obtain ⟨answers, hall, heq⟩ := Option.map_eq_some_iff.mp h
    cases heq
    exact .resolved hphase hall
  | reporting errors addresses =>
    rw [hphase] at h
    cases errors with
    | nil => cases h
    | cons err errors =>
      cases h
      exact .reported hphase
  | created =>
    rw [hphase] at h
    dsimp only at h
    by_cases hstopped : s.stopped = true
    · rw [if_pos hstopped] at h
      cases h
      exact .dropped hphase hstopped
    · rw [if_neg hstopped] at h
      cases h
      exact .taken hphase (Bool.eq_false_iff.mpr hstopped)
  | rejected err =>
    rw [hphase] at h
    cases h
    exact .caught hphase
  | settled =>
    rw [hphase] at h
    cases h

theorem pollOn_turn {i : ℕ} {e : SubscriptionEvent} {acts : List (UserAction ρ)}
    (h : s.pollOn options content i e = some (s', acts)) :
    Turn options content many ids given s (.poll i e) s' acts := by
  simp only [pollOn, Option.bind_eq_bind, Option.bind_eq_some_iff, Option.pure_def, Option.some.injEq] at h
  obtain ⟨poll, hpoll, live, hlive, heq⟩ := h
  cases heq
  exact .polled hpoll hlive

theorem turn_turn {e : DeferredEvent} {acts : List (UserAction ρ)}
    (h : s.turn options content many ids given e = some (s', acts)) :
    Turn options content many ids given s e s' acts := by
  cases e with
  | address i r =>
    cases hphase : s.phase with
    | resolving outcomes =>
      simp only [turn, hphase] at h
      split at h
      next hnone hid =>
        cases h
        exact .answered hphase hnone hid
      next => cases h
    | reporting | created | rejected | settled => simp [turn, hphase] at h
  | next => exact goOn_turn h
  | imported r =>
    cases hphase : s.phase with
    | reporting errors addresses =>
      cases errors with
      | nil =>
        simp only [turn, hphase] at h
        cases r with
        | ok =>
          cases h
          exact .imported hphase
        | error err =>
          cases h
          exact .failed hphase
      | cons => simp [turn, hphase] at h
    | resolving | created | rejected | settled => simp [turn, hphase] at h
  | poll i e =>
    cases e with
    | unsubscribe => cases h
    | poll | latestLedger | page | replayed | backfilled | next => exact pollOn_turn h
  | unsubscribe =>
    cases h
    exact .unsubscribed

theorem step_turn {e : DeferredEvent} (h : s.step options content many ids given e = some s') :
    ∃ s₁ acts, Turn options content many ids given s e s₁ acts ∧ s' = { s₁ with actions := s.actions ++ acts } := by
  obtain ⟨⟨s₁, acts⟩, hturn, rfl⟩ := Option.map_eq_some_iff.mp h
  exact ⟨s₁, acts, turn_turn hturn, rfl⟩

/-- What holds of every handle. -/
structure Sound (s : DeferredSubscription ρ) : Prop where
  stopped : .unsubscribed ∈ s.actions ↔ s.stopped = true
  handlers : s.stopped = true → s.handlers = {}
  before : s.phase.isBefore = true → s.polls = []
  released : ∀ poll ∈ s.polls, poll.2.Released
  inner : s.phase = .settled → s.stopped = false → s.isInner = true ∨ s.polls = []
  gone : s.phase = .settled → s.stopped = true → ∀ poll ∈ s.polls, .unsubscribed ∈ poll.2.actions

theorem mem_letGo {poll : String × LiveSubscription ρ} :
    poll ∈ s.letGo.polls ↔ ∃ p ∈ s.polls, (p.1, p.2.unsubscribe) = poll := List.mem_map

theorem reportTo_empty (err : Thrown) : reportTo ({} : UserHandlers ρ) err = [] := rfl

theorem isCall_of_mem_reportTo {err : Thrown} {handlers : UserHandlers ρ} {a : UserAction ρ}
    (h : a ∈ reportTo handlers err) : a.isCall = true := by
  obtain ⟨call, -, rfl⟩ : ∃ call, handlers.onError.map (fun onError => onError err) = some call ∧
      a = .called call := by
    simpa [reportTo, eq_comm, and_comm] using h
  rfl

theorem isCall_of_mem_calls {live live' : LiveSubscription ρ} {a : UserAction ρ} (h : a ∈ live.calls live') :
    a.isCall = true := (List.mem_filter.mp h).2

/-- A turn that only calls keeps what holds, if it keeps the polls. -/
theorem Sound.act {s₁ : DeferredSubscription ρ} {acts : List (UserAction ρ)} (h : Sound s)
    (hcalls : ∀ a ∈ acts, a.isCall = true) (hstopped : s₁.stopped = s.stopped) (hhandlers : s₁.handlers = s.handlers)
    (hbefore : s₁.phase.isBefore = true → s₁.polls = []) (hreleased : ∀ poll ∈ s₁.polls, poll.2.Released)
    (hinner : s₁.phase = .settled → s.stopped = false → s₁.isInner = true ∨ s₁.polls = [])
    (hgone : s₁.phase = .settled → s.stopped = true → ∀ poll ∈ s₁.polls, .unsubscribed ∈ poll.2.actions) :
    Sound { s₁ with actions := s.actions ++ acts } where
  stopped := by
    have hacts : UserAction.unsubscribed ∉ acts := fun hmem => by simpa [UserAction.isCall] using hcalls _ hmem
    simp only [List.mem_append, hacts, or_false, hstopped]
    exact h.stopped
  handlers := by
    dsimp only
    rw [hstopped, hhandlers]
    exact h.handlers
  before := hbefore
  released := hreleased
  inner := by
    dsimp only
    rw [hstopped]
    exact hinner
  gone := by
    dsimp only
    rw [hstopped]
    exact hgone

theorem Sound.polls_eq_nil (h : Sound s) {phase : DeferredPhase} (hphase : s.phase = phase)
    (hbefore : phase.isBefore = true) : s.polls = [] := h.before (hphase ▸ hbefore)

theorem Sound.step {e : DeferredEvent} (h : Sound s) (hs : s.step options content many ids given e = some s') :
    Sound s' := by
  obtain ⟨s₁, acts, hturn, rfl⟩ := step_turn hs
  cases hturn with
  | answered hphase | failed hphase =>
    have hpolls := h.polls_eq_nil hphase rfl
    exact h.act (by simp) rfl rfl (fun _ => hpolls) h.released nofun nofun
  | resolved hphase =>
    have hpolls := h.polls_eq_nil hphase rfl
    refine h.act (by simp) rfl rfl (fun _ => hpolls) h.released (fun _ _ => .inr hpolls) ?_
    simp [hpolls]
  | reported hphase =>
    have hpolls := h.polls_eq_nil hphase rfl
    exact h.act (fun a => isCall_of_mem_reportTo) rfl rfl (fun _ => hpolls) h.released nofun nofun
  | imported hphase =>
    refine h.act (by simp) rfl rfl nofun ?_ nofun nofun
    simp [LiveSubscription.Released, released_nil]
  | dropped hphase hstopped =>
    refine h.act (by simp) rfl rfl nofun ?_ (fun _ hfalse => ?_) fun _ _ => ?_
    · intro poll hpoll
      obtain ⟨p, hp, rfl⟩ := mem_letGo.mp hpoll
      exact LiveSubscription.released_unsubscribe (h.released p hp)
    · simp [hstopped] at hfalse
    · intro poll hpoll
      obtain ⟨p, -, rfl⟩ := mem_letGo.mp hpoll
      simp [LiveSubscription.unsubscribe]
  | taken hphase hstopped =>
    refine h.act (by simp) rfl rfl nofun h.released (fun _ _ => .inl rfl) fun _ htrue => ?_
    simp [hstopped] at htrue
  | caught hphase =>
    have hpolls := h.polls_eq_nil hphase rfl
    refine h.act (fun a => isCall_of_mem_reportTo) rfl rfl nofun h.released (fun _ _ => .inr hpolls) fun _ _ => ?_
    simp [hpolls]
  | @polled i e poll live hpoll hlive =>
    have hmem : poll ∈ s.polls := List.mem_of_getElem? hpoll
    obtain ⟨hreleased, hgrow⟩ := (h.released poll hmem).step hlive
    refine h.act (fun a => isCall_of_mem_calls) rfl rfl (fun hbefore => ?_) ?_
      (fun hsettled hfalse => ?_) fun hsettled hstopped => ?_
    · simp [h.before hbefore]
    · intro p hp
      rcases List.mem_or_eq_of_mem_set hp with hp | rfl
      · exact h.released p hp
      · exact hreleased
    · refine (h.inner hsettled hfalse).imp_right fun hnil => ?_
      simp [hnil]
    · intro p hp
      rcases List.mem_or_eq_of_mem_set hp with hp | rfl
      · exact h.gone hsettled hstopped p hp
      · exact hgrow.subset (h.gone hsettled hstopped poll hmem)
  | unsubscribed =>
    by_cases hinner : s.isInner = true
    · simp only [hinner, if_true]
      refine ⟨by simp, fun _ => rfl, fun hbefore => ?_, ?_, nofun, fun _ _ => ?_⟩
      · simp [letGo, h.before hbefore]
      · intro poll hpoll
        obtain ⟨p, hp, rfl⟩ := mem_letGo.mp hpoll
        exact LiveSubscription.released_unsubscribe (h.released p hp)
      · intro poll hpoll
        obtain ⟨p, -, rfl⟩ := mem_letGo.mp hpoll
        simp [LiveSubscription.unsubscribe]
    · simp only [hinner, Bool.false_eq_true, if_false]
      refine ⟨by simp, fun _ => rfl, h.before, h.released, nofun, fun hsettled _ => ?_⟩
      cases hstopped : s.stopped with
      | true => exact h.gone hsettled hstopped
      | false =>
        have hpolls := (h.inner hsettled hstopped).resolve_left hinner
        simp [hpolls]

theorem sound_start : Sound (start ids given) := by
  refine ⟨?_, nofun, fun _ => rfl, ?_, nofun, nofun⟩ <;> simp [start]

theorem run_sound (h : run (step options content many ids given) (start ids given) log = some s) : Sound s :=
  run_induction (P := fun s _ => Sound s) sound_start (fun _ _ _ _ hs he => hs.step he) h

/-! ## When it is quiet -/

/-- Nothing that happened is taken back. -/
theorem prefix_step {e : DeferredEvent} (hs : s.step options content many ids given e = some s') :
    s.actions <+: s'.actions := by
  obtain ⟨s₁, acts, -, rfl⟩ := step_turn hs
  exact List.prefix_append s.actions acts

/-- Calls may follow as long as nobody has unsubscribed. -/
theorem quiet_calls {actions acts : List (UserAction ρ)} (h : Quiet actions)
    (hcalls : ∀ a ∈ acts, a.isCall = true) :
    Quiet (actions ++ acts) ↔ .unsubscribed ∈ actions → acts = [] := by
  constructor
  · intro hquiet hmem
    refine List.eq_nil_iff_forall_not_mem.mpr fun a ha => ?_
    have hlast := (List.pairwise_append.mp hquiet).2.2 _ hmem a ha rfl
    simpa [hlast, UserAction.isCall] using hcalls a ha
  · intro hnil
    refine List.pairwise_append.mpr ⟨h, ?_, ?_⟩
    · refine List.pairwise_of_forall_mem_list fun a ha b hb heq => ?_
      simpa [heq, UserAction.isCall] using hcalls a ha
    · intro a ha b hb heq
      rw [hnil (heq ▸ ha)] at hb
      simp at hb

/-- Once it is stopped a poll calls nothing, unless it is early. -/
theorem Sound.calls_iff (h : Sound s) {i : ℕ} {e : SubscriptionEvent} {poll : String × LiveSubscription ρ}
    {live : LiveSubscription ρ} (hpoll : s.polls[i]? = some poll)
    (hlive : poll.2.step options content e = some live) (hstopped : s.stopped = true) :
    poll.2.calls live = [] ↔ ¬ Early options content given s (.poll i e) := by
  constructor
  · rintro hnil ⟨-, p, l, hp, hl, hcalls⟩
    cases hpoll.symm.trans hp
    cases hlive.symm.trans hl
    exact hcalls hnil
  · intro hearly
    have hmem : poll ∈ s.polls := List.mem_of_getElem? hpoll
    cases hphase : s.phase with
    | created =>
      by_contra hcalls
      exact hearly ⟨hphase, poll, live, hpoll, hlive, hcalls⟩
    | settled => exact LiveSubscription.calls_eq_nil (h.released poll hmem) (h.gone hphase hstopped poll hmem) hlive
    | resolving | reporting | rejected =>
      rw [h.polls_eq_nil hphase rfl] at hmem
      cases hmem

/-- A step keeps the quiet, unless it is early after `unsubscribe`. -/
theorem Sound.quiet_iff {e : DeferredEvent} (h : Sound s) (hquiet : Quiet s.actions)
    (hs : s.step options content many ids given e = some s') :
    Quiet s'.actions ↔ ¬ (s.stopped = true ∧ Early options content given s e) := by
  obtain ⟨s₁, acts, hturn, rfl⟩ := step_turn hs
  rw [not_and]
  cases hturn with
  | answered | imported | failed => simp [Early, hquiet]
  | resolved hphase | dropped hphase | taken hphase => simp [Early, hphase, hquiet]
  | reported hphase =>
    rw [quiet_calls hquiet fun a => isCall_of_mem_reportTo, h.stopped]
    simp [Early, hphase, reportTo]
  | caught hphase =>
    rw [quiet_calls hquiet fun a => isCall_of_mem_reportTo, h.stopped]
    have hnil : s.stopped = true → reportTo s.handlers (toError ‹Thrown›) = [] := by
      intro hstopped
      rw [h.handlers hstopped, reportTo_empty]
    simpa [Early, hphase] using hnil
  | polled hpoll hlive =>
    rw [quiet_calls hquiet fun a => isCall_of_mem_calls, h.stopped]
    exact forall_congr' fun hstopped => h.calls_iff hpoll hlive hstopped
  | unsubscribed =>
    have hquiet' : Quiet (s.actions ++ [.unsubscribed]) :=
      List.pairwise_append.mpr ⟨hquiet, by simp, by simp⟩
    simp [Early, hquiet']

/-- **When nothing is called after `unsubscribe`**: exactly if no error is reported, and no poll finds anything, in
the time between `unsubscribe` and `.then`. -/
theorem deferred_quiet_iff (h : run (step options content many ids given) (start ids given) log = some s) :
    Quiet s.actions ↔ EachStep (step options content many ids given)
      (fun s e => ¬ (s.stopped = true ∧ Early options content given s e)) (start ids given) log := by
  refine run_iff_eachStep (I := fun s => Sound s ∧ Quiet s.actions)
    (S := fun s : DeferredSubscription ρ => Quiet s.actions) (fun _ => And.right)
    ⟨sound_start, List.Pairwise.nil⟩ ?_ ?_ ?_ h
  · rintro s e s' ⟨hsound, hquiet⟩ hok hs
    exact ⟨hsound.step hs, (hsound.quiet_iff hquiet hs).mpr hok⟩
  · rintro s e s' ⟨hsound, hquiet⟩ hbad hs
    exact fun h' => hbad ((hsound.quiet_iff hquiet hs).mp h')
  · intro s e s' hloud hs hquiet
    exact hloud (hquiet.sublist (prefix_step hs).sublist)

/-- Errors by their messages. -/
def onErrorText : UserHandlers String := { onError := some Thrown.text }

/-- A stream that is not there is reported to a handle that was let go of. -/
theorem deferred_quiet_iff_missing : ∃ s,
    run (step {} pausedContent true ["7"] onErrorText)
        (start ["7"] onErrorText) [.unsubscribe, .address 0 (.ok none), .next, .next] = some s ∧
      s.actions = [.unsubscribed, .called "Stream 7 not found"] ∧
      (Quiet s.actions ↔ EachStep (step {} pausedContent true ["7"] onErrorText)
        (fun s e => ¬ (s.stopped = true ∧ Early {} pausedContent onErrorText s e))
        (start ["7"] onErrorText)
        [.unsubscribe, .address 0 (.ok none), .next, .next]) := by
  obtain ⟨s, hs, hactions⟩ := Option.map_eq_some_iff.mp (by decide +kernel :
    (run (step {} pausedContent true ["7"] onErrorText)
      (start ["7"] onErrorText) [.unsubscribe, .address 0 (.ok none), .next, .next]).map
        DeferredSubscription.actions = some [.unsubscribed, .called "Stream 7 not found"])
  exact ⟨s, hs, hactions, deferred_quiet_iff hs⟩

/-! ## What is reported and polled -/

/-- The calls that report what `streamAddress` has not found. -/
def reports (many : Bool) (given : UserHandlers ρ) (answers : List (Except Thrown String)) : List (UserAction ρ) :=
  if many then (errorsOf answers).flatMap fun err => reportTo given (toError err) else []

/-- The streams that are polled: all that were found; none if the import has failed, or if `subscribe` has found
none. -/
def Polled (many : Bool) (answers : List (Except Thrown String)) (log : List DeferredEvent)
    (polled : List String) : Prop :=
  polled = addressesOf answers ∧ (many = false → errorsOf answers = []) ∨
    polled = [] ∧ ((∃ err, .imported (.error err) ∈ log) ∨ many = false ∧ errorsOf answers ≠ [])

/-- How far it is, once `streamAddress` has answered for all the ids. -/
def Progress (many : Bool) (given : UserHandlers ρ) (answers : List (Except Thrown String))
    (log : List DeferredEvent) (s : DeferredSubscription ρ) : Prop :=
  match s.phase with
  | .resolving outcomes => outcomes = answers.map some ∧ s.actions.filter UserAction.isCall = []
  | .reporting errors addresses => addresses = addressesOf answers ∧ (many = false → errorsOf answers = []) ∧
      s.actions.filter UserAction.isCall ++ errors.flatMap (reportTo given) = reports many given answers
  | .created | .rejected _ | .settled =>
    Polled many answers log (s.polls.map Prod.fst) ∧
      reports many given answers <+: s.actions.filter UserAction.isCall

theorem map_fst_letGo (s : DeferredSubscription ρ) : s.letGo.polls.map Prod.fst = s.polls.map Prod.fst := by
  simp [letGo, Function.comp_def]

theorem map_fst_set (polls : List (String × LiveSubscription ρ)) {i : ℕ} {poll : String × LiveSubscription ρ}
    (h : polls[i]? = some poll) (live : LiveSubscription ρ) :
    (polls.set i (poll.1, live)).map Prod.fst = polls.map Prod.fst := by
  obtain ⟨hlt, heq⟩ := List.getElem?_eq_some_iff.mp h
  refine List.ext_getElem? fun j => ?_
  by_cases hij : i = j
  · subst hij
    simp [hlt, heq]
  · simp [hij]

theorem Polled.mono {answers : List (Except Thrown String)} {l l' : List DeferredEvent} {polled : List String}
    (h : Polled many answers l polled) (hl : l ⊆ l') : Polled many answers l' polled := by
  refine h.imp_right fun h => ⟨h.1, h.2.imp_left ?_⟩
  rintro ⟨err, herr⟩
  exact ⟨err, hl herr⟩

theorem mapM_map_some (answers : List (Except Thrown String)) :
    ((answers.map some).mapM fun outcome => outcome) = some answers := by
  induction answers with
  | nil => rfl
  | cons answer answers ih =>
    rw [List.map_cons, List.mapM_cons, ih]
    rfl

theorem filter_reportTo (handlers : UserHandlers ρ) (err : Thrown) :
    (reportTo handlers err).filter UserAction.isCall = reportTo handlers err :=
  List.filter_eq_self.mpr fun _ => isCall_of_mem_reportTo

/-- Once there are polls, or none will be, the calls go on. -/
theorem Polled.go {answers : List (Except Thrown String)} {l l' : List DeferredEvent}
    {polls polls' : List (String × LiveSubscription ρ)} {actions : List (UserAction ρ)}
    (h : Polled many answers l (polls.map Prod.fst) ∧ reports many given answers <+: actions.filter UserAction.isCall)
    (hpolls : polls'.map Prod.fst = polls.map Prod.fst) (hl : l ⊆ l') (acts : List (UserAction ρ)) :
    Polled many answers l' (polls'.map Prod.fst) ∧
      reports many given answers <+: (actions ++ acts).filter UserAction.isCall := by
  refine ⟨hpolls ▸ h.1.mono hl, h.2.trans ?_⟩
  rw [List.filter_append]
  exact List.prefix_append _ _

theorem Progress.step {answers : List (Except Thrown String)} {l : List DeferredEvent} {e : DeferredEvent}
    (hsound : Sound s) (h : Progress many given answers l s)
    (hs : s.step options content many ids given e = some s') : Progress many given answers (l ++ [e]) s' := by
  have hl : l ⊆ l ++ [e] := List.subset_append_left l [e]
  obtain ⟨s₁, acts, hturn, rfl⟩ := step_turn hs
  cases hturn with
  | answered hphase hnone hid =>
    simp only [Progress, hphase] at h
    simp [h.1] at hnone
  | @resolved outcomes _ hphase hall =>
    simp only [Progress, hphase] at h
    obtain ⟨rfl, hcalls⟩ := h
    cases (mapM_map_some answers).symm.trans hall
    have hpolls := hsound.polls_eq_nil hphase rfl
    cases many with
    | true => simp [Progress, resolved, reports, hcalls, List.flatMap_map]
    | false =>
      cases herrors : errorsOf answers with
      | nil => simp [Progress, resolved, reports, hcalls, herrors]
      | cons err errors => simp [Progress, resolved, reports, herrors, Polled, hpolls]
  | @reported err errors addresses hphase =>
    simp only [Progress, hphase] at h ⊢
    obtain ⟨haddresses, hone, hcalls⟩ := h
    refine ⟨haddresses, hone, ?_⟩
    rw [List.filter_append, filter_reportTo, List.append_assoc, ← hcalls, List.flatMap_cons]
  | imported hphase =>
    simp only [Progress, hphase] at h ⊢
    obtain ⟨haddresses, hone, hcalls⟩ := h
    refine ⟨.inl ⟨by simp [haddresses, Function.comp_def], hone⟩, ?_⟩
    simp [← hcalls]
  | @failed err addresses hphase =>
    simp only [Progress, hphase] at h ⊢
    refine ⟨.inr ⟨by simp [hsound.polls_eq_nil hphase rfl], .inl ⟨err, by simp⟩⟩, ?_⟩
    simp [← h.2.2]
  | dropped hphase =>
    simp only [Progress, hphase] at h ⊢
    exact Polled.go h (map_fst_letGo s) hl []
  | taken hphase =>
    simp only [Progress, hphase] at h ⊢
    exact Polled.go h rfl hl _
  | caught hphase =>
    simp only [Progress, hphase] at h ⊢
    exact Polled.go h rfl hl _
  | @polled i e poll live hpoll hlive =>
    have hpolls := map_fst_set s.polls hpoll live
    have hmem := List.mem_of_getElem? hpoll
    cases hphase : s.phase with
    | created | settled =>
      simp only [Progress, hphase] at h ⊢
      exact Polled.go h hpolls hl _
    | resolving | reporting | rejected =>
      rw [hsound.polls_eq_nil hphase rfl] at hmem
      cases hmem
  | unsubscribed =>
    have hpolls : (if s.isInner then s.letGo else s).polls.map Prod.fst = s.polls.map Prod.fst := by
      split_ifs
      · exact map_fst_letGo s
      · rfl
    have hsame : (if s.isInner then s.letGo else s).phase = s.phase := by split_ifs <;> rfl
    have hcalls : (s.actions ++ [UserAction.unsubscribed]).filter UserAction.isCall =
        s.actions.filter UserAction.isCall := by
      simp [UserAction.isCall]
    cases hphase : s.phase with
    | resolving | reporting =>
      simp only [Progress, hsame, hphase, hcalls] at h ⊢
      exact h
    | created | rejected | settled =>
      simp only [Progress, hsame, hphase] at h ⊢
      exact Polled.go h hpolls hl _

/-- Nothing is called before `streamAddress` has answered for all the ids. -/
theorem calls_resolving (h : run (step options content many ids given) (start ids given) log = some s)
    {outcomes : List (Option (Except Thrown String))} (hphase : s.phase = .resolving outcomes) :
    s.actions.filter UserAction.isCall = [] := by
  refine (run_induction (P := fun s _ => Sound s ∧ ∀ outcomes, s.phase = .resolving outcomes →
    s.actions.filter UserAction.isCall = []) ⟨sound_start, fun _ _ => rfl⟩ ?_ h).2 outcomes hphase
  rintro s l e s' ⟨hsound, ih⟩ hs
  refine ⟨hsound.step hs, fun outcomes houtcomes => ?_⟩
  obtain ⟨s₁, acts, hturn, rfl⟩ := step_turn hs
  cases hturn with
  | answered hphase => simp [ih _ hphase]
  | resolved hphase => simp [ih _ hphase]
  | polled hpoll hlive =>
    rw [hsound.polls_eq_nil houtcomes rfl] at hpoll
    cases hpoll
  | unsubscribed =>
    have hsame : (if s.isInner then s.letGo else s).phase = s.phase := by split_ifs <;> rfl
    simp [ih outcomes (hsame.symm.trans houtcomes), UserAction.isCall]
  | reported | imported | failed | dropped | taken | caught => cases houtcomes

/-- **What comes of it**, when `streamAddress` has given these answers: `subscribeToStreams` begins with a report of
each id that failed, in their order; what was found is polled, one poll for each, unless the import fails or an id of
`subscribe` has failed; and if the handle is let go of, so is each poll. -/
theorem deferred_settled {answers : List (Except Thrown String)} {log' : List DeferredEvent}
    (h : run (step options content many ids given) (start ids given) log = some s)
    (hphase : s.phase = .resolving (answers.map some))
    (h' : run (step options content many ids given) s log' = some s') (hsettled : s'.phase = .settled) :
    Polled many answers log' (s'.polls.map Prod.fst) ∧
      reports many given answers <+: s'.actions.filter UserAction.isCall ∧
      (s'.stopped = true → ∀ poll ∈ s'.polls, .unsubscribed ∈ poll.2.actions ∧ poll.2.handlers = {}) := by
  have hsound := run_sound h
  have hprogress : Progress many given answers [] s := by
    simp [Progress, hphase, calls_resolving h hphase]
  obtain ⟨hsound', hprogress'⟩ : Sound s' ∧ Progress many given answers log' s' :=
    run_induction (P := fun s l => Sound s ∧ Progress many given answers l s) ⟨hsound, hprogress⟩
      (fun _ _ _ _ hs he => ⟨hs.1.step he, Progress.step hs.1 hs.2 he⟩) h'
  simp only [Progress, hsettled] at hprogress'
  refine ⟨hprogress'.1, hprogress'.2, fun hstopped poll hpoll => ?_⟩
  have hgone := hsound'.gone hsettled hstopped poll hpoll
  exact ⟨hgone, (hsound'.released poll hpoll).empty hgone⟩

/-- Of two streams one is there. -/
theorem deferred_settled_two : ∃ s s',
    run (step {} pausedContent true ["7", "8"] onErrorText)
        (start ["7", "8"] onErrorText)
        [.address 1 (.ok (some "CB")), .address 0 (.ok none)] = some s ∧
      run (step {} pausedContent true ["7", "8"] onErrorText) s
        [.next, .next, .imported (.ok ()), .next, .unsubscribe] = some s' ∧
      s'.polls.map Prod.fst = ["CB"] ∧ s'.actions = [.called "Stream 7 not found", .unsubscribed] ∧
      ∀ poll ∈ s'.polls, UserAction.unsubscribed ∈ poll.2.actions ∧ poll.2.handlers = {} := by
  have hlast {s s' : DeferredSubscription String}
      (h : run (step {} pausedContent true ["7", "8"] onErrorText) (start ["7", "8"] onErrorText)
        [.address 1 (.ok (some "CB")), .address 0 (.ok none)] = some s)
      (hphase : s.phase = .resolving ([addressOf "7" (.ok none), .ok "CB"].map some))
      (h' : run (step {} pausedContent true ["7", "8"] onErrorText) s
        [.next, .next, .imported (.ok ()), .next, .unsubscribe] = some s')
      (hsettled : s'.phase = .settled) := (deferred_settled h hphase h' hsettled).2.2
  exact ⟨_, _, rfl, rfl, rfl, by decide +kernel, hlast rfl rfl rfl rfl rfl⟩

end DeferredSubscription

end StreamFi
