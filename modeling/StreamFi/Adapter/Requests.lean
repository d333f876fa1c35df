import StreamFi.Adapter.WalletConnect
import StreamFi.Run.Pool
import StreamFi.Run.Table

/-!
# Signing requests and disconnects

A handshake may end after a `disconnect` has resolved, and a session may be replaced while a signing
call has read the public key of the one before.

* `IssuedRequest.Faithful`, `Adapter.Faithful`: what is expected of every state;
* `Adapter.Undisturbed`: the session is replaced by none that a handshake started before the
  disconnect, that ended before, or that a suspended signing call did not read;
* `Adapter.Sound`: what such steps keep;
* **`signs_faithfully`**: every run of such steps.
-/

namespace StreamFi

open Js Run

/-- The request is on a session that had not ended or moved, and for its account, if the caller gave
none. -/
def IssuedRequest.Faithful (r : IssuedRequest) : Prop :=
  r.request.topic ∉ r.ended ∧
    (r.given = none → r.session.bind WalletConnectSession.key = some r.request.accountToSign)

/-- A suspended signing call meets no session, or one with a key, which is the one that it read
unless the caller gave an account. -/
def AdapterCall.Agrees (session : Option WalletConnectSession) : AdapterCall → Prop
  | .signing pubKey opts => ∀ s ∈ session, s.key.isSome = true ∧
      (opts.accountToSign = none → s.key = some pubKey)
  | _ => True

instance (session : Option WalletConnectSession) : DecidablePred (AdapterCall.Agrees session)
  | .signing pubKey opts => inferInstanceAs (Decidable (∀ s ∈ session, s.key.isSome = true ∧
      (opts.accountToSign = none → s.key = some pubKey)))
  | .connecting | .connected _ | .disconnecting _ | .disconnected _ | .signed _ => isTrue trivial

def AdapterEvent.isSetSession : AdapterEvent → Bool
  | .setSession _ => true
  | _ => false

namespace Adapter

variable {c : AdapterSettings} {s s' : Adapter}

/-- After a `disconnect()` has resolved the adapter is not connected until a later call, and every
signing request is faithful. -/
structure Faithful (s : Adapter) : Prop where
  disconnected : s.disconnectedSince = true → s.isConnected = false
  requests : ∀ r ∈ s.requests, r.Faithful

/-- The session has not ended or moved. -/
def Fresh (s : Adapter) (session : Option WalletConnectSession) : Prop :=
  ∀ topic ∈ truthyText (session.bind WalletConnectSession.topic), topic ∉ s.ended

/-- Every suspended signing call agrees with the session. -/
def AllAgree (s : Adapter) (session : Option WalletConnectSession) : Prop :=
  ∀ call ∈ s.calls, call.Agrees session

/-- The session does not connect the adapter after a `disconnect()`, before a later call. -/
def Late (s : Adapter) (session : Option WalletConnectSession) : Prop :=
  s.disconnectedSince = true ∧ (session.bind WalletConnectSession.key).isSome = true

/-- The session that the event puts in place of the one before, if it does. -/
def replacement (s : Adapter) : AdapterEvent → Option (Option WalletConnectSession)
  | .setSession session => some session
  | .handshake i (.ok session) => if s.calls[i]? = some .connecting then some session else none
  | .sessionEvent topic (.accountsChanged (account :: accounts)) =>
    if s.hears topic then some (s.session.map fun session => session.withAccounts account accounts)
    else none
  | _ => none

/-- What replaces the session has not ended before, suspended signing calls agree with it, and after
a `disconnect()` only `setSession` and a later `connect()` connect the adapter again. -/
def Undisturbed (s : Adapter) (e : AdapterEvent) : Prop :=
  match s.replacement e with
  | none => True
  | some session => s.Fresh session ∧ s.AllAgree session ∧ (s.Late session → e.isSetSession = true)

instance (s : Adapter) (e : AdapterEvent) : Decidable (s.Undisturbed e) := by
  unfold Undisturbed Fresh AllAgree Late
  cases s.replacement e <;> infer_instance

/-! ## What the steps keep -/

/-- What every step keeps that is undisturbed. -/
structure Sound (c : AdapterSettings) (s : Adapter) : Prop where
  silent : s.disconnectedSince = true → s.key = none
  /-- a session that the handlers watch, or that has a key, has not ended -/
  alive : s.listening = true ∨ s.key.isSome = true → s.Fresh s.session
  agrees : s.AllAgree s.session
  watched : c.client.on = true → s.key.isSome = true → s.listening = true
  attached : s.detachListeners = true → s.listening = true
  requests : ∀ r ∈ s.requests, r.Faithful

theorem fresh_none (s : Adapter) : s.Fresh none := fun _ h => nomatch h

theorem agrees_none (call : AdapterCall) : call.Agrees none := by
  cases call with
  | signing pubKey opts => exact fun _ h => nomatch h
  | _ => trivial

/-- Without a session. -/
theorem sound_none (hs : s.session = none) (hattached : s.detachListeners = true → s.listening = true)
    (hrequests : ∀ r ∈ s.requests, r.Faithful) : Sound c s where
  silent _ := by rw [key, hs]; rfl
  alive _ := by rw [hs]; exact s.fresh_none
  agrees call _ := by rw [hs]; exact agrees_none call
  watched _ hkey := by rw [key, hs] at hkey; cases hkey
  attached := hattached
  requests := hrequests

/-- With other calls. -/
theorem Sound.calls (h : Sound c s) {calls : List AdapterCall} {since : Bool}
    (hcalls : ∀ call ∈ calls, call ∈ s.calls ∨ call.Agrees s.session)
    (hsince : since = true → s.disconnectedSince = true) :
    Sound c { s with calls := calls, disconnectedSince := since } where
  silent hs := h.silent (hsince hs)
  alive := h.alive
  agrees call hcall := (hcalls call hcall).elim (h.agrees call) id
  watched := h.watched
  attached := h.attached
  requests := h.requests

theorem Sound.addCall (h : Sound c s) {call : AdapterCall} (hcall : call.Agrees s.session) :
    Sound c (s.addCall call) := by
  refine h.calls ?_ id
  intro call' hmem
  rcases List.mem_append.mp hmem with hold | hnew
  · exact .inl hold
  · rw [List.mem_singleton.mp hnew]
    exact .inr hcall

theorem Sound.putCall (h : Sound c s) (i : ℕ) {call : AdapterCall} (hcall : call.Agrees s.session) :
    Sound c (s.putCall i call) := by
  refine h.calls ?_ id
  intro call' hmem
  rcases List.mem_or_eq_of_mem_set hmem with hold | rfl
  · exact .inl hold
  · exact .inr hcall

/-- With another session. -/
theorem Sound.replace (h : Sound c s) (hcalls : s'.calls = s.calls) (hended : s'.ended = s.ended)
    (hrequests : s'.requests = s.requests) (hfresh : s.Fresh s'.session)
    (hagrees : s.AllAgree s'.session) (hsilent : s'.disconnectedSince = true → s'.key = none)
    (hwatched : c.client.on = true → s'.key.isSome = true → s'.listening = true)
    (hattached : s'.detachListeners = true → s'.listening = true) : Sound c s' where
  silent := hsilent
  alive _ topic htopic := by rw [hended]; exact hfresh topic htopic
  agrees call hcall := by rw [hcalls] at hcall; exact hagrees call hcall
  watched := hwatched
  attached := hattached
  requests r hr := by rw [hrequests] at hr; exact h.requests r hr

/-- **Attaching the listeners** is a change of two fields. -/
theorem attach_eq (c : AdapterSettings) (s : Adapter) :
    ∃ detach listening, s.attachSessionListeners c =
        { s with detachListeners := detach, listening := listening } ∧
      ((s.detachListeners = true → s.listening = true) → (detach = true → listening = true) ∧
        (c.client.on = true → listening = true)) := by
  unfold attachSessionListeners
  by_cases hon : (c.client.on && !s.detachListeners) = true
  · rw [if_pos hon]
    exact ⟨true, true, rfl, fun _ => ⟨fun _ => rfl, fun _ => rfl⟩⟩
  · rw [if_neg hon]
    refine ⟨s.detachListeners, s.listening, rfl, fun hattached => ⟨hattached, fun hc => ?_⟩⟩
    apply hattached
    simpa [hc] using hon

theorem Sound.setSession (h : Sound c s) {session : Option WalletConnectSession}
    (hfresh : s.Fresh session) (hagrees : s.AllAgree session) :
    Sound c (s.setSession c session) := by
  unfold Adapter.setSession
  cases session with
  | none => exact sound_none rfl h.attached h.requests
  | some session =>
    obtain ⟨detach, listening, heq, hlisten⟩ := attach_eq c
      { s with session := some session, disconnectedSince := false }
    obtain ⟨hdetach, hon⟩ := hlisten h.attached
    simp only [Option.isSome_some, if_true, heq]
    exact h.replace rfl rfl rfl hfresh hagrees (fun hf => (nomatch hf)) (fun hc _ => hon hc) hdetach

theorem Sound.connect (h : Sound c s) : Sound c (s.connect c) := by
  have hstart : Sound c { s with disconnectedSince := false } :=
    h.calls (fun _ hcall => .inl hcall) fun hf => nomatch hf
  have hadd (call : AdapterCall) (hcall : call.Agrees s.session) :
      Sound c (({ s with disconnectedSince := false } : Adapter).addCall call) :=
    hstart.addCall hcall
  simp only [Adapter.connect]
  split
  · exact hadd _ trivial
  · split_ifs
    · exact hadd _ trivial
    · exact hadd _ trivial

/-- **A handshake ends.** -/
theorem Sound.finishConnect (h : Sound c s) (i : ℕ)
    {result : Except Thrown (Option WalletConnectSession)}
    (hresult : ∀ session, result = .ok session → s.Fresh session ∧ s.AllAgree session ∧
      ¬ s.Late session) : Sound c (s.finishConnect c i result) := by
  cases result with
  | error err => exact h.putCall i trivial
  | ok session =>
    obtain ⟨hfresh, hagrees, hlate⟩ := hresult session rfl
    have hsilent : s.disconnectedSince = true → session.bind WalletConnectSession.key = none := by
      intro hs
      by_contra hkey
      exact hlate ⟨hs, Option.isSome_iff_ne_none.mpr hkey⟩
    simp only [Adapter.finishConnect, key]
    cases hkey : session.bind WalletConnectSession.key with
    | none =>
      have hnext : Sound c { s with session := session } := by
        refine h.replace rfl rfl rfl hfresh hagrees (fun _ => hkey) (fun _ hsome => ?_) h.attached
        rw [key, hkey] at hsome
        cases hsome
      exact hnext.putCall i trivial
    | some pubKey =>
      obtain ⟨detach, listening, heq, hlisten⟩ := attach_eq c { s with session := session }
      obtain ⟨hdetach, hon⟩ := hlisten h.attached
      simp only [heq]
      have hnext : Sound c { s with
          session := session, detachListeners := detach, listening := listening } :=
        h.replace rfl rfl rfl hfresh hagrees hsilent (fun hc _ => hon hc) hdetach
      exact hnext.putCall i trivial

theorem Sound.dropSession (h : Sound c s) (topic : Option String) (result : Except Thrown Unit) :
    Sound c (s.dropSession c topic result) ∧ (s.dropSession c topic result).session = none := by
  unfold Adapter.dropSession
  cases result with
  | error err => exact ⟨sound_none rfl (fun hf => nomatch hf) h.requests, rfl⟩
  | ok _ => exact ⟨sound_none rfl (fun hf => nomatch hf) h.requests, rfl⟩

theorem Sound.disconnect (h : Sound c s) : Sound c (s.disconnect c) := by
  unfold Adapter.disconnect
  split
  · exact (h.dropSession none (.ok ())).1.addCall trivial
  · split_ifs
    · exact h.addCall trivial
    · exact (h.dropSession _ (.ok ())).1.addCall trivial

theorem Sound.signTransaction (h : Sound c s) (opts : SignTransactionOptions) :
    Sound c (s.signTransaction opts) := by
  unfold Adapter.signTransaction
  cases hkey : s.key with
  | none => exact h.addCall trivial
  | some pubKey =>
    apply h.addCall
    intro session hsession
    rw [key, Option.mem_def.mp hsession, Option.bind_some] at hkey
    rw [hkey]
    exact ⟨rfl, fun _ => rfl⟩

theorem signingRequest_ok {pubKey : String} {opts : SignTransactionOptions} {request : SigningRequest}
    (h : s.signingRequest c pubKey opts = .ok request) :
    ∃ session, s.session = some session ∧ truthyText session.topic = some request.topic ∧
      request.accountToSign = opts.accountToSign.getD pubKey := by
  unfold signingRequest at h
  split at h
  · cases h
  · split_ifs at h
    · cases h
    · split at h
      · cases h
      · rename_i topic htopic
        cases h
        cases hs : s.session with
        | none =>
          rw [hs] at htopic
          cases htopic
        | some session =>
          rw [hs] at htopic
          exact ⟨session, rfl, htopic, rfl⟩

/-- **A request is issued**, by a signing call that agrees with the session. -/
theorem Sound.finishSigning (h : Sound c s) {i : ℕ} {pubKey : String} {opts : SignTransactionOptions}
    (hcall : s.calls[i]? = some (.signing pubKey opts)) :
    Sound c (s.finishSigning c i pubKey opts) := by
  have hput : Sound c (s.putCall i (.signed (s.signingRequest c pubKey opts))) := h.putCall i trivial
  unfold Adapter.finishSigning
  cases hrequest : s.signingRequest c pubKey opts with
  | error err =>
    rw [hrequest] at hput
    exact hput
  | ok request =>
    rw [hrequest] at hput
    refine ⟨hput.silent, hput.alive, hput.agrees, hput.watched, hput.attached, ?_⟩
    intro r hr
    rcases List.mem_append.mp hr with hold | hnew
    · exact h.requests r hold
    · rw [List.mem_singleton.mp hnew]
      obtain ⟨session, hs, htopic, haccount⟩ := signingRequest_ok hrequest
      obtain ⟨hkey, hread⟩ := h.agrees _ (List.mem_of_getElem? hcall) session hs
      have hskey : s.key = session.key := by rw [key, hs, Option.bind_some]
      refine ⟨?_, fun hgiven => ?_⟩
      · apply h.alive (.inr (by rw [hskey]; exact hkey))
        rw [hs]
        exact htopic
      · have hgiven : opts.accountToSign = none := hgiven
        show s.key = some request.accountToSign
        rw [hskey, haccount, hgiven]
        exact hread hgiven

/-! The wallet's events. -/

/-- An event that is not heard is of another session than one that is watched or has a key. -/
theorem Sound.endTopic (h : Sound c s) (hon : c.client.on = true) {topic : Option String}
    (hdeaf : ∀ session, s.session = some session → s.hears topic = false) :
    Sound c (s.endTopic topic) := by
  refine ⟨h.silent, ?_, h.agrees, h.watched, h.attached, h.requests⟩
  intro hwatched t ht hmem
  have hlistening : s.listening = true := hwatched.elim id fun hkey => h.watched hon hkey
  rcases List.mem_append.mp hmem with hold | hnew
  · exact h.alive hwatched t ht hold
  · have ht' : t ∈ truthyText (s.session.bind WalletConnectSession.topic) := ht
    cases hs : s.session with
    | none =>
      rw [hs] at ht'
      cases ht'
    | some session =>
      have hnot := hdeaf session hs
      rw [hs, Option.bind_some] at ht'
      rw [Adapter.about, hs] at hnew
      simp only [hears, hlistening, hs, Option.any_some, Bool.true_and, Option.mem_def.mp ht',
        Option.all_some] at hnot
      cases htopic : truthyText topic with
      | none =>
        rw [htopic] at hnot
        cases hnot
      | some t' =>
        rw [htopic] at hnot hnew
        have hne : t' ≠ t := by simpa using hnot
        have heq : t = t' := by simpa using hnew
        exact hne heq.symm

theorem Sound.receive (h : Sound c s) (hon : c.client.on = true) (topic : Option String)
    {ends : Bool} {handle : Adapter → WalletConnectSession → Adapter}
    (hhandle : ∀ session, s.session = some session → s.hears topic = true →
      Sound c (handle (if ends then s.endTopic topic else s) session)) :
    Sound c (s.receive topic ends handle) := by
  have hdeaf (hnot : ∀ session, s.session = some session → s.hears topic = false) :
      Sound c (if ends then s.endTopic topic else s) := by
    split_ifs
    · exact h.endTopic hon hnot
    · exact h
  unfold Adapter.receive
  cases hs : s.session with
  | none => exact hdeaf fun session hsome => by rw [hs] at hsome; cases hsome
  | some session =>
    simp only
    cases hhears : s.hears topic with
    | true => exact hhandle session hs hhears
    | false => exact hdeaf fun _ _ => hhears

/-- **The session is changed or dropped.** -/
theorem Sound.handleSessionEvent (h : Sound c s) {topic : Option String} {event : SessionEvent}
    {session : WalletConnectSession} (hs : s.session = some session) (hhears : s.hears topic = true)
    (hok : s.Undisturbed (.sessionEvent topic event)) :
    Sound c ((if event.ends c.chainId then s.endTopic topic else s).handleSessionEvent c session
      event) := by
  have hended : (s.endTopic topic).detachListeners = true → (s.endTopic topic).listening = true :=
    h.attached
  cases event with
  | accountsChanged accounts =>
    cases accounts with
    | nil => exact sound_none rfl hended h.requests
    | cons account accounts =>
      have hlistening : s.listening = true := by
        rw [hears, Bool.and_eq_true] at hhears
        exact hhears.1
      simp only [Undisturbed, replacement, if_pos hhears, hs, Option.map_some] at hok
      obtain ⟨hfresh, hagrees, hlate⟩ := hok
      refine h.replace rfl rfl rfl hfresh hagrees ?_ (fun _ _ => hlistening) h.attached
      intro hsince
      by_contra hkey
      cases hlate ⟨hsince, Option.isSome_iff_ne_none.mpr hkey⟩
  | chainChanged data =>
    unfold Adapter.handleSessionEvent
    cases hmoved : data.any (· ≠ c.chainId) with
    | true =>
      simp only [SessionEvent.ends, hmoved, if_true]
      exact sound_none rfl hended h.requests
    | false =>
      simp only [SessionEvent.ends, hmoved, Bool.false_eq_true, if_false]
      exact h
  | other => exact h

/-- **One step.** -/
theorem Sound.step (h : Sound c s) {e : AdapterEvent} (hok : s.Undisturbed e)
    (hstep : s.step c e = some s') : Sound c s' := by
  cases e with
  | connect =>
    cases hstep
    exact h.connect
  | disconnect =>
    cases hstep
    exact h.disconnect
  | setSession session =>
    cases hstep
    exact h.setSession hok.1 hok.2.1
  | signTransaction opts =>
    cases hstep
    exact h.signTransaction opts
  | handshake i result =>
    simp only [Adapter.step] at hstep
    split at hstep
    · rename_i hcall
      cases hstep
      apply h.finishConnect
      rintro session rfl
      simp only [Undisturbed, replacement, if_pos hcall] at hok
      obtain ⟨hfresh, hagrees, hlate⟩ := hok
      refine ⟨hfresh, hagrees, ?_⟩
      intro hl
      cases hlate hl
    · cases hstep
  | clientDisconnected i result =>
    simp only [Adapter.step] at hstep
    split at hstep
    · cases hstep
      exact (h.dropSession _ result).1.putCall i trivial
    · cases hstep
  | resume i =>
    simp only [Adapter.step] at hstep
    split at hstep
    · rename_i hcall
      cases hstep
      exact h.finishSigning hcall
    · cases hstep
  | sessionEvent topic event =>
    simp only [Adapter.step] at hstep
    split_ifs at hstep with hon
    cases hstep
    exact h.receive hon topic fun session hs hhears => h.handleSessionEvent hs hhears hok
  | sessionEnded reason topic =>
    simp only [Adapter.step] at hstep
    split_ifs at hstep with hon
    cases hstep
    exact h.receive hon topic fun _ _ _ => sound_none rfl h.attached h.requests

theorem sound_new (c : AdapterSettings) (session : Option WalletConnectSession) :
    Sound c (Adapter.new c session) := by
  have hstart : Sound c ({} : Adapter) := sound_none rfl (fun hf => nomatch hf) fun _ hr => nomatch hr
  unfold Adapter.new
  cases session with
  | none => exact hstart
  | some session =>
    obtain ⟨detach, listening, heq, hlisten⟩ := attach_eq c { session := some session }
    obtain ⟨hdetach, hon⟩ := hlisten fun hf => nomatch hf
    simp only [Option.isSome_some, if_true, heq]
    exact hstart.replace rfl rfl rfl (fun _ _ hmem => nomatch hmem) (fun _ hcall => nomatch hcall)
      (fun hf => nomatch hf) (fun hc _ => hon hc) hdetach

theorem Sound.faithful (h : Sound c s) : s.Faithful where
  disconnected hs := by rw [isConnected, h.silent hs]; rfl
  requests := h.requests

end Adapter

/-- **Every run of undisturbed steps**: after a `disconnect()` has resolved the adapter stays
disconnected until a later call, and every signing request is on a session that had not ended or
moved, and for its account. -/
theorem signs_faithfully (c : AdapterSettings) (session : Option WalletConnectSession)
    {log : List AdapterEvent}
    (hok : EachStep (Adapter.step c) Adapter.Undisturbed (Adapter.new c session) log) :
    Throughout (Adapter.step c) Adapter.Faithful (Adapter.new c session) log := by
  rintro l l' s' rfl hs'
  have hsound : Adapter.Sound c s' :=
    run_induction_of (P := fun s _ => Adapter.Sound c s) (Adapter.sound_new c session)
      (fun _ _ _ _ h hok hstep => h.step hok hstep) hok.prefix hs'
  exact hsound.faithful

/-! A wallet with two accounts. -/

def pubnetSettings : AdapterSettings where
  chainId := "stellar:pubnet"

def sessionOf (topic account : String) : Option WalletConnectSession :=
  some { topic := some topic, account := some account }

def signOptions : SignTransactionOptions where
  networkPassphrase := some "Public Global Stellar Network ; September 2015"

/-- A handshake, a request for each of two accounts, and a disconnect. -/
def calmLog : List AdapterEvent :=
  [.connect, .handshake 0 (.ok (sessionOf "t" "stellar:pubnet:GA")), .signTransaction signOptions,
    .resume 1, .sessionEvent (some "t") (.accountsChanged ["GB"]), .signTransaction signOptions,
    .resume 2, .disconnect, .clientDisconnected 3 (.ok ())]

theorem signs_faithfully_twice :
    ((run (Adapter.step pubnetSettings) (Adapter.new pubnetSettings none) calmLog).map fun s =>
        s.requests.map fun r => r.request.accountToSign) = some ["GA", "GB"] ∧
      Throughout (Adapter.step pubnetSettings) Adapter.Faithful (Adapter.new pubnetSettings none)
        calmLog := by
  have hcheck (s : Adapter) (e : AdapterEvent) (h : decide (s.Undisturbed e) = true) :
      s.Undisturbed e := of_decide_eq_true h
  refine ⟨by decide, signs_faithfully pubnetSettings none ?_⟩
  exact EachStep.of_allSteps hcheck (by decide)

/-- **A handshake outlives the disconnect**, and a suspended signing call the session that it read:
the adapter is connected after a `disconnect()`, and asks for the old account on the new session. -/
theorem late_handshake_connects :
    (∃ s, run (Adapter.step pubnetSettings) (Adapter.new pubnetSettings none)
        [.connect, .disconnect, .handshake 0 (.ok (sessionOf "t" "GA"))] = some s ∧
      s.disconnectedSince = true ∧ s.isConnected = true) ∧
    ∃ s, run (Adapter.step pubnetSettings) (Adapter.new pubnetSettings (sessionOf "t" "GA"))
        [.signTransaction signOptions, .setSession (sessionOf "u" "GB"), .resume 0] = some s ∧
      ∃ r ∈ s.requests, r.given = none ∧ r.request.topic = "u" ∧ r.request.accountToSign = "GA" ∧
        r.session.bind WalletConnectSession.key = some "GB" := by
  constructor
  · obtain ⟨s, hs, hall⟩ := (Option.any_eq_true _ _).mp (by decide :
      (run (Adapter.step pubnetSettings) (Adapter.new pubnetSettings none)
        [.connect, .disconnect, .handshake 0 (.ok (sessionOf "t" "GA"))]).any fun s =>
          s.disconnectedSince = true ∧ s.isConnected = true)
    exact ⟨s, hs, of_decide_eq_true hall⟩
  · obtain ⟨s, hs, hall⟩ := (Option.any_eq_true _ _).mp (by decide :
      (run (Adapter.step pubnetSettings) (Adapter.new pubnetSettings (sessionOf "t" "GA"))
        [.signTransaction signOptions, .setSession (sessionOf "u" "GB"), .resume 0]).any fun s =>
          ∃ r ∈ s.requests, r.given = none ∧ r.request.topic = "u" ∧
            r.request.accountToSign = "GA" ∧
            r.session.bind WalletConnectSession.key = some "GB")
    exact ⟨s, hs, of_decide_eq_true hall⟩

end StreamFi
