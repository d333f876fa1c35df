import StreamFi.Js.Value

/-!
# The WalletConnect adapter

The adapter keeps one session, which `setSession`, a handshake and the wallet's events replace and
which `disconnect` and the wallet's events drop. The listeners for those events are attached with a
session and detached by `disconnect`.

* `WalletConnectSession.publicKey`, `attachSessionListeners`, `handleSessionEvent`: the code;
* `Adapter.step`: one call, settled promise or event, at any time;
* for the record: the topics of sessions that ended or moved, whether a disconnect has been followed
  by a call that may connect, and what was known at each signing request.
-/

namespace StreamFi

open Js

/-! ## Sessions -/

structure WalletConnectSession where
  topic : Option String := none
  account : Option String := none
  /-- `namespaces.stellar.accounts` -/
  stellarAccounts : Option (List String) := none
  accounts : Option (List String) := none
  deriving DecidableEq

/-- `account.split(':').at(-1)`. -/
def accountId (account : String) : String :=
  String.ofList (account.toList.reverse.takeWhile (· ≠ ':')).reverse

/-- The first account of a list, if there is one that is not empty. -/
def firstAccount (accounts : Option (List String)) : Option String :=
  truthyText (accounts.bind List.head?)

namespace WalletConnectSession

/-- `getPublicKeyFromSession`. -/
def publicKey (session : WalletConnectSession) : Option String :=
  match session.account with
  | some account => some (accountId account)
  | none =>
    ((firstAccount session.stellarAccounts).or (firstAccount session.accounts)).map accountId

/-- A public key that counts as one. -/
def key (session : WalletConnectSession) : Option String := truthyText session.publicKey

/-- The session after `accountsChanged`. -/
def withAccounts (session : WalletConnectSession) (account : String) (accounts : List String) :
    WalletConnectSession :=
  { session with
    account := some account
    accounts := some (account :: accounts)
    stellarAccounts := some (account :: accounts) }

end WalletConnectSession

/-- The methods that the client has; without a client there are none. -/
structure WalletConnectClient where
  connect : Bool := true
  disconnect : Bool := true
  request : Bool := true
  on : Bool := true
  off : Bool := true

structure AdapterSettings where
  chainId : String
  client : WalletConnectClient := {}

inductive SessionChangeType where
  | accountsChanged
  | chainChanged
  | disconnected
  | sessionExpired
  deriving DecidableEq

structure WalletConnectSessionChange where
  type : SessionChangeType
  publicKey : Option String
  deriving DecidableEq

inductive DisconnectReason where
  | sessionDelete
  | sessionExpire
  deriving DecidableEq

def DisconnectReason.change : DisconnectReason → SessionChangeType
  | .sessionDelete => .disconnected
  | .sessionExpire => .sessionExpired

structure WalletConnectDisconnectEvent where
  reason : DisconnectReason
  topic : Option String
  deriving DecidableEq

/-- The event of a `session_event`; what is not a string is left out of `accountsChanged`, and is
`none` for `chainChanged`. -/
inductive SessionEvent where
  | accountsChanged (accounts : List String)
  | chainChanged (data : Option String)
  | other

/-- The session ended or moved to another chain. -/
def SessionEvent.ends (chainId : String) : SessionEvent → Bool
  | .accountsChanged accounts => accounts.isEmpty
  | .chainChanged data => data.any (· ≠ chainId)
  | .other => false

/-! ## Calls -/

structure SignTransactionOptions where
  networkPassphrase : Option String := none
  accountToSign : Option String := none
  deriving DecidableEq

structure SigningRequest where
  topic : String
  chainId : String
  accountToSign : String
  networkPassphrase : String
  deriving DecidableEq

/-- A call, and where it stands. -/
inductive AdapterCall where
  /-- `connect` awaits the handshake -/
  | connecting
  | connected (result : Except Thrown String)
  /-- `disconnect` awaits the client, for the session of this topic -/
  | disconnecting (topic : Option String)
  | disconnected (result : Except Thrown Unit)
  /-- `signTransaction` awaits `getPublicKey`, which has read this key -/
  | signing (pubKey : String) (opts : SignTransactionOptions)
  | signed (result : Except Thrown SigningRequest)
  deriving DecidableEq

/-- A signing request, with the caller's account and the session when it was issued, and the topics
that had ended by then. -/
structure IssuedRequest where
  request : SigningRequest
  given : Option String
  session : Option WalletConnectSession
  ended : List String
  deriving DecidableEq

structure WalletConnectAdapter where
  session : Option WalletConnectSession := none
  /-- whether `detachListeners` is set -/
  detachListeners : Bool := false
  /-- what `onSessionChange` was told -/
  changes : List WalletConnectSessionChange := []
  /-- what the `onDisconnect` listeners were told -/
  disconnects : List WalletConnectDisconnectEvent := []

structure Adapter extends WalletConnectAdapter where
  /-- the client calls the handlers -/
  listening : Bool := false
  calls : List AdapterCall := []
  requests : List IssuedRequest := []
  /-- the topics of sessions that ended or moved -/
  ended : List String := []
  /-- A `disconnect()` has resolved, and no `connect()` or `setSession()` has started since. -/
  disconnectedSince : Bool := false

inductive AdapterEvent where
  | connect
  | disconnect
  | setSession (session : Option WalletConnectSession)
  | signTransaction (opts : SignTransactionOptions)
  /-- the handshake that call `i` awaits comes to an end -/
  | handshake (i : ℕ) (result : Except Thrown (Option WalletConnectSession))
  /-- the client's promise that call `i` awaits is settled -/
  | clientDisconnected (i : ℕ) (result : Except Thrown Unit)
  /-- call `i` has its public key -/
  | resume (i : ℕ)
  | sessionEvent (topic : Option String) (event : SessionEvent)
  | sessionEnded (reason : DisconnectReason) (topic : Option String)

namespace Adapter

variable (c : AdapterSettings) (s : Adapter)

def key : Option String := s.session.bind WalletConnectSession.key

def isConnected : Bool := s.key.isSome

def attachSessionListeners : Adapter :=
  if c.client.on && !s.detachListeners then { s with detachListeners := true, listening := true }
  else s

def detachSessionListeners : Adapter :=
  { s with
    detachListeners := false
    listening := s.listening && !(s.detachListeners && c.client.off) }

/-- `new WalletConnectAdapter(…)`. -/
def new (c : AdapterSettings) (session : Option WalletConnectSession) : Adapter :=
  let s : Adapter := { session := session }
  if session.isSome then s.attachSessionListeners c else s

def addCall (call : AdapterCall) : Adapter := { s with calls := s.calls ++ [call] }

def putCall (i : ℕ) (call : AdapterCall) : Adapter := { s with calls := s.calls.set i call }

def notConnectedError : Thrown :=
  errorOf "Error" "WalletConnect adapter is not connected. Call connect() first."

def failedError : Thrown :=
  errorOf "Error" "Failed to establish WalletConnect session or obtain public key."

def setSession (session : Option WalletConnectSession) : Adapter :=
  let s := { s with session := session, disconnectedSince := false }
  if session.isSome then s.attachSessionListeners c else s

def connect : Adapter :=
  let s := { s with disconnectedSince := false }
  match s.key with
  | some pubKey => s.addCall (.connected (.ok pubKey))
  | none =>
    if c.client.connect then s.addCall .connecting
    else s.addCall (.connected (.error failedError))

/-- `connect` after the handshake. -/
def finishConnect (i : ℕ) : Except Thrown (Option WalletConnectSession) → Adapter
  | .error err => s.putCall i (.connected (.error err))
  | .ok session =>
    let s := { s with session := session }
    match s.key with
    | none => s.putCall i (.connected (.error failedError))
    | some pubKey => (s.attachSessionListeners c).putCall i (.connected (.ok pubKey))

/-- The `finally` of `disconnect`, for the session of this topic. -/
def dropSession (topic : Option String) (result : Except Thrown Unit) : Adapter :=
  let s := ({ s with session := none } : Adapter).detachSessionListeners c
  match result with
  | .error _ => s
  | .ok () => { s with ended := s.ended ++ topic.toList, disconnectedSince := true }

def disconnect : Adapter :=
  match s.session with
  | none => (s.dropSession c none (.ok ())).addCall (.disconnected (.ok ()))
  | some session =>
    if c.client.disconnect then s.addCall (.disconnecting session.topic)
    else (s.dropSession c session.topic (.ok ())).addCall (.disconnected (.ok ()))

def signTransaction (opts : SignTransactionOptions) : Adapter :=
  match s.key with
  | none => s.addCall (.signed (.error notConnectedError))
  | some pubKey => s.addCall (.signing pubKey opts)

/-- The checks of `signTransaction`, and its request. -/
def signingRequest (pubKey : String) (opts : SignTransactionOptions) :
    Except Thrown SigningRequest :=
  match truthyText opts.networkPassphrase with
  | none => throwNew ("networkPassphrase is required for signTransaction. " ++
      "Pass it via opts.networkPassphrase or configure it at adapter construction time.")
  | some passphrase =>
    if !c.client.request then
      throwNew "WalletConnect SignClient request handler is not available."
    else match truthyText (s.session.bind WalletConnectSession.topic) with
      | none => throwNew "No active WalletConnect session topic found."
      | some topic => .ok
        { topic := topic
          chainId := c.chainId
          accountToSign := opts.accountToSign.getD pubKey
          networkPassphrase := passphrase }

/-- `signTransaction` after the public key; what the client answers changes nothing here. -/
def finishSigning (i : ℕ) (pubKey : String) (opts : SignTransactionOptions) : Adapter :=
  let result := s.signingRequest c pubKey opts
  let s := s.putCall i (.signed result)
  match result with
  | .error _ => s
  | .ok request =>
    { s with requests := s.requests ++ [⟨request, opts.accountToSign, s.session, s.ended⟩] }

/-- The handlers are called, and the event is not of another session. -/
def hears (topic : Option String) : Bool :=
  s.listening && s.session.any fun session =>
    (truthyText topic).all fun t => (truthyText session.topic).all fun t' => t = t'

/-- The topic that an event is about. -/
def about (topic : Option String) : Option String :=
  (truthyText topic).or (s.session.bind WalletConnectSession.topic)

def handleSessionEvent (session : WalletConnectSession) : SessionEvent → Adapter
  | .accountsChanged [] =>
    { s with session := none, changes := s.changes ++ [⟨.accountsChanged, none⟩] }
  | .accountsChanged (account :: accounts) =>
    let session := session.withAccounts account accounts
    { s with
      session := some session
      changes := s.changes ++ [⟨.accountsChanged, session.publicKey⟩] }
  | .chainChanged data =>
    if data.any (· ≠ c.chainId) then
      { s with session := none, changes := s.changes ++ [⟨.chainChanged, none⟩] }
    else s
  | .other => s

/-- `handleSessionDelete` and `handleSessionExpire`. -/
def handleSessionEnd (session : WalletConnectSession) (reason : DisconnectReason)
    (topic : Option String) : Adapter :=
  { s with
    session := none
    changes := s.changes ++ [⟨reason.change, none⟩]
    disconnects := s.disconnects ++ [⟨reason, truthyText (topic.or session.topic)⟩] }

/-- The session of the event's topic ended. -/
def endTopic (topic : Option String) : Adapter :=
  { s with ended := s.ended ++ (s.about topic).toList }

/-- What the wallet tells. -/
def receive (topic : Option String) (ends : Bool) (handle : Adapter → WalletConnectSession → Adapter) :
    Adapter :=
  let s' := if ends then s.endTopic topic else s
  match s.session with
  | none => s'
  | some session => if s.hears topic then handle s' session else s'

/-- A client without `on` has no events. -/
def step : AdapterEvent → Option Adapter
  | .connect => some (s.connect c)
  | .disconnect => some (s.disconnect c)
  | .setSession session => some (s.setSession c session)
  | .signTransaction opts => some (s.signTransaction opts)
  | .handshake i result => match s.calls[i]? with
    | some .connecting => some (s.finishConnect c i result)
    | _ => none
  | .clientDisconnected i result => match s.calls[i]? with
    | some (.disconnecting topic) =>
      some ((s.dropSession c topic result).putCall i (.disconnected result))
    | _ => none
  | .resume i => match s.calls[i]? with
    | some (.signing pubKey opts) => some (s.finishSigning c i pubKey opts)
    | _ => none
  | .sessionEvent topic event =>
    if c.client.on then some (s.receive topic (event.ends c.chainId) fun s session =>
      s.handleSessionEvent c session event)
    else none
  | .sessionEnded reason topic =>
    if c.client.on then some (s.receive topic true fun s session =>
      s.handleSessionEnd session reason topic)
    else none

end Adapter

end StreamFi
