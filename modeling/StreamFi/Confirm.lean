import StreamFi.Batch.Submit

/-!
# Sending and confirming

* `buildContractCallTx`: a call on the next sequence number of its source;
* `pollForConfirmation`: asking for a transaction until it is final;
* `sendAndPoll`: the hash and return value of a confirmed transaction, or what is thrown.
-/

namespace StreamFi

open Js

/-- `DEFAULT_CONFIRMATION_MAX_ATTEMPTS`. -/
def defaultConfirmationMaxAttempts : ℕ := 30

def StreamsConfig.maxAttempts (config : StreamsConfig) : ℕ :=
  config.confirmationMaxAttempts.getD defaultConfirmationMaxAttempts

/-- The node's answer to `getTransaction`. -/
inductive GetTransactionResponse where
  | notFound
  | success (returnValue : Option ScVal)
  | failed

inductive ConfirmationPollOutcome where
  | success (returnValue : Option ScVal)
  | failed
  | timeout (attempts : ℕ)
  | pollError (error : Thrown) (attempt : ℕ)

/-- The poll loop from attempt `i`, with `n` attempts to go; no caller here has a signal. -/
def pollFrom (getTransaction : ℕ → Except Thrown GetTransactionResponse) :
    ℕ → ℕ → ConfirmationPollOutcome
  | 0, i => .timeout i
  | n + 1, i => match getTransaction i with
    | .error cause => .pollError (catchNetworkError "getTransaction" cause) (i + 1)
    | .ok (.success returnValue) => .success returnValue
    | .ok .failed => .failed
    | .ok .notFound => pollFrom getTransaction n (i + 1)

def pollForConfirmation (getTransaction : ℕ → Except Thrown GetTransactionResponse)
    (maxAttempts : ℕ) : ConfirmationPollOutcome :=
  pollFrom getTransaction maxAttempts 0

/-- What `sendTransaction` comes to: the hash, or what is thrown. -/
def sentHash : Except Thrown SendTransactionResponse → Except Thrown String
  | .error cause => .error (rpcError (catchNetworkError "sendTransaction" cause))
  | .ok sent =>
    let errorResult := sent.errorResult.getD "undefined"
    if sent.isError then throwNew s!"Transaction rejected: {errorResult}" else .ok sent.hash

/-- The last step of `_sendAndPoll`. -/
def confirmed (hash : String) : ConfirmationPollOutcome → Except Thrown (Option ScVal)
  | .success returnValue => .ok returnValue
  | .failed => throwNew s!"Transaction failed: {hash}"
  | .pollError error _ => .error (rpcError error)
  | .timeout _ => throwNew s!"Transaction timed out: {hash}"

/-- `_sendAndPoll`. -/
def sendAndPoll (maxAttempts : ℕ) (sent : Except Thrown SendTransactionResponse)
    (getTransaction : String → ℕ → Except Thrown GetTransactionResponse) :
    Except Thrown (String × Option ScVal) := do
  let hash ← sentHash sent
  let returnValue ← confirmed hash (pollForConfirmation (getTransaction hash) maxAttempts)
  return (hash, returnValue)

variable {Tx : Type}

/-- `buildContractCallTx`; `account` is the source's sequence number, or why it cannot be read. -/
def buildContractCallTx (sdk : Sdk Tx) (config : StreamsConfig) (account : Except Thrown ℤ)
    (clock : Number) (caller contractId method : String) (args : List ScVal) :
    Except Thrown Tx := do
  let sequence ← account.mapError rpcError
  sdk.buildCall
    { source := caller, sequence := sequence, fee := config.fee,
      networkPassphrase := config.passphrase, contractId := contractId, method := method,
      args := args, timeout := .fin 30, clock := clock }

/-- A simulation that must succeed: it is rejected, or it comes back with a contract error. -/
def simulated (label : String) : Except Thrown (Except Thrown Simulation) → Except Thrown Simulation
  | .error cause => .error (catchNetworkError label cause)
  | .ok (.error error) => .error error
  | .ok (.ok sim) => .ok sim

end StreamFi
