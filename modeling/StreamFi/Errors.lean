import StreamFi.Js.Value

/-!
# Typed errors

* `catchNetworkError`: a transport failure becomes a `StreamFiNetworkError`;
* `fromRpcError`: a rejection that says "slow down" or "unavailable" gets its own class;
* `streamNotFoundError`, `amountExceedsWithdrawableError`.
-/

namespace StreamFi

open Js

/-- The messages the fetch stacks give a failed request. -/
def networkTypeErrorMessages : List String :=
  ["fetch failed", "Failed to fetch", "Network Error", "Load failed"]

/-- `catchNetworkError(label, …)`, on the rejection. -/
def catchNetworkError (label : String) (cause : Thrown) : Thrown :=
  if cause.name = "StreamFiNetworkError" ∨ cause.name = "InsufficientBalanceError" then cause
  else if cause.name = "TypeError" then
    if cause.text ∈ networkTypeErrorMessages ∨ cause.netCode then
      errorOf "StreamFiNetworkError" s!"Network error during {label}: {cause.text}"
    else cause
  else if cause.netCode then
    errorOf "StreamFiNetworkError" s!"Network error during {label}: {cause.text}"
  else cause

/-- `RateLimitError.fromRpcError`. -/
def fromRpcError (raw : Thrown) : Option Thrown :=
  if raw.status = some 429 then
    some (errorOf "RateLimitError"
      "RPC node rate limit exceeded (429). Back off and retry against the same endpoint.")
  else if raw.status = some 503 then
    some (errorOf "RpcServiceUnavailableError"
      ("RPC node service unavailable (503). The endpoint may be down; consider failing over to a " ++
        "different RPC URL."))
  else if raw.code = some 429 ∨ raw.code = some (-32029) then
    some (errorOf "RateLimitError"
      "RPC node rate limit exceeded (JSON-RPC error). Back off and retry.")
  else none

/-- `RateLimitError.fromRpcError(err) ?? err`. -/
def rpcError (err : Thrown) : Thrown := (fromRpcError err).getD err

def streamNotFoundError (id : ℤ) : Thrown :=
  errorOf "StreamNotFoundError" s!"Stream {id} not found"

def amountExceedsWithdrawableError (available requested : ℤ) : Thrown :=
  errorOf "AmountExceedsWithdrawableError"
    s!"Requested amount ({requested}) exceeds the withdrawable balance ({available})."

def abortError : Thrown := errorOf "AbortError" "Aborted"

end StreamFi
