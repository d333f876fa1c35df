import StreamFi.Batch.Execute
import StreamFi.Js.Rounding

/-!
# Executing a batch synchronously

`ConduitBatcher.execute` takes plain objects, one for each stream, validates them, encodes each and
builds the transactions offline.

* `payloadItem`: what validation sees of an object; `streamOperation`: its encoding;
* `execute`: the code;
* **`execute_one_success_iff`**: when one object gets to a transaction.
-/

namespace StreamFi

open Js

/-! ## Reading an object -/

/-- `v === undefined || v === null`. -/
def isNullish : Value ScVal → Bool
  | .undefined | .null => true
  | _ => false

/-- The text of a plain object: its own `toString` and `valueOf` go before the inherited ones. Of the
functions `Value` has the empty one, which returns `undefined`. -/
def objectText (entries : List (String × Value ScVal)) : Except Thrown String :=
  match entries.lookup "toString" with
  | none => .ok "[object Object]"
  | some .function => .ok "undefined"
  | some _ =>
    match entries.lookup "valueOf" with
    | some .function => .ok "undefined"
    | _ => .error (errorOf "TypeError" "Cannot convert object to primitive value")

mutual

/-- `v` as a string, implicitly. -/
def toText : Value ScVal → Except Thrown String
  | .undefined => .ok "undefined"
  | .null => .ok "null"
  | .bool b => .ok (toString b)
  | .number x => .ok (numToText x)
  | .bigint n => .ok (toString n)
  | .string s => .ok s
  | .symbol => .error (errorOf "TypeError" "Cannot convert a Symbol value to a string")
  | .function => .ok "function () {}"
  | .array xs => do
    let texts ← elementTexts xs
    return ",".intercalate texts
  | .object entries => objectText entries
  | .host _ => .ok "[object Object]"

/-- The texts of an array's elements; a missing one has none. -/
def elementTexts : List (Value ScVal) → Except Thrown (List String)
  | [] => .ok []
  | v :: vs => do
    let text ← (if isNullish v then .ok "" else toText v)
    let texts ← elementTexts vs
    return text :: texts

end

/-- `String(v)`, which takes a symbol, too. -/
def valueText : Value ScVal → Except Thrown String
  | .symbol => .ok "Symbol()"
  | v => toText v

/-- `typeof v`. -/
def typeName : Value ScVal → String
  | .undefined => "undefined"
  | .bool _ => "boolean"
  | .number _ => "number"
  | .bigint _ => "bigint"
  | .string _ => "string"
  | .symbol => "symbol"
  | .function => "function"
  | .null | .array _ | .object _ | .host _ => "object"

/-- `v[key]`, of a plain object. -/
def prop (v : Value ScVal) (key : String) : Value ScVal :=
  match v with
  | .object entries => (entries.lookup key).getD .undefined
  | _ => .undefined

/-- `Object.entries(v)`, of an array or a plain object. -/
def ownEntries : Value ScVal → List (String × Value ScVal)
  | .object entries => entries
  | .array xs => xs.zipIdx.map fun (v, i) => (toString i, v)
  | _ => []

/-- `String(v)` of a field that is present. -/
def presentText (v : Value ScVal) : Except Thrown (Option String) :=
  if isNullish v then .ok none else (valueText v).map some

def amountField : Value ScVal → Option AmountField
  | .undefined | .null => none
  | .bigint n => some (.bigint n)
  | .string s => some (.string s)
  | v => some (.other (typeName v))

/-- What `validatePayload` looks at. -/
def payloadItem (v : Value ScVal) : Except Thrown PayloadItem :=
  if isNullish v then .ok .missing
  else if typeName v ≠ "object" then .ok (.primitive (typeName v))
  else do
    let token ← presentText (prop v "token")
    let sender ← presentText (prop v "sender")
    let recipient ← presentText (prop v "recipient")
    return .object
      { token := token, sender := sender, recipient := recipient
        amount := amountField (prop v "amount") }

/-! ## The code -/

variable {Tx : Type}

structure BatchExecuteOptions where
  maxBatchSize : Option Number := none
  context : Option BatchTransactionContext := none
  method : Option String := none

/-- `v ?? 0`. -/
def orZero (v : Value ScVal) : Value ScVal := if isNullish v then .number (.fin 0) else v

/-- `v === true`. -/
def isTrue : Value ScVal → Bool
  | .bool b => b
  | _ => false

/-- The operation made of one object. -/
def streamOperation (sdk : Sdk Tx) (method : String) (params : Value ScVal) :
    Except Thrown BuildableOperation :=
  if method = "create_stream" then do
    let sender ← paramToScVal sdk (prop params "sender") none
    let recipient ← paramToScVal sdk (prop params "recipient") none
    let token ← paramToScVal sdk (prop params "token") none
    let amount ← paramToScVal sdk (prop params "amount") (some .i128)
    let rate ← paramToScVal sdk (prop params "ratePerSecond") (some .i128)
    let start ← paramToScVal sdk (orZero (prop params "startTime")) (some .u64)
    let stop ← paramToScVal sdk (orZero (prop params "endTime")) (some .u64)
    let args := [sender, recipient, token, amount, rate, start, stop,
      boolToScVal (isTrue (prop params "clawbackEnabled"))]
    return { method := method, args := some (args.map .host) }
  else .ok { method := method, params := some (ownEntries params) }

/-- A result, with the chunk count of the requested size. -/
structure ExecuteResult where
  batch : BatchResult
  chunks : Option Number
  deriving DecidableEq

/-- `ConduitBatcher.execute`. What the validation reads of the objects and their encoding stand
outside the `try`. -/
def execute (sdk : Sdk Tx) (isDestroyed : Bool) (streams : List (Value ScVal))
    (options : BatchExecuteOptions) (clock : ℕ → Number) : Except Thrown ExecuteResult :=
  if isDestroyed then throwNew "ConduitBatcher has been destroyed"
  else streams.mapM payloadItem >>= fun items =>
    let validationErrors := validatePayload sdk items
    if validationErrors ≠ [] then .ok ⟨toFailure validationErrors, none⟩
    else
      let sanitized := streams.map (bigintSafeStringify sdk.stringifyHost)
      let resolvedMaxBatchSize := options.maxBatchSize.getD (.fin defaultMaxBatchSize)
      let chunks : Number := if sanitized = [] then .fin 0
        else (Number.div (.fin sanitized.length) resolvedMaxBatchSize).ceil
      if sanitized = [] then .ok
        { batch := { success := true, operations := 0, xdr := "", xdrs := []
                     transactions := some [], prepared := some true }
          chunks := some chunks }
      else match options.context with
        | none => .ok ⟨toFailure [missingContextError], some chunks⟩
        | some context =>
          let contextErrors := validateContext sdk context
          if contextErrors ≠ [] then .ok ⟨toFailure contextErrors, some chunks⟩
          else if context.sequence = none then .ok
            ⟨toFailure ["execute() is synchronous and cannot fetch a sequence number; " ++
              "supply context.sequence, or use executeAsync() to fetch it via rpcUrl"],
              some chunks⟩
          else do
            let operations ← sanitized.mapM (streamOperation sdk (options.method.getD "create_stream"))
            match buildBatchTransactionsSync sdk operations context clock with
            | .ok built => .ok ⟨{ toBatchResult built 0 with chunks := none }, some chunks⟩
            | .error err => .ok ⟨toFailure [err.text], some chunks⟩

/-! ## One object -/

section One

variable {sdk : Sdk Tx} {context : BatchTransactionContext} {clock : ℕ → Number}

/-- **When one object gets to a transaction.** -/
theorem execute_one_success_iff {stream : Value ScVal} : (∃ result,
      execute sdk false [stream] { context := some context } clock = .ok result ∧
        result.batch.success = true) ↔
    (∃ item, payloadItem stream = .ok item ∧ validatePayload sdk [item] = []) ∧
      validateContext sdk context = [] ∧ context.sequence ≠ none ∧ ∃ op built,
        streamOperation sdk "create_stream" (bigintSafeStringify sdk.stringifyHost stream) = .ok op ∧
          buildBatchTransactionsSync sdk [op] context clock = .ok built := by
  constructor
  · rintro ⟨result, h, hs⟩
    unfold execute at h
    simp only [Bool.false_eq_true, if_false, List.map_cons, List.map_nil, List.cons_ne_nil] at h
    obtain ⟨items, hitems, h⟩ := seq_ok_iff.mp h
    obtain ⟨item, hitem, rfl⟩ := mapM_singleton_ok_iff.mp hitems
    split_ifs at h with hv hc hseq
    · cases h
      cases hs
    · cases h
      cases hs
    · cases h
      cases hs
    obtain ⟨operations, hops, h⟩ := seq_ok_iff.mp h
    obtain ⟨op, hop, rfl⟩ := mapM_singleton_ok_iff.mp hops
    refine ⟨⟨item, hitem, not_not.mp hv⟩, not_not.mp hc, hseq, op, ?_⟩
    cases hbuild : buildBatchTransactionsSync sdk [op] context clock with
    | ok built => exact ⟨built, hop, rfl⟩
    | error err =>
      rw [hbuild] at h
      cases h
      cases hs
  · rintro ⟨⟨item, hitem, hv⟩, hc, hseq, op, built, hop, hbuild⟩
    have hitems : [stream].mapM payloadItem = .ok [item] :=
      mapM_singleton_ok_iff.mpr ⟨item, hitem, rfl⟩
    have hops : [bigintSafeStringify sdk.stringifyHost stream].mapM
        (streamOperation sdk "create_stream") = .ok [op] :=
      mapM_singleton_ok_iff.mpr ⟨op, hop, rfl⟩
    simp [execute, hitems, hv, hc, hseq, hops, hbuild, toBatchResult]

end One

end StreamFi
