import StreamFi.Js.Value
import StreamFi.Js.Numeral

/-!
# Transaction records

What the indexer sends is of unknown type. It is turned into rows in which every field has a value.

* `asString`, `asEnum`, `asTimestamp`: the coercions, which do not throw;
* `normalizeTransaction`, `normalizeTransactions`: a row, and the rows of a payload;
* **`nodup_normalizeTransactions`**: no two rows have the same `id`.
-/

namespace StreamFi

open Js

/-! ## Rows -/

inductive TransactionStatus where
  | pending
  | confirmed
  | failed
  | cancelled
  | unknown
  deriving DecidableEq

def TransactionStatus.text : TransactionStatus → String
  | .pending => "PENDING"
  | .confirmed => "CONFIRMED"
  | .failed => "FAILED"
  | .cancelled => "CANCELLED"
  | .unknown => "UNKNOWN"

def validStatuses : List TransactionStatus := [.pending, .confirmed, .failed, .cancelled, .unknown]

inductive TransactionDirection where
  | «in»
  | out
  | unknown
  deriving DecidableEq

def TransactionDirection.text : TransactionDirection → String
  | .in => "IN"
  | .out => "OUT"
  | .unknown => "UNKNOWN"

def validDirections : List TransactionDirection := [.in, .out, .unknown]

inductive TransactionKind where
  | create
  | withdraw
  | pause
  | resume
  | cancel
  | topUp
  | unknown
  deriving DecidableEq

def TransactionKind.text : TransactionKind → String
  | .create => "CREATE"
  | .withdraw => "WITHDRAW"
  | .pause => "PAUSE"
  | .resume => "RESUME"
  | .cancel => "CANCEL"
  | .topUp => "TOP_UP"
  | .unknown => "UNKNOWN"

def validKinds : List TransactionKind := [.create, .withdraw, .pause, .resume, .cancel, .topUp, .unknown]

structure TransactionRecord where
  id : String
  hash : String
  streamId : String
  kind : TransactionKind
  direction : TransactionDirection
  status : TransactionStatus
  amount : String
  asset : String
  counterparty : String
  timestamp : Number
  deriving DecidableEq

/-! ## Coercions -/

/-- What the runtime brings: the case of letters, `Date.parse`, the properties of host objects, whether
one is an `Error`, the time of a `Date`, and `Number(x)` for an object or a function. -/
structure DashboardRuntime (ι : Type) where
  toUpperCase : String → String
  toLowerCase : String → String
  dateParse : String → Number
  read : ι → String → Value ι
  isError : ι → Bool
  getTime : ι → Option Number
  objectToNumber : Value ι → Except Thrown Number

variable {ι : Type} (rt : DashboardRuntime ι)

/-- `x[key]`, where `x` is neither `undefined` nor `null`. A string has a method `search`. -/
def property (x : Value ι) (key : String) : Value ι :=
  match x with
  | .object entries => (entries.lookup key).getD .undefined
  | .host x => rt.read x key
  | .string _ => if key = "search" then .function else .undefined
  | _ => .undefined

/-- `x ?? y`. -/
def nullish (x y : Value ι) : Value ι :=
  match x with
  | .undefined | .null => y
  | x => x

/-- `typeof x === 'number' ? x : Number(x)`. -/
def numberOf : Value ι → Except Thrown Number
  | .undefined => .ok .nan
  | .null => .ok (.fin 0)
  | .bool b => .ok (.fin (if b then 1 else 0))
  | .number x => .ok x
  | .bigint n => .ok (Number.ofRat n)
  | .string s => .ok (toNumber s)
  | .symbol => .error (errorOf "TypeError" "Cannot convert a Symbol value to a number")
  | x => rt.objectToNumber x

def asString (value : Value ι) (fallback : String) : String :=
  match value with
  | .string s => s
  | .number (.fin q) => numToText (.fin q)
  | .bigint n => toString n
  | _ => fallback

def asEnum {τ : Type} (text : τ → String) (value : Value ι) (allowed : List τ) (fallback : τ) : τ :=
  match value with
  | .string s =>
    let upper := rt.toUpperCase (String.ofList (trim s.toList))
    (allowed.find? fun t => text t = upper).getD fallback
  | _ => fallback

/-- Whether digits stand where the pattern has a `d`, and its other characters as they are. -/
def fits : List Char → List Char → Bool
  | [], [] => true
  | 'd' :: pattern, c :: cs => c.isDigit && fits pattern cs
  | p :: pattern, c :: cs => p = c && fits pattern cs
  | _, _ => false

/-- A date and a time with a blank between them, to ISO 8601 in UTC. -/
def toIso8601 (value : List Char) : String :=
  let date := value.take 10
  let time := (value.drop 11).take 8
  let fraction := value.drop 19
  let fractionFits : Bool := match fraction with
    | [] => true
    | '.' :: digits => !digits.isEmpty && digits.all Char.isDigit
    | _ => false
  if fits "dddd-dd-dd".toList date && (value.drop 10).head? = some ' ' && fits "dd:dd:dd".toList time &&
      fractionFits then
    String.ofList (date ++ 'T' :: (time ++ fraction) ++ ['Z'])
  else String.ofList value

/-- A number of ten digits counts seconds. -/
def asNumericTimestamp (value : Number) : Number :=
  let abs := value.abs
  if (Number.fin 1000000000).le abs && abs.lt (.fin 10000000000) then value.trunc.mul (.fin 1000)
  else if (Number.fin 1000000000000).le abs && abs.lt (.fin 10000000000000) then value.trunc
  else value.trunc

theorem eq_fin_of_isFinite {x : Number} (h : x.isFinite = true) : ∃ q, x = .fin q := by
  cases x with
  | nan | posInf | negInf => cases h
  | fin q => exact ⟨q, rfl⟩

def asTimestamp (value : Value ι) : Number :=
  match value with
  | .number (.fin q) => asNumericTimestamp (.fin q)
  | .string s =>
    let trimmed := trim s.toList
    let numeric := toNumber (String.ofList trimmed)
    let parsed := rt.dateParse (toIso8601 trimmed)
    if trimmed = [] then .fin 0
    else if numeric.isFinite then asNumericTimestamp numeric
    else if parsed ≠ .nan then parsed
    else .fin 0
  | .host x => match rt.getTime x with
    | some time => if time = .nan then .fin 0 else time
    | none => .fin 0
  | _ => .fin 0

/-- The direction of a row, as the wallet sees it. -/
def deriveTransactionDirection (kind : TransactionKind) (walletAddress : String) : TransactionDirection :=
  if trim walletAddress.toList = [] then .unknown
  else match kind with
    | .withdraw => .in
    | .create | .topUp => .out
    | _ => .unknown

/-! ## Normalisation -/

/-- A row of an object that has some identity. -/
def normalizeRecord (record : Value ι) (walletAddress : Value ι) : Option TransactionRecord :=
  let get := property rt record
  let id := asString (nullish (get "id") (get "hash")) ""
  let hash := asString (nullish (nullish (get "hash") (get "txHash")) (get "id")) ""
  let streamId := asString (nullish (get "streamId") (get "stream_id")) ""
  if id = "" ∧ hash = "" ∧ streamId = "" then none
  else
    let kind := asEnum rt TransactionKind.text (nullish (get "kind") (get "type")) validKinds .unknown
    let explicitDirection :=
      asEnum rt TransactionDirection.text (get "direction") validDirections .unknown
    let timestamp := asTimestamp rt (nullish (get "timestamp") (get "createdAt"))
    some {
      id := if id ≠ "" then id else if hash ≠ "" then hash
        else streamId ++ ":" ++ kind.text ++ ":" ++ numToText timestamp
      hash
      streamId
      kind
      direction := if explicitDirection ≠ .unknown then explicitDirection
        else deriveTransactionDirection kind (asString walletAddress "")
      status := asEnum rt TransactionStatus.text (get "status") validStatuses .unknown
      amount := asString (nullish (get "amount") (get "value")) "0"
      asset := asString (nullish (nullish (get "asset") (get "token")) (get "symbol")) "XLM"
      counterparty :=
        asString (nullish (nullish (get "counterparty") (get "recipient")) (get "sender")) ""
      timestamp }

def normalizeTransaction (raw : Value ι) (walletAddress : Value ι) : Option TransactionRecord :=
  match raw with
  | .object _ | .host _ => normalizeRecord rt raw walletAddress
  | _ => none

/-- The rows of a list, without those whose `id` was seen. -/
def normalizeList (walletAddress : Value ι) : List String → List (Value ι) → List TransactionRecord
  | _, [] => []
  | seen, entry :: entries => match normalizeTransaction rt entry walletAddress with
    | none => normalizeList walletAddress seen entries
    | some record =>
      if record.id ∈ seen then normalizeList walletAddress seen entries
      else record :: normalizeList walletAddress (record.id :: seen) entries

/-- The `node` of a relay-style edge. -/
def edgeNode (edge : Value ι) : Value ι :=
  match edge with
  | .object _ | .host _ | .array _ => property rt edge "node"
  | _ => edge

/-- The list of a payload, which may be in a container. -/
def payloadList (payload : Value ι) : Value ι :=
  match payload with
  | .object _ | .host _ =>
    let get := property rt payload
    let nodes := match get "edges" with
      | .array edges => .array (edges.map (edgeNode rt))
      | _ => .undefined
    nullish (nullish (nullish (nullish (nullish (get "transactions") (get "transactionHistory"))
      (get "streams")) (get "items")) (get "data")) nodes
  | _ => payload

def normalizeTransactions (payload : Value ι) (walletAddress : Value ι) : List TransactionRecord :=
  match payloadList rt payload with
  | .array entries => normalizeList rt walletAddress [] entries
  | _ => []

variable {rt} {walletAddress : Value ι}

theorem not_mem_of_mem_normalizeList {seen : List String} {entries : List (Value ι)}
    {record : TransactionRecord} (h : record ∈ normalizeList rt walletAddress seen entries) :
    record.id ∉ seen := by
  induction entries generalizing seen with
  | nil => exact absurd h List.not_mem_nil
  | cons entry entries ih =>
    rw [normalizeList] at h
    split at h
    · exact ih h
    · split_ifs at h with hseen
      · exact ih h
      · cases h with
        | head => exact hseen
        | tail _ hrest => exact fun hmem => ih hrest (List.mem_cons_of_mem _ hmem)

theorem nodup_normalizeList (seen : List String) (entries : List (Value ι)) :
    ((normalizeList rt walletAddress seen entries).map TransactionRecord.id).Nodup := by
  induction entries generalizing seen with
  | nil => exact List.nodup_nil
  | cons entry entries ih =>
    rw [normalizeList]
    split
    · exact ih seen
    · rename_i record _
      split_ifs
      · exact ih seen
      · rw [List.map_cons, List.nodup_cons]
        refine ⟨?_, ih (record.id :: seen)⟩
        intro hmem
        obtain ⟨other, hother, hid⟩ := List.mem_map.mp hmem
        apply not_mem_of_mem_normalizeList hother
        rw [hid]
        exact List.mem_cons_self

/-- **No two rows have the same `id`.** -/
theorem nodup_normalizeTransactions (payload : Value ι) :
    ((normalizeTransactions rt payload walletAddress).map TransactionRecord.id).Nodup := by
  unfold normalizeTransactions
  split
  · exact nodup_normalizeList [] _
  · exact List.nodup_nil

end StreamFi
