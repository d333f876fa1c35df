import StreamFi.Batch.Build
import StreamFi.Sorted.Window

/-!
# Executing a batch

`ConduitBatcher.executeAsync` queues a list of operations; `processQueue` validates the entry, turns
its bigints into text and builds it in chunks of fifty.

* `bigintSafeStringify`, `validatePayload`: what happens before the build;
* `buildChunks`: the chunk loop, with **`buildChunks_restarted`**, its invariant;
* **`executeAsync_restarted`**: in a successful result the count restarts at every chunk;
* **`executeAsync_whole_iff`**: the result is the one build of the whole list exactly when the list
  fits in one chunk.
-/

namespace StreamFi

open Js Sorted

/-! ## Sanitising -/

mutual

/-- `bigintSafeStringify`: every bigint inside a value becomes its decimal text. -/
def bigintSafeStringify (host : ScVal → Value ScVal) : Value ScVal → Value ScVal
  | .bigint n => .string (toString n)
  | .array xs => .array (stringifyAll host xs)
  | .object entries => .object (stringifyEntries host entries)
  | .host x => host x
  | v => v

def stringifyAll (host : ScVal → Value ScVal) : List (Value ScVal) → List (Value ScVal)
  | [] => []
  | v :: vs => bigintSafeStringify host v :: stringifyAll host vs

def stringifyEntries (host : ScVal → Value ScVal) :
    List (String × Value ScVal) → List (String × Value ScVal)
  | [] => []
  | (k, v) :: es => (k, bigintSafeStringify host v) :: stringifyEntries host es

end

/-! ## Validation -/

inductive AmountField where
  | bigint (n : ℤ)
  | string (s : String)
  | other (typeName : String)

/-- The fields of an item that are neither `undefined` nor `null`; addresses by `String(x)`. -/
structure PayloadFields where
  token : Option String := none
  sender : Option String := none
  recipient : Option String := none
  amount : Option AmountField := none

inductive PayloadItem where
  | missing
  | primitive (typeName : String)
  | object (fields : PayloadFields)

variable {Tx : Type}

/-- The check of one address field. -/
def addressErrors (valid : String → Bool) (i : ℕ) (field requirement : String)
    (address : Option String) : List String :=
  match address with
  | none => []
  | some a =>
    if valid a then [] else [s!"Batch item at index {i}: {field} must be {requirement}, got \"{a}\""]

def amountErrors (i : ℕ) : Option AmountField → List String
  | none => []
  | some (.bigint n) =>
    if n ≤ 0 then [s!"Batch item at index {i}: amount must be a positive bigint, got {n}"] else []
  | some (.string s) =>
    match toStroops s 7 with
    | .ok stroops =>
      if stroops ≤ 0 then [s!"Batch item at index {i}: amount must be a positive value, got \"{s}\""]
      else []
    | .error _ =>
      [s!"Batch item at index {i}: amount must be a valid decimal string (e.g. \"1000\" or \"1.5\"), " ++
        s!"got \"{s}\""]
  | some (.other t) =>
    [s!"Batch item at index {i}: amount must be a bigint or decimal string, got {t}"]

def itemErrors (sdk : Sdk Tx) (item : PayloadItem) (i : ℕ) : List String :=
  match item with
  | .missing => [s!"Batch item at index {i} cannot be null or undefined"]
  | .primitive t => [s!"Batch item at index {i} must be an object, got {t}"]
  | .object fields =>
    let address := "a valid Stellar public key or contract address (G-address or C-address)"
    addressErrors sdk.isValidContract i "token" "a valid Soroban contract ID (C-address)"
        fields.token ++
      addressErrors (isValidAddress sdk) i "sender" address fields.sender ++
      addressErrors (isValidAddress sdk) i "recipient" address fields.recipient ++
      amountErrors i fields.amount

/-- `validatePayload`, on an array. -/
def validatePayload (sdk : Sdk Tx) (items : List PayloadItem) : List String :=
  items.zipIdx.flatMap fun (item, i) => itemErrors sdk item i

/-! ## The batcher -/

/-- An operation, with the payload fields it may carry beside its own. -/
structure BatchOperation extends BuildableOperation where
  fields : PayloadFields := {}

/-- `{ ...op, params: bigintSafeStringify(op.params) }`. -/
def sanitize (sdk : Sdk Tx) (op : BatchOperation) : BuildableOperation :=
  { op.toBuildableOperation with params := op.params.map (stringifyEntries sdk.stringifyHost) }

structure BatchResult where
  success : Bool
  operations : ℕ
  xdr : String
  xdrs : List String
  transactions : Option (List BuiltBatchTransaction) := none
  prepared : Option Bool := none
  chunks : Option ℕ := none
  errors : Option (List String) := none
  deriving DecidableEq

def toBatchResult (built : List BuiltBatchTransaction) (chunks : ℕ) : BatchResult where
  success := true
  operations := built.length
  xdr := (built.map (·.xdr)).headD ""
  xdrs := built.map (·.xdr)
  transactions := some built
  prepared := some (built ≠ [] && built.all (·.prepared))
  chunks := some chunks

def toFailure (errors : List String) : BatchResult where
  success := false
  operations := 0
  xdr := ""
  xdrs := []
  errors := some errors

/-- `DEFAULT_MAX_BATCH_SIZE`. -/
def defaultMaxBatchSize : ℕ := 50

def missingContextError : String :=
  "ConduitBatcher cannot build transaction XDR without a BatchTransactionContext " ++
  "(contractId, sourceAccount, network/networkPassphrase, and either sequence or rpcUrl). " ++
  "Pass one via options.context."

/-- What happens around one entry: the readings of its `cancelled` flag and the answers of each
chunk's build. -/
structure EntryAnswers (Tx : Type) where
  cancelledAtStart : Bool
  cancelledBefore : ℕ → Bool
  cancelledAfter : ℕ → Bool
  cancelledAtEnd : Bool
  build : ℕ → BuildAnswers Tx

inductive ChunkRun where
  | done (allBuilt : List BuiltBatchTransaction)
  | aborted
  | failed (err : Thrown)

/-- The chunk loop of `processQueue`, with `n` chunks to go from the `i`-th. -/
def buildChunks (sdk : Sdk Tx) (sanitized : List BuildableOperation)
    (context : BatchTransactionContext) (answers : EntryAnswers Tx) :
    ℕ → ℕ → List BuiltBatchTransaction → ChunkRun
  | 0, _, allBuilt => .done allBuilt
  | n + 1, i, allBuilt =>
    if answers.cancelledBefore i then .aborted
    else
      let chunkStart := i * defaultMaxBatchSize
      let chunk := slice sanitized chunkStart (chunkStart + defaultMaxBatchSize)
      match buildBatchTransactions sdk chunk context (answers.build i) with
      | .error err => .failed err
      | .ok built =>
        if answers.cancelledAfter i then .aborted
        else buildChunks sdk sanitized context answers n (i + 1) (allBuilt ++ built)

/-- `Math.ceil(length / DEFAULT_MAX_BATCH_SIZE)`. -/
def chunkCount (length : ℕ) : ℕ := (length + defaultMaxBatchSize - 1) / defaultMaxBatchSize

/-- `processQueue` on one entry; `none` when its promise is never resolved. -/
def processEntry (sdk : Sdk Tx) (ops : List BatchOperation)
    (context : Option BatchTransactionContext) (answers : EntryAnswers Tx) : Option BatchResult :=
  let validationErrors := validatePayload sdk (ops.map fun op => .object op.fields)
  let sanitized := ops.map (sanitize sdk)
  if answers.cancelledAtStart then some (toFailure ["Operation aborted"])
  else if validationErrors ≠ [] then some (toFailure validationErrors)
  else if sanitized = [] then
    some { success := true, operations := 0, xdr := "", xdrs := [], transactions := some [],
           prepared := some true }
  else match context with
    | none => some (toFailure [missingContextError])
    | some context =>
      let contextErrors := validateContext sdk context
      if contextErrors ≠ [] then some (toFailure contextErrors)
      else
        let totalChunks := chunkCount sanitized.length
        match buildChunks sdk sanitized context answers totalChunks 0 [] with
        | .aborted => some (toFailure ["Operation aborted"])
        | .failed err => some (toFailure [err.text])
        | .done allBuilt =>
          if answers.cancelledAtEnd then none else some (toBatchResult allBuilt totalChunks)

/-- What becomes of a queued entry. -/
inductive EntryFate where
  | processed
  | cleanedUp

/-- `ConduitBatcher.executeAsync`. -/
def executeAsync (sdk : Sdk Tx) (isDestroyed : Bool) (fate : EntryFate) (ops : List BatchOperation)
    (context : Option BatchTransactionContext) (answers : EntryAnswers Tx) :
    Except Thrown (Option BatchResult) :=
  if isDestroyed then throwNew "ConduitBatcher has been destroyed"
  else match fate with
    | .cleanedUp => .ok (some (toFailure ["ConduitBatcher cleaned up"]))
    | .processed => .ok (processEntry sdk ops context answers)

/-! ## What a successful result holds -/

/-- The first `k` chunks, each counted from its own start. -/
structure Restarted (sdk : Sdk Tx) (s : ℤ) (operations : List BuildableOperation) (k : ℕ)
    (built : List BuiltBatchTransaction) : Prop where
  length : built.length = (k * defaultMaxBatchSize) ⊓ operations.length
  entry : ∀ (i : ℕ) op t, operations[i]? = some op → built[i]? = some t →
    t.index = i % defaultMaxBatchSize ∧ t.method = op.method ∧
      OnAccountSequence sdk t.xdr (s + (i % defaultMaxBatchSize : ℕ))

section Loop

variable {sdk : Sdk Tx} {operations : List BuildableOperation} {context : BatchTransactionContext}
  {answers : EntryAnswers Tx} {s : ℤ} {allBuilt built : List BuiltBatchTransaction}

theorem getElem?_slice {α : Type} (l : List α) (i w j : ℕ) :
    (slice l i (i + w))[j]? = if j < w then l[i + j]? else none := by
  rw [slice, List.getElem?_drop, List.getElem?_take]
  simp

/-- One chunk, appended. -/
theorem Restarted.append {k : ℕ} (h : Restarted sdk s operations k allBuilt)
    (hk : k * defaultMaxBatchSize ≤ operations.length)
    (hb : Numbered sdk s (slice operations (k * defaultMaxBatchSize)
      (k * defaultMaxBatchSize + defaultMaxBatchSize)) built) :
    Restarted sdk s operations (k + 1) (allBuilt ++ built) := by
  have hlen := h.length
  have hlen' := hb.length
  rw [length_slice] at hlen'
  rw [min_eq_left hk] at hlen
  refine ⟨?_, fun i op t hop ht => ?_⟩
  · rw [List.length_append, hlen, hlen', Nat.succ_mul]
    omega
  by_cases hi : i < allBuilt.length
  · rw [List.getElem?_append_left hi] at ht
    exact h.entry i op t hop ht
  · rw [List.getElem?_append_right (not_lt.mp hi), hlen] at ht
    rw [hlen, not_lt] at hi
    obtain ⟨j, rfl⟩ := Nat.exists_eq_add_of_le hi
    rw [Nat.add_sub_cancel_left] at ht
    have hj : j < defaultMaxBatchSize := by
      have := (List.getElem?_eq_some_iff.mp ht).1
      omega
    have hmod : (k * defaultMaxBatchSize + j) % defaultMaxBatchSize = j := by
      rw [Nat.mul_add_mod_self_right, Nat.mod_eq_of_lt hj]
    rw [hmod]
    exact hb.entry j op t (by rw [getElem?_slice, if_pos hj, hop]) ht

theorem buildChunks_succ_done {n i : ℕ}
    (h : buildChunks sdk operations context answers (n + 1) i allBuilt = .done built) :
    ∃ chunk, buildBatchTransactions sdk (slice operations (i * defaultMaxBatchSize)
        (i * defaultMaxBatchSize + defaultMaxBatchSize)) context (answers.build i) = .ok chunk ∧
      buildChunks sdk operations context answers n (i + 1) (allBuilt ++ chunk) = .done built := by
  rw [buildChunks] at h
  by_cases hc : answers.cancelledBefore i = true
  · rw [if_pos hc] at h
    cases h
  · rw [if_neg hc] at h
    simp only at h
    split at h
    · cases h
    · rename_i chunk hchunk
      by_cases hc' : answers.cancelledAfter i = true
      · rw [if_pos hc'] at h
        cases h
      · rw [if_neg hc'] at h
        exact ⟨chunk, hchunk, h⟩

/-- **The chunk loop** keeps `Restarted`. -/
theorem buildChunks_restarted (hl : sdk.Lawful)
    (hb : ∀ i, SequenceBase context (answers.build i) s) {n i : ℕ}
    (hi : (i + n) * defaultMaxBatchSize < operations.length + defaultMaxBatchSize)
    (h : Restarted sdk s operations i allBuilt)
    (hrun : buildChunks sdk operations context answers n i allBuilt = .done built) :
    Restarted sdk s operations (i + n) built := by
  induction n generalizing i allBuilt with
  | zero =>
    cases hrun
    exact h
  | succ n ih =>
    obtain ⟨chunk, hchunk, hrun⟩ := buildChunks_succ_done hrun
    rw [← add_assoc, add_right_comm] at hi ⊢
    have hk : i * defaultMaxBatchSize ≤ operations.length := by
      have := Nat.mul_le_mul_right defaultMaxBatchSize (Nat.le_add_right (i + 1) n)
      rw [Nat.succ_mul] at this
      omega
    exact ih hi (h.append hk (buildBatchTransactions_numbered hl (hb i) hchunk)) hrun

theorem chunkCount_mul_lt (n : ℕ) :
    chunkCount n * defaultMaxBatchSize < n + defaultMaxBatchSize := by
  unfold chunkCount defaultMaxBatchSize
  omega

end Loop

section Result

variable {sdk : Sdk Tx} {ops : List BatchOperation} {context : BatchTransactionContext}
  {answers : EntryAnswers Tx} {s : ℤ} {isDestroyed : Bool} {fate : EntryFate} {result : BatchResult}

/-- How an entry comes to succeed. -/
theorem executeAsync_success (hc : validateContext sdk context = [])
    (h : executeAsync sdk isDestroyed fate ops (some context) answers = .ok (some result))
    (hs : result.success = true) :
    (ops = [] ∧ result.transactions = some []) ∨
      (ops ≠ [] ∧ ∃ built, result.transactions = some built ∧
        buildChunks sdk (ops.map (sanitize sdk)) context answers (chunkCount ops.length) 0 [] =
          .done built) := by
  unfold executeAsync at h
  split_ifs at h with hd
  · cases h
  cases fate with
  | cleanedUp =>
    cases h
    cases hs
  | processed =>
    replace h := Except.ok.inj h
    simp only [processEntry, hc, List.length_map, List.map_eq_nil_iff] at h
    by_cases ha : answers.cancelledAtStart = true
    · rw [if_pos ha] at h
      cases h
      cases hs
    rw [if_neg ha] at h
    by_cases hv : validatePayload sdk (ops.map fun op => .object op.fields) = []
    swap
    · rw [if_pos hv] at h
      cases h
      cases hs
    rw [if_neg (not_not.mpr hv)] at h
    by_cases ho : ops = []
    · rw [if_pos ho] at h
      cases h
      exact .inl ⟨ho, rfl⟩
    rw [if_neg ho, if_neg (not_not.mpr rfl)] at h
    refine .inr ⟨ho, ?_⟩
    split at h
    · cases h
      cases hs
    · cases h
      cases hs
    · rename_i built hrun
      split_ifs at h
      cases h
      exact ⟨built, rfl, hrun⟩

/-- **In a successful result** the count restarts at every chunk. -/
theorem executeAsync_restarted (hl : sdk.Lawful) (hc : validateContext sdk context = [])
    (hb : ∀ i, SequenceBase context (answers.build i) s)
    (h : executeAsync sdk isDestroyed fate ops (some context) answers = .ok (some result))
    (hs : result.success = true) :
    ∃ built, result.transactions = some built ∧
      Restarted sdk s (ops.map (sanitize sdk)) (chunkCount ops.length) built := by
  rcases executeAsync_success hc h hs with ⟨rfl, ht⟩ | ⟨_, built, ht, hrun⟩
  · exact ⟨[], ht, by simp, by simp⟩
  · refine ⟨built, ht, ?_⟩
    have := buildChunks_restarted hl hb (by
      rw [zero_add, List.length_map]
      exact chunkCount_mul_lt _) ⟨by simp, by simp⟩ hrun
    rwa [zero_add] at this

/-- The result is the one build of the whole list, numbered from `s`. -/
def WholeBuild (sdk : Sdk Tx) (ops : List BatchOperation) (context : BatchTransactionContext)
    (answers : BuildAnswers Tx) (s : ℤ) (result : BatchResult) : Prop :=
  ∃ built, result.transactions = some built ∧
    buildBatchTransactions sdk (ops.map (sanitize sdk)) context answers = .ok built ∧
    Numbered sdk s (ops.map (sanitize sdk)) built

theorem slice_all {α : Type} {l : List α} {n : ℕ} (h : l.length ≤ n) : slice l 0 n = l := by
  rw [slice, List.drop_zero, List.take_of_length_le h]

theorem not_wholeBuild_of_restarted (hlong : defaultMaxBatchSize < ops.length)
    {built : List BuiltBatchTransaction} (ht : result.transactions = some built)
    (h : Restarted sdk s (ops.map (sanitize sdk)) (chunkCount ops.length) built) :
    ¬ WholeBuild sdk ops context (answers.build 0) s result := by
  rintro ⟨built', ht', -, hnum⟩
  rw [ht] at ht'
  cases ht'
  have hop : (ops.map (sanitize sdk))[defaultMaxBatchSize]? =
      some (sanitize sdk ops[defaultMaxBatchSize]) := by
    rw [List.getElem?_map, List.getElem?_eq_getElem hlong]
    rfl
  have hlen : defaultMaxBatchSize < built.length := by
    rw [hnum.length, List.length_map]
    exact hlong
  have ht := List.getElem?_eq_getElem hlen
  -- the operation at position `50` opens the second chunk, so its index is `0`
  have h0 := (h.entry _ _ _ hop ht).1
  rw [(hnum.entry _ _ _ hop ht).1, Nat.mod_self] at h0
  cases h0

/-- **A successful result is the one build of the whole list** exactly when the list fits in one
chunk. -/
theorem executeAsync_whole_iff (hl : sdk.Lawful) (hc : validateContext sdk context = [])
    {passphrase : String} (hp : resolvePassphrase context = .ok passphrase)
    (hb : ∀ i, SequenceBase context (answers.build i) s)
    (h : executeAsync sdk isDestroyed fate ops (some context) answers = .ok (some result))
    (hs : result.success = true) :
    WholeBuild sdk ops context (answers.build 0) s result ↔ ops.length ≤ defaultMaxBatchSize := by
  constructor
  · intro hw
    by_contra hlong
    obtain ⟨built, ht, hr⟩ := executeAsync_restarted hl hc hb h hs
    exact not_wholeBuild_of_restarted (not_le.mp hlong) ht hr hw
  · intro hshort
    rcases executeAsync_success hc h hs with ⟨rfl, ht⟩ | ⟨hne, built, ht, hrun⟩
    · exact ⟨[], ht, buildBatchTransactions_nil hc hp (hb 0), rfl, by simp⟩
    · have hone : chunkCount ops.length = 1 := by
        have := List.length_pos_iff.mpr hne
        unfold chunkCount
        unfold defaultMaxBatchSize at *
        omega
      rw [hone] at hrun
      obtain ⟨chunk, hchunk, hrun⟩ := buildChunks_succ_done hrun
      rw [zero_mul, zero_add, slice_all (by rwa [List.length_map])] at hchunk
      cases hrun
      exact ⟨chunk, ht, hchunk, buildBatchTransactions_numbered hl (hb 0) hchunk⟩

end Result

/-- No cancellation, and a clock that stands still. -/
def quietAnswers : EntryAnswers ℕ where
  cancelledAtStart := false
  cancelledBefore _ := false
  cancelledAfter _ := false
  cancelledAtEnd := false
  build _ := offlineAnswers

def withdrawals (n : ℕ) : List BatchOperation :=
  List.replicate n { method := "withdraw", args := some [] }

/-- The result of a run that resolved. -/
def runOf (n : ℕ) : Option BatchResult :=
  (executeAsync standIn false .processed (withdrawals n) (some offlineContext)
    quietAnswers).toOption.join

theorem runOf_spec {n : ℕ} {result : BatchResult} (h : runOf n = some result) :
    executeAsync standIn false .processed (withdrawals n) (some offlineContext) quietAnswers =
      .ok (some result) := by
  unfold runOf at h
  cases hr : executeAsync standIn false .processed (withdrawals n) (some offlineContext)
      quietAnswers with
  | error e => rw [hr] at h; cases h
  | ok r => rw [hr] at h; exact congrArg Except.ok h

theorem executeAsync_whole_two : ∃ result, runOf 2 = some result ∧
    (WholeBuild standIn (withdrawals 2) offlineContext (quietAnswers.build 0) 100 result ↔
      (withdrawals 2).length ≤ defaultMaxBatchSize) := by
  obtain ⟨result, h, hs⟩ :=
    Option.map_eq_some_iff.mp (by decide : (runOf 2).map (·.success) = some true)
  exact ⟨result, h, executeAsync_whole_iff standIn_lawful (by decide) rfl
    (fun _ => sequenceBase_offline)
    (runOf_spec h) hs⟩

set_option maxRecDepth 4000 in
theorem runOf_51_success : (runOf 51).map (·.success) = some true := by decide

/-- A batch of `51` succeeds, but not with the build of the whole list. -/
theorem executeAsync_not_whole_51 : ∃ result, runOf 51 = some result ∧ result.success = true ∧
    ¬ WholeBuild standIn (withdrawals 51) offlineContext (quietAnswers.build 0) 100 result := by
  obtain ⟨result, h, hs⟩ := Option.map_eq_some_iff.mp runOf_51_success
  obtain ⟨built, ht, hr⟩ := executeAsync_restarted standIn_lawful (by decide)
    (fun _ => sequenceBase_offline) (runOf_spec h) hs
  exact ⟨result, h, hs, not_wholeBuild_of_restarted (by decide) ht hr⟩

end StreamFi
