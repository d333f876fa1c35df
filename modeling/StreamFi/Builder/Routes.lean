import StreamFi.Batch.Sync
import StreamFi.Builder.Fields

/-!
# Two routes to a transaction

A builder's stream can be executed as the object that `build` returns, or as the operation that
`toBatchOperation` returns.

* `streamOperation_config`: how the object is encoded; `amountErrors_text`: what the validation of
  its amount says;
* `BuildRoute`, `OperationRoute`: the vectors that the two routes call `create_stream` with;
* **`routes_agree_iff`**: when the two routes agree.
-/

namespace StreamFi

open Js Sorted

variable {Tx : Type} {sdk : Sdk Tx}

/-! ## The object -/

section Object

theorem stringifyEntries_append (host : ScVal → Value ScVal) (l₁ l₂ : List (String × Value ScVal)) :
    stringifyEntries host (l₁ ++ l₂) = stringifyEntries host l₁ ++ stringifyEntries host l₂ := by
  induction l₁ with
  | nil => rfl
  | cons e l₁ ih => exact congrArg (_ :: ·) ih

/-- A field that may be absent. -/
theorem stringifyEntries_optional (host : ScVal → Value ScVal) {α : Type} (o : Option α)
    (key : String) (f : α → Value ScVal) (hf : ∀ a, bigintSafeStringify host (f a) = f a) :
    stringifyEntries host (o.map fun a => (key, f a)).toList =
      (o.map fun a => (key, f a)).toList := by
  cases o with
  | none => rfl
  | some a =>
    show [(key, bigintSafeStringify host (f a))] = [(key, f a)]
    rw [hf]

theorem lookup_optional {α β : Type} (o : Option α) (key key' : String) (f : α → β) :
    ((o.map fun a => (key', f a)).toList).lookup key = if key = key' then o.map f else none := by
  cases o with
  | none => simp
  | some a =>
    by_cases h : key = key'
    · simp [h]
    · simp [h, List.lookup, beq_eq_false_iff_ne.mpr h]

/-- Nothing is left to turn into text. -/
theorem stringify_config (host : ScVal → Value ScVal) (config : StreamConfig) :
    bigintSafeStringify host config.toValue = config.toValue := by
  simp only [StreamConfig.toValue, bigintSafeStringify, stringifyEntries_append]
  rw [stringifyEntries_optional host _ _ _ fun _ => rfl,
    stringifyEntries_optional host _ _ _ fun _ => rfl,
    stringifyEntries_optional host _ _ _ fun _ => rfl,
    stringifyEntries_optional host _ _ _ fun _ => rfl,
    stringifyEntries_optional host _ _ _ fun _ => rfl,
    stringifyEntries_optional host _ _ _ fun _ => rfl]
  rfl

variable (config : StreamConfig)

theorem prop_required : prop config.toValue "token" = .string config.token ∧
    prop config.toValue "sender" = .string config.sender ∧
    prop config.toValue "recipient" = .string config.recipient ∧
    prop config.toValue "amount" = .string config.amount :=
  ⟨rfl, rfl, rfl, rfl⟩

theorem prop_optional :
    prop config.toValue "ratePerSecond" =
      (config.ratePerSecond.map .string).getD (.undefined : Value ScVal) ∧
    prop config.toValue "startTime" = (config.startTime.map .number).getD .undefined ∧
    prop config.toValue "endTime" = (config.endTime.map .number).getD .undefined ∧
    prop config.toValue "clawbackEnabled" =
      (config.clawbackEnabled.map .bool).getD .undefined := by
  simp only [prop, StreamConfig.toValue, List.lookup_append, lookup_optional]
  simp [List.lookup]

/-- What the validation reads of the object. -/
def StreamConfig.item (config : StreamConfig) : PayloadItem := .object
  { token := some config.token, sender := some config.sender
    recipient := some config.recipient, amount := some (.string config.amount) }

theorem payloadItem_config : payloadItem config.toValue = .ok config.item := by
  obtain ⟨ht, hs, hr, ha⟩ := prop_required config
  have hnull : isNullish config.toValue = false := rfl
  have hobj : typeName config.toValue = "object" := rfl
  rw [payloadItem, hnull, if_neg Bool.false_ne_true, if_neg (not_not.mpr hobj), ht, hs, hr, ha]
  rfl

theorem orZero_number (o : Option Number) :
    orZero ((o.map .number).getD .undefined) = .number (o.getD (.fin 0)) := by
  cases o with
  | none => rfl
  | some x => rfl

theorem isTrue_bool (o : Option Bool) :
    isTrue ((o.map .bool).getD .undefined) = o.getD false := by
  cases o with
  | none => rfl
  | some b => rfl

theorem paramToScVal_address {a : String} (ha : isValidAddress sdk a = true) :
    paramToScVal sdk (.string a) none = sdk.addressToScVal a := by
  have hvalid : sdk.isValidEd25519PublicKey a = true ∨ sdk.isValidContract a = true := by
    rw [isValidAddress, Bool.and_eq_true, Bool.or_eq_true] at ha
    exact ha.2
  exact if_pos hvalid

variable {config}

/-- **How the object is encoded**: a rate by its text, and `0` for a time that is not set. -/
theorem streamOperation_config {rate : String} (hs : isValidAddress sdk config.sender = true)
    (hr : isValidAddress sdk config.recipient = true)
    (ht : isValidAddress sdk config.token = true) (hrate : config.ratePerSecond = some rate)
    {op : BuildableOperation} : streamOperation sdk "create_stream" config.toValue = .ok op ↔
      ∃ v, encodeStream sdk config.sender config.recipient config.token (.string config.amount)
          (.string rate) (config.startTime.getD (.fin 0)) (config.endTime.getD (.fin 0))
          (config.clawbackEnabled.getD false) = .ok v ∧
        op = { method := "create_stream", args := some (v.map .host) } := by
  obtain ⟨ht', hs', hr', ha'⟩ := prop_required config
  obtain ⟨hrate', hstart', hstop', hclawback'⟩ := prop_optional config
  have hcalls : streamOperation sdk "create_stream" config.toValue =
      encodeStream sdk config.sender config.recipient config.token (.string config.amount)
          (.string rate) (config.startTime.getD (.fin 0)) (config.endTime.getD (.fin 0))
          (config.clawbackEnabled.getD false) >>= fun v =>
        .ok { method := "create_stream", args := some (v.map .host) } := by
    rw [streamOperation, if_pos rfl, ht', hs', hr', ha', hrate', hstart', hstop', hclawback',
      orZero_number, orZero_number, isTrue_bool, paramToScVal_address hs, paramToScVal_address hr,
      paramToScVal_address ht, hrate]
    simp only [encodeStream, bind_assoc, pure_bind]
    rfl
  rw [hcalls, seq_ok_iff]
  simp only [Except.ok.injEq, eq_comm]

end Object

/-! ## The amount -/

/-- **An amount that is encoded has passed validation.** -/
theorem amountErrors_text {amount : Numeric} (ha : amount.Positive) {N : ℤ}
    (hN : bigInt amount.text = some N) (i : ℕ) :
    amountErrors i (some (.string amount.text)) = [] := by
  obtain ⟨hall, hne, hpos, -⟩ := ha.text_reads hN
  have hf : AmountFormat amount.text :=
    amountFormat_of_digits hall (by simpa [String.toList_eq_nil_iff] using hne)
  have hvalue : (digitsValue amount.text.toList : ℤ) = N := by
    have := bigInt_ofDigits hall
    rw [String.ofList_toList, hN] at this
    exact (Option.some.inj this).symm
  have hround : round (amountValue amount.text * 10 ^ 7) = N * 10 ^ 7 := by
    rw [amountValue_of_digits hall, ← hvalue]
    exact_mod_cast round_natCast (digitsValue amount.text.toList * 10 ^ 7)
  have hstroops := toStroops_eq_round hf (by norm_num : 7 < 20)
  rw [hround] at hstroops
  simp only [amountErrors, hstroops]
  rw [if_neg (by omega)]

/-- Nor do the other fields of a checked builder fail. -/
theorem validatePayload_config {config : StreamConfig} (hs : isValidAddress sdk config.sender = true)
    (hr : isValidAddress sdk config.recipient = true)
    (ht : sdk.isValidContract config.token = true)
    (ha : amountErrors 0 (some (.string config.amount)) = []) :
    validatePayload sdk [config.item] = [] := by
  simp [validatePayload, StreamConfig.item, itemErrors, addressErrors, hs, hr, ht, ha]

/-! ## One transaction -/

/-- The call of `create_stream` in the first transaction of a build. -/
def streamCall (context : BatchTransactionContext) (passphrase : String) (base : ℤ) (clock : Number)
    (args : List ScVal) : CallSpec where
  source := context.sourceAccount
  sequence := base
  fee := context.fee.getD baseFee
  networkPassphrase := passphrase
  contractId := context.contractId
  method := "create_stream"
  args := args
  timeout := context.timeoutSeconds.getD defaultBatchTimeoutSeconds
  clock := clock

/-- The context and the environment give what a transaction takes. -/
def CanBuild (sdk : Sdk Tx) (context : BatchTransactionContext) (node : BuildAnswers Tx) : Prop :=
  validateContext sdk context = [] ∧ ∃ text base passphrase tx,
    startSequence context node = .ok text ∧ bigIntOf text = .ok base ∧
      resolvePassphrase context = .ok passphrase ∧
      sdk.buildCall (streamCall context passphrase base (node.clock 0) []) = .ok tx

/-- The node simulates every transaction, and what it answers can be assembled. -/
def Prepares (sdk : Sdk Tx) (node : BuildAnswers Tx) : Prop :=
  ∀ index tx, ∃ simulation assembled,
    node.simulateTransaction index tx = .ok (.ok simulation) ∧
      sdk.assembleTransaction tx simulation = .ok assembled

/-- An operation that calls `create_stream` with these arguments. -/
def Calls (sdk : Sdk Tx) (op : BuildableOperation) (v : List ScVal) : Prop :=
  op.method = "create_stream" ∧ operationToScVals sdk op = .ok v

section Build

variable {context : BatchTransactionContext} {node : BuildAnswers Tx} {op : BuildableOperation}
  {v : List ScVal}

/-- The arguments do not decide whether there is a transaction. -/
theorem buildTransaction_isOk_iff (hl : sdk.LawfulIntegers) (hop : Calls sdk op v)
    {passphrase text : String} {clock : ℕ → Number} :
    (∃ tx, buildTransaction sdk context passphrase text clock op 0 = .ok tx) ↔
      ∃ base tx, bigIntOf text = .ok base ∧
        sdk.buildCall (streamCall context passphrase base (clock 0) []) = .ok tx := by
  obtain ⟨hmethod, hargs⟩ := hop
  have hbuild : ∀ tx, buildTransaction sdk context passphrase text clock op 0 = .ok tx ↔
      ∃ base, bigIntOf text = .ok base ∧
        sdk.buildCall (streamCall context passphrase base (clock 0) v) = .ok tx := by
    intro tx
    rw [buildTransaction, if_neg (by rw [hmethod]; decide), seq_ok_iff]
    simp only [hargs, ok_seq, hmethod, Nat.cast_zero, add_zero]
    rfl
  simp only [hbuild]
  constructor
  · rintro ⟨tx, base, hbase, htx⟩
    obtain ⟨tx', htx'⟩ := hl.build_args _ [] ⟨tx, htx⟩
    exact ⟨base, tx', hbase, htx'⟩
  · rintro ⟨base, tx, hbase, htx⟩
    obtain ⟨tx', htx'⟩ := hl.build_args _ v ⟨tx, htx⟩
    exact ⟨tx', base, hbase, htx'⟩

theorem buildSync_one_iff {clock : ℕ → Number} (hc : validateContext sdk context = []) :
    (∃ built, buildBatchTransactionsSync sdk [op] context clock = .ok built) ↔
      ∃ text passphrase tx, context.sequence = some text ∧
        resolvePassphrase context = .ok passphrase ∧
        buildTransaction sdk context passphrase text clock op 0 = .ok tx := by
  unfold buildBatchTransactionsSync
  simp only [hc, ne_eq, not_true_eq_false, if_false]
  cases hs : context.sequence with
  | none => simp
  | some text =>
    simp only [seq_ok_iff, List.zipIdx_cons, List.zipIdx_nil, mapM_singleton_ok_iff]
    constructor
    · rintro ⟨_, passphrase, hp, _, ⟨tx, htx, -⟩, -⟩
      exact ⟨text, passphrase, tx, rfl, hp, htx⟩
    · rintro ⟨_, passphrase, tx, ⟨⟩, hp, htx⟩
      exact ⟨_, passphrase, hp, _, ⟨tx, htx, rfl⟩, rfl⟩

theorem simulateOne_of_prepares (hn : Prepares sdk node) (op : BuildableOperation) (index : ℕ)
    (tx : Tx) : ∃ simulation assembled, simulateOne node op index tx = .ok simulation ∧
      sdk.assembleTransaction tx simulation = .ok assembled := by
  obtain ⟨simulation, assembled, hsim, hassemble⟩ := hn index tx
  exact ⟨simulation, assembled, by rw [simulateOne, hsim], hassemble⟩

/-- **A transaction is built** when it is built offline, and prepared where a node is asked. -/
theorem build_one_iff (hc : validateContext sdk context = [])
    (hn : truthyText context.rpcUrl ≠ none → Prepares sdk node) :
    (∃ built, buildBatchTransactions sdk [op] context node = .ok built) ↔
      ∃ text passphrase tx, startSequence context node = .ok text ∧
        resolvePassphrase context = .ok passphrase ∧
        buildTransaction sdk context passphrase text node.clock op 0 = .ok tx := by
  unfold buildBatchTransactions
  simp only [hc, ne_eq, not_true_eq_false, if_false]
  by_cases hr : truthyText context.rpcUrl = none
  · rw [if_pos hr, buildSync_one_iff hc]
    cases hs : context.sequence with
    | none =>
      -- such a context does not pass validation
      simp [validateContext, hs, hr] at hc
    | some text => simp [startSequence, hs]
  · rw [if_neg hr]
    simp only [seq_ok_iff, List.zipIdx_cons, List.zipIdx_nil, mapM_singleton_ok_iff]
    constructor
    · rintro ⟨_, text, ht, passphrase, hp, _, ⟨_, ⟨tx, htx, -⟩, -⟩, -⟩
      exact ⟨text, passphrase, tx, ht, hp, htx⟩
    · rintro ⟨text, passphrase, tx, ht, hp, htx⟩
      obtain ⟨simulation, assembled, hsim, hassemble⟩ := simulateOne_of_prepares (hn hr) op 0 tx
      refine ⟨[⟨0, op.method, sdk.toXDR assembled, true⟩], text, ht, passphrase, hp, _,
        ⟨_, ⟨tx, htx, rfl⟩, rfl⟩, ?_⟩
      have hnone : rejections [Except.ok simulation] = [] := rfl
      rw [List.map_singleton, hsim, if_neg (not_not.mpr hnone), List.zip_cons_cons,
        List.zip_nil_left, mapM_singleton_ok_iff]
      exact ⟨_, by rw [ok_seq, hassemble]; rfl, rfl⟩

/-- Offline a transaction is built on a sequence number that is given. -/
theorem buildSync_calls_iff (hl : sdk.LawfulIntegers) (hop : Calls sdk op v) :
    (validateContext sdk context = [] ∧ context.sequence ≠ none ∧
      ∃ built, buildBatchTransactionsSync sdk [op] context node.clock = .ok built) ↔
      CanBuild sdk context node ∧ context.sequence ≠ none := by
  constructor
  · rintro ⟨hc, hs, hbuilt⟩
    obtain ⟨text, passphrase, tx, ht, hp, htx⟩ := (buildSync_one_iff hc).mp hbuilt
    obtain ⟨base, tx', hbase, htx'⟩ := (buildTransaction_isOk_iff hl hop).mp ⟨tx, htx⟩
    exact ⟨⟨hc, text, base, passphrase, tx', by rw [startSequence, ht], hbase, hp, htx'⟩, hs⟩
  · rintro ⟨⟨hc, text, base, passphrase, tx, ht, hbase, hp, htx⟩, hs⟩
    refine ⟨hc, hs, (buildSync_one_iff hc).mpr ?_⟩
    obtain ⟨tx', htx'⟩ := (buildTransaction_isOk_iff hl hop).mpr ⟨base, tx, hbase, htx⟩
    obtain ⟨text', ht'⟩ := Option.ne_none_iff_exists'.mp hs
    rw [startSequence, ht'] at ht
    cases ht
    exact ⟨text, passphrase, tx', ht', hp, htx'⟩

theorem build_calls_iff (hl : sdk.LawfulIntegers) (hop : Calls sdk op v)
    (hn : truthyText context.rpcUrl ≠ none → Prepares sdk node) :
    (validateContext sdk context = [] ∧
      ∃ built, buildBatchTransactions sdk [op] context node = .ok built) ↔
      CanBuild sdk context node := by
  constructor
  · rintro ⟨hc, hbuilt⟩
    obtain ⟨text, passphrase, tx, ht, hp, htx⟩ := (build_one_iff hc hn).mp hbuilt
    obtain ⟨base, tx', hbase, htx'⟩ := (buildTransaction_isOk_iff hl hop).mp ⟨tx, htx⟩
    exact ⟨hc, text, base, passphrase, tx', ht, hbase, hp, htx'⟩
  · rintro ⟨hc, text, base, passphrase, tx, ht, hbase, hp, htx⟩
    obtain ⟨tx', htx'⟩ := (buildTransaction_isOk_iff hl hop).mpr ⟨base, tx, hbase, htx⟩
    exact ⟨hc, (build_one_iff hc hn).mpr ⟨text, passphrase, tx', ht, hp, htx'⟩⟩

/-- No signal, so no cancellation. -/
def uncancelled (node : BuildAnswers Tx) : EntryAnswers Tx where
  cancelledAtStart := false
  cancelledBefore _ := false
  cancelledAfter _ := false
  cancelledAtEnd := false
  build _ := node

/-- **When one operation gets to a transaction.** -/
theorem executeAsync_one_success_iff {op : BatchOperation} (hf : op.fields = {}) :
    (∃ result, executeAsync sdk false .processed [op] (some context) (uncancelled node) =
        .ok (some result) ∧ result.success = true) ↔
      validateContext sdk context = [] ∧
        ∃ built, buildBatchTransactions sdk [sanitize sdk op] context node = .ok built := by
  have hpayload : validatePayload sdk [.object op.fields] = [] := by
    rw [hf]
    rfl
  have hslice : slice [sanitize sdk op] (0 * 50) (0 * 50 + 50) = [sanitize sdk op] := rfl
  cases hbuild : buildBatchTransactions sdk [sanitize sdk op] context node with
  | error err =>
    have hrun : executeAsync sdk false .processed [op] (some context) (uncancelled node) =
        .ok (if validateContext sdk context ≠ [] then some (toFailure (validateContext sdk context))
          else some (toFailure [err.text])) := by
      simp only [executeAsync, processEntry, List.map_cons, List.map_nil, hpayload, uncancelled,
        buildChunks, List.length_singleton, chunkCount, defaultMaxBatchSize, hslice, hbuild]
      rfl
    rw [hrun]
    by_cases hc : validateContext sdk context = [] <;> simp [hc, toFailure]
  | ok built =>
    have hrun : executeAsync sdk false .processed [op] (some context) (uncancelled node) =
        .ok (if validateContext sdk context ≠ [] then some (toFailure (validateContext sdk context))
          else some (toBatchResult built 1)) := by
      simp only [executeAsync, processEntry, List.map_cons, List.map_nil, hpayload, uncancelled,
        buildChunks, List.length_singleton, chunkCount, defaultMaxBatchSize, hslice, hbuild]
      rfl
    rw [hrun]
    by_cases hc : validateContext sdk context = []
    · simp [hc, toBatchResult]
    · simp [hc, toFailure]

end Build

/-! ## The routes -/

/-- The largest time value of JavaScript, in milliseconds. -/
def maxTime : ℕ := 8640000000000000

/-- The node's answers while the clock stands still. -/
def frozen (node : BuildAnswers Tx) (millis : ℕ) : BuildAnswers Tx :=
  { node with clock := fun _ => .fin millis }

/-- `execute([b.build()], { context })` succeeds, with a call of `create_stream` with `v`. -/
def BuildRoute (sdk : Sdk Tx) (context : BatchTransactionContext) (node : BuildAnswers Tx)
    (millis : ℕ) (b : StreamBuilder) (v : List ScVal) : Prop :=
  ∃ config result op, b.build = .ok config ∧
    execute sdk false [config.toValue] { context := some context } (frozen node millis).clock =
      .ok result ∧ result.batch.success = true ∧
    streamOperation sdk "create_stream" (bigintSafeStringify sdk.stringifyHost config.toValue) =
      .ok op ∧ Calls sdk op v

/-- `executeAsync([b.toBatchOperation()], { context })` succeeds, with a call of `create_stream` with
`v`. -/
def OperationRoute (sdk : Sdk Tx) (context : BatchTransactionContext) (node : BuildAnswers Tx)
    (millis : ℕ) (b : StreamBuilder) (v : List ScVal) : Prop :=
  ∃ op result, b.toBatchOperation sdk (millis / 1000) = .ok op ∧
    executeAsync sdk false .processed [op] (some context) (uncancelled (frozen node millis)) =
      .ok (some result) ∧ result.success = true ∧ Calls sdk (sanitize sdk op) v

/-- Both routes call `create_stream` with one vector, or neither route does. -/
def RoutesAgree (sdk : Sdk Tx) (context : BatchTransactionContext) (node : BuildAnswers Tx)
    (millis : ℕ) (b : StreamBuilder) : Prop :=
  (∃ v, BuildRoute sdk context node millis b v ∧ OperationRoute sdk context node millis b v) ∨
    (¬ ∃ v, BuildRoute sdk context node millis b v) ∧
      ¬ ∃ v, OperationRoute sdk context node millis b v

section Routes

variable {context : BatchTransactionContext} {node : BuildAnswers Tx} {millis : ℕ}
  {b : StreamBuilder} {v : List ScVal} {sender recipient token : String} {amount rate : Numeric}

theorem calls_host_iff (v w : List ScVal) :
    Calls sdk { method := "create_stream", args := some (v.map .host) } w ↔ v = w := by
  rw [Calls, operationToScVals_host, Except.ok.injEq]
  exact and_iff_right rfl

/-- **The vector of the first route**: the rate by its text, from `0` on. -/
theorem buildRoute_iff (hl : sdk.LawfulIntegers) (hb : b.Checked sdk)
    (hc : Complete b sender recipient token amount rate) :
    BuildRoute sdk context node millis b v ↔
      CanBuild sdk context (frozen node millis) ∧ context.sequence ≠ none ∧
        encodeStream sdk sender recipient token (.string amount.text) (.string rate.text)
          (b.startTime.getD (.fin 0)) (b.endTime.getD (.fin 0)) (b.clawbackEnabled.getD false) =
            .ok v := by
  have hs := hb.sender _ hc.sender
  have hr := hb.recipient _ hc.recipient
  obtain ⟨htc, hta⟩ := hb.token _ hc.token
  constructor
  · rintro ⟨config, result, op, hconfig, hrun, hsuccess, hop, hcalls⟩
    rw [hc.build] at hconfig
    cases hconfig
    obtain ⟨-, hval, hseq, op', built, hop', hbuild⟩ :=
      execute_one_success_iff.mp ⟨result, hrun, hsuccess⟩
    cases hop.symm.trans hop'
    rw [stringify_config] at hop
    obtain ⟨w, hw, rfl⟩ := (streamOperation_config hs hr hta rfl).mp hop
    obtain rfl := (calls_host_iff w v).mp hcalls
    obtain ⟨hcan, -⟩ := (buildSync_calls_iff hl hcalls).mp ⟨hval, hseq, built, hbuild⟩
    exact ⟨hcan, hseq, hw⟩
  · rintro ⟨hcan, hseq, henc⟩
    obtain ⟨D, R, hD, -⟩ := (encodeStream_ok_iff hl (readAs_string hl amount.text)
      (readAs_string hl rate.text)).mp henc
    let config : StreamConfig :=
      { token := token, sender := sender, recipient := recipient, amount := amount.text
        ratePerSecond := some rate.text
        startTime := b.startTime, endTime := b.endTime, clawbackEnabled := b.clawbackEnabled
        cancelable := b.cancelable, clawbackable := b.clawbackable }
    have hpayload : validatePayload sdk [config.item] = [] :=
      validatePayload_config hs hr htc (amountErrors_text (hb.amount _ hc.amount) hD 0)
    have hop : streamOperation sdk "create_stream" config.toValue =
        .ok { method := "create_stream", args := some (v.map .host) } :=
      (streamOperation_config hs hr hta rfl).mpr ⟨v, henc, rfl⟩
    have hcalls : Calls sdk { method := "create_stream", args := some (v.map .host) } v :=
      (calls_host_iff v v).mpr rfl
    obtain ⟨hval, -, built, hbuild⟩ := (buildSync_calls_iff hl hcalls).mpr ⟨hcan, hseq⟩
    rw [← stringify_config sdk.stringifyHost] at hop
    obtain ⟨result, hrun, hsuccess⟩ :=
      execute_one_success_iff.mpr
        ⟨⟨_, payloadItem_config config, hpayload⟩, hval, hseq, _, built, hop, hbuild⟩
    exact ⟨config, result, _, hc.build, hrun, hsuccess, hop, hcalls⟩

/-- **The vector of the second route**: the rate by itself, from the present on. -/
theorem operationRoute_iff (hl : sdk.LawfulIntegers)
    (hc : Complete b sender recipient token amount rate)
    (hn : truthyText context.rpcUrl ≠ none → Prepares sdk node) :
    OperationRoute sdk context node millis b v ↔
      CanBuild sdk context (frozen node millis) ∧
        encodeStream sdk sender recipient token (.string amount.text) rate.value
          (b.startTime.getD (.fin (millis / 1000 : ℕ))) (b.endTime.getD (.fin 0))
          (b.clawbackEnabled.getD false) = .ok v := by
  have hn' : truthyText context.rpcUrl ≠ none → Prepares sdk (frozen node millis) := hn
  have hop : ∀ op, b.toBatchOperation sdk (millis / 1000) = .ok op ↔
      ∃ w, b.toContractArgs sdk (millis / 1000) = .ok w ∧
        op = { method := "create_stream", params := some [], args := some (w.map .host) } := by
    intro op
    rw [StreamBuilder.toBatchOperation, seq_ok_iff]
    exact exists_congr fun w => and_congr_right fun _ =>
      ⟨fun h => (Except.ok.inj h).symm, fun h => congrArg Except.ok h.symm⟩
  have hcalls : ∀ w, Calls sdk (sanitize sdk
      { method := "create_stream", params := some [], args := some (w.map .host) }) v ↔ w = v :=
    fun w => calls_host_iff w v
  rw [← hc.toContractArgs]
  constructor
  · rintro ⟨op, result, hargs, hrun, hsuccess, hv⟩
    obtain ⟨w, hw, rfl⟩ := (hop op).mp hargs
    obtain rfl := (hcalls w).mp hv
    have hbuilt := (executeAsync_one_success_iff rfl).mp ⟨result, hrun, hsuccess⟩
    exact ⟨(build_calls_iff hl hv hn').mp hbuilt, hw⟩
  · rintro ⟨hcan, hargs⟩
    have hv := (hcalls v).mpr rfl
    obtain ⟨result, hrun, hsuccess⟩ :=
      (executeAsync_one_success_iff rfl).mpr ((build_calls_iff hl hv hn').mpr hcan)
    exact ⟨_, result, (hop _).mpr ⟨v, hargs, rfl⟩, hrun, hsuccess, hv⟩

end Routes

/-! ## Agreement -/

/-- A reading, if an `i128` can hold it. -/
def inRange (reading : Option ℤ) : Option ℤ := reading.filter fun n => InI128 n

theorem inRange_eq_some_iff {reading : Option ℤ} {n : ℤ} :
    inRange reading = some n ↔ reading = some n ∧ InI128 n := by
  rw [inRange, Option.filter_eq_some_iff, decide_eq_true_eq]

/-- The amount and the times that are set can be encoded. -/
structure Fits (b : StreamBuilder) (amount : Numeric) : Prop where
  amount : ∃ D, bigInt amount.text = some D ∧ InI128 D
  startTime : ∀ x, b.startTime = some x → InU64 x
  endTime : ∀ x, b.endTime = some x → InU64 x

theorem inU64_getD_iff {o : Option Number} {x : Number} (hx : InU64 x) :
    InU64 (o.getD x) ↔ ∀ y, o = some y → InU64 y := by
  cases o with
  | none => simpa using hx
  | some y => simp

section Agreement

variable {b : StreamBuilder} {v : List ScVal} {sender recipient token : String}
  {amount rate : Numeric} {context : BatchTransactionContext} {node : BuildAnswers Tx} {millis : ℕ}

theorem encodeStream_fits_iff (hl : sdk.LawfulIntegers) (hb : b.Checked sdk)
    (hc : Complete b sender recipient token amount rate) {value : Value ScVal}
    {reading : Option ℤ} (hr : ReadAs sdk value reading) {start : Number} (hstart : InU64 start) :
    encodeStream sdk sender recipient token (.string amount.text) value
        (b.startTime.getD start) (b.endTime.getD (.fin 0)) (b.clawbackEnabled.getD false) = .ok v ↔
      Fits b amount ∧ ∃ R, inRange reading = some R ∧ ∃ D, bigInt amount.text = some D ∧
        v = vectorOf sender recipient token
          ⟨D, R, b.startTime.getD start, b.endTime.getD (.fin 0)⟩
          (b.clawbackEnabled.getD false) := by
  have hzero : InU64 (.fin 0) := ⟨0, by simp, by norm_num⟩
  rw [encodeStream_ok_iff hl (readAs_string hl amount.text) hr]
  constructor
  · rintro ⟨D, R, hD, hR, henc, rfl⟩
    refine ⟨⟨⟨D, hD, henc.deposit⟩, (inU64_getD_iff hstart).mp henc.start,
      (inU64_getD_iff hzero).mp henc.stop⟩, R, inRange_eq_some_iff.mpr ⟨hR, henc.rate⟩, D, hD, rfl⟩
  · rintro ⟨⟨⟨D, hD, hDr⟩, hs, he⟩, R, hR, D', hD', rfl⟩
    cases hD.symm.trans hD'
    obtain ⟨hR, hRr⟩ := inRange_eq_some_iff.mp hR
    exact ⟨D, R, hD, hR, ⟨hb.sender _ hc.sender, hb.recipient _ hc.recipient,
      (hb.token _ hc.token).2, hDr, hRr, (inU64_getD_iff hstart).mpr hs,
      (inU64_getD_iff hzero).mpr he⟩, rfl⟩

/-- Two routes that each make a result of a reading, if there is one, agree on readings that are equal
and give one result. -/
theorem agree_iff {α β : Type} {P Q : β → Prop} {x y : Option α} {f g : α → β} {c : Prop}
    (hP : ∀ v, P v ↔ ∃ a, x = some a ∧ v = f a) (hQ : ∀ v, Q v ↔ ∃ a, y = some a ∧ v = g a)
    (hfg : ∀ a a', x = some a → y = some a' → (f a = g a' ↔ a = a' ∧ c)) :
    ((∃ v, P v ∧ Q v) ∨ (¬ ∃ v, P v) ∧ ¬ ∃ v, Q v) ↔ x = y ∧ (y = none ∨ c) := by
  simp only [hP, hQ]
  cases x with
  | none =>
    cases y with
    | none => simp
    | some a' => simp
  | some a =>
    cases y with
    | none => simp
    | some a' => simp [hfg a a' rfl rfl]

theorem vectorOf_eq_iff {D R R' : ℤ} {start start' stop : Number} {clawback : Bool}
    (hR : InI128 R) (hR' : InI128 R') (hs : InU64 start) (hs' : InU64 start') :
    vectorOf sender recipient token ⟨D, R, start, stop⟩ clawback =
        vectorOf sender recipient token ⟨D, R', start', stop⟩ clawback ↔
      R = R' ∧ start = start' := by
  obtain ⟨m, rfl, hm⟩ := hs
  obtain ⟨n, rfl, hn⟩ := hs'
  constructor
  · intro h
    simp only [vectorOf, List.cons.injEq, Number.toNat_natCast, true_and, and_true] at h
    exact ⟨i128Of_injective hR hR' h.1, by rw [u64Of_injective hm hn h.2]⟩
  · rintro ⟨rfl, h⟩
    rw [h]

/-- A start that defaults to `0` and one that defaults to the present are one if it is set. -/
theorem getD_zero_eq_iff {o : Option Number} {now : ℕ} :
    o.getD (.fin 0) = o.getD (.fin now) ↔ o ≠ none ∨ now = 0 := by
  cases o with
  | none => simp [eq_comm]
  | some x => simp

end Agreement

/-! ## Without a start time -/

def openSetters : List Setter :=
  [.token "CDLZFC3SYJYDZT7K67VZ75HPJVIEUVNIXF47ZG2FB2RMQQVU2HHGCYSC",
   .sender "GAAAAAAAAAAAAAAAAAAAAAAAAAAAAAAAAAAAAAAAAAAAAAAAAAAAAWHF",
   .recipient "GBBD47IF6LWK7P7MDEVSCWR7DPUWV3NY3DTQEVFL4NAT4AQH3ZLLFLA5",
   .amount (.bigint 1000), .ratePerSecond (.string "5")]

/-- A stream of `1000` stroops at `5` a second, with nothing else set. -/
def openBuilder : StreamBuilder where
  token := some "CDLZFC3SYJYDZT7K67VZ75HPJVIEUVNIXF47ZG2FB2RMQQVU2HHGCYSC"
  sender := some "GAAAAAAAAAAAAAAAAAAAAAAAAAAAAAAAAAAAAAAAAAAAAAAAAAAAAWHF"
  recipient := some "GBBD47IF6LWK7P7MDEVSCWR7DPUWV3NY3DTQEVFL4NAT4AQH3ZLLFLA5"
  amount := some (.bigint 1000)
  ratePerSecond := some (.bigint 5)

theorem run_openSetters :
    Run.run (StreamBuilder.after wideStandIn) {} openSetters = some openBuilder := by
  have hamount : positiveOf "amount" (.bigint 1000) = .ok (.bigint 1000) := rfl
  have hrate : positiveOf "ratePerSecond" (.string "5") = .ok (.bigint 5) := by decide
  simp only [Run.run, openSetters, List.foldlM_cons, List.foldlM_nil, StreamBuilder.after,
    StreamBuilder.set_token _ addressShape_token, StreamBuilder.set_sender _ addressShape_sender,
    StreamBuilder.set_recipient _ addressShape_recipient, StreamBuilder.set_amount _ hamount,
    StreamBuilder.set_ratePerSecond _ hrate, Option.pure_def, Option.bind_eq_bind, Option.bind_some,
    openBuilder]

theorem openBuilder_reachable : openBuilder.Reachable wideStandIn := ⟨openSetters, run_openSetters⟩

theorem canBuild_offline (millis : ℕ) :
    CanBuild wideStandIn offlineContext (frozen offlineAnswers millis) :=
  ⟨by decide, "100", 100, _, 101, rfl, by decide, rfl, rfl⟩

/-- The same stream, from a minute ahead. -/
def datedBuilder : StreamBuilder := { openBuilder with startTime := some (.fin 1700000060) }

theorem datedBuilder_reachable : datedBuilder.Reachable wideStandIn :=
  ⟨openSetters ++ [.startTime (.fin 1700000060) 1700000000],
    Run.run_concat_iff.mpr ⟨openBuilder, run_openSetters, rfl⟩⟩

/-- The vector of the open stream, with this rate and from `start` on. -/
def openVector (rate : Value ScVal) (start : Number) : Except Thrown (List ScVal) :=
  encodeStream wideStandIn "GAAAAAAAAAAAAAAAAAAAAAAAAAAAAAAAAAAAAAAAAAAAAAAAAAAAAWHF"
    "GBBD47IF6LWK7P7MDEVSCWR7DPUWV3NY3DTQEVFL4NAT4AQH3ZLLFLA5"
    "CDLZFC3SYJYDZT7K67VZ75HPJVIEUVNIXF47ZG2FB2RMQQVU2HHGCYSC"
    (.string (Numeric.bigint 1000).text) rate start (.fin 0) false

theorem openVector_ok {rate : Value ScVal} (hr : ReadAs wideStandIn rate (some 5)) (start : ℕ)
    (hs : start < 2 ^ 64) : ∃ v, openVector rate (.fin start) = .ok v ∧
      v[5]?.bind scValToU64 = some (start : ℤ) := by
  have htext : bigInt (Numeric.bigint 1000).text = some 1000 := bigInt_toString 1000
  have henc : Encodable wideStandIn "GAAAAAAAAAAAAAAAAAAAAAAAAAAAAAAAAAAAAAAAAAAAAAAAAAAAAWHF"
      "GBBD47IF6LWK7P7MDEVSCWR7DPUWV3NY3DTQEVFL4NAT4AQH3ZLLFLA5"
      "CDLZFC3SYJYDZT7K67VZ75HPJVIEUVNIXF47ZG2FB2RMQQVU2HHGCYSC"
      ⟨1000, 5, .fin start, .fin 0⟩ :=
    ⟨isValidAddress_wide addressShape_sender (.inl rfl),
      isValidAddress_wide addressShape_recipient (.inl rfl),
      isValidAddress_wide addressShape_token (.inr rfl), ⟨by norm_num, by norm_num⟩,
      ⟨by norm_num, by norm_num⟩, ⟨start, rfl, hs⟩, ⟨0, by simp, by norm_num⟩⟩
  unfold openVector
  refine ⟨_, (encodeStream_ok_iff wideStandIn_lawful (readAs_string wideStandIn_lawful _) hr).mpr
    ⟨1000, 5, htext, rfl, henc, rfl⟩, ?_⟩
  show scValToU64 (u64Of (Number.fin (start : ℚ)).toNat) = _
  rw [Number.toNat_natCast]
  exact scValToU64_u64Of hs

end StreamFi
