import StreamFi.Amount
import StreamFi.Stellar

/-!
# Building a batch

One transaction is built per operation, on consecutive sequence numbers, offline or against an RPC
node that simulates each of them.

* `validateContext`, `resolvePassphrase`, `operationToScVals`: the inputs;
* `buildBatchTransactionsSync`, `buildBatchTransactions`: the two builders;
* `Numbered`: one transaction per operation, with its position, method and sequence number;
* **`buildBatchTransactions_numbered`**: a successful build is numbered from its base.
-/

namespace StreamFi

open Js

/-! ## Context -/

structure BatchTransactionContext where
  contractId : String
  sourceAccount : String
  network : Option Network := none
  networkPassphrase : Option String := none
  sequence : Option String := none
  rpcUrl : Option String := none
  fee : Option String := none
  timeoutSeconds : Option Number := none

/-- `BASE_FEE`. -/
def baseFee : String := "100"

def defaultBatchTimeoutSeconds : Number := .fin 30

def batchBuildError (message : String) : Thrown := errorOf "BatchBuildError" message

/-- A network that is present and truthy. -/
def BatchTransactionContext.namedNetwork (context : BatchTransactionContext) : Option Network :=
  context.network.filter (·.text ≠ "")

def resolvePassphrase (context : BatchTransactionContext) : Except Thrown String :=
  match context.networkPassphrase.filter fun p => trim p.toList ≠ [] with
  | some passphrase => .ok passphrase
  | none => match context.namedNetwork with
    | some network => match StreamFi.networkPassphrase network with
      | some passphrase => .ok passphrase
      | none => .error (batchBuildError s!"Unknown network \"{network.text}\"")
    | none => .error (batchBuildError
        "BatchTransactionContext requires either networkPassphrase or network")

/-- `/^\d+$/`. -/
def IsDigits (s : String) : Prop := s.toList ≠ [] ∧ AllDigits s.toList

instance (s : String) : Decidable (IsDigits s) := inferInstanceAs (Decidable (_ ∧ _))

/-- `errors.join('; ')`. -/
def joinErrors (errors : List String) : String := "; ".intercalate errors

variable {Tx : Type}

def validateContext (sdk : Sdk Tx) (context : BatchTransactionContext) : List String :=
  (if context.contractId = "" ∨ ¬ sdk.isValidContract context.contractId then
    [s!"contractId must be a valid Soroban contract ID (C-address), got \"{context.contractId}\""]
   else []) ++
  (if context.sourceAccount = "" ∨ ¬ sdk.isValidEd25519PublicKey context.sourceAccount then
    ["sourceAccount must be a valid Stellar public key (G-address), " ++
      s!"got \"{context.sourceAccount}\""]
   else []) ++
  (if context.namedNetwork = none ∧ truthyText context.networkPassphrase = none then
    ["Either network or networkPassphrase must be provided"]
   else []) ++
  (match context.namedNetwork with
   | some network =>
     if networkPassphrase network = none then [s!"Unknown network \"{network.text}\""] else []
   | none => []) ++
  (if context.sequence = none ∧ truthyText context.rpcUrl = none then
    ["Either sequence (to build offline) or rpcUrl (to fetch it and prepare) must be provided"]
   else []) ++
  (match context.sequence with
   | some sequence =>
     if ¬ IsDigits sequence then
       [s!"sequence must be a non-negative integer string, got \"{sequence}\""]
     else []
   | none => [])

/-! ## Operations -/

structure BuildableOperation where
  method : String
  params : Option (List (String × Value ScVal)) := none
  types : Option (List (String × ScValType)) := none
  args : Option (List (Value ScVal)) := none

def paramToScVal (sdk : Sdk Tx) (value : Value ScVal) (type : Option ScValType) :
    Except Thrown ScVal :=
  match value, type with
  | .undefined, _ | .symbol, _ | .function, _ | .null, _ => .ok .void
  | .host v, _ => .ok v
  | value, some type => sdk.nativeToScVal value (some type)
  | .string s, none =>
    if sdk.isValidEd25519PublicKey s ∨ sdk.isValidContract s then sdk.addressToScVal s
    else sdk.nativeToScVal (.string s) none
  | value, none => sdk.nativeToScVal value none

def operationToScVals (sdk : Sdk Tx) (operation : BuildableOperation) :
    Except Thrown (List ScVal) :=
  match operation.args with
  | some args => args.mapM fun arg => paramToScVal sdk arg none
  | none =>
    let entries := operation.params.getD []
    if entries = [] then .ok []
    else do
      -- map keys must be sorted for the value to be canonical
      let sorted := entries.mergeSort fun a b => utf16Le a.1 b.1
      let pairs ← sorted.mapM fun (key, value) => do
        let k ← sdk.nativeToScVal (.string key) (some .symbol)
        let v ← paramToScVal sdk value (operation.types.bind (·.lookup key))
        return (k, v)
      return [.map pairs]

/-! ## Builders -/

structure BuiltBatchTransaction where
  index : ℕ
  method : String
  xdr : String
  prepared : Bool
  deriving DecidableEq

/-- The transaction of one operation, built on `BigInt(sequence) + BigInt(index)`. -/
def buildTransaction (sdk : Sdk Tx) (context : BatchTransactionContext) (passphrase : String)
    (sequence : String) (clock : ℕ → Number) (operation : BuildableOperation) (index : ℕ) :
    Except Thrown Tx := do
  if operation.method = "" then
    .error (batchBuildError s!"Operation at index {index} is missing a method name")
  else
    let base ← bigIntOf sequence
    let args ← operationToScVals sdk operation
    sdk.buildCall
      { source := context.sourceAccount, sequence := base + index,
        fee := context.fee.getD baseFee, networkPassphrase := passphrase,
        contractId := context.contractId, method := operation.method, args := args,
        timeout := context.timeoutSeconds.getD defaultBatchTimeoutSeconds, clock := clock index }

def buildBatchTransactionsSync (sdk : Sdk Tx) (operations : List BuildableOperation)
    (context : BatchTransactionContext) (clock : ℕ → Number) :
    Except Thrown (List BuiltBatchTransaction) := do
  let errors := validateContext sdk context
  if errors ≠ [] then .error (batchBuildError (joinErrors errors))
  else match context.sequence with
    | none => .error (batchBuildError "sequence is required to build batch transactions offline")
    | some sequence =>
      let passphrase ← resolvePassphrase context
      operations.zipIdx.mapM fun (operation, index) => do
        let tx ← buildTransaction sdk context passphrase sequence clock operation index
        return { index := index, method := operation.method, xdr := sdk.toXDR tx, prepared := false }

/-- What the environment answers during one build. -/
structure BuildAnswers (Tx : Type) where
  /-- `(await server.getAccount(…)).sequenceNumber()` -/
  sequenceNumber : Except Thrown String
  /-- `Date.now()` when each transaction is built -/
  clock : ℕ → Number
  /-- the simulation of each transaction: rejected, an error text, or a success -/
  simulateTransaction : ℕ → Tx → Except Thrown (Except String Simulation)

/-- The sequence number given, else the account's. -/
def startSequence (context : BatchTransactionContext) (answers : BuildAnswers Tx) :
    Except Thrown String :=
  match context.sequence with
  | some sequence => .ok sequence
  | none => answers.sequenceNumber.mapError rpcError

/-- One settled simulation. -/
def simulateOne (answers : BuildAnswers Tx) (operation : BuildableOperation) (index : ℕ) (tx : Tx) :
    Except Thrown Simulation :=
  match answers.simulateTransaction index tx with
  | .error err => .error (rpcError err)
  | .ok (.error error) => .error (batchBuildError
      s!"Simulation failed for operation {index} ({operation.method}): {error}")
  | .ok (.ok simulation) => .ok simulation

/-- The texts of the rejected promises. -/
def rejections {α : Type} (settled : List (Except Thrown α)) : List String :=
  settled.filterMap fun
    | .error err => some err.text
    | .ok _ => none

def buildBatchTransactions (sdk : Sdk Tx) (operations : List BuildableOperation)
    (context : BatchTransactionContext) (answers : BuildAnswers Tx) :
    Except Thrown (List BuiltBatchTransaction) := do
  let errors := validateContext sdk context
  if errors ≠ [] then .error (batchBuildError (joinErrors errors))
  else if truthyText context.rpcUrl = none then
    buildBatchTransactionsSync sdk operations context answers.clock
  else
    let sequence ← startSequence context answers
    let passphrase ← resolvePassphrase context
    let txs ← operations.zipIdx.mapM fun (operation, index) => do
      let tx ← buildTransaction sdk context passphrase sequence answers.clock operation index
      return (operation, index, tx)
    let simulationResults := txs.map fun (operation, index, tx) =>
      simulateOne answers operation index tx
    if rejections simulationResults ≠ [] then
      .error (batchBuildError (joinErrors (rejections simulationResults)))
    else
      (txs.zip simulationResults).mapM fun ((operation, index, tx), result) => do
        let simulation ← result
        let assembled ← sdk.assembleTransaction tx simulation
        return { index := index, method := operation.method, xdr := sdk.toXDR assembled,
                 prepared := true }

/-- Contract values are passed on. -/
theorem operationToScVals_host (sdk : Sdk Tx) (method : String) (v : List ScVal) :
    operationToScVals sdk { method := method, args := some (v.map .host) } = .ok v := by
  show (v.map .host).mapM (fun arg => paramToScVal sdk arg none) = .ok v
  induction v with
  | nil => rfl
  | cons x v ih =>
    rw [List.map_cons, List.mapM_cons, ih]
    rfl

/-! ## Numbering -/

/-- The base the sequence numbers are counted from. -/
def SequenceBase (context : BatchTransactionContext) (answers : BuildAnswers Tx) (s : ℤ) : Prop :=
  ∃ text, startSequence context answers = .ok text ∧ bigIntOf text = .ok s

/-- An envelope built on an account at sequence number `s`. -/
def OnAccountSequence (sdk : Sdk Tx) (xdr : String) (s : ℤ) : Prop :=
  ∀ passphrase, ∃ tx, sdk.fromXDR xdr passphrase = .ok tx ∧ sdk.sequence tx = s + 1

/-- One transaction per operation: the `i`-th has index `i`, the operation's method and account
sequence `s + i`. -/
structure Numbered (sdk : Sdk Tx) (s : ℤ) (operations : List BuildableOperation)
    (built : List BuiltBatchTransaction) : Prop where
  length : built.length = operations.length
  entry : ∀ (i : ℕ) op t, operations[i]? = some op → built[i]? = some t →
    t.index = i ∧ t.method = op.method ∧ OnAccountSequence sdk t.xdr (s + i)

theorem numbered_of_forall₂ {sdk : Sdk Tx} {s : ℤ} {operations : List BuildableOperation}
    {built : List BuiltBatchTransaction}
    (h : List.Forall₂ (fun (p : BuildableOperation × ℕ) t => t.index = p.2 ∧
      t.method = p.1.method ∧ OnAccountSequence sdk t.xdr (s + p.2)) operations.zipIdx built) :
    Numbered sdk s operations built := by
  obtain ⟨hlen, hget⟩ := List.forall₂_iff_get.mp h
  rw [List.length_zipIdx] at hlen
  refine ⟨hlen.symm, fun i op t hop ht => ?_⟩
  obtain ⟨hi, rfl⟩ := List.getElem?_eq_some_iff.mp hop
  obtain ⟨hi', rfl⟩ := List.getElem?_eq_some_iff.mp ht
  simpa using hget i (by simpa using hi) hi'

section Lawful

variable {sdk : Sdk Tx} {operations : List BuildableOperation} {context : BatchTransactionContext}
  {built : List BuiltBatchTransaction} {s : ℤ}

theorem onAccountSequence_toXDR (hl : sdk.Lawful) {tx : Tx} (h : sdk.sequence tx = s + 1) :
    OnAccountSequence sdk (sdk.toXDR tx) s := by
  intro p
  obtain ⟨tx', hx, hs⟩ := hl.fromXDR_toXDR tx p
  exact ⟨tx', hx, hs.trans h⟩

theorem buildTransaction_sequence (hl : sdk.Lawful) {passphrase sequence : String}
    {clock : ℕ → Number} {operation : BuildableOperation} {index : ℕ} {tx : Tx}
    (hs : bigIntOf sequence = .ok s)
    (h : buildTransaction sdk context passphrase sequence clock operation index = .ok tx) :
    sdk.sequence tx = s + index + 1 := by
  unfold buildTransaction at h
  split_ifs at h with hm
  rw [hs, ok_seq] at h
  obtain ⟨args, _, h⟩ := seq_ok_iff.mp h
  exact hl.sequence_build _ _ h

theorem buildBatchTransactionsSync_numbered (hl : sdk.Lawful) {sequence : String}
    {clock : ℕ → Number} (hc : context.sequence = some sequence) (hs : bigIntOf sequence = .ok s)
    (h : buildBatchTransactionsSync sdk operations context clock = .ok built) :
    Numbered sdk s operations built := by
  simp only [buildBatchTransactionsSync, hc] at h
  split_ifs at h with he
  obtain ⟨passphrase, _, h⟩ := seq_ok_iff.mp h
  refine numbered_of_forall₂ ((forall₂_of_mapM h).imp fun p t ht => ?_)
  obtain ⟨tx, htx, ht⟩ := seq_ok_iff.mp ht
  cases ht
  exact ⟨rfl, rfl, onAccountSequence_toXDR hl (buildTransaction_sequence hl hs htx)⟩

/-- **A successful build is numbered** from its base. -/
theorem buildBatchTransactions_numbered (hl : sdk.Lawful) {answers : BuildAnswers Tx}
    (hb : SequenceBase context answers s)
    (h : buildBatchTransactions sdk operations context answers = .ok built) :
    Numbered sdk s operations built := by
  obtain ⟨text, htext, hs⟩ := hb
  unfold buildBatchTransactions at h
  simp only at h
  split_ifs at h with he hr
  · -- offline: the base can only come from the context
    cases hc : context.sequence with
    | none =>
      simp only [buildBatchTransactionsSync, hc] at h
      split_ifs at h
    | some sequence =>
      have hseq : sequence = text := by simpa [startSequence, hc] using htext
      exact buildBatchTransactionsSync_numbered hl hc (hseq ▸ hs) h
  · rw [htext, ok_seq] at h
    obtain ⟨passphrase, _, h⟩ := seq_ok_iff.mp h
    obtain ⟨txs, htxs, h⟩ := seq_ok_iff.mp h
    split_ifs at h
    rw [← List.map_prod_left_eq_zip] at h
    have hout := List.forall₂_map_left_iff.mp (forall₂_of_mapM h)
    refine numbered_of_forall₂ ((forall₂_chain (forall₂_of_mapM htxs) hout).imp ?_)
    rintro p t ⟨x, hx, ht⟩
    obtain ⟨tx, htx, hx⟩ := seq_ok_iff.mp hx
    cases hx
    obtain ⟨simulation, _, ht⟩ := seq_ok_iff.mp ht
    obtain ⟨assembled, ha, ht⟩ := seq_ok_iff.mp ht
    cases ht
    refine ⟨rfl, rfl, onAccountSequence_toXDR hl ?_⟩
    rw [hl.sequence_assemble _ _ _ ha, buildTransaction_sequence hl hs htx]

theorem bigIntOf_of_buildTransaction {passphrase sequence : String} {clock : ℕ → Number}
    {operation : BuildableOperation} {index : ℕ} {tx : Tx}
    (h : buildTransaction sdk context passphrase sequence clock operation index = .ok tx) :
    ∃ s, bigIntOf sequence = .ok s := by
  unfold buildTransaction at h
  split_ifs at h with hm
  obtain ⟨s, hs, -⟩ := seq_ok_iff.mp h
  exact ⟨s, hs⟩

/-- A build of something has read its base. -/
theorem sequenceBase_of_build {answers : BuildAnswers Tx} (hne : operations ≠ [])
    (h : buildBatchTransactions sdk operations context answers = .ok built) :
    ∃ s, SequenceBase context answers s := by
  obtain ⟨op, ops, rfl⟩ := List.exists_cons_of_ne_nil hne
  unfold buildBatchTransactions at h
  simp only at h
  split_ifs at h with he hr
  · simp only [buildBatchTransactionsSync] at h
    split_ifs at h
    cases hc : context.sequence with
    | none =>
      rw [hc] at h
      cases h
    | some sequence =>
      rw [hc] at h
      obtain ⟨passphrase, -, h⟩ := seq_ok_iff.mp h
      rw [List.zipIdx_cons, List.mapM_cons] at h
      obtain ⟨t, ht, -⟩ := seq_ok_iff.mp h
      obtain ⟨tx, htx, -⟩ := seq_ok_iff.mp ht
      obtain ⟨s, hs⟩ := bigIntOf_of_buildTransaction htx
      exact ⟨s, sequence, by rw [startSequence, hc], hs⟩
  · obtain ⟨sequence, hseq, h⟩ := seq_ok_iff.mp h
    obtain ⟨passphrase, -, h⟩ := seq_ok_iff.mp h
    obtain ⟨txs, htxs, -⟩ := seq_ok_iff.mp h
    rw [List.zipIdx_cons, List.mapM_cons] at htxs
    obtain ⟨t, ht, -⟩ := seq_ok_iff.mp htxs
    obtain ⟨tx, htx, -⟩ := seq_ok_iff.mp ht
    obtain ⟨s, hs⟩ := bigIntOf_of_buildTransaction htx
    exact ⟨s, sequence, hseq, hs⟩

/-- Nothing to build is not an error. -/
theorem buildBatchTransactions_nil (hc : validateContext sdk context = []) {passphrase : String}
    (hp : resolvePassphrase context = .ok passphrase) {answers : BuildAnswers Tx}
    (hb : SequenceBase context answers s) :
    buildBatchTransactions sdk [] context answers = .ok [] := by
  obtain ⟨text, htext, -⟩ := hb
  simp only [buildBatchTransactions, hc, htext, hp, ok_seq]
  by_cases hr : truthyText context.rpcUrl = none
  · rw [if_neg (by simp), if_pos hr]
    cases hs : context.sequence with
    | none =>
      -- such a context does not pass validation
      simp [validateContext, hs, hr] at hc
    | some sequence =>
      simp only [buildBatchTransactionsSync, hc, hs, hp]
      rfl
  · rw [if_neg (by simp), if_neg hr]
    rfl

end Lawful

/-! ## An offline build -/

/-- A context that builds offline from sequence number `100`. -/
def offlineContext : BatchTransactionContext where
  contractId := "CDLZFC3SYJYDZT7K67VZ75HPJVIEUVNIXF47ZG2FB2RMQQVU2HHGCYSC"
  sourceAccount := "GAAAAAAAAAAAAAAAAAAAAAAAAAAAAAAAAAAAAAAAAAAAAAAAAAAAAWHF"
  network := some .testnet
  sequence := some "100"

def offlineAnswers : BuildAnswers ℕ where
  sequenceNumber := throwNew "offline"
  clock _ := .fin 0
  simulateTransaction _ _ := throwNew "offline"

theorem sequenceBase_offline : SequenceBase offlineContext offlineAnswers 100 :=
  ⟨"100", rfl, by decide⟩

def twoOperations : List BuildableOperation :=
  List.replicate 2 { method := "withdraw", args := some [] }

def twoBuilt : List BuiltBatchTransaction :=
  [{ index := 0, method := "withdraw", xdr := "101", prepared := false },
   { index := 1, method := "withdraw", xdr := "102", prepared := false }]

theorem build_two :
    buildBatchTransactions standIn twoOperations offlineContext offlineAnswers = .ok twoBuilt := by
  decide

end StreamFi
