import StreamFi.Batch.Build
import StreamFi.Create.Args
import StreamFi.Create.Chain

/-!
# Creating a batch of streams

`createBatchStreams` assembles every configuration's arguments, builds one transaction for each
that could be assembled, and then lets a chain for each transaction run, all at once. What it
returns is keyed by the position of the configuration.

* `builtTxs`, `startChains`, `batchReport`: the phases before, and the report after;
* `BatchRun`: a run of the chains, in any interleaving, until all are settled;
* `report_failed`, `report_unbuilt`, **`report_settled`**: each configuration's entry in the report;
* **`BatchRun.reported`**: what is known of each chain in the end.
-/

namespace StreamFi

open Js Run

/-! ## Before and after the chains -/

structure BatchCreateStreamResult where
  index : ℕ
  success : Bool
  streamId : Option ℤ := none
  streamAddress : Option String := none
  txHash : Option String := none
  error : Option String := none
  deriving DecidableEq

/-- What is answered before anything is signed; the clock and `getTokenDecimals` by position. -/
structure BatchCreateAnswers (Tx : Type) where
  sender : Except Thrown String
  decimals : ℕ → String → Except Thrown ℕ
  validateNow : ℕ → ℕ
  assembleNow : ℕ → ℕ
  build : BuildAnswers Tx

variable {Tx : Type}

def BatchCreateAnswers.argsAnswers (answers : BatchCreateAnswers Tx) (sender : String) (i : ℕ) :
    ArgsAnswers where
  sender := sender
  decimals := answers.decimals i
  validateNow := answers.validateNow i
  assembleNow := answers.assembleNow i

/-- The settled promises of the first phase. -/
def assembledArgs (sdk : Sdk Tx) (answers : BatchCreateAnswers Tx) (sender : String)
    (configs : List CreateStreamParams) : List (Except Thrown (List ScVal)) :=
  configs.mapIdx fun i p => batchArgs sdk (answers.argsAnswers sender i) p

/-- The positions that could be assembled, with their arguments. -/
def validEntries (args : List (Except Thrown (List ScVal))) : List (ℕ × List ScVal) :=
  args.zipIdx.filterMap fun
    | (.ok vector, i) => some (i, vector)
    | (.error _, _) => none

def batchContext (config : StreamsConfig) (sender : String) : BatchTransactionContext where
  contractId := config.factoryAddress.getD ""
  sourceAccount := sender
  networkPassphrase := some config.passphrase
  rpcUrl := some config.rpcUrl

def createOperation (entry : ℕ × List ScVal) : BuildableOperation where
  method := "create_stream"
  args := some (entry.2.map .host)

/-- The built transactions; there is nothing to build without a valid entry. -/
def builtTxs (sdk : Sdk Tx) (config : StreamsConfig) (answers : BatchCreateAnswers Tx)
    (sender : String) (configs : List CreateStreamParams) :
    Except Thrown (List BuiltBatchTransaction) :=
  let entries := validEntries (assembledArgs sdk answers sender configs)
  if entries = [] then .ok []
  else buildBatchTransactions sdk (entries.map createOperation) (batchContext config sender)
    answers.build

/-- A chain starts with `new Transaction(bt.xdr, passphrase)`. -/
def startChain (sdk : Sdk Tx) (passphrase : String) (bt : BuiltBatchTransaction) : Chain :=
  match sdk.fromXDR bt.xdr passphrase with
  | .ok _ => { phase := .signing }
  | .error err => { phase := .done (.error err) }

/-- One chain for each built transaction, and none when the build failed. -/
def startChains (sdk : Sdk Tx) (config : StreamsConfig) :
    Except Thrown (List BuiltBatchTransaction) → List Chain
  | .ok built => built.map (startChain sdk config.passphrase)
  | .error _ => []

def Chain.outcome (c : Chain) : Option (Except Thrown CreateStreamResult) :=
  match c.phase with
  | .done r => some r
  | _ => none

def failureResult (i : ℕ) (err : Thrown) : BatchCreateStreamResult where
  index := i
  success := false
  error := some err.text

def settledResult (i : ℕ) : Except Thrown CreateStreamResult → BatchCreateStreamResult
  | .ok r => { index := i, success := true, streamId := some r.streamId,
               streamAddress := some r.streamAddress, txHash := some r.txHash }
  | .error err => failureResult i err

/-- `results.set(r.index, r)` for each of them in turn. -/
def setAll (results : ℕ → Option BatchCreateStreamResult) (rs : List BatchCreateStreamResult) :
    ℕ → Option BatchCreateStreamResult :=
  rs.foldl (fun results r => Function.update results r.index (some r)) results

/-- What is set for the first phase. -/
def argsFailures (args : List (Except Thrown (List ScVal))) : List BatchCreateStreamResult :=
  args.zipIdx.filterMap fun
    | (.error err, i) => some (failureResult i err)
    | (.ok _, _) => none

/-- What is set for a failed build. -/
def buildFailures (entries : List (ℕ × List ScVal)) :
    Except Thrown (List BuiltBatchTransaction) → List BatchCreateStreamResult
  | .error err => entries.map fun b => failureResult b.1 err
  | .ok _ => []

/-- What is set for the chains: the `i`-th belongs to the `i`-th valid entry. -/
def settledResults (entries : List (ℕ × List ScVal))
    (settled : List (Except Thrown CreateStreamResult)) : List BatchCreateStreamResult :=
  (entries.zip settled).map fun p => settledResult p.1.1 p.2

/-- `configs.map((_, i) => results.get(i))`. -/
def batchReport (n : ℕ) (args : List (Except Thrown (List ScVal)))
    (built : Except Thrown (List BuiltBatchTransaction))
    (settled : List (Except Thrown CreateStreamResult)) : List (Option BatchCreateStreamResult) :=
  let entries := validEntries args
  let results := setAll (fun _ => none) (argsFailures args)
  let results := setAll results (buildFailures entries built)
  let results := setAll results (settledResults entries settled)
  (List.range n).map results

/-- `createBatchStreams`, with the chains as they are in the end. -/
def createBatchStreams (sdk : Sdk Tx) (config : StreamsConfig) (answers : BatchCreateAnswers Tx)
    (configs : List CreateStreamParams) (chains : List Chain) :
    Except Thrown (List (Option BatchCreateStreamResult)) := do
  ensureCanMutate config
  if configs = [] then return []
  else
    let sender ← answers.sender
    return batchReport configs.length (assembledArgs sdk answers sender configs)
      (builtTxs sdk config answers sender configs) (chains.filterMap Chain.outcome)

/-- The chains' answers, in any interleaving, until all are settled. -/
structure BatchRun (sdk : Sdk Tx) (config : StreamsConfig) (answers : BatchCreateAnswers Tx)
    (sender : String) (configs : List CreateStreamParams) (log : List (ℕ × ChainEvent Tx))
    (chains : List Chain) : Prop where
  asked : configs ≠ [] → answers.sender = .ok sender
  ran : run (poolStep (Chain.step config.maxAttempts))
    (startChains sdk config (builtTxs sdk config answers sender configs)) log = some chains
  settled : ∀ c ∈ chains, ∃ r, c.phase = .done r

/-! ## The report -/

section Report

variable {results : ℕ → Option BatchCreateStreamResult} {rs : List BatchCreateStreamResult}
  {args : List (Except Thrown (List ScVal))} {i : ℕ}

theorem setAll_of_not_mem (h : ∀ r ∈ rs, r.index ≠ i) : setAll results rs i = results i := by
  induction rs generalizing results with
  | nil => rfl
  | cons r rs ih =>
    change setAll (Function.update results r.index (some r)) rs i = _
    rw [ih fun r' hr' => h r' (List.mem_cons_of_mem _ hr')]
    exact Function.update_of_ne (h r List.mem_cons_self).symm _ _

theorem setAll_of_mem (hnd : (rs.map (·.index)).Nodup) {r : BatchCreateStreamResult} (hr : r ∈ rs)
    (hi : r.index = i) : setAll results rs i = some r := by
  subst hi
  induction rs generalizing results with
  | nil => cases hr
  | cons r' rs ih =>
    obtain ⟨hr', hnd⟩ := List.nodup_cons.mp hnd
    change setAll (Function.update results r'.index (some r')) rs r.index = _
    rcases List.mem_cons.mp hr with rfl | hr
    · rw [setAll_of_not_mem, Function.update_self]
      intro r'' hr'' heq
      exact hr' (List.mem_map.mpr ⟨r'', hr'', heq⟩)
    · exact ih hnd hr

theorem mem_validEntries {vector : List ScVal} :
    (i, vector) ∈ validEntries args ↔ args[i]? = some (.ok vector) := by
  simp only [validEntries, List.mem_filterMap, Prod.exists, List.mem_zipIdx_iff_getElem?]
  constructor
  · rintro ⟨x, j, hx, h⟩
    cases x with
    | error err => cases h
    | ok vector' =>
      cases h
      exact hx
  · intro h
    exact ⟨_, i, h, rfl⟩

theorem zipIdx_increasing {α : Type} (xs : List α) : xs.zipIdx.Pairwise fun a b => a.2 < b.2 := by
  apply List.pairwise_map.mp
  rw [List.zipIdx_map_snd]
  exact List.pairwise_lt_range'

/-- The positions are increasing. -/
theorem validEntries_increasing : (validEntries args).Pairwise fun a b => a.1 < b.1 := by
  refine List.Pairwise.filterMap _ ?_ (zipIdx_increasing args)
  rintro ⟨x, i⟩ ⟨y, j⟩ hij a ha b hb
  cases x <;> cases ha
  cases y <;> cases hb
  exact hij

theorem validEntries_nodup : ((validEntries args).map Prod.fst).Nodup :=
  (List.pairwise_map.mpr validEntries_increasing).imp ne_of_lt

theorem mem_argsFailures {r : BatchCreateStreamResult} :
    r ∈ argsFailures args ↔ ∃ i err, args[i]? = some (.error err) ∧ r = failureResult i err := by
  simp only [argsFailures, List.mem_filterMap, Prod.exists, List.mem_zipIdx_iff_getElem?]
  constructor
  · rintro ⟨x, j, hx, h⟩
    cases x with
    | error err =>
      cases h
      exact ⟨j, err, hx, rfl⟩
    | ok vector => cases h
  · rintro ⟨i, err, h, rfl⟩
    exact ⟨_, i, h, rfl⟩

theorem argsFailures_nodup : ((argsFailures args).map (·.index)).Nodup := by
  refine (List.pairwise_map.mpr (List.Pairwise.filterMap _ ?_ (zipIdx_increasing args))).imp ne_of_lt
  rintro ⟨x, i⟩ ⟨y, j⟩ hij a ha b hb
  cases x <;> cases ha
  cases y <;> cases hb
  exact hij

variable {built : Except Thrown (List BuiltBatchTransaction)} {n : ℕ}
  {settled : List (Except Thrown CreateStreamResult)}

theorem batchReport_getElem? (hi : i < n) : (batchReport n args built settled)[i]? =
    some (setAll (setAll (setAll (fun _ => none) (argsFailures args))
      (buildFailures (validEntries args) built)) (settledResults (validEntries args) settled) i) := by
  simp [batchReport, hi]

theorem index_settledResult (i : ℕ) (r : Except Thrown CreateStreamResult) :
    (settledResult i r).index = i := by
  cases r <;> rfl

/-- What is set after the first phase is for valid entries. -/
theorem valid_of_mem_settled {r : BatchCreateStreamResult}
    (h : r ∈ settledResults (validEntries args) settled) :
    ∃ vector, args[r.index]? = some (.ok vector) := by
  obtain ⟨⟨⟨i, vector⟩, x⟩, hmem, rfl⟩ := List.mem_map.mp h
  rw [index_settledResult]
  exact ⟨vector, mem_validEntries.mp (List.of_mem_zip hmem).1⟩

theorem valid_of_mem_buildFailures {r : BatchCreateStreamResult}
    (h : r ∈ buildFailures (validEntries args) built) :
    ∃ vector, args[r.index]? = some (.ok vector) := by
  cases built with
  | ok txs => cases h
  | error err =>
    obtain ⟨⟨i, vector⟩, hmem, rfl⟩ := List.mem_map.mp h
    exact ⟨vector, mem_validEntries.mp hmem⟩

/-- **A configuration that could not be assembled** is reported with its error. -/
theorem report_failed (hi : i < n) {err : Thrown} (h : args[i]? = some (.error err)) :
    (batchReport n args built settled)[i]? = some (some (failureResult i err)) := by
  have hne : ∀ r : BatchCreateStreamResult, (∃ vector, args[r.index]? = some (.ok vector)) →
      r.index ≠ i := by
    rintro r ⟨vector, hv⟩ rfl
    cases h.symm.trans hv
  rw [batchReport_getElem? hi, setAll_of_not_mem fun r hr => hne r (valid_of_mem_settled hr),
    setAll_of_not_mem fun r hr => hne r (valid_of_mem_buildFailures hr)]
  exact congrArg some (setAll_of_mem argsFailures_nodup (mem_argsFailures.mpr ⟨i, err, h, rfl⟩) rfl)

/-- **A failed build** is reported for every valid entry. -/
theorem report_unbuilt (hi : i < n) {vector : List ScVal} (h : args[i]? = some (.ok vector))
    {err : Thrown} : (batchReport n args (.error err) [])[i]? = some (some (failureResult i err)) := by
  have hmem : failureResult i err ∈ buildFailures (validEntries args) (.error err) :=
    List.mem_map.mpr ⟨(i, vector), mem_validEntries.mpr h, rfl⟩
  have hnd : ((buildFailures (validEntries args) (.error err)).map (·.index)).Nodup := by
    rw [buildFailures, List.map_map]
    exact validEntries_nodup
  rw [batchReport_getElem? hi, settledResults, List.zip_nil_right, List.map_nil]
  exact congrArg some (setAll_of_mem hnd hmem rfl)

/-- **A settled chain** is reported for its configuration. -/
theorem report_settled (hi : i < n) (hlen : settled.length = (validEntries args).length) {j : ℕ}
    {vector : List ScVal} (hj : (validEntries args)[j]? = some (i, vector))
    {r : Except Thrown CreateStreamResult} (hr : settled[j]? = some r) :
    (batchReport n args built settled)[i]? = some (some (settledResult i r)) := by
  have hmem : settledResult i r ∈ settledResults (validEntries args) settled := by
    refine List.mem_map.mpr ⟨((i, vector), r), ?_, rfl⟩
    exact List.mem_of_getElem? (List.getElem?_zip_eq_some.mpr ⟨hj, hr⟩)
  have hnd : ((settledResults (validEntries args) settled).map (·.index)).Nodup := by
    have hmap : (settledResults (validEntries args) settled).map (·.index) =
        (validEntries args).map Prod.fst := by
      have hzip : ((validEntries args).zip settled).map Prod.fst = validEntries args :=
        List.map_fst_zip hlen.ge
      conv_rhs => rw [← hzip]
      rw [settledResults, List.map_map, List.map_map]
      apply List.map_congr_left
      intro p _
      exact index_settledResult p.1.1 p.2
    rw [hmap]
    exact validEntries_nodup
  rw [batchReport_getElem? hi]
  exact congrArg some (setAll_of_mem hnd hmem (index_settledResult i r))

end Report

/-! ## The chains -/

section Chains

variable {sdk : Sdk Tx} {config : StreamsConfig} {answers : BatchCreateAnswers Tx} {sender : String}
  {configs : List CreateStreamParams} {log : List (ℕ × ChainEvent Tx)} {chains : List Chain}
  {built : List BuiltBatchTransaction}

/-- A build of valid entries is numbered. -/
theorem builtTxs_numbered (hl : sdk.Lawful) (h : builtTxs sdk config answers sender configs = .ok built) :
    ∃ s, Numbered sdk s ((validEntries (assembledArgs sdk answers sender configs)).map createOperation)
      built := by
  unfold builtTxs at h
  simp only at h
  split_ifs at h with he
  · cases h
    rw [he]
    exact ⟨0, rfl, by simp⟩
  · obtain ⟨s, hs⟩ := sequenceBase_of_build (by simpa using he) h
    exact ⟨s, buildBatchTransactions_numbered hl hs h⟩

theorem builtTxs_length (hl : sdk.Lawful) (h : builtTxs sdk config answers sender configs = .ok built) :
    built.length = (validEntries (assembledArgs sdk answers sender configs)).length := by
  obtain ⟨s, hs⟩ := builtTxs_numbered hl h
  rw [hs.length, List.length_map]

/-- A built envelope can be read back, so every chain starts at the signer. -/
theorem startChains_eq (hl : sdk.Lawful) (h : builtTxs sdk config answers sender configs = .ok built) :
    startChains sdk config (.ok built) = List.replicate built.length { phase := .signing } := by
  obtain ⟨s, hs⟩ := builtTxs_numbered hl h
  refine List.eq_replicate_iff.mpr ⟨List.length_map _, ?_⟩
  intro c hc
  obtain ⟨bt, hbt, rfl⟩ := List.mem_map.mp hc
  obtain ⟨j, hj⟩ := List.mem_iff_getElem?.mp hbt
  have hop := List.getElem?_eq_getElem (hs.length ▸ (List.getElem?_eq_some_iff.mp hj).1)
  obtain ⟨tx, htx, -⟩ := (hs.entry j _ bt hop hj).2.2 config.passphrase
  rw [startChain, htx]

theorem startChain_open (passphrase : String) (bt : BuiltBatchTransaction) :
    (startChain sdk passphrase bt).phase.Open := by
  unfold startChain
  cases sdk.fromXDR bt.xdr passphrase <;> trivial

theorem startChains_open (built : Except Thrown (List BuiltBatchTransaction)) {c : Chain}
    (h : c ∈ startChains sdk config built) : c.phase.Open := by
  cases built with
  | error err => cases h
  | ok txs =>
    obtain ⟨bt, -, rfl⟩ := List.mem_map.mp h
    exact startChain_open config.passphrase bt

theorem BatchRun.length (h : BatchRun sdk config answers sender configs log chains) :
    chains.length =
      (startChains sdk config (builtTxs sdk config answers sender configs)).length :=
  (run_component h.ran).1

/-- **What is known of each chain** in the end. -/
theorem BatchRun.reported (h : BatchRun sdk config answers sender configs log chains) {j : ℕ}
    {c : Chain} (hc : chains[j]? = some c) :
    Reported c (eventsOf j log) ∧ ∃ r, c.phase = .done r := by
  have hj : j < (startChains sdk config (builtTxs sdk config answers sender configs)).length := by
    rw [← h.length]
    exact (List.getElem?_eq_some_iff.mp hc).1
  obtain ⟨c', hc', hrun⟩ := (run_component h.ran).2 j _ (List.getElem?_eq_getElem hj)
  cases hc.symm.trans hc'
  exact ⟨chain_reported (startChains_open _ (List.getElem_mem hj)) hrun,
    h.settled c (List.mem_of_getElem? hc)⟩

/-- The results of settled chains, in order. -/
theorem exists_outcomes (h : ∀ c ∈ chains, ∃ r, c.phase = .done r) :
    List.Forall₂ (fun c r => c.phase = .done r) chains (chains.filterMap Chain.outcome) := by
  induction chains with
  | nil => exact .nil
  | cons c chains ih =>
    obtain ⟨r, hr⟩ := h c List.mem_cons_self
    have hout : c.outcome = some r := by rw [Chain.outcome, hr]
    rw [List.filterMap_cons, hout]
    exact .cons hr (ih fun c' hc' => h c' (List.mem_cons_of_mem _ hc'))

theorem createBatchStreams_eq (hc : config.canSign = true)
    (h : BatchRun sdk config answers sender configs log chains) :
    createBatchStreams sdk config answers configs chains =
      .ok (batchReport configs.length (assembledArgs sdk answers sender configs)
        (builtTxs sdk config answers sender configs) (chains.filterMap Chain.outcome)) := by
  rw [createBatchStreams, ensureCanMutate, if_pos hc, ok_seq]
  split_ifs with hnil
  · subst hnil
    rfl
  · rw [h.asked hnil, ok_seq]
    rfl

end Chains

end StreamFi
