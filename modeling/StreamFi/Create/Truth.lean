import StreamFi.Create.Batch

/-!
# Reports against the ledger

* `BatchFaithful`: a batch's report says of each configuration whether its transaction was confirmed
  with a stream id; **`batchFaithful_iff`**: when it does;
* `createTx`, `CreateRun`: `create`, up to the signature and from there;
* **`confirmed_reported_iff`**: the batch and the single creation together.
-/

namespace StreamFi

open Js Run

variable {Tx : Type}

/-- The transaction of the configuration at position `i` was confirmed with a stream id. -/
def ConfirmedAt (args : List (Except Thrown (List ScVal))) (chains : List Chain) (i : ℕ) : Prop :=
  ∃ (j : ℕ) (vector : List ScVal) (c : Chain), (validEntries args)[j]? = some (i, vector) ∧
    chains[j]? = some c ∧ c.Confirmed

/-- One result for each configuration, at its position: a success exactly when its transaction was
confirmed with a stream id. -/
def BatchFaithful (n : ℕ) (args : List (Except Thrown (List ScVal))) (chains : List Chain)
    (results : List (Option BatchCreateStreamResult)) : Prop :=
  results.length = n ∧ ∀ i < n, ∃ r, results[i]? = some (some r) ∧ r.index = i ∧
    (r.success = true ↔ ConfirmedAt args chains i)

theorem success_settledResult (i : ℕ) (r : Except Thrown CreateStreamResult) :
    (settledResult i r).success = r.isOk := by
  cases r <;> rfl

section Batch

variable {sdk : Sdk Tx} {config : StreamsConfig} {answers : BatchCreateAnswers Tx} {sender : String}
  {configs : List CreateStreamParams} {log : List (ℕ × ChainEvent Tx)} {chains : List Chain}

theorem length_assembledArgs :
    (assembledArgs sdk answers sender configs).length = configs.length := by
  simp [assembledArgs]

/-- A failed build leaves no chain, and reports only failures. -/
theorem batchFaithful_unbuilt {args : List (Except Thrown (List ScVal))} {err : Thrown} :
    BatchFaithful args.length args [] (batchReport args.length args (.error err) []) := by
  refine ⟨by simp [batchReport], ?_⟩
  intro i hi
  have hno : ¬ ConfirmedAt args [] i := by
    rintro ⟨j, vector, c, -, hc, -⟩
    simp at hc
  cases ha : args[i] with
  | error e =>
    have ha : args[i]? = some (.error e) := by rw [List.getElem?_eq_getElem hi, ha]
    exact ⟨_, report_failed hi ha, rfl, iff_of_false (by simp [failureResult]) hno⟩
  | ok vector =>
    have ha : args[i]? = some (.ok vector) := by rw [List.getElem?_eq_getElem hi, ha]
    exact ⟨_, report_unbuilt hi ha, rfl, iff_of_false (by simp [failureResult]) hno⟩

/-- **The report of settled chains** is faithful when each confirmed chain is a success. -/
theorem batchFaithful_built_iff {args : List (Except Thrown (List ScVal))}
    {built : Except Thrown (List BuiltBatchTransaction)}
    {settled : List (Except Thrown CreateStreamResult)}
    (hsettled : List.Forall₂ (fun c r => c.phase = .done r) chains settled)
    (hlen : chains.length = (validEntries args).length)
    (htrue : ∀ (j : ℕ) c r, chains[j]? = some c → settled[j]? = some r → r.isOk = true →
      c.Confirmed) :
    BatchFaithful args.length args chains (batchReport args.length args built settled) ↔
      ∀ (j : ℕ) c r, chains[j]? = some c → settled[j]? = some r → c.Confirmed → r.isOk = true := by
  have hlen' := hsettled.length_eq.symm.trans hlen
  constructor
  · rintro ⟨-, hall⟩ j c r hc hr hconf
    have hj : j < (validEntries args).length := hlen' ▸ (List.getElem?_eq_some_iff.mp hr).1
    obtain ⟨⟨i, vector⟩, hentry⟩ : ∃ entry, (validEntries args)[j]? = some entry :=
      ⟨_, List.getElem?_eq_getElem hj⟩
    have hi := (List.getElem?_eq_some_iff.mp
      (mem_validEntries.mp (List.mem_of_getElem? hentry))).1
    obtain ⟨r', hr', -, hiff⟩ := hall i hi
    cases (report_settled hi hlen' hentry hr).symm.trans hr'
    rw [← success_settledResult i]
    exact hiff.mpr ⟨j, vector, c, hentry, hc, hconf⟩
  · intro hconf
    refine ⟨by simp [batchReport], ?_⟩
    intro i hi
    cases ha : args[i] with
    | error e =>
      have ha : args[i]? = some (.error e) := by rw [List.getElem?_eq_getElem hi, ha]
      refine ⟨_, report_failed hi ha, rfl, iff_of_false (by simp [failureResult]) ?_⟩
      rintro ⟨j, vector, c, hentry, -, -⟩
      cases ha.symm.trans (mem_validEntries.mp (List.mem_of_getElem? hentry))
    | ok vector =>
      have ha : args[i]? = some (.ok vector) := by rw [List.getElem?_eq_getElem hi, ha]
      obtain ⟨j, hentry⟩ := List.mem_iff_getElem?.mp (mem_validEntries.mpr ha)
      have hj : j < chains.length := hlen ▸ (List.getElem?_eq_some_iff.mp hentry).1
      have hj' : j < settled.length := hsettled.length_eq ▸ hj
      have hc := List.getElem?_eq_getElem hj
      have hr := List.getElem?_eq_getElem hj'
      refine ⟨_, report_settled hi hlen' hentry hr, index_settledResult _ _, ?_⟩
      rw [success_settledResult]
      constructor
      · intro hok
        exact ⟨j, vector, _, hentry, hc, htrue j _ _ hc hr hok⟩
      · rintro ⟨j', vector', c', hentry', hc', hconf'⟩
        -- two entries of one position are one entry, so both chains give this position's result
        obtain ⟨r', hr'⟩ : ∃ r', settled[j']? = some r' :=
          ⟨_, List.getElem?_eq_getElem (hsettled.length_eq ▸ (List.getElem?_eq_some_iff.mp hc').1)⟩
        have hfirst : (batchReport args.length args built settled)[i]? = some (some _) :=
          report_settled hi hlen' hentry hr
        have hsame := hfirst.symm.trans (report_settled hi hlen' hentry' hr')
        have hok := hconf j' c' r' hc' hr' hconf'
        rw [← success_settledResult i] at hok ⊢
        rw [Option.some.inj (Option.some.inj hsame)]
        exact hok

/-- **When a batch's report is faithful**: when every chain confirmed with an id has its address
looked up. -/
theorem batchFaithful_iff (hl : sdk.Lawful) (hc : config.canSign = true)
    (h : BatchRun sdk config answers sender configs log chains) :
    (∃ results, createBatchStreams sdk config answers configs chains = .ok results ∧
        BatchFaithful configs.length (assembledArgs sdk answers sender configs) chains results) ↔
      ∀ (j : ℕ) c, chains[j]? = some c → c.Confirmed → ∃ a, (j, .address (.ok a)) ∈ log := by
  have hargs : (assembledArgs sdk answers sender configs).length = configs.length :=
    length_assembledArgs
  have hsettled := exists_outcomes h.settled
  have hlen := h.length
  rw [createBatchStreams_eq hc h, ← hargs]
  simp only [Except.ok.injEq, exists_eq_left']
  cases hb : builtTxs sdk config answers sender configs with
  | error err =>
    rw [hb, startChains, List.length_nil, List.length_eq_zero_iff] at hlen
    subst hlen
    exact iff_of_true batchFaithful_unbuilt (by simp)
  | ok built =>
    rw [hb, startChains, List.length_map, builtTxs_length hl hb] at hlen
    have hknown : ∀ (j : ℕ) c r, chains[j]? = some c →
        (chains.filterMap Chain.outcome)[j]? = some r →
        Reported c (eventsOf j log) ∧ c.phase = .done r := by
      intro j c r hcj hr
      obtain ⟨hj, rfl⟩ := List.getElem?_eq_some_iff.mp hcj
      obtain ⟨hj', rfl⟩ := List.getElem?_eq_some_iff.mp hr
      exact ⟨(h.reported hcj).1, hsettled.get hj hj'⟩
    rw [batchFaithful_built_iff hsettled hlen]
    · constructor
      · intro hall j c hcj hconf
        have hj : j < (chains.filterMap Chain.outcome).length :=
          hsettled.length_eq ▸ (List.getElem?_eq_some_iff.mp hcj).1
        have hr := List.getElem?_eq_getElem hj
        obtain ⟨hrep, hdone⟩ := hknown j c _ hcj hr
        obtain ⟨a, ha⟩ := (hrep.isOk_iff hdone).mp (hall j c _ hcj hr hconf)
        exact ⟨a, mem_eventsOf.mp ha⟩
      · intro hall j c r hcj hr hconf
        obtain ⟨hrep, hdone⟩ := hknown j c r hcj hr
        obtain ⟨a, ha⟩ := hall j c hcj hconf
        exact (hrep.isOk_iff hdone).mpr ⟨a, mem_eventsOf.mpr ha⟩
    · intro j c r hcj hr hok
      obtain ⟨hrep, hdone⟩ := hknown j c r hcj hr
      cases r with
      | error err => cases hok
      | ok result => exact ⟨_, hrep.hasId hdone⟩

end Batch

/-! ## One stream -/

/-- What is answered before `create` asks for a signature. -/
structure CreateAnswers (Tx : Type) where
  args : ArgsAnswers
  account : Except Thrown ℤ
  clock : Number
  /-- rejected, a contract error, or a success -/
  simulateTransaction : Tx → Except Thrown (Except Thrown Simulation)

/-- `create`, up to the assembled transaction. -/
def createTx (sdk : Sdk Tx) (config : StreamsConfig) (answers : CreateAnswers Tx)
    (p : CreateStreamParams) : Except Thrown Tx := do
  let args ← createArgs sdk config answers.args p
  let tx ← buildContractCallTx sdk config answers.account answers.clock answers.args.sender
    (config.factoryAddress.getD "") "create_stream" args
  let sim ← simulated "simulateTransaction (create)" (answers.simulateTransaction tx)
  sdk.assembleTransaction tx sim

/-- `create` from the signature on, until it settles with `r`. -/
structure CreateRun (sdk : Sdk Tx) (config : StreamsConfig) (answers : CreateAnswers Tx)
    (p : CreateStreamParams) (log : List (ChainEvent Tx)) (c : Chain)
    (r : Except Thrown CreateStreamResult) : Prop where
  built : ∃ tx, createTx sdk config answers p = .ok tx
  ran : run (Chain.step config.maxAttempts) { phase := .signing } log = some c
  settled : c.phase = .done r

theorem createRun_faithful_iff {sdk : Sdk Tx} {config : StreamsConfig} {answers : CreateAnswers Tx}
    {p : CreateStreamParams} {log : List (ChainEvent Tx)} {c : Chain}
    {r : Except Thrown CreateStreamResult} (h : CreateRun sdk config answers p log c r) :
    (c.Confirmed → r.isOk = true) ↔ (c.Confirmed → ∃ a, ChainEvent.address (.ok a) ∈ log) := by
  have hrep : Reported c log := chain_reported (by trivial) h.ran
  rw [hrep.isOk_iff h.settled]

/-- A keypair, seven decimals, a clock that stands still, and an account at 100. -/
def batchAnswers : BatchCreateAnswers ℕ where
  sender := .ok "GAAAAAAAAAAAAAAAAAAAAAAAAAAAAAAAAAAAAAAAAAAAAAAAAAAAAWHF"
  decimals _ _ := .ok 7
  validateNow _ := 1700000000
  assembleNow _ := 1700000000
  build :=
    { sequenceNumber := .ok "100", clock := fun _ => .fin 0,
      simulateTransaction := fun _ _ => .ok (.ok ⟨"data"⟩) }

def createAnswers : CreateAnswers ℕ where
  args := steadyAnswers
  account := .ok 100
  clock := .fin 0
  simulateTransaction _ := .ok (.ok ⟨"data"⟩)

/-- Signed, accepted, confirmed with stream id 7, and seen to be; then the look-up. -/
def confirmedLog (lookup : Except Thrown (Option String)) : List (ChainEvent ℕ) :=
  [.signed (.ok 101), .sendAnswer (.ok { isError := false, errorResult := none, hash := "hash" }),
    .ledger (.success (some (u64Of 7))), .poll .final, .address lookup]

/-- The chain after that. -/
def confirmedChain (lookup : Except Thrown (Option String)) : Chain where
  phase := .done (afterAddress "hash" 7 lookup)
  sent := true
  ledger := some (.success (some (u64Of 7)))

theorem confirmedChain_confirmed (lookup : Except Thrown (Option String)) :
    (confirmedChain lookup).Confirmed :=
  ⟨7, u64Of 7, rfl, rfl⟩

theorem buildTransaction_creation (entry : ℕ × List ScVal) (i : ℕ) :
    buildTransaction standIn (batchContext testnetConfig steadyAnswers.sender)
      testnetConfig.passphrase "100" batchAnswers.build.clock (createOperation entry) i =
    .ok (101 + i) := by
  have hseq : bigIntOf "100" = .ok 100 := by decide
  have hmethod : (createOperation entry).method ≠ "" := by
    show "create_stream" ≠ ""
    decide
  have hnn : (0 : ℤ) ≤ 100 + i := by positivity
  rw [buildTransaction, if_neg hmethod, hseq, ok_seq, createOperation, operationToScVals_host, ok_seq]
  have hbuild (spec : CallSpec) (h : 0 ≤ spec.sequence) :
      standIn.buildCall spec = .ok (spec.sequence + 1).toNat := if_pos h
  rw [hbuild _ hnn]
  exact congrArg _ (by simp only; omega)

/-- Whatever their vectors, one creation or two are built. -/
theorem build_creations (entries : List (ℕ × List ScVal))
    (h : entries.length = 1 ∨ entries.length = 2) :
    ∃ built, buildBatchTransactions standIn (entries.map createOperation)
      (batchContext testnetConfig steadyAnswers.sender) batchAnswers.build = .ok built ∧
        built.length = entries.length := by
  have hcontext : validateContext standIn (batchContext testnetConfig steadyAnswers.sender) = [] := by
    have hcontract : ¬ ((batchContext testnetConfig steadyAnswers.sender).contractId = "" ∨
        ¬ standIn.isValidContract (batchContext testnetConfig steadyAnswers.sender).contractId) := by
      rintro (h | h)
      · exact absurd h (by decide)
      · exact h addressShape_token
    have hsource : ¬ ((batchContext testnetConfig steadyAnswers.sender).sourceAccount = "" ∨
        ¬ standIn.isValidEd25519PublicKey
          (batchContext testnetConfig steadyAnswers.sender).sourceAccount) := by
      rintro (h | h)
      · exact absurd h (by decide)
      · exact h addressShape_sender
    rw [validateContext, if_neg hcontract, if_neg hsource]
    rfl
  have hpass : resolvePassphrase (batchContext testnetConfig steadyAnswers.sender) =
      .ok testnetConfig.passphrase := by decide
  have hrpc : truthyText (batchContext testnetConfig steadyAnswers.sender).rpcUrl ≠ none := by decide
  have hs : startSequence (batchContext testnetConfig steadyAnswers.sender) batchAnswers.build =
      .ok "100" := rfl
  rw [buildBatchTransactions, hcontext]
  simp only [ne_eq, not_true_eq_false, if_false, if_neg hrpc, hpass, hs, ok_seq]
  rcases h with h | h
  · obtain ⟨a, rfl⟩ := List.length_eq_one_iff.mp h
    simp only [List.map_cons, List.map_nil, List.zipIdx_cons, List.zipIdx_nil, List.mapM_cons,
      List.mapM_nil, buildTransaction_creation, ok_seq]
    exact ⟨_, rfl, rfl⟩
  · obtain ⟨a, b, rfl⟩ := List.length_eq_two.mp h
    simp only [List.map_cons, List.map_nil, List.zipIdx_cons, List.zipIdx_nil, List.mapM_cons,
      List.mapM_nil, buildTransaction_creation, ok_seq]
    exact ⟨_, rfl, rfl⟩
theorem assembled_month : ∃ v,
    assembledArgs standIn batchAnswers steadyAnswers.sender [monthStream nativeContract] = [.ok v] ∧
    assembledArgs standIn batchAnswers steadyAnswers.sender
      [monthStream nativeContract, monthStream nativeContract] = [.ok v, .ok v] := by
  obtain ⟨v, h⟩ := batchArgs_month
  exact ⟨v, congrArg (fun r => [r]) h, congrArg (fun r => [r, r]) h⟩

theorem builtTxs_month : ∃ v built,
    assembledArgs standIn batchAnswers steadyAnswers.sender [monthStream nativeContract] = [.ok v] ∧
    builtTxs standIn testnetConfig batchAnswers steadyAnswers.sender [monthStream nativeContract] =
      .ok built ∧ built.length = 1 := by
  obtain ⟨v, hv, -⟩ := assembled_month
  obtain ⟨built, hb, hlen⟩ := build_creations [(0, v)] (.inl rfl)
  refine ⟨v, built, hv, ?_, hlen⟩
  rw [builtTxs, hv]
  exact (if_neg (by simp [validEntries])).trans hb

theorem createRun_confirmed (lookup : Except Thrown (Option String)) :
    CreateRun standIn testnetConfig createAnswers (monthStream nativeContract) (confirmedLog lookup)
      (confirmedChain lookup) (afterAddress "hash" 7 lookup) where
  built := by
    obtain ⟨v, hv⟩ := createArgs_month (.inr rfl)
    rw [createTx]
    simp only [show createAnswers.args = steadyAnswers from rfl, hv, ok_seq]
    exact ⟨_, rfl⟩
  ran := rfl
  settled := rfl

theorem batchRun_confirmed (lookup : Except Thrown (Option String)) :
    BatchRun standIn testnetConfig batchAnswers steadyAnswers.sender [monthStream nativeContract]
      ((confirmedLog lookup).map fun e => (0, e)) [confirmedChain lookup] where
  asked _ := rfl
  ran := by
    obtain ⟨v, built, -, hb, hlen⟩ := builtTxs_month
    rw [hb, startChains_eq standIn_lawful hb, hlen]
    rfl
  settled c hc := by
    rw [List.mem_singleton.mp hc]
    exact ⟨_, rfl⟩

/-- The look-up of the new address fails. -/
def lookupFails : Except Thrown (Option String) := throwNew "fetch failed"

end StreamFi
