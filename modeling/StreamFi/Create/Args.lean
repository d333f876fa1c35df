import StreamFi.Create.Validate

/-!
# The arguments of create_stream

Three places assemble the argument vector of `create_stream`: creating a stream, creating a batch
of streams, and estimating a fee.

* `resolveToken`, `schedule`, `encodeArgs`: the steps; `createArgs`, `batchArgs`, `estimateArgs`;
* `Assembles`: the inputs for which `create` gets to a vector, by **`createArgs_ok_iff`**;
* **`args_agree_iff`**: when the three agree.
-/

namespace StreamFi

open Js

/-! ## Assembly -/

/-- What is read on the way: the sender, `getTokenDecimals`, and the clock, in seconds, when the
parameters are validated and when the arguments are assembled. -/
structure ArgsAnswers where
  sender : String
  decimals : String → Except Thrown ℕ
  validateNow : ℕ
  assembleNow : ℕ

structure Schedule where
  depositStroops : ℤ
  rateStroops : ℤ
  start : Number
  stop : Number
  deriving DecidableEq

/-- `ratePerSecond ? BigInt(ratePerSecond) : calculateRate(…)`. -/
def rateStroops (p : CreateStreamParams) (decimals : ℕ) : Except Thrown ℤ :=
  match truthyText p.ratePerSecond with
  | some rate => bigIntOf rate
  | none => calculateRate p.depositAmount p.durationSeconds decimals

/-- `durationSeconds ? start + durationSeconds : 0`. -/
def endAt (p : CreateStreamParams) (start : Number) : Number :=
  match p.durationSeconds.filter Number.truthy with
  | some d => start.add d
  | none => .fin 0

def schedule (p : CreateStreamParams) (decimals now : ℕ) : Except Thrown Schedule := do
  let deposit ← toStroops p.depositAmount decimals
  let rate ← rateStroops p decimals
  let start := startAt now p
  return { depositStroops := deposit, rateStroops := rate, start := start, stop := endAt p start }

variable {Tx : Type}

def encodeArgs (sdk : Sdk Tx) (sender recipient token : String) (s : Schedule) (clawback : Bool) :
    Except Thrown (List ScVal) := do
  let sender ← sdk.addressToScVal sender
  let recipient ← sdk.addressToScVal recipient
  let token ← sdk.addressToScVal token
  let deposit ← sdk.nativeToScVal (.bigint s.depositStroops) (some .i128)
  let rate ← sdk.nativeToScVal (.bigint s.rateStroops) (some .i128)
  let start ← sdk.nativeToScVal (.number s.start) (some .u64)
  let stop ← sdk.nativeToScVal (.number s.stop) (some .u64)
  return [sender, recipient, token, deposit, rate, start, stop, boolToScVal clawback]

/-- The schedule on a token, with its own decimals. -/
def scheduleOn (answers : ArgsAnswers) (p : CreateStreamParams) (token : String) :
    Except Thrown Schedule := do
  let decimals ← answers.decimals token
  schedule p decimals answers.assembleNow

/-- The vector on a token. -/
def assembleArgs (sdk : Sdk Tx) (answers : ArgsAnswers) (p : CreateStreamParams) (token : String) :
    Except Thrown (List ScVal) := do
  let s ← scheduleOn answers p token
  encodeArgs sdk answers.sender p.recipient token s (p.clawbackEnabled.getD false)

/-- The contract that a token, or one of the two aliases, stands for. -/
def resolveToken (sdk : Sdk Tx) (config : StreamsConfig) (token : String) :
    Except Thrown String :=
  if token = "native" then .ok (sdk.nativeContractId config.passphrase)
  else if token = "USDC" then do
    let issuer ← usdcIssuer config.network
    sdk.assetContractId "USDC" issuer config.passphrase
  else .ok token

/-- `if (!validation.isValid) throw …`. -/
def requireValid (sdk : Sdk Tx) (now : ℕ) (p : CreateStreamParams) : Except Thrown Unit :=
  let validation := validateStreamParameters sdk now p
  if validation.isValid then .ok ()
  else throwNew (validation.error.getD "Invalid stream parameters")

/-- `create`, up to its schedule. -/
def createSchedule (sdk : Sdk Tx) (config : StreamsConfig) (answers : ArgsAnswers)
    (p : CreateStreamParams) : Except Thrown (String × Schedule) := do
  requireValid sdk answers.validateNow p
  let resolvedToken ← resolveToken sdk config p.token
  let s ← scheduleOn answers p resolvedToken
  return (resolvedToken, s)

/-- `create`, up to its argument vector. -/
def createArgs (sdk : Sdk Tx) (config : StreamsConfig) (answers : ArgsAnswers)
    (p : CreateStreamParams) : Except Thrown (List ScVal) := do
  let (resolvedToken, s) ← createSchedule sdk config answers p
  encodeArgs sdk answers.sender p.recipient resolvedToken s (p.clawbackEnabled.getD false)

/-- `createBatchStreams`, on one configuration: the token goes in as it is. -/
def batchArgs (sdk : Sdk Tx) (answers : ArgsAnswers) (p : CreateStreamParams) :
    Except Thrown (List ScVal) := do
  requireValid sdk answers.validateNow p
  assembleArgs sdk answers p p.token

/-- `estimateFee({ type: 'create', params })`: no validation, and the token as it is. -/
def estimateArgs (sdk : Sdk Tx) (answers : ArgsAnswers) (p : CreateStreamParams) :
    Except Thrown (List ScVal) :=
  assembleArgs sdk answers p p.token

/-! ## When the steps succeed -/

section Steps

variable {sdk : Sdk Tx} {config : StreamsConfig} {answers : ArgsAnswers} {p : CreateStreamParams}

/-- Everything in a vector can be encoded. -/
structure Encodable (sdk : Sdk Tx) (sender recipient token : String) (s : Schedule) : Prop where
  sender : isValidAddress sdk sender = true
  recipient : isValidAddress sdk recipient = true
  token : isValidAddress sdk token = true
  deposit : InI128 s.depositStroops
  rate : InI128 s.rateStroops
  start : InU64 s.start
  stop : InU64 s.stop

/-- What the vector is then. -/
def vectorOf (sender recipient token : String) (s : Schedule) (clawback : Bool) : List ScVal :=
  [.address sender, .address recipient, .address token, i128Of s.depositStroops,
    i128Of s.rateStroops, u64Of s.start.toNat, u64Of s.stop.toNat, .bool clawback]

theorem encodeArgs_ok_iff (hl : sdk.Lawful) {sender recipient token : String} {s : Schedule}
    {clawback : Bool} {v : List ScVal} :
    encodeArgs sdk sender recipient token s clawback = .ok v ↔
      Encodable sdk sender recipient token s ∧ v = vectorOf sender recipient token s clawback := by
  simp only [encodeArgs, seq_ok_iff, hl.addressToScVal_iff, hl.i128_iff, hl.u64_iff]
  constructor
  · rintro ⟨_, ⟨hs, rfl⟩, _, ⟨hr, rfl⟩, _, ⟨ht, rfl⟩, _, ⟨hd, rfl⟩, _, ⟨hrate, rfl⟩,
      _, ⟨a, ha, ha', rfl⟩, _, ⟨b, hb, hb', rfl⟩, h⟩
    cases h
    refine ⟨⟨hs, hr, ht, hd, hrate, ⟨a, ha, ha'⟩, ⟨b, hb, hb'⟩⟩, ?_⟩
    rw [vectorOf, ha, hb, Number.toNat_natCast, Number.toNat_natCast, boolToScVal]
  · rintro ⟨⟨hs, hr, ht, hd, hrate, ⟨a, ha, ha'⟩, ⟨b, hb, hb'⟩⟩, rfl⟩
    refine ⟨_, ⟨hs, rfl⟩, _, ⟨hr, rfl⟩, _, ⟨ht, rfl⟩, _, ⟨hd, rfl⟩, _, ⟨hrate, rfl⟩,
      _, ⟨a, ha, ha', rfl⟩, _, ⟨b, hb, hb', rfl⟩, ?_⟩
    rw [vectorOf, ha, hb, Number.toNat_natCast, Number.toNat_natCast]
    rfl

theorem requireValid_iff {now : ℕ} : requireValid sdk now p = .ok () ↔ ValidParams sdk now p := by
  rw [requireValid, ← isValid_iff]
  split_ifs with h
  · simp [h]
  · simp [h, throwNew]

/-- A token that was resolved is an address. -/
theorem resolveToken_valid (hl : sdk.Lawful) (ht : p.token = "native" ∨ p.token = "USDC" ∨
    ¬ Blank p.token ∧ IsAddress sdk p.token) {t : String}
    (h : resolveToken sdk config p.token = .ok t) : isValidAddress sdk t = true := by
  unfold resolveToken at h
  split_ifs at h with hn hu
  · cases h
    exact hl.native_valid _
  · obtain ⟨issuer, hissuer, h⟩ := seq_ok_iff.mp h
    obtain ⟨c, hc, hvalid⟩ := hl.usdc_valid _ issuer config.passphrase hissuer
    cases h.symm.trans hc
    exact hvalid
  · cases h
    exact ((ht.resolve_left hn).resolve_left hu).2.2

theorem resolveToken_ok_iff (hl : sdk.Lawful) {token : String} :
    (∃ t, resolveToken sdk config token = .ok t) ↔
      (token = "USDC" → ∃ issuer, usdcIssuer config.network = .ok issuer) := by
  unfold resolveToken
  split_ifs with hn hu
  · subst hn
    simp
  · constructor
    · rintro ⟨t, h⟩ _
      obtain ⟨issuer, hissuer, -⟩ := seq_ok_iff.mp h
      exact ⟨issuer, hissuer⟩
    · intro h
      obtain ⟨issuer, hissuer⟩ := h hu
      obtain ⟨c, hc, -⟩ := hl.usdc_valid _ issuer config.passphrase hissuer
      exact ⟨c, by rw [hissuer, ok_seq, hc]⟩
  · simp [hu]

/-- The rate that parameters give, for `D` stroops. -/
def RateFor (p : CreateStreamParams) (D R : ℤ) : Prop :=
  match p.ratePerSecond with
  | some rate => bigInt rate = some R
  | none => ∃ k : ℕ, 0 < k ∧ p.durationSeconds = some (.fin k) ∧ R = rateOf D k

theorem rateStroops_ok_iff {now : ℕ} (hv : ValidParams sdk now p) {decimals : ℕ} {D R : ℤ}
    (hD : toStroops p.depositAmount decimals = .ok D) :
    rateStroops p decimals = .ok R ↔ RateFor p D R := by
  unfold rateStroops RateFor
  cases hr : p.ratePerSecond with
  | none => exact calculateRate_ok_iff hD
  | some rate =>
    obtain ⟨hb, n, hn, -⟩ := hv.rate rate hr
    have hne : rate ≠ "" := by
      rintro rfl
      exact hb (by decide)
    have htruthy : truthyText (some rate) = some rate := Option.filter_eq_some_iff.mpr
      ⟨rfl, by simpa using hne⟩
    simp [htruthy, bigIntOf, hn]

theorem schedule_ok_iff {now : ℕ} (hv : ValidParams sdk now p) {decimals at' : ℕ} {s : Schedule} :
    schedule p decimals at' = .ok s ↔ ∃ D R, toStroops p.depositAmount decimals = .ok D ∧
      RateFor p D R ∧ s = ⟨D, R, startAt at' p, endAt p (startAt at' p)⟩ := by
  simp only [schedule, seq_ok_iff]
  constructor
  · rintro ⟨D, hD, R, hR, h⟩
    cases h
    exact ⟨D, R, hD, (rateStroops_ok_iff hv hD).mp hR, rfl⟩
  · rintro ⟨D, R, hD, hR, rfl⟩
    exact ⟨D, hD, R, (rateStroops_ok_iff hv hD).mpr hR, rfl⟩

theorem scheduleOn_ok_iff {now : ℕ} (hv : ValidParams sdk now p) {t : String} {s : Schedule} :
    scheduleOn answers p t = .ok s ↔ ∃ d D R, answers.decimals t = .ok d ∧
      toStroops p.depositAmount d = .ok D ∧ RateFor p D R ∧
      s = ⟨D, R, startAt answers.assembleNow p, endAt p (startAt answers.assembleNow p)⟩ := by
  simp only [scheduleOn, seq_ok_iff, schedule_ok_iff hv]
  constructor
  · rintro ⟨d, hd, D, R, h⟩
    exact ⟨d, D, R, hd, h⟩
  · rintro ⟨d, D, R, hd, h⟩
    exact ⟨d, hd, D, R, h⟩

/-- A derived rate is at most the deposit. -/
theorem RateFor.inI128 (hv : ValidParams sdk answers.validateNow p) {D R : ℤ} (h : RateFor p D R)
    (hD : 0 ≤ D) (hD' : D < 2 ^ 127)
    (hrate : ∀ rate R, p.ratePerSecond = some rate → bigInt rate = some R → R < 2 ^ 127) :
    InI128 R := by
  unfold RateFor at h
  cases hr : p.ratePerSecond with
  | none =>
    rw [hr] at h
    obtain ⟨k, hk, -, rfl⟩ := h
    have := rateOf_nonneg hD k
    have := rateOf_le hD hk
    unfold InI128
    omega
  | some rate =>
    rw [hr] at h
    obtain ⟨-, n, hn, hpos⟩ := hv.rate rate hr
    cases h.symm.trans hn
    have := hrate rate R hr h
    unfold InI128
    omega

end Steps

/-! ## Inputs that create takes -/

/-- The parameters and the answers for which `create` gets to a vector. -/
structure Assembles (sdk : Sdk Tx) (config : StreamsConfig) (answers : ArgsAnswers)
    (p : CreateStreamParams) : Prop where
  sender : isValidAddress sdk answers.sender = true
  deposit : ∃ t d D, resolveToken sdk config p.token = .ok t ∧ answers.decimals t = .ok d ∧
    toStroops p.depositAmount d = .ok D ∧ D < 2 ^ 127
  rate : ∀ rate R, p.ratePerSecond = some rate → bigInt rate = some R → R < 2 ^ 127
  duration : p.ratePerSecond = none → ∃ k : ℕ, 0 < k ∧ p.durationSeconds = some (.fin k)
  start : InU64 (startAt answers.assembleNow p)
  stop : InU64 (endAt p (startAt answers.assembleNow p))

section Create

variable {sdk : Sdk Tx} {config : StreamsConfig} {answers : ArgsAnswers} {p : CreateStreamParams}

theorem createSchedule_ok_iff (hv : ValidParams sdk answers.validateNow p) {t : String}
    {s : Schedule} : createSchedule sdk config answers p = .ok (t, s) ↔
      resolveToken sdk config p.token = .ok t ∧ scheduleOn answers p t = .ok s := by
  rw [createSchedule, requireValid_iff.mpr hv, ok_seq]
  simp only [seq_ok_iff]
  constructor
  · rintro ⟨t', ht, s', hs, h⟩
    cases h
    exact ⟨ht, hs⟩
  · rintro ⟨ht, hs⟩
    exact ⟨t, ht, s, hs, rfl⟩

theorem exists_rateFor (hv : ValidParams sdk answers.validateNow p)
    (hk : p.ratePerSecond = none → ∃ k : ℕ, 0 < k ∧ p.durationSeconds = some (.fin k)) (D : ℤ) :
    ∃ R, RateFor p D R := by
  unfold RateFor
  cases hr : p.ratePerSecond with
  | none =>
    obtain ⟨k, hk, hd⟩ := hk hr
    exact ⟨_, k, hk, hd, rfl⟩
  | some rate =>
    obtain ⟨-, n, hn, -⟩ := hv.rate rate hr
    exact ⟨n, hn⟩

/-- **The vector of create**, and when there is one. -/
theorem createArgs_eq_iff (hl : sdk.Lawful) {v : List ScVal} :
    createArgs sdk config answers p = .ok v ↔
      ∃ t s, createSchedule sdk config answers p = .ok (t, s) ∧
        Encodable sdk answers.sender p.recipient t s ∧
        v = vectorOf answers.sender p.recipient t s (p.clawbackEnabled.getD false) := by
  simp only [createArgs, seq_ok_iff, Prod.exists, encodeArgs_ok_iff hl]

theorem createArgs_ok_iff (hl : sdk.Lawful) (hv : ValidParams sdk answers.validateNow p) :
    (∃ v, createArgs sdk config answers p = .ok v) ↔ Assembles sdk config answers p := by
  constructor
  · rintro ⟨v, h⟩
    obtain ⟨t, s, hs, henc, -⟩ := (createArgs_eq_iff hl).mp h
    obtain ⟨ht, hs⟩ := (createSchedule_ok_iff hv).mp hs
    obtain ⟨d, D, R, hd, hD, hR, rfl⟩ := (scheduleOn_ok_iff hv).mp hs
    refine ⟨henc.sender, ⟨t, d, D, ht, hd, hD, henc.deposit.2⟩, ?_, ?_, henc.start, henc.stop⟩
    · intro rate R' hrate hR'
      simp only [RateFor, hrate] at hR
      cases hR.symm.trans hR'
      exact henc.rate.2
    · intro hnone
      simp only [RateFor, hnone] at hR
      obtain ⟨k, hk, hdur, -⟩ := hR
      exact ⟨k, hk, hdur⟩
  · rintro ⟨hsender, ⟨t, d, D, ht, hd, hD, hbound⟩, hrate, hdur, hstart, hstop⟩
    obtain ⟨R, hR⟩ := exists_rateFor hv hdur D
    have hnn := toStroops_nonneg hD
    have hs := (scheduleOn_ok_iff hv).mpr ⟨d, D, R, hd, hD, hR, rfl⟩
    have hsched := (createSchedule_ok_iff hv).mpr ⟨ht, hs⟩
    refine ⟨_, (createArgs_eq_iff hl).mpr ⟨t, _, hsched, ?_, rfl⟩⟩
    exact ⟨hsender, hv.recipient.2.2, resolveToken_valid hl hv.token ht,
      ⟨by simp only; omega, hbound⟩, hR.inI128 hv hnn hbound hrate, hstart, hstop⟩

/-! ## The three vectors -/

/-- The three assemblies give one vector, or all fail. -/
def ArgsAgree (sdk : Sdk Tx) (config : StreamsConfig) (answers : ArgsAnswers)
    (p : CreateStreamParams) : Prop :=
  (∃ v, createArgs sdk config answers p = .ok v ∧ batchArgs sdk answers p = .ok v ∧
      estimateArgs sdk answers p = .ok v) ∨
    ((∃ e, createArgs sdk config answers p = .error e) ∧ (∃ e, batchArgs sdk answers p = .error e) ∧
      ∃ e, estimateArgs sdk answers p = .error e)

/-- A token that is not an address is never encoded. -/
theorem assembleArgs_ne_ok (hl : sdk.Lawful) {token : String}
    (ht : isValidAddress sdk token = false) (v : List ScVal) :
    assembleArgs sdk answers p token ≠ .ok v := by
  intro h
  obtain ⟨s, -, h⟩ := seq_ok_iff.mp h
  have := ((encodeArgs_ok_iff hl).mp h).1.token
  rw [ht] at this
  cases this

/-- The aliases are too short to be addresses. -/
theorem alias_not_valid (hl : sdk.Lawful) {token : String} (h : token = "native" ∨ token = "USDC") :
    isValidAddress sdk token = false := by
  by_contra hv
  have := hl.length_address token (by simpa using hv)
  rcases h with rfl | rfl <;> exact absurd this (by decide)

theorem batchArgs_eq (hv : ValidParams sdk answers.validateNow p) :
    batchArgs sdk answers p = assembleArgs sdk answers p p.token := by
  rw [batchArgs, requireValid_iff.mpr hv, ok_seq]

theorem createArgs_eq (hv : ValidParams sdk answers.validateNow p) (hn : p.token ≠ "native")
    (hu : p.token ≠ "USDC") : createArgs sdk config answers p = assembleArgs sdk answers p p.token := by
  rw [createArgs, createSchedule, requireValid_iff.mpr hv, ok_seq, resolveToken, if_neg hn, if_neg hu,
    ok_seq, assembleArgs]
  cases scheduleOn answers p p.token <;> rfl

end Create

/-! ## On testnet -/

/-- A keypair, seven decimals for every token, and a clock that stands still. -/
def steadyAnswers : ArgsAnswers where
  sender := "GAAAAAAAAAAAAAAAAAAAAAAAAAAAAAAAAAAAAAAAAAAAAAAAAAAAAWHF"
  decimals _ := .ok 7
  validateNow := 1700000000
  assembleNow := 1700000000

/-- A stream of 100 units over 30 days. -/
def monthStream (token : String) : CreateStreamParams where
  recipient := "GBBD47IF6LWK7P7MDEVSCWR7DPUWV3NY3DTQEVFL4NAT4AQH3ZLLFLA5"
  token := token
  depositAmount := "100"
  durationSeconds := some (.fin 2592000)

/-- The native token's contract on testnet. -/
def nativeContract : String := "CDLZFC3SYJYDZT7K67VZ75HPJVIEUVNIXF47ZG2FB2RMQQVU2HHGCYSC"

theorem month_after_start :
    (Number.fin 1700000000).add (.fin 2592000) = .fin 1702592000 := by decide +kernel

theorem monthStream_valid {token : String} (h : token = "native" ∨ token = nativeContract) :
    ValidParams standIn steadyAnswers.validateNow (monthStream token) where
  recipient := isAddress_of_shape addressShape_recipient (.inl rfl)
  sender := nofun
  token := by
    rcases h with rfl | rfl
    · exact .inl rfl
    · exact .inr (.inr (isAddress_of_shape addressShape_token (.inr rfl)))
  deposit := by
    show AmountFormat "100" ∧ 0 < round (amountValue "100" * 10 ^ 7)
    decide +kernel
  duration := by
    rintro d ⟨⟩
    decide
  rate := nofun
  presence := rfl
  start := nofun
  stop := by
    rintro x ⟨⟩
    show ((Number.fin 1700000000).add (.fin 2592000)).isInteger = true ∧
      ((Number.fin 1700000000).add (.fin 2592000)).le (.fin 1700000000) = false
    rw [month_after_start]
    decide

/-- Whichever of the two names its token has, `create` gets to a vector. -/
theorem createArgs_month {token : String} (h : token = "native" ∨ token = nativeContract) :
    ∃ v, createArgs standIn testnetConfig steadyAnswers (monthStream token) = .ok v := by
  have hresolve : resolveToken standIn testnetConfig token = .ok nativeContract := by
    rcases h with rfl | rfl
    · rfl
    · rw [resolveToken, if_neg (by decide), if_neg (by decide)]
  have hdeposit : toStroops "100" 7 = .ok 1000000000 := by decide
  refine (createArgs_ok_iff standIn_lawful (monthStream_valid h)).mpr
    ⟨isValidAddress_of_shape addressShape_sender (.inl rfl),
      ⟨nativeContract, 7, 1000000000, hresolve, rfl, hdeposit, by norm_num⟩, nofun,
      fun _ => ⟨2592000, by norm_num, rfl⟩, ⟨1700000000, ?_, by norm_num⟩,
      ⟨1702592000, ?_, by norm_num⟩⟩
  · show Number.fin 1700000000 = _
    norm_cast
  · show (Number.fin 1700000000).add (.fin 2592000) = _
    rw [month_after_start]
    norm_cast

theorem batchArgs_month :
    ∃ v, batchArgs standIn steadyAnswers (monthStream nativeContract) = .ok v := by
  have hv := monthStream_valid (.inr rfl)
  obtain ⟨v, h⟩ := createArgs_month (.inr rfl)
  rw [createArgs_eq hv (by decide) (by decide)] at h
  exact ⟨v, (batchArgs_eq hv).trans h⟩

end StreamFi
