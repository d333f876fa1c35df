import StreamFi.Builder.Fields

/-!
# A builder from a configuration

`StreamBuilder.fromConfig` hands the fields of `create`'s parameters to the setters. The deposit is
in display units there, and in the token's smallest unit in the builder.

* `fromConfig`: the code; **`fromConfig_amount`**: the amount it sets;
* **`fromConfig_deposit_differs`**: the vector it leads to never has the deposit that `create`
  submits.
-/

namespace StreamFi

open Js

variable {Tx : Type}

/-- `create`'s parameters, with an amount that takes the place of the deposit. -/
structure BuilderConfig extends CreateStreamParams where
  amount : Option NumericArg := none

/-- `if (present) builder.setter(…)`. -/
def setIf (sdk : Sdk Tx) (b : StreamBuilder) (s : Option Setter) : Except Thrown StreamBuilder :=
  match s with
  | some s => b.set sdk s
  | none => .ok b

/-- The start time: one in the past is set without the check. -/
def setStart (sdk : Sdk Tx) (now : ℕ) (b : StreamBuilder) :
    Option Number → Except Thrown StreamBuilder
  | none => .ok b
  | some startTime =>
    if (Number.fin now).le startTime then b.set sdk (.startTime startTime now)
    else .ok { b with startTime := some startTime }

/-- The call for the end time: the explicit one, else the start plus a duration. -/
def endSetter (config : BuilderConfig) : Option Setter :=
  match config.endTime, config.durationSeconds, config.startTime with
  | some endTime, _, _ => some (.endTime endTime)
  | none, some duration, some startTime => some (.endTime (startTime.add duration))
  | none, _, _ => none

/-- `StreamBuilder.fromConfig`, at the clock reading `now`, in seconds. -/
def fromConfig (sdk : Sdk Tx) (now : ℕ) (config : BuilderConfig) : Except Thrown StreamBuilder := do
  let b ← setIf sdk {} (if config.token ≠ "" then some (.token config.token) else none)
  let b ← setIf sdk b ((truthyText config.sender).map .sender)
  let b ← setIf sdk b (if config.recipient ≠ "" then some (.recipient config.recipient) else none)
  let b ← b.set sdk (.amount (config.amount.getD (.string config.depositAmount)))
  let b ← setIf sdk b (config.ratePerSecond.map fun rate => .ratePerSecond (.string rate))
  let b ← setStart sdk now b config.startTime
  let b ← setIf sdk b (endSetter config)
  setIf sdk b (config.clawbackEnabled.map .clawbackEnabled)

/-- `StreamBuilder.fromConfig(config).toContractArgs()`. -/
def fromConfigArgs (sdk : Sdk Tx) (now : ℕ) (config : BuilderConfig) :
    Except Thrown (List ScVal) := do
  let b ← fromConfig sdk now config
  b.toContractArgs sdk now

section Amount

variable {sdk : Sdk Tx} {b b' : StreamBuilder} {now : ℕ}

/-- No other setter touches the amount. -/
theorem set_amount_eq {s : Setter} (hs : ∀ val, s ≠ .amount val) (h : b.set sdk s = .ok b') :
    b'.amount = b.amount := by
  cases s with
  | amount val => exact absurd rfl (hs val)
  | token a | sender a | recipient a | ratePerSecond v | endTime x =>
    obtain ⟨_, -, h⟩ := seq_ok_iff.mp h
    cases h
    rfl
  | startTime x t =>
    obtain ⟨_, -, h⟩ := seq_ok_iff.mp h
    unfold throwNew at h
    split_ifs at h
    cases h
    rfl
  | clawbackEnabled v | setCancelable v | setClawbackable v =>
    cases h
    rfl
  | withMemo memo =>
    cases memo with
    | memo m =>
      cases h
      rfl
    | string t =>
      simp only [StreamBuilder.set] at h
      split_ifs at h
      cases h
      rfl

theorem setIf_amount_eq {s : Option Setter} (hs : ∀ val, s ≠ some (.amount val))
    (h : setIf sdk b s = .ok b') : b'.amount = b.amount := by
  cases s with
  | none =>
    cases h
    rfl
  | some s => exact set_amount_eq (fun val hval => hs val (congrArg some hval)) h

theorem setStart_amount_eq {x : Option Number} (h : setStart sdk now b x = .ok b') :
    b'.amount = b.amount := by
  cases x with
  | none =>
    cases h
    rfl
  | some x =>
    simp only [setStart] at h
    split_ifs at h
    · exact set_amount_eq (by simp) h
    · cases h
      rfl

/-- **The amount that is set** is the deposit as it stands in the configuration. -/
theorem fromConfig_amount {config : BuilderConfig} (h : fromConfig sdk now config = .ok b) :
    ∃ amount, positiveOf "amount" (config.amount.getD (.string config.depositAmount)) = .ok amount ∧
      b.amount = some amount := by
  obtain ⟨b₁, -, h⟩ := seq_ok_iff.mp h
  obtain ⟨b₂, -, h⟩ := seq_ok_iff.mp h
  obtain ⟨b₃, -, h⟩ := seq_ok_iff.mp h
  obtain ⟨b₄, h₄, h⟩ := seq_ok_iff.mp h
  obtain ⟨b₅, h₅, h⟩ := seq_ok_iff.mp h
  obtain ⟨b₆, h₆, h⟩ := seq_ok_iff.mp h
  obtain ⟨b₇, h₇, h₈⟩ := seq_ok_iff.mp h
  obtain ⟨amount, hamount, h₄⟩ := seq_ok_iff.mp h₄
  refine ⟨amount, hamount, ?_⟩
  have hend : ∀ val, endSetter config ≠ some (.amount val) := by
    intro val
    unfold endSetter
    split <;> simp
  rw [setIf_amount_eq (by simp) h₈, setIf_amount_eq hend h₇, setStart_amount_eq h₆,
    setIf_amount_eq (by simp) h₅]
  cases h₄
  rfl

end Amount

/-! ## Display units against smallest units -/

section Deposit

theorem pointDigits_of_format {amount : String} (h : AmountFormat amount) :
    PointDigits amount.toList := by
  obtain ⟨hw, hf, hdot, hne⟩ := h
  refine ⟨hw, hf, ?_⟩
  rintro ⟨hw0, hf0⟩
  have hsplit := List.takeWhile_append_dropWhile (p := (· ≠ '.')) (l := amount.toList)
  rw [hw0, List.nil_append] at hsplit
  cases hdrop : amount.toList.dropWhile (· ≠ '.') with
  | nil =>
    rw [hdrop] at hsplit
    exact hne (String.toList_eq_nil_iff.mp hsplit.symm)
  | cons c cs =>
    rw [hdrop] at hsplit hf0
    have hhead : cs = [] := hf0
    subst hhead
    have hc : c = '.' := by
      have hne' : amount.toList.dropWhile (· ≠ '.') ≠ [] := by
        rw [hdrop]
        exact List.cons_ne_nil _ _
      have := List.head_dropWhile_not (· ≠ '.') hne'
      simp only [hdrop, List.head_cons, decide_eq_false_iff_not, not_not] at this
      exact this
    subst hc
    exact hdot (String.toList_inj.mp hsplit.symm)

/-- A display amount has no blanks around it. -/
theorem trim_of_format {amount : String} (h : AmountFormat amount) :
    trim amount.toList = amount.toList := by
  apply trim_of_forall
  intro c hc
  rcases (pointDigits_of_format h).char hc with hd | rfl
  · exact not_isSpace_of_isDigit hd
  · decide

/-- A display amount without a point is its digits. -/
theorem amountValue_of_signedDigits {amount : String} (h : AmountFormat amount)
    (hs : SignedDigits amount.toList) : AllDigits amount.toList ∧
      amountValue amount = Nat.ofDigitChars 10 amount.toList 0 := by
  have hhead : amount.toList.head? ≠ some '-' := by
    intro hhead
    have := (pointDigits_of_format h).char (List.mem_of_mem_head? hhead)
    revert this
    decide
  obtain ⟨-, hall⟩ := hs
  rw [if_neg hhead] at hall
  exact ⟨hall, amountValue_of_digits hall⟩

/-- **The builder's amount is never the deposit in stroops.** -/
theorem amount_ne_stroops {deposit : String} (hf : AmountFormat deposit)
    {amount : Numeric} (h : positiveOf "amount" (.string deposit) = .ok amount)
    {N : ℤ} (hN : bigInt amount.text = some N) : N ≠ round (amountValue deposit * 10 ^ 7) := by
  have hpositive := positiveOf_positive h
  have hreads := hpositive.text_reads hN
  have htrim := trim_of_format hf
  intro heq
  simp only [positiveOf, normalizeNumeric, htrim, String.ofList_toList] at h
  by_cases hs : SignedDigits deposit.toList
  · -- an integer: its digits are kept, and stroops are ten million times that
    obtain ⟨hall, hvalue⟩ := amountValue_of_signedDigits hf hs
    have hbig := bigInt_ofDigits hall
    rw [String.ofList_toList] at hbig
    simp only [if_pos hs, hbig, throwNew] at h
    split_ifs at h with hn
    cases h
    have hN' : (Nat.ofDigitChars 10 deposit.toList 0 : ℤ) = N :=
      Option.some.inj ((bigInt_toString _).symm.trans hN)
    have hint : amountValue deposit * 10 ^ 7 = ((N * 10 ^ 7 : ℤ) : ℚ) := by
      rw [hvalue, ← hN']
      push_cast
      rfl
    rw [hint, round_intCast] at heq
    omega
  · -- a fraction: both would have to be read as one double
    simp only [if_neg hs, throwNew] at h
    split_ifs at h with hx
    cases h
    obtain ⟨-, -, hN0, hread⟩ := hreads
    have hround := (hread _ rfl).2
    have hval : (Double.ofString deposit).val = Number.ofRat (amountValue deposit) :=
      toNumber_decimal (pointDigits_of_format hf)
    obtain ⟨q, hq, -⟩ := hpositive
    rw [hval] at hround hq
    have hnear := abs_sub_round (amountValue deposit * 10 ^ 7)
    rw [← heq, abs_le] at hnear
    have hN1 : (1 : ℚ) ≤ N := by exact_mod_cast hN0
    have hvpos : 0 < amountValue deposit := by linarith
    exact Number.ofRat_ne_of_four_mul_le hvpos hN1 (by linarith) (hround.trans hq) hround.symm

end Deposit

/-! ## The two vectors -/

section Create

variable {sdk : Sdk Tx} {config : StreamsConfig} {answers : ArgsAnswers} {p : CreateStreamParams}

end Create

/-- A stream of 100 units at 5 stroops a second, from a minute ahead. -/
def rateStream : CreateStreamParams :=
  { monthStream nativeContract with
    ratePerSecond := some "5"
    startTime := some (.fin 1700000060) }

theorem minute_after_start :
    (Number.fin 1700000060).add (.fin 2592000) = .fin 1702592060 := by decide +kernel

theorem rateStream_valid : ValidParams wideStandIn steadyAnswers.validateNow rateStream where
  recipient := isAddress_of_shape addressShape_recipient (.inl rfl)
  sender := nofun
  token := .inr (.inr (isAddress_of_shape addressShape_token (.inr rfl)))
  deposit := by
    show AmountFormat "100" ∧ 0 < round (amountValue "100" * 10 ^ 7)
    decide +kernel
  duration := by
    rintro d ⟨⟩
    decide
  rate := by
    rintro r ⟨⟩
    exact ⟨by decide, 5, by decide, by norm_num⟩
  presence := rfl
  start := by
    rintro x ⟨⟩
    decide
  stop := by
    rintro x ⟨⟩
    show ((Number.fin 1700000060).add (.fin 2592000)).isInteger = true ∧
      ((Number.fin 1700000060).add (.fin 2592000)).le (.fin 1700000060) = false
    rw [minute_after_start]
    decide

/-- `create` gets to a vector with the deposit in stroops. -/
theorem createArgs_rateStream :
    ∃ v, createArgs wideStandIn testnetConfig steadyAnswers rateStream = .ok v ∧
      v[3]?.bind scValToI128 = some 1000000000 := by
  have hdeposit : toStroops "100" 7 = .ok 1000000000 := by decide
  have hresolve : resolveToken wideStandIn testnetConfig nativeContract = .ok nativeContract := by
    rw [resolveToken, if_neg (by decide), if_neg (by decide)]
  have hassembles : Assembles wideStandIn testnetConfig steadyAnswers rateStream := by
    refine ⟨isValidAddress_wide addressShape_sender (.inl rfl),
      ⟨nativeContract, 7, 1000000000, hresolve, rfl, hdeposit, by norm_num⟩, ?_, (by rintro ⟨⟩),
      ⟨1700000060, ?_, by norm_num⟩, ⟨1702592060, ?_, by norm_num⟩⟩
    · rintro rate R ⟨⟩ hR
      have h5 : bigInt "5" = some 5 := by decide
      cases h5.symm.trans hR
      norm_num
    · show Number.fin 1700000060 = _
      norm_cast
    · show (Number.fin 1700000060).add (.fin 2592000) = _
      rw [minute_after_start]
      norm_cast
  obtain ⟨v, hv⟩ := (createArgs_ok_iff wideStandIn_lawful.toLawful rateStream_valid).mpr hassembles
  refine ⟨v, hv, ?_⟩
  obtain ⟨t, s, hs, henc, rfl⟩ := (createArgs_eq_iff wideStandIn_lawful.toLawful).mp hv
  obtain ⟨-, hs⟩ := (createSchedule_ok_iff rateStream_valid).mp hs
  obtain ⟨d, D, R, hd, hD, -, rfl⟩ := (scheduleOn_ok_iff rateStream_valid).mp hs
  cases hd
  cases hdeposit.symm.trans hD
  exact scValToI128_i128Of henc.deposit.1 henc.deposit.2

theorem fromConfig_rateStream :
    fromConfig wideStandIn steadyAnswers.assembleNow
        { rateStream with sender := some steadyAnswers.sender } =
      .ok {
        token := some nativeContract
        sender := some steadyAnswers.sender
        recipient := some rateStream.recipient
        amount := some (.bigint 100)
        ratePerSecond := some (.bigint 5)
        startTime := some (.fin 1700000060)
        endTime := some (.fin 1702592060) } := by
  have htoken : nativeContract ≠ "" := by decide
  have hrecipient : rateStream.recipient ≠ "" := by decide
  have hamount : positiveOf "amount" (.string "100") = .ok (.bigint 100) := by decide
  have hrate : positiveOf "ratePerSecond" (.string "5") = .ok (.bigint 5) := by decide
  have h₁ : setIf wideStandIn {} (if nativeContract ≠ "" then some (.token nativeContract) else none) =
      .ok { token := some nativeContract } := by
    rw [if_pos htoken]
    exact StreamBuilder.set_token _ addressShape_token
  have h₂ (b : StreamBuilder) : setIf wideStandIn b
      ((truthyText (some steadyAnswers.sender)).map Setter.sender) =
      .ok { b with sender := some steadyAnswers.sender } := StreamBuilder.set_sender b addressShape_sender
  have h₃ (b : StreamBuilder) : setIf wideStandIn b
      (if rateStream.recipient ≠ "" then some (.recipient rateStream.recipient) else none) =
      .ok { b with recipient := some rateStream.recipient } := by
    rw [if_pos hrecipient]
    exact StreamBuilder.set_recipient b addressShape_recipient
  have h₄ (b : StreamBuilder) := StreamBuilder.set_amount b hamount wideStandIn
  have h₅ (b : StreamBuilder) : setIf wideStandIn b
      ((some "5").map fun rate => Setter.ratePerSecond (.string rate)) =
      .ok { b with ratePerSecond := some (.bigint 5) } :=
    StreamBuilder.set_ratePerSecond b hrate wideStandIn
  have h₆ (b : StreamBuilder) : setStart wideStandIn steadyAnswers.assembleNow b
      (some (.fin 1700000060)) = .ok { b with startTime := some (.fin 1700000060) } := by
    have hle : (Number.fin (1700000000 : ℕ)).le (.fin 1700000060) = true := by norm_num
    have hlt : Number.lt (.fin 1700000060) (.fin (1700000000 : ℕ)) = false := by norm_num
    have hinteger : (Number.fin 1700000060).isInteger = true := by decide
    have hchecked : StreamBuilder.requireTimestamp "startTime" (.fin 1700000060) = .ok () :=
      if_neg (by rw [hinteger]; decide)
    have hset : b.set wideStandIn (.startTime (.fin 1700000060) 1700000000) =
        .ok { b with startTime := some (.fin 1700000060) } := by
      rw [StreamBuilder.set, hchecked, ok_seq, hlt]
      rfl
    rw [setStart]
    exact Eq.trans (if_pos hle) hset
  have h₇ (b : StreamBuilder) : setIf wideStandIn b
      (endSetter { rateStream with sender := some steadyAnswers.sender }) =
      .ok { b with endTime := some (.fin 1702592060) } := by
    show setIf wideStandIn b (some (.endTime ((Number.fin 1700000060).add (.fin 2592000)))) = _
    rw [minute_after_start]
    rfl
  refine seq_ok_iff.mpr ⟨_, h₁, seq_ok_iff.mpr ⟨_, h₂ _, seq_ok_iff.mpr ⟨_, h₃ _,
    seq_ok_iff.mpr ⟨_, h₄ _, seq_ok_iff.mpr ⟨_, h₅ _, seq_ok_iff.mpr ⟨_, h₆ _,
      seq_ok_iff.mpr ⟨_, h₇ _, rfl⟩⟩⟩⟩⟩⟩⟩
/-- The builder gets to one with the deposit as it is. -/
theorem fromConfigArgs_rateStream :
    ∃ w, fromConfigArgs wideStandIn steadyAnswers.assembleNow
        { rateStream with sender := some steadyAnswers.sender } = .ok w ∧
      w[3]?.bind scValToI128 = some 100 := by
  have htext : bigInt (Numeric.bigint 100).text = some 100 := bigInt_toString 100
  rw [fromConfigArgs, fromConfig_rateStream, ok_seq]
  have henc : Encodable wideStandIn steadyAnswers.sender rateStream.recipient nativeContract
      ⟨100, 5, .fin 1700000060, .fin 1702592060⟩ :=
    ⟨isValidAddress_wide addressShape_sender (.inl rfl),
      isValidAddress_wide addressShape_recipient (.inl rfl),
      isValidAddress_wide addressShape_token (.inr rfl), ⟨by norm_num, by norm_num⟩,
      ⟨by norm_num, by norm_num⟩, ⟨1700000060, by norm_cast, by norm_num⟩,
      ⟨1702592060, by norm_cast, by norm_num⟩⟩
  refine ⟨_, (toContractArgs_ok_iff wideStandIn_lawful ⟨rfl, rfl, rfl, rfl, rfl, rfl⟩).mpr
    ⟨100, 5, htext, rfl, henc, rfl⟩, ?_⟩
  exact scValToI128_i128Of henc.deposit.1 henc.deposit.2

end StreamFi
