import StreamFi.Create.Args

/-!
# The schedule of a new stream

What `create` makes of parameters that passed validation: a deposit, a rate, a start and a stop.

* **`create_fundable_iff`**: with a duration and no rate, when the deposit pays the derived rate to
  the end, which is when that rate was rounded down and not to zero;
* `StopKept`, **`create_faithful_iff`**: when the vector carries the stop time that was validated.
-/

namespace StreamFi

open Js

variable {Tx : Type} {sdk : Sdk Tx} {config : StreamsConfig} {answers : ArgsAnswers}
  {p : CreateStreamParams}

/-! ## Paying to the end -/

/-- A positive rate that the deposit covers from start to stop. -/
def Fundable (s : Schedule) : Prop :=
  0 < s.rateStroops ∧ ∃ a b, s.start = .fin a ∧ s.stop = .fin b ∧
    s.rateStroops * (b - a) ≤ (s.depositStroops : ℚ)

/-- For a deposit of `D` stroops and a duration of `k` seconds, with the sum of start and duration
off by `δ`: the deposit's remainder is rounded away, or rounded up and made good by `δ`. -/
def Covered (D : ℤ) (k : ℕ) (δ : ℚ) : Prop :=
  2 * (D % k) < k ∧ (k : ℤ) ≤ D ∧ (D / k : ℤ) * δ ≤ (D % k : ℤ) ∨
    (k : ℤ) ≤ 2 * (D % k) ∧ (D / k + 1 : ℤ) * δ ≤ (D % k - k : ℤ)

theorem covered_iff {D : ℤ} (hD : 0 ≤ D) {k : ℕ} (hk : 0 < k) (δ : ℚ) :
    0 < rateOf D k ∧ rateOf D k * (k + δ) ≤ (D : ℚ) ↔ Covered D k δ := by
  have hsplit : (D : ℚ) = k * (D / k : ℤ) + (D % k : ℤ) := by
    exact_mod_cast (Int.mul_ediv_add_emod D k).symm
  have hquot : 0 ≤ D / k := Int.ediv_nonneg hD (by omega)
  unfold Covered
  by_cases hr : 2 * (D % k) < k
  · rw [rateOf_of_lt hk hr]
    have hpos : 0 < D / k ↔ (k : ℤ) ≤ D := by
      rw [← Int.add_one_le_iff, Int.le_ediv_iff_mul_le (by omega), zero_add, one_mul]
    have hmul : (D / k : ℤ) * (k + δ) ≤ (D : ℚ) ↔ (D / k : ℤ) * δ ≤ ((D % k : ℤ) : ℚ) := by
      constructor <;> intro h <;> linarith
    rw [hpos, hmul]
    constructor
    · rintro ⟨h₁, h₂⟩
      exact .inl ⟨hr, h₁, h₂⟩
    · rintro (⟨-, h₁, h₂⟩ | ⟨h, -⟩)
      · exact ⟨h₁, h₂⟩
      · omega
  · rw [rateOf_of_le hk (by omega)]
    have hmul : ((D / k + 1 : ℤ) : ℚ) * (k + δ) ≤ (D : ℚ) ↔
        ((D / k + 1 : ℤ) : ℚ) * δ ≤ ((D % k - k : ℤ) : ℚ) := by
      push_cast
      constructor <;> intro h <;> linarith
    rw [hmul]
    constructor
    · rintro ⟨-, h⟩
      exact .inr ⟨by omega, h⟩
    · rintro (⟨h, -⟩ | ⟨-, h⟩)
      · exact absurd h hr
      · exact ⟨by omega, h⟩

/-- With an exact sum, what counts is the rounding of the rate. -/
theorem covered_zero_iff {D : ℤ} {k : ℕ} (hk : 0 < k) :
    Covered D k 0 ↔ 2 * (D % k) < k ∧ (k : ℤ) ≤ D := by
  have hr := Int.emod_nonneg D (by omega : (k : ℤ) ≠ 0)
  have hlt := Int.emod_lt_of_pos D (by omega : (0 : ℤ) < k)
  rw [Covered, mul_zero, mul_zero, Int.cast_nonneg_iff, Int.cast_nonneg_iff]
  omega

/-- The inputs of a schedule that is paid to its end. -/
def PaidToEnd (answers : ArgsAnswers) (p : CreateStreamParams) (D : ℤ) : Prop :=
  ∃ (k : ℕ) (a δ : ℚ), 0 < k ∧ p.durationSeconds = some (.fin k) ∧
    startAt answers.assembleNow p = .fin a ∧
    Number.add (.fin a) (.fin k) = .fin (a + k + δ) ∧ Covered D k δ

theorem truthy_natCast {k : ℕ} (hk : 0 < k) : Number.truthy (.fin k) = true := by
  simp [Number.truthy, hk.ne']

theorem endAt_of_truthy {d : Number} (hd : p.durationSeconds = some d) (ht : d.truthy = true)
    (x : Number) : endAt p x = x.add d := by
  simp only [endAt, hd, Option.filter_some, ht, if_true]

/-- Below `2 ^ 53` the sum is exact. -/
theorem paidToEnd_of_exact {n k : ℕ} (hk : 0 < k) (hdk : p.durationSeconds = some (.fin k))
    (hstart : startAt answers.assembleNow p = .fin n) (hsum : n + k ≤ 2 ^ 53) {D : ℤ} :
    PaidToEnd answers p D ↔ 2 * (D % k) < k ∧ (k : ℤ) ≤ D := by
  have hadd : Number.add (.fin n) (.fin k) = .fin (n + k + 0) := by
    rw [Number.add_natCast hsum, Nat.cast_add, add_zero]
  rw [← covered_zero_iff hk]
  constructor
  · rintro ⟨k', a, δ, -, hdk', ha, hδ, hcov⟩
    cases hstart.symm.trans ha
    have hk' : k' = k := by
      have := hdk'.symm.trans hdk
      simpa using this
    subst hk'
    have hδ' : δ = 0 := by
      have := hadd.symm.trans hδ
      simpa using this
    rwa [hδ'] at hcov
  · intro hcov
    exact ⟨k, n, 0, hk, hdk, hstart, hadd, hcov⟩

/-- **When a derived schedule is fundable.** -/
theorem create_fundable_iff (hl : sdk.Lawful) (hv : ValidParams sdk answers.validateNow p)
    (hr : p.ratePerSecond = none) {decimals : ℕ}
    (hdec : ∀ t, resolveToken sdk config p.token = .ok t → answers.decimals t = .ok decimals)
    (hd : decimals ≤ 19) :
    (∃ t s, createSchedule sdk config answers p = .ok (t, s) ∧
        calculateRate p.depositAmount p.durationSeconds decimals = .ok s.rateStroops ∧ Fundable s) ↔
      (p.token = "USDC" → ∃ issuer, usdcIssuer config.network = .ok issuer) ∧
        PaidToEnd answers p (round (amountValue p.depositAmount * 10 ^ decimals)) := by
  have hD := toStroops_eq_round hv.deposit.1 (by omega : decimals < 20)
  have hnn := toStroops_nonneg hD
  set D := round (amountValue p.depositAmount * 10 ^ decimals)
  rw [← resolveToken_ok_iff hl]
  constructor
  · rintro ⟨t, s, hs, hrate, hpos, a, b, ha, hb, hle⟩
    obtain ⟨ht, hs⟩ := (createSchedule_ok_iff hv).mp hs
    obtain ⟨d', D', R, hd', hD', hR, rfl⟩ := (scheduleOn_ok_iff hv).mp hs
    cases hd'.symm.trans (hdec t ht)
    cases hD'.symm.trans hD
    obtain ⟨k, hk, hdk, rfl⟩ := (calculateRate_ok_iff hD).mp hrate
    simp only at ha hb hpos hle
    rw [endAt_of_truthy hdk (truthy_natCast hk), ha] at hb
    have hb' : b = a + k + (b - a - k) := by ring
    refine ⟨⟨t, ht⟩, k, a, b - a - k, hk, hdk, ha, hb' ▸ hb, (covered_iff hnn hk _).mp ⟨hpos, ?_⟩⟩
    rwa [show (k : ℚ) + (b - a - k) = b - a by ring]
  · rintro ⟨⟨t, ht⟩, k, a, δ, hk, hdk, ha, hsum, hcov⟩
    obtain ⟨hpos, hle⟩ := (covered_iff hnn hk δ).mpr hcov
    have hR : RateFor p D (rateOf D k) := by
      simp only [RateFor, hr]
      exact ⟨k, hk, hdk, rfl⟩
    refine ⟨t, _, (createSchedule_ok_iff hv).mpr ⟨ht, (scheduleOn_ok_iff hv).mpr
      ⟨decimals, D, _, hdec t ht, hD, hR, rfl⟩⟩, (calculateRate_ok_iff hD).mpr ⟨k, hk, hdk, rfl⟩,
      hpos, a, a + k + δ, ha, ?_, ?_⟩
    · rw [endAt_of_truthy hdk (truthy_natCast hk), ha, hsum]
    · rwa [show a + k + δ - a = (k : ℚ) + δ by ring]

/-- A stream over `seconds`, in the native token. -/
def nativeStream (depositAmount : String) (seconds : ℕ) : CreateStreamParams where
  recipient := "GBBD47IF6LWK7P7MDEVSCWR7DPUWV3NY3DTQEVFL4NAT4AQH3ZLLFLA5"
  token := "native"
  depositAmount := depositAmount
  durationSeconds := some (.fin seconds)

theorem stroops_hour : round (amountValue (nativeStream "36" 3600).depositAmount * 10 ^ 7) =
    360000000 := by
  rw [round_amountValue]
  decide

theorem nativeStream_valid {amount : String} {seconds : ℕ} (stop : ℤ)
    (hamount : AmountFormat amount ∧ 0 < round (amountValue amount * 10 ^ 7))
    (hlong : 3600 ≤ seconds) (hstop : (Number.fin 1700000000).add (.fin seconds) = .fin stop)
    (hlt : 1700000000 < stop) :
    ValidParams standIn steadyAnswers.validateNow (nativeStream amount seconds) := by
  have hpos : Number.lt (.fin 0) (.fin seconds) = true := by
    rw [Number.lt_fin, decide_eq_true_eq]
    exact_mod_cast (by omega : 0 < seconds)
  have hle : Number.le (.fin seconds) (.fin 0) = false := by
    rw [Number.le_fin, decide_eq_false_iff_not, not_le]
    exact_mod_cast (by omega : 0 < seconds)
  refine ⟨isAddress_of_shape addressShape_recipient (.inl rfl), nofun, .inl rfl, hamount, ?_, nofun,
    ?_, nofun, ?_⟩
  · rintro d ⟨⟩
    refine ⟨hle, ?_⟩
    rw [Number.lt_fin, decide_eq_false_iff_not, not_lt]
    exact_mod_cast hlong
  · simp [presenceErrors, nativeStream, truthy_natCast (by omega : 0 < seconds)]
  · intro x hx
    have hstart : startAt steadyAnswers.validateNow (nativeStream amount seconds) =
        .fin 1700000000 := rfl
    have hnone : explicitStop (nativeStream amount seconds) = none := rfl
    rw [computedStop, hnone, hstart, Option.none_or, nativeStream, Option.filter_some, if_pos hpos,
      Option.map_some, hstop] at hx
    cases hx
    rw [hstart, Number.le_fin, decide_eq_false_iff_not, not_le]
    exact ⟨Number.isInteger_iff.mpr ⟨stop, rfl⟩, by exact_mod_cast hlt⟩

theorem hour_valid :
    ValidParams standIn steadyAnswers.validateNow (nativeStream "36" 3600) :=
  nativeStream_valid 1700003600 (by decide +kernel) (by norm_num) (by decide +kernel) (by norm_num)

theorem create_fundable_hour :
    ∃ t s, createSchedule standIn testnetConfig steadyAnswers (nativeStream "36" 3600) =
        .ok (t, s) ∧
      calculateRate "36" (some (.fin (3600 : ℕ))) 7 = .ok s.rateStroops ∧ Fundable s := by
  refine (create_fundable_iff standIn_lawful hour_valid rfl (fun _ _ => rfl) (by norm_num)).mpr
    ⟨fun h => absurd h (by decide), ?_⟩
  rw [stroops_hour, paidToEnd_of_exact (n := 1700000000) (k := 3600) (by norm_num) rfl
    (by decide) (by norm_num)]
  decide

/-- 3600 units over a year: the rate is rounded up, and the deposit runs out before the end. -/
theorem not_fundable_year :
    ValidParams standIn steadyAnswers.validateNow (nativeStream "3600" 31536000) ∧
      ¬ ∃ t s, createSchedule standIn testnetConfig steadyAnswers (nativeStream "3600" 31536000) =
          .ok (t, s) ∧
        calculateRate "3600" (some (.fin (31536000 : ℕ))) 7 = .ok s.rateStroops ∧ Fundable s := by
  have hv : ValidParams standIn steadyAnswers.validateNow (nativeStream "3600" 31536000) :=
    nativeStream_valid 1731536000 (by decide +kernel) (by norm_num) (by decide +kernel) (by norm_num)
  have h : (schedule (nativeStream "3600" 31536000) 7 1700000000).toOption =
      some ⟨36000000000, 1142, .fin 1700000000, .fin 1731536000⟩ := by
    decide +kernel
  refine ⟨hv, ?_⟩
  rintro ⟨t, s, hs, -, -, a, b, ha, hb, hle⟩
  obtain ⟨-, hs⟩ := (createSchedule_ok_iff hv).mp hs
  have hs' : schedule (nativeStream "3600" 31536000) 7 1700000000 = .ok s := hs
  rw [hs'] at h
  cases h
  cases ha
  cases hb
  norm_num at hle

/-! ## The validated stop time -/

/-- `create` gets to a vector with a positive deposit and rate, and with the stop time that the
validation worked out, or `0`. -/
def KeepsValidated (sdk : Sdk Tx) (config : StreamsConfig) (answers : ArgsAnswers)
    (p : CreateStreamParams) : Prop :=
  ∃ v D R E, createArgs sdk config answers p = .ok v ∧
    v[3]?.bind scValToI128 = some D ∧ 0 < D ∧ v[4]?.bind scValToI128 = some R ∧ 0 < R ∧
    v[6]?.bind scValToU64 = some E ∧
    .fin E = (computedStop answers.validateNow p).getD (.fin 0)

/-- The duration leads to the explicit stop time or, without one, to the same time at both readings
of the clock. -/
def StopKept (answers : ArgsAnswers) (p : CreateStreamParams) : Prop :=
  match explicitStop p with
  | some x => ∃ d, p.durationSeconds = some d ∧ d.truthy = true ∧
      (startAt answers.assembleNow p).add d = x
  | none => ∀ d, p.durationSeconds = some d → d.truthy = true →
      (startAt answers.assembleNow p).add d = (startAt answers.validateNow p).add d

theorem truthy_eq_lt {d : Number} (h : d.le (.fin 0) = false) :
    d.truthy = Number.lt (.fin 0) d := by
  cases d with
  | fin q =>
    rw [Number.le_fin, decide_eq_false_iff_not, not_le] at h
    simp [Number.truthy, h, h.ne']
  | negInf => cases h
  | nan | posInf => rfl

theorem startAt_nonneg {now : ℕ} (hv : ValidParams sdk now p) :
    ∃ n : ℤ, 0 ≤ n ∧ startAt now p = .fin n := by
  unfold startAt
  cases hs : p.startTime with
  | none => exact ⟨now, by positivity, by simp⟩
  | some x =>
    obtain ⟨hint, hlt⟩ := hv.start x hs
    obtain ⟨n, rfl⟩ := Number.isInteger_iff.mp hint
    rw [Number.lt_fin, decide_eq_false_iff_not, not_lt] at hlt
    exact ⟨n, by have : (now : ℤ) ≤ n := by exact_mod_cast hlt
                 omega, rfl⟩

/-- A stop time is never `0`. -/
theorem computedStop_ne_zero {now : ℕ} (hv : ValidParams sdk now p) {x : Number}
    (hx : computedStop now p = some x) : x ≠ .fin 0 := by
  rintro rfl
  obtain ⟨n, hn, hs⟩ := startAt_nonneg hv
  have := (hv.stop _ hx).2
  rw [hs, Number.le_fin, decide_eq_false_iff_not, not_le] at this
  have : n < 0 := by exact_mod_cast this
  omega

theorem endAt_eq_iff (hv : ValidParams sdk answers.validateNow p) :
    endAt p (startAt answers.assembleNow p) =
      (computedStop answers.validateNow p).getD (.fin 0) ↔ StopKept answers p := by
  cases hx : explicitStop p with
  | some x =>
    have hstop : computedStop answers.validateNow p = some x := by rw [computedStop, hx, Option.some_or]
    have hne := computedStop_ne_zero hv hstop
    rw [hstop, Option.getD_some]
    simp only [StopKept, hx, endAt]
    cases hd : p.durationSeconds.filter Number.truthy with
    | none =>
      refine iff_of_false (Ne.symm hne) ?_
      rintro ⟨d, hd', ht, -⟩
      simp [hd', ht] at hd
    | some d =>
      obtain ⟨hd', ht⟩ := Option.filter_eq_some_iff.mp hd
      constructor
      · intro h
        exact ⟨d, hd', ht, h⟩
      · rintro ⟨d', hd'', -, h⟩
        cases hd'.symm.trans hd''
        exact h
  | none =>
    simp only [StopKept, hx, endAt, computedStop, Option.none_or]
    cases hd : p.durationSeconds with
    | none => simp
    | some d =>
      have htruthy := truthy_eq_lt (hv.duration d hd).1
      rw [Option.filter_some, Option.filter_some, ← htruthy]
      by_cases ht : d.truthy = true
      · simp [ht]
      · simp [ht]

/-- What the vector says about the schedule. -/
theorem createArgs_decode (hl : sdk.Lawful) (hv : ValidParams sdk answers.validateNow p)
    {decimals : ℕ}
    (hdec : ∀ t, resolveToken sdk config p.token = .ok t → answers.decimals t = .ok decimals) {D : ℤ}
    (hD : toStroops p.depositAmount decimals = .ok D) {v : List ScVal}
    (h : createArgs sdk config answers p = .ok v) :
    ∃ (R : ℤ) (b : ℕ), RateFor p D R ∧ endAt p (startAt answers.assembleNow p) = .fin b ∧
      v[3]?.bind scValToI128 = some D ∧ v[4]?.bind scValToI128 = some R ∧
      v[6]?.bind scValToU64 = some (b : ℤ) := by
  obtain ⟨t, s, hs, henc, rfl⟩ := (createArgs_eq_iff hl).mp h
  obtain ⟨ht, hs⟩ := (createSchedule_ok_iff hv).mp hs
  obtain ⟨d, D', R, hd, hD', hR, rfl⟩ := (scheduleOn_ok_iff hv).mp hs
  cases hd.symm.trans (hdec t ht)
  cases hD'.symm.trans hD
  obtain ⟨b, hb, hb'⟩ := henc.stop
  refine ⟨R, b, hR, hb, scValToI128_i128Of henc.deposit.1 henc.deposit.2,
    scValToI128_i128Of henc.rate.1 henc.rate.2, ?_⟩
  simp only at hb
  simp only [vectorOf, hb, Number.toNat_natCast]
  exact scValToU64_u64Of hb'

theorem RateFor.pos_iff {now : ℕ} (hv : ValidParams sdk now p) {D R : ℤ} (h : RateFor p D R) :
    0 < R ↔ ∀ k : ℕ, p.ratePerSecond = none → p.durationSeconds = some (.fin k) → (k : ℤ) ≤ 2 * D := by
  unfold RateFor at h
  cases hr : p.ratePerSecond with
  | some rate =>
    rw [hr] at h
    obtain ⟨-, n, hn, hpos⟩ := hv.rate rate hr
    cases h.symm.trans hn
    simp [hpos]
  | none =>
    rw [hr] at h
    obtain ⟨k, hk, hd, rfl⟩ := h
    rw [rateOf_pos_iff hk]
    simp [hd]

/-- A rate and an explicit stop time: the stop time is validated, and `0` is sent. -/
def rateUntil (stopTime : ℕ) : CreateStreamParams where
  recipient := "GBBD47IF6LWK7P7MDEVSCWR7DPUWV3NY3DTQEVFL4NAT4AQH3ZLLFLA5"
  token := "native"
  depositAmount := "100"
  ratePerSecond := some "1000"
  stopTime := some (.fin stopTime)

theorem rateUntil_valid : ValidParams standIn steadyAnswers.validateNow (rateUntil 1700086400) where
  recipient := isAddress_of_shape addressShape_recipient (.inl rfl)
  sender := nofun
  token := .inl rfl
  deposit := by
    show AmountFormat "100" ∧ 0 < round (amountValue "100" * 10 ^ 7)
    decide +kernel
  duration := nofun
  rate := by
    rintro r ⟨⟩
    exact ⟨by decide, 1000, by decide, by norm_num⟩
  presence := rfl
  start := nofun
  stop := by
    rintro x ⟨⟩
    decide

end StreamFi
