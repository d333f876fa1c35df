import StreamFi.Amount
import StreamFi.Js.Rounding
import StreamFi.Run.Pool

/-!
# Balances of a stream snapshot

A stream pays `ratePerSecond` from `startTime` on, up to `endTime` (if there is one) and to the
pause (if it is paused).

* `effectiveNow`, `accrued`: the clamps the balances share, and what has accrued;
* `streamedTotalLocal`, `withdrawableLocal`, `calculateWithdrawableAmount`, `simulateWithdraw`;
* `Withdrawals`: a run of previews, each withdrawn in full;
* **`balance_laws`**: the total never falls, stops at a pause and stays within the schedule, and no
  run withdraws more than the total.
-/

namespace StreamFi

open Js

/-- What the balance of a stream depends on. -/
structure StreamInfo where
  ratePerSecond : ℤ
  startTime : Number
  endTime : Number := .fin 0
  withdrawn : ℤ := 0
  paused : Bool := false
  pausedAt : Number := .fin 0
  cancelled : Bool := false
  deriving DecidableEq

namespace StreamInfo

/-! ## The code -/

/-- The clamps, in their order: to `endTime`, then to `pausedAt`. -/
def effectiveNow (stream : StreamInfo) (nowSec : Number) : Number :=
  let endClamped :=
    if (Number.fin 0).lt stream.endTime && stream.endTime.lt nowSec then stream.endTime else nowSec
  if stream.paused && stream.pausedAt.lt endClamped then stream.pausedAt else endClamped

/-- What has accrued at `nowSec`; `none` is an early return. -/
def accrued (stream : StreamInfo) (nowSec : Number) : Except Thrown (Option ℤ) :=
  if (stream.effectiveNow nowSec).lt stream.startTime then .ok none
  else
    let elapsed := (stream.effectiveNow nowSec).sub stream.startTime
    if elapsed.le (.fin 0) then .ok none
    else (bigIntOfNumber elapsed).map fun seconds => some (stream.ratePerSecond * seconds)

end StreamInfo

def streamedTotalLocal (stream : StreamInfo) (nowSec : Number) : Except Thrown ℤ :=
  if stream.cancelled then .ok stream.withdrawn
  else (stream.accrued nowSec).map fun streamed => streamed.getD 0

/-- What is left of an accrued amount; nothing after an early return. -/
def availableOf (withdrawn : ℤ) : Option ℤ → ℤ
  | none => 0
  | some streamed => if 0 < streamed - withdrawn then streamed - withdrawn else 0

/-- What can be withdrawn. -/
def availableAt (stream : StreamInfo) (now : Number) : Except Thrown ℤ :=
  if stream.cancelled then .ok 0
  else (stream.accrued now).map (availableOf stream.withdrawn)

def withdrawableLocal (stream : StreamInfo) (nowSec : Number) : Except Thrown ℤ :=
  availableAt stream nowSec

def calculateWithdrawableAmount (stream : StreamInfo) (currentTimestamp : Number) :
    Except Thrown ℤ :=
  availableAt stream currentTimestamp

structure SimulateWithdrawOptions where
  amount : Option ℤ := none
  currentTimestamp : Option Number := none
  fee : Option String := none
  deriving DecidableEq

structure SimulatedWithdraw where
  withdrawAmount : ℤ
  withdrawable : ℤ
  remainingWithdrawable : ℤ
  estimatedFee : ℤ
  exceedsAvailable : Bool
  deriving DecidableEq

/-- `clock` is the current time in seconds. -/
def simulateWithdraw (stream : StreamInfo) (options : SimulateWithdrawOptions) (clock : Number) :
    Except Thrown SimulatedWithdraw := do
  let currentTimestamp := options.currentTimestamp.getD clock
  let withdrawable ← calculateWithdrawableAmount stream currentTimestamp
  let requested := options.amount.getD withdrawable
  let exceedsAvailable := decide (withdrawable < requested)
  let withdrawAmount := if exceedsAvailable then withdrawable else requested
  let estimatedFee ← bigIntOf (options.fee.getD "100")
  return { withdrawAmount := withdrawAmount, withdrawable := withdrawable,
           remainingWithdrawable := withdrawable - withdrawAmount, estimatedFee := estimatedFee,
           exceedsAvailable := exceedsAvailable }

/-! ## The clamps -/

namespace StreamInfo

variable {stream : StreamInfo} {now now' : Number} {streamed : Option ℤ}

/-- The timestamps are whole seconds. -/
structure WholeTimes (stream : StreamInfo) : Prop where
  startTime : ∃ n : ℤ, stream.startTime = .fin n
  endTime : ∃ n : ℤ, stream.endTime = .fin n
  pausedAt : ∃ n : ℤ, stream.pausedAt = .fin n

/-- A live stream with whole seconds and a rate that is not negative. -/
structure Accruing (stream : StreamInfo) : Prop where
  rate : 0 ≤ stream.ratePerSecond
  live : stream.cancelled = false
  startTime : ∃ n : ℤ, stream.startTime = .fin n
  endTime : ∃ n : ℤ, stream.endTime = .fin n
  pausedAt : ∃ n : ℤ, stream.pausedAt = .fin n

theorem Accruing.wholeTimes (hs : stream.Accruing) : stream.WholeTimes :=
  ⟨hs.startTime, hs.endTime, hs.pausedAt⟩

/-- **The clamps keep the order.** -/
theorem effectiveNow_le (hs : stream.WholeTimes) (h : now.le now' = true) :
    (stream.effectiveNow now).le (stream.effectiveNow now') = true := by
  obtain ⟨e, he⟩ := hs.endTime
  obtain ⟨p, hp⟩ := hs.pausedAt
  simp only [effectiveNow, he, hp]
  exact Number.cut_le_cut _ _ (Number.cut_le_cut _ _ h)

theorem effectiveNow_le_self (hs : stream.WholeTimes) (hnow : now ≠ .nan) :
    (stream.effectiveNow now).le now = true := by
  obtain ⟨e, he⟩ := hs.endTime
  obtain ⟨p, hp⟩ := hs.pausedAt
  simp only [effectiveNow, he, hp]
  have hcut := Number.cut_le ((Number.fin 0).lt (.fin e)) e hnow
  exact Number.le_trans (Number.cut_le _ _ (Number.ne_nan_of_le hcut).1) hcut

/-- Nothing accrues after the end. -/
theorem effectiveNow_le_endTime (hs : stream.WholeTimes)
    (hend : (Number.fin 0).lt stream.endTime = true) (hnow : now ≠ .nan) :
    (stream.effectiveNow now).le stream.endTime = true := by
  obtain ⟨e, he⟩ := hs.endTime
  obtain ⟨p, hp⟩ := hs.pausedAt
  rw [he] at hend
  simp only [effectiveNow, he, hp, hend, Bool.true_and]
  have hcut := Number.cut_le_bound e hnow
  exact Number.le_trans (Number.cut_le _ _ (Number.ne_nan_of_le hcut).1) hcut

/-- **From the pause on, the clock stands still.** -/
theorem effectiveNow_of_paused (hpaused : stream.paused = true)
    (hend : (Number.fin 0).lt stream.endTime = true → stream.pausedAt.le stream.endTime = true)
    (h : stream.pausedAt.le now = true) : stream.effectiveNow now = stream.pausedAt := by
  have hcut : stream.pausedAt.le
      (if (Number.fin 0).lt stream.endTime && stream.endTime.lt now then stream.endTime
        else now) = true := by
    split_ifs with hlt
    · rw [Bool.and_eq_true] at hlt
      exact hend hlt.1
    · exact h
  simp only [effectiveNow, hpaused, Bool.true_and]
  generalize (if (Number.fin 0).lt stream.endTime && stream.endTime.lt now then stream.endTime
    else now) = endClamped at hcut
  split_ifs with hlt
  · rfl
  · exact (Number.eq_of_le_of_not_lt hcut (by simpa using hlt)).symm

/-! ## What accrues -/

/-- **An accrual that returns** either returned early or paid for whole seconds. -/
theorem accrued_iff : stream.accrued now = .ok streamed ↔
    (streamed = none ∧ ((stream.effectiveNow now).lt stream.startTime = true ∨
      ((stream.effectiveNow now).sub stream.startTime).le (.fin 0) = true)) ∨
    ∃ seconds : ℤ, streamed = some (stream.ratePerSecond * seconds) ∧ 0 < seconds ∧
      (stream.effectiveNow now).lt stream.startTime = false ∧
      (stream.effectiveNow now).sub stream.startTime = .fin seconds := by
  simp only [accrued]
  constructor
  · intro h
    split_ifs at h with hlt hle
    · cases h
      exact .inl ⟨rfl, .inl hlt⟩
    · cases h
      exact .inl ⟨rfl, .inr hle⟩
    · obtain ⟨seconds, hsec, rfl⟩ := map_ok_iff.mp h
      have hfin := eq_of_bigIntOfNumber hsec
      rw [hfin] at hle
      refine .inr ⟨seconds, rfl, ?_, by simpa using hlt, hfin⟩
      simpa using hle
  · rintro (⟨rfl, hearly⟩ | ⟨seconds, rfl, hpos, hlt, hsec⟩)
    · split_ifs with hlt hle
      · rfl
      · rfl
      · exact absurd hearly (not_or.mpr ⟨hlt, hle⟩)
    · have hle : ¬ (Number.fin seconds).le (.fin 0) = true := by
        simpa using hpos
      rw [hlt, hsec, if_neg Bool.false_ne_true, if_neg hle, bigIntOfNumber, Number.toBigInt_intCast]
      rfl

theorem accrued_nonneg (hs : stream.Accruing) (h : stream.accrued now = .ok streamed) :
    0 ≤ streamed.getD 0 := by
  rcases accrued_iff.mp h with ⟨rfl, -⟩ | ⟨seconds, rfl, hpos, -⟩
  · exact le_refl 0
  · exact mul_nonneg hs.rate hpos.le

/-- What has accrued is paid for by the seconds up to any later instant. -/
theorem accrued_le (hs : stream.Accruing) (h : stream.accrued now = .ok streamed) {stop : Number}
    {seconds : ℤ} (hstop : (stream.effectiveNow now).le stop = true)
    (hsec : stop.sub stream.startTime = .fin seconds) (hnonneg : 0 ≤ seconds) :
    streamed.getD 0 ≤ stream.ratePerSecond * seconds := by
  obtain ⟨s, hstart⟩ := hs.startTime
  rcases accrued_iff.mp h with ⟨rfl, -⟩ | ⟨k, rfl, -, -, hk⟩
  · exact mul_nonneg hs.rate hnonneg
  · have hle := Number.sub_le_sub hstop s
    rw [← hstart, hk, hsec] at hle
    apply mul_le_mul_of_nonneg_left _ hs.rate
    simpa using hle

/-- **The accrued amount never falls.** -/
theorem accrued_mono (hs : stream.Accruing) (h : now.le now' = true) {streamed' : Option ℤ}
    (hx : stream.accrued now = .ok streamed) (hx' : stream.accrued now' = .ok streamed') :
    streamed.getD 0 ≤ streamed'.getD 0 := by
  obtain ⟨s, hstart⟩ := hs.startTime
  have hle := effectiveNow_le hs.wholeTimes h
  rcases accrued_iff.mp hx' with ⟨rfl, hearly⟩ | ⟨k', rfl, hpos', -, hk'⟩
  · -- an early return is followed by none that is later
    rcases accrued_iff.mp hx with ⟨rfl, -⟩ | ⟨k, rfl, hpos, hlate, hk⟩
    · exact le_refl _
    · rcases hearly with hlt | hneg
      · rw [Number.lt_of_le_of_lt hle hlt] at hlate
        cases hlate
      · have hsub := Number.sub_le_sub hle s
        rw [← hstart, hk] at hsub
        have := Number.le_trans hsub hneg
        simp only [Number.le_fin, decide_eq_true_eq] at this
        exact absurd (by exact_mod_cast this) (not_le.mpr hpos)
  · exact accrued_le hs hx hle hk' hpos'.le

/-- An accrual at `NaN` throws. -/
theorem ne_nan_of_accrued (h : stream.accrued now = .ok streamed) : now ≠ .nan := by
  rintro rfl
  have hlt (x : Number) : x.lt .nan = false := by cases x <;> rfl
  have hnan : stream.effectiveNow .nan = .nan := by
    simp [effectiveNow, hlt]
  rcases accrued_iff.mp h with ⟨-, hearly⟩ | ⟨seconds, -, -, -, hsec⟩
  · rw [hnan] at hearly
    cases hs : stream.startTime <;> simp_all [Number.lt, Number.sub, Number.le]
  · rw [hnan] at hsec
    cases hs : stream.startTime <;> simp_all [Number.sub]

theorem effectiveNow_intCast (hs : stream.WholeTimes) (n : ℤ) :
    ∃ m : ℤ, stream.effectiveNow (.fin n) = .fin m := by
  obtain ⟨e, he⟩ := hs.endTime
  obtain ⟨p, hp⟩ := hs.pausedAt
  simp only [effectiveNow, he, hp]
  split_ifs
  · exact ⟨p, rfl⟩
  · exact ⟨e, rfl⟩
  · exact ⟨p, rfl⟩
  · exact ⟨n, rfl⟩

/-- At a whole second the accrual returns, unless the difference overflows. -/
theorem accrued_returns (hs : stream.WholeTimes) {n : ℤ}
    (h : ((Number.fin n).sub stream.startTime).isFinite = true) :
    ∃ streamed, stream.accrued (.fin n) = .ok streamed := by
  obtain ⟨s, hstart⟩ := hs.startTime
  obtain ⟨m, hm⟩ := effectiveNow_intCast hs n
  have hsub := Number.sub_le_sub (effectiveNow_le_self hs (by simp : Number.fin n ≠ .nan)) s
  simp only [accrued, hm]
  rw [hm, ← hstart] at hsub
  split_ifs with hlt hle
  · exact ⟨none, rfl⟩
  · exact ⟨none, rfl⟩
  · rw [hstart] at hle hsub h ⊢
    have hnan := Number.sub_fin_ne_nan (m : ℚ) s
    have hint := Number.integral_sub m s
    cases hx : Number.sub (.fin m) (.fin s) with
    | nan => exact absurd hx hnan
    | posInf =>
      -- the later instant would overflow, too
      rw [hx] at hsub
      cases hy : Number.sub (.fin n) (.fin s) <;> simp_all [Number.le, Number.isFinite]
    | negInf => exact absurd (by rw [hx]; rfl) hle
    | fin q =>
      obtain ⟨k, rfl⟩ := hint q hx
      simp only [bigIntOfNumber, Number.toBigInt_intCast]
      exact ⟨_, rfl⟩

end StreamInfo

/-! ## Runs of withdrawals -/

/-- A previewed withdrawal, with the time when it is previewed. -/
structure Withdrawal where
  options : SimulateWithdrawOptions
  clock : Number

def Withdrawal.instant (w : Withdrawal) : Number := w.options.currentTimestamp.getD w.clock

/-- A stream from which previewed amounts are withdrawn, the time of the last preview, and it. -/
structure Withdrawals where
  stream : StreamInfo
  now : Number
  last : Option SimulatedWithdraw := none

namespace Withdrawals

/-- An amount that is not negative is previewed, no earlier than the one before, and what the
preview returns is withdrawn. -/
def step (s : Withdrawals) (w : Withdrawal) : Option Withdrawals :=
  if w.options.amount.all (0 ≤ ·) && s.now.le w.instant then
    match simulateWithdraw s.stream w.options w.clock with
    | .ok preview => some
        { stream := { s.stream with withdrawn := s.stream.withdrawn + preview.withdrawAmount }
          now := w.instant
          last := some preview }
    | .error _ => none
  else none

/-- No more is withdrawn than has been streamed, and what the last preview said is left can be
withdrawn next. -/
def Sound (s : Withdrawals) : Prop :=
  ∃ total, streamedTotalLocal s.stream s.now = .ok total ∧ 0 ≤ s.stream.withdrawn ∧
    s.stream.withdrawn ≤ total ∧ ∀ preview, s.last = some preview →
      calculateWithdrawableAmount s.stream s.now = .ok preview.remainingWithdrawable

end Withdrawals

section Withdraw

variable {stream : StreamInfo} {now : Number}

theorem availableOf_eq {withdrawn : ℤ} {streamed : Option ℤ} (h₀ : 0 ≤ withdrawn)
    (h : withdrawn ≤ streamed.getD 0) :
    availableOf withdrawn streamed = streamed.getD 0 - withdrawn := by
  cases streamed with
  | none =>
    simp only [Option.getD_none] at h
    show (0 : ℤ) = 0 - withdrawn
    omega
  | some x =>
    simp only [Option.getD_some] at h
    show (if 0 < x - withdrawn then x - withdrawn else 0) = x - withdrawn
    split_ifs <;> omega

theorem streamedTotalLocal_eq (hlive : stream.cancelled = false) :
    streamedTotalLocal stream now = (stream.accrued now).map fun streamed => streamed.getD 0 := by
  simp [streamedTotalLocal, hlive]

/-- What is paid for whole seconds. -/
theorem streamedTotalLocal_seconds (hlive : stream.cancelled = false) (start stop : ℤ)
    (hstart : stream.startTime = .fin start) (hstop : stream.effectiveNow now = .fin stop) (hlt : start < stop)
    (hexact : |stop - start| ≤ 2 ^ 53) :
    streamedTotalLocal stream now = .ok (stream.ratePerSecond * (stop - start)) := by
  have hafter : ¬ (Number.fin stop).lt (.fin start) = true := by
    rw [Number.lt_fin, decide_eq_true_eq, Int.cast_lt]
    exact hlt.not_gt
  have hpos : ¬ (Number.fin (stop - start : ℤ)).le (.fin 0) = true := by
    rw [Number.le_fin, decide_eq_true_eq, not_le]
    exact_mod_cast sub_pos.mpr hlt
  rw [streamedTotalLocal_eq hlive, StreamInfo.accrued, hstop, hstart, if_neg hafter,
    Number.sub_intCast hexact, if_neg hpos, bigIntOfNumber, Number.toBigInt_intCast]
  rfl

theorem availableAt_eq (hlive : stream.cancelled = false) :
    availableAt stream now = (stream.accrued now).map (availableOf stream.withdrawn) := by
  simp [availableAt, hlive]

theorem streamedTotalLocal_ok_iff (hlive : stream.cancelled = false) {total : ℤ} :
    streamedTotalLocal stream now = .ok total ↔
      ∃ streamed, stream.accrued now = .ok streamed ∧ streamed.getD 0 = total := by
  rw [streamedTotalLocal_eq hlive, map_ok_iff]

/-- What a preview returns: what is available, and the requested part of it. -/
theorem simulateWithdraw_ok {options : SimulateWithdrawOptions} {clock : Number}
    {preview : SimulatedWithdraw} (h : simulateWithdraw stream options clock = .ok preview) :
    calculateWithdrawableAmount stream (options.currentTimestamp.getD clock) =
        .ok preview.withdrawable ∧
      preview.withdrawAmount =
        min (options.amount.getD preview.withdrawable) preview.withdrawable ∧
      preview.remainingWithdrawable = preview.withdrawable - preview.withdrawAmount := by
  obtain ⟨withdrawable, hw, h⟩ := seq_ok_iff.mp h
  obtain ⟨fee, -, h⟩ := seq_ok_iff.mp h
  cases h
  refine ⟨hw, ?_, rfl⟩
  simp only [decide_eq_true_eq]
  split_ifs with hlt <;> omega

theorem simulateWithdraw_returns {options : SimulateWithdrawOptions} {clock : Number}
    (hlive : stream.cancelled = false)
    (h : ∃ streamed, stream.accrued (options.currentTimestamp.getD clock) = .ok streamed)
    (hfee : ∃ fee, bigIntOf (options.fee.getD "100") = .ok fee) :
    ∃ preview, simulateWithdraw stream options clock = .ok preview := by
  obtain ⟨streamed, hs⟩ := h
  obtain ⟨fee, hf⟩ := hfee
  simp only [simulateWithdraw, calculateWithdrawableAmount, availableAt_eq hlive, hs, hf,
    Except.map, ok_seq]
  exact ⟨_, rfl⟩

end Withdraw

namespace Withdrawals

variable {s s' : Withdrawals} {w : Withdrawal}

theorem step_cases (h : s.step w = some s') : ∃ preview,
    (∀ amount, w.options.amount = some amount → 0 ≤ amount) ∧ s.now.le w.instant = true ∧
      simulateWithdraw s.stream w.options w.clock = .ok preview ∧
      s' = ⟨{ s.stream with withdrawn := s.stream.withdrawn + preview.withdrawAmount },
        w.instant, some preview⟩ := by
  unfold step at h
  split at h
  case isFalse => cases h
  case isTrue hguard =>
    rw [Bool.and_eq_true] at hguard
    cases hp : simulateWithdraw s.stream w.options w.clock with
    | error err =>
      rw [hp] at h
      cases h
    | ok preview =>
      rw [hp] at h
      refine ⟨preview, ?_, hguard.2, rfl, (Option.some.inj h).symm⟩
      intro amount ha
      simpa [ha] using hguard.1

theorem accruing_step (hs : s.stream.Accruing) (h : s.step w = some s') : s'.stream.Accruing := by
  obtain ⟨preview, -, -, -, rfl⟩ := step_cases h
  exact ⟨hs.rate, hs.live, hs.startTime, hs.endTime, hs.pausedAt⟩

/-- **One withdrawal** stays within the total. -/
theorem sound_step (hs : s.stream.Accruing) (hsound : s.Sound) (h : s.step w = some s') :
    s'.Sound := by
  have hlive : s'.stream.cancelled = false := (accruing_step hs h).live
  obtain ⟨preview, hamount, hle, hpreview, rfl⟩ := step_cases h
  obtain ⟨total, htotal, h₀, hmax, -⟩ := hsound
  obtain ⟨hbal, hwithdraw, hremaining⟩ := simulateWithdraw_ok hpreview
  rw [calculateWithdrawableAmount, availableAt_eq hs.live, map_ok_iff] at hbal
  obtain ⟨streamed', hx', hbal⟩ := hbal
  obtain ⟨streamed, hx, htotal⟩ := (streamedTotalLocal_ok_iff hs.live).mp htotal
  have hmono : streamed.getD 0 ≤ streamed'.getD 0 := StreamInfo.accrued_mono hs hle hx hx'
  have hw : s.stream.withdrawn ≤ streamed'.getD 0 := by omega
  rw [availableOf_eq h₀ hw] at hbal
  have hnonneg : 0 ≤ preview.withdrawAmount := by
    rw [hwithdraw]
    cases ha : w.options.amount with
    | none => simp; omega
    | some amount =>
      have := hamount amount ha
      simp; omega
  have hnew : 0 ≤ s.stream.withdrawn + preview.withdrawAmount := by omega
  have hnew' : s.stream.withdrawn + preview.withdrawAmount ≤ streamed'.getD 0 := by omega
  refine ⟨streamed'.getD 0, ?_, hnew, hnew', ?_⟩
  · exact (streamedTotalLocal_ok_iff hlive).mpr ⟨streamed', hx', rfl⟩
  · intro preview' hlast
    cases hlast
    rw [calculateWithdrawableAmount, availableAt_eq hlive, map_ok_iff]
    refine ⟨streamed', hx', ?_⟩
    rw [availableOf_eq hnew hnew']
    omega

/-- **No run withdraws more than has been streamed.** -/
theorem sound_run {log : List Withdrawal} (hs : s.stream.Accruing) (hsound : s.Sound)
    (h : Run.run step s log = some s') : s'.Sound := by
  have hinv : s'.stream.Accruing ∧ s'.Sound := by
    refine Run.run_induction (P := fun t _ => t.stream.Accruing ∧ t.Sound) ⟨hs, hsound⟩ ?_ h
    intro t _ w t' ⟨ht, hsound'⟩ hstep
    exact ⟨accruing_step ht hstep, sound_step ht hsound' hstep⟩
  exact hinv.2

end Withdrawals

/-! ## The laws -/

section Laws

variable {stream : StreamInfo}

theorem streamedTotalLocal_mono (hs : stream.Accruing) {now now' : Number}
    (h : now.le now' = true) {total total' : ℤ} (ht : streamedTotalLocal stream now = .ok total)
    (ht' : streamedTotalLocal stream now' = .ok total') : total ≤ total' := by
  obtain ⟨streamed, hx, rfl⟩ := (streamedTotalLocal_ok_iff hs.live).mp ht
  obtain ⟨streamed', hx', rfl⟩ := (streamedTotalLocal_ok_iff hs.live).mp ht'
  exact StreamInfo.accrued_mono hs h hx hx'

theorem streamedTotalLocal_of_paused (hs : stream.Accruing) (hpaused : stream.paused = true)
    (hend : (Number.fin 0).lt stream.endTime = true → stream.pausedAt.le stream.endTime = true)
    {now : Number} (h : stream.pausedAt.le now = true) :
    streamedTotalLocal stream now = streamedTotalLocal stream stream.pausedAt := by
  have hself : stream.pausedAt.le stream.pausedAt = true := by
    obtain ⟨p, hp⟩ := hs.pausedAt
    rw [hp]
    exact Number.le_refl_fin _
  simp only [streamedTotalLocal, StreamInfo.accrued,
    StreamInfo.effectiveNow_of_paused hpaused hend h,
    StreamInfo.effectiveNow_of_paused hpaused hend hself]

theorem streamedTotalLocal_le (hs : stream.Accruing)
    (hend : (Number.fin 0).lt stream.endTime = true)
    (horder : stream.startTime.le stream.endTime = true) {now : Number} {total seconds : ℤ}
    (ht : streamedTotalLocal stream now = .ok total)
    (hsec : stream.endTime.sub stream.startTime = .fin seconds) :
    total ≤ stream.ratePerSecond * seconds := by
  obtain ⟨streamed, hx, rfl⟩ := (streamedTotalLocal_ok_iff hs.live).mp ht
  obtain ⟨s, hstart⟩ := hs.startTime
  have hnonneg : 0 ≤ seconds := by
    have hsub := Number.sub_le_sub horder s
    rw [← hstart, hsec, hstart, Number.sub_fin, sub_self] at hsub
    rw [Number.ofRat_zero] at hsub
    simpa using hsub
  have hnow := StreamInfo.ne_nan_of_accrued hx
  exact StreamInfo.accrued_le hs hx (StreamInfo.effectiveNow_le_endTime hs.wholeTimes hend hnow) hsec hnonneg

/-- **What a live stream's balances obey.** At a whole second they return, unless the time since
the start overflows. The total never falls with time, does not change from a pause before the end
on, and is at most the rate times `endTime - startTime`, in JavaScript's difference and, when that
is exact, in integers. From a balance that is in order, every run of previewed withdrawals, each
taking what the preview returned, never exceeds the total at its time, and what a preview said
would remain is what can be withdrawn next. -/
theorem balance_laws (hs : stream.Accruing) :
    (∀ n : ℤ, ((Number.fin n).sub stream.startTime).isFinite = true →
      (∃ total, streamedTotalLocal stream (.fin n) = .ok total) ∧
      ∀ (options : SimulateWithdrawOptions) clock, options.currentTimestamp.getD clock = .fin n →
        (∃ fee, bigIntOf (options.fee.getD "100") = .ok fee) →
        ∃ preview, simulateWithdraw stream options clock = .ok preview) ∧
    (∀ now now' total total', now.le now' = true → streamedTotalLocal stream now = .ok total →
      streamedTotalLocal stream now' = .ok total' → total ≤ total') ∧
    (stream.paused = true →
      ((Number.fin 0).lt stream.endTime = true → stream.pausedAt.le stream.endTime = true) →
      ∀ now, stream.pausedAt.le now = true →
        streamedTotalLocal stream now = streamedTotalLocal stream stream.pausedAt) ∧
    ((Number.fin 0).lt stream.endTime = true → stream.startTime.le stream.endTime = true →
      ∀ now total, streamedTotalLocal stream now = .ok total →
        (∀ seconds : ℤ, stream.endTime.sub stream.startTime = .fin seconds →
          total ≤ stream.ratePerSecond * seconds) ∧
        ∀ start stop : ℤ, stream.startTime = .fin start → stream.endTime = .fin stop →
          |stop - start| ≤ 2 ^ 53 → total ≤ stream.ratePerSecond * (stop - start)) ∧
    ∀ t₀ total₀ log s, streamedTotalLocal stream t₀ = .ok total₀ → 0 ≤ stream.withdrawn →
      stream.withdrawn ≤ total₀ → Run.run Withdrawals.step ⟨stream, t₀, none⟩ log = some s →
        s.Sound := by
  refine ⟨?_, ?_, ?_, ?_, ?_⟩
  · intro n hfin
    have hx := StreamInfo.accrued_returns hs.wholeTimes hfin
    constructor
    · obtain ⟨streamed, hx⟩ := hx
      exact ⟨_, (streamedTotalLocal_ok_iff hs.live).mpr ⟨streamed, hx, rfl⟩⟩
    · intro options clock hn hfee
      exact simulateWithdraw_returns hs.live (by rwa [hn]) hfee
  · intro now now' total total' hle ht ht'
    exact streamedTotalLocal_mono hs hle ht ht'
  · intro hpaused hend now
    exact streamedTotalLocal_of_paused hs hpaused hend
  · intro hend horder now total ht
    constructor
    · intro seconds
      exact streamedTotalLocal_le hs hend horder ht
    · intro start stop hstart hstop hexact
      apply streamedTotalLocal_le hs hend horder ht
      rw [hstart, hstop, Number.sub_intCast hexact]
  · intro t₀ total₀ log s ht h₀ hmax hrun
    refine Withdrawals.sound_run (s := ⟨stream, t₀, none⟩) hs ⟨total₀, ht, h₀, hmax, ?_⟩ hrun
    intro preview hlast
    cases hlast

/-- A stream of 100 a second for 1000 seconds. -/
def hundredStream : StreamInfo where
  ratePerSecond := 100
  startTime := .fin 1000
  endTime := .fin 2000

theorem streamedTotalLocal_hundred : streamedTotalLocal hundredStream (.fin 1500) = .ok 50000 :=
  streamedTotalLocal_seconds rfl 1000 1500 rfl (by decide) (by norm_num) (by norm_num)

theorem balance_laws_hundred :
    (∃ total, streamedTotalLocal hundredStream (.fin 1500) = .ok total) ∧
      streamedTotalLocal hundredStream (.fin 1500) = .ok 50000 ∧
      (∃ s, Run.run Withdrawals.step ⟨hundredStream, .fin 1000, none⟩
        [⟨{ amount := some 20000 }, .fin 1500⟩, ⟨{}, .fin 3000⟩] = some s ∧ s.Sound) := by
  have hs : hundredStream.Accruing :=
    ⟨by decide, rfl, ⟨1000, rfl⟩, ⟨2000, rfl⟩, ⟨0, by simp [hundredStream]⟩⟩
  obtain ⟨hret, -, -, -, hrun⟩ := balance_laws hs
  refine ⟨(hret 1500 (by decide +kernel)).1, streamedTotalLocal_hundred, ?_⟩
  obtain ⟨s, hlog, -⟩ := Option.map_eq_some_iff.mp (by decide +kernel :
    (Run.run Withdrawals.step ⟨hundredStream, .fin 1000, none⟩
      [⟨{ amount := some 20000 }, .fin 1500⟩, ⟨{}, .fin 3000⟩]).map
        (fun s => s.stream.withdrawn) = some 100000)
  exact ⟨s, hlog, hrun (.fin 1000) 0 _ s (by decide +kernel) le_rfl le_rfl hlog⟩

end Laws

end StreamFi
