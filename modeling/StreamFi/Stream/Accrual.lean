import StreamFi.Stream.Status

/-!
# The accrual formulas of the SDK

Next to `streamedTotalLocal`, the SDK computes what a stream has accrued in three more places.

* `sumWithdrawable`, `calculateAccruedAmount`, `calculateVestedPercentage`: the code;
* `payFor`: the pay for a difference of timestamps, to which all of them come down;
* **`withdrawable_eq_streamed_sub`**: what can be withdrawn is what was streamed less what was
  withdrawn;
* **`calculateAccruedAmount_eq_iff`**: when the accrued amount is the streamed total;
* **`vestedFraction_mul`**: the vested fraction of the whole schedule is the streamed total.
-/

namespace StreamFi

open Js

/-! ## The code -/

def sumWithdrawable (streams : List StreamInfo) (nowSec : Number) : Except Thrown ℤ :=
  streams.foldlM (fun sum stream => do
    let available ← withdrawableLocal stream nowSec
    return sum + available) 0

def calculateAccruedAmount (stream : StreamInfo) (asOfTimestamp : Number) : Except Thrown ℤ :=
  if asOfTimestamp.lt stream.startTime || stream.cancelled then .ok 0
  else
    let effectiveTime :=
      if (Number.fin 0).lt stream.endTime then asOfTimestamp.min stream.endTime else asOfTimestamp
    let elapsed := Number.max (.fin 0) (effectiveTime.sub stream.startTime)
    (bigIntOfNumber elapsed).map fun seconds => stream.ratePerSecond * seconds

def calculateVestedPercentage (stream : StreamInfo) (currentTimestamp : Number) : Number :=
  if stream.cancelled then .fin 0
  else
    let totalSeconds := stream.endTime.sub stream.startTime
    if stream.endTime.le (.fin 0) || totalSeconds.le (.fin 0) then .fin 0
    else
      let endClamped := if stream.endTime.lt currentTimestamp then stream.endTime else currentTimestamp
      let effectiveNow :=
        if stream.paused && stream.pausedAt.lt endClamped then stream.pausedAt else endClamped
      if effectiveNow.le stream.startTime then .fin 0
      else
        let ratio := (effectiveNow.sub stream.startTime).div totalSeconds
        if (Number.fin 1).lt ratio then .fin 1 else ratio

namespace StreamInfo

/-- The clamp to `endTime`, which comes before the one to `pausedAt`. -/
def endClamped (stream : StreamInfo) (nowSec : Number) : Number :=
  if (Number.fin 0).lt stream.endTime && stream.endTime.lt nowSec then stream.endTime else nowSec

/-- The pay for a difference of timestamps. -/
def payFor (stream : StreamInfo) (elapsed : Number) : Except Thrown ℤ :=
  if elapsed.le (.fin 0) then .ok 0
  else (bigIntOfNumber elapsed).map fun seconds => stream.ratePerSecond * seconds

variable {stream : StreamInfo} {now : Number}

theorem effectiveNow_def : stream.effectiveNow now =
    if stream.paused && stream.pausedAt.lt (stream.endClamped now) then stream.pausedAt
    else stream.endClamped now := rfl

theorem payFor_of_le {d : Number} (h : d.le (.fin 0) = true) : stream.payFor d = .ok 0 := if_pos h

theorem payFor_intCast {seconds : ℤ} (h : 0 ≤ seconds) :
    stream.payFor (.fin seconds) = .ok (stream.ratePerSecond * seconds) := by
  rcases h.eq_or_lt with rfl | hpos
  · rw [payFor_of_le (by simp), mul_zero]
  · rw [payFor, if_neg (by simpa using hpos), bigIntOfNumber, Number.toBigInt_intCast]
    rfl

end StreamInfo

/-! ## What can be withdrawn -/

section Withdrawable

/-- A sum taken one by one is the sum of what was read. -/
theorem foldlM_add_eq {ε α : Type} (f : α → Except ε ℤ) (xs : List α) (c : ℤ) :
    xs.foldlM (fun sum x => do
      let available ← f x
      return sum + available) c = (xs.mapM f).map fun ys => c + ys.sum := by
  induction xs generalizing c with
  | nil =>
    rw [List.foldlM_nil, List.mapM_nil]
    show Except.ok c = Except.ok (c + 0)
    rw [add_zero]
  | cons x xs ih =>
    rw [List.foldlM_cons, List.mapM_cons]
    cases hx : f x with
    | error e => rfl
    | ok a =>
      show xs.foldlM _ (c + a) = _
      rw [ih]
      cases xs.mapM f with
      | error e => rfl
      | ok ys =>
        show Except.ok (c + a + ys.sum) = Except.ok (c + (a :: ys).sum)
        rw [List.sum_cons, add_assoc]

theorem mapM_eq_of_forall {ε α β : Type} {f g : α → Except ε β} {xs : List α}
    (h : ∀ x ∈ xs, f x = g x) : xs.mapM f = xs.mapM g := by
  induction xs with
  | nil => rfl
  | cons x xs ih =>
    rw [List.mapM_cons, List.mapM_cons, h x List.mem_cons_self,
      ih fun y hy => h y (List.mem_cons_of_mem _ hy)]

theorem availableOf_eq_max {withdrawn : ℤ} (h : 0 ≤ withdrawn) (streamed : Option ℤ) :
    availableOf withdrawn streamed = max 0 (streamed.getD 0 - withdrawn) := by
  cases streamed with
  | none =>
    show (0 : ℤ) = max 0 (0 - withdrawn)
    omega
  | some x => exact availableOf_some withdrawn x

theorem availableAt_eq_map {stream : StreamInfo} (h : 0 ≤ stream.withdrawn) (nowSec : Number) :
    availableAt stream nowSec =
      (streamedTotalLocal stream nowSec).map fun total => max 0 (total - stream.withdrawn) := by
  cases hc : stream.cancelled with
  | true =>
    -- a cancelled stream's total is what was withdrawn
    simp [availableAt, streamedTotalLocal, hc, Except.map]
  | false =>
    rw [availableAt_eq hc, streamedTotalLocal_eq hc]
    cases stream.accrued nowSec with
    | error e => rfl
    | ok streamed => exact congrArg Except.ok (availableOf_eq_max h streamed)

/-- **What can be withdrawn is what was streamed less what was withdrawn**, in both functions, at
every number: they return or throw together. Its sum over a list is that of the terms. -/
theorem withdrawable_eq_streamed_sub {streams : List StreamInfo}
    (h : ∀ stream ∈ streams, 0 ≤ stream.withdrawn) (nowSec : Number) :
    (∀ stream ∈ streams,
      withdrawableLocal stream nowSec =
          (streamedTotalLocal stream nowSec).map (fun total => max 0 (total - stream.withdrawn)) ∧
        calculateWithdrawableAmount stream nowSec =
          (streamedTotalLocal stream nowSec).map fun total => max 0 (total - stream.withdrawn)) ∧
    sumWithdrawable streams nowSec =
      (streams.mapM fun stream =>
        (streamedTotalLocal stream nowSec).map fun total => max 0 (total - stream.withdrawn)).map
          List.sum := by
  constructor
  · intro stream hmem
    have heq := availableAt_eq_map (h stream hmem) nowSec
    exact ⟨heq, heq⟩
  · rw [sumWithdrawable, foldlM_add_eq]
    have hterms : streams.mapM (fun stream => withdrawableLocal stream nowSec) =
        streams.mapM fun stream => (streamedTotalLocal stream nowSec).map fun total =>
          max 0 (total - stream.withdrawn) := by
      apply mapM_eq_of_forall
      intro stream hmem
      exact availableAt_eq_map (h stream hmem) nowSec
    rw [hterms]
    congr 1
    funext ys
    exact zero_add ys.sum

theorem withdrawable_eq_hundred :
    let streams := [hundredStream, { hundredStream with withdrawn := 70000 },
      { hundredStream with cancelled := true, withdrawn := 300 }]
    (∀ stream ∈ streams, 0 ≤ stream.withdrawn) ∧
      sumWithdrawable streams (.fin 1500) = .ok 50000 ∧
      sumWithdrawable streams (.fin 1500) =
        (streams.mapM fun stream => (streamedTotalLocal stream (.fin 1500)).map
          fun total => max 0 (total - stream.withdrawn)).map List.sum := by
  have h : ∀ stream ∈ [hundredStream, { hundredStream with withdrawn := 70000 },
      { hundredStream with cancelled := true, withdrawn := 300 }], 0 ≤ stream.withdrawn := by
    decide
  have hsum := (withdrawable_eq_streamed_sub h (.fin 1500)).2
  have hdrawn : streamedTotalLocal { hundredStream with withdrawn := 70000 } (.fin 1500) = .ok 50000 :=
    streamedTotalLocal_hundred
  refine ⟨h, ?_, hsum⟩
  rw [hsum, List.mapM_cons, List.mapM_cons, streamedTotalLocal_hundred, hdrawn]
  rfl

end Withdrawable

/-! ## The accrued amount -/

section Accrued

variable {stream : StreamInfo} {now : Number}

theorem streamedTotalLocal_eq_payFor (hlive : stream.cancelled = false) :
    streamedTotalLocal stream now =
      stream.payFor ((stream.effectiveNow now).sub stream.startTime) := by
  rw [streamedTotalLocal_eq hlive]
  simp only [StreamInfo.accrued, StreamInfo.payFor]
  by_cases hlt : (stream.effectiveNow now).lt stream.startTime = true
  · rw [if_pos hlt, if_pos (Number.sub_le_zero_of_lt hlt)]
    rfl
  · rw [if_neg hlt]
    split_ifs with hle
    · rfl
    · cases bigIntOfNumber ((stream.effectiveNow now).sub stream.startTime) <;> rfl

/-- The instant is clamped to the end in either way of writing it. -/
theorem endClamped_eq_min : stream.endClamped now =
    if (Number.fin 0).lt stream.endTime then now.min stream.endTime else now := by
  unfold StreamInfo.endClamped
  cases hend : (Number.fin 0).lt stream.endTime with
  | false => rfl
  | true =>
    simp only [Bool.true_and, if_true]
    cases hstop : stream.endTime <;> cases now <;>
      simp_all [Number.min, Number.lt, Number.le]
    split_ifs <;> first | rfl | grind

theorem endClamped_lt {x : Number} (h : now.lt x = true) : (stream.endClamped now).lt x = true := by
  unfold StreamInfo.endClamped
  split_ifs with hend
  · rw [Bool.and_eq_true] at hend
    exact Number.lt_of_le_of_lt (Number.le_of_lt hend.2) h
  · exact h

theorem bigIntOfNumber_max (d : Number) :
    (bigIntOfNumber (Number.max (.fin 0) d)).map (fun seconds => stream.ratePerSecond * seconds) =
      stream.payFor d := by
  unfold StreamInfo.payFor
  split_ifs with hle
  · have hmax : Number.max (.fin 0) d = .fin (0 : ℤ) := by
      cases d <;> simp_all [Number.max, Number.le]
      intro h₀
      linarith
    rw [hmax, bigIntOfNumber, Number.toBigInt_intCast]
    show Except.ok (stream.ratePerSecond * 0) = _
    rw [mul_zero]
  · have hmax : Number.max (.fin 0) d = d := by
      cases d <;> simp_all [Number.max, Number.le]
      intro h₀
      linarith
    rw [hmax]

theorem calculateAccruedAmount_eq_payFor (hlive : stream.cancelled = false) :
    calculateAccruedAmount stream now =
      stream.payFor ((stream.endClamped now).sub stream.startTime) := by
  by_cases hlt : now.lt stream.startTime = true
  · rw [StreamInfo.payFor_of_le (Number.sub_le_zero_of_lt (endClamped_lt hlt)),
      calculateAccruedAmount, hlt]
    rfl
  · rw [← bigIntOfNumber_max, endClamped_eq_min, calculateAccruedAmount, hlive,
      Bool.eq_false_of_not_eq_true hlt]
    rfl

/-- **Two differences of whole seconds, of which the first is no smaller, pay the same** if the
first is not positive, if they are equal, or if nothing is paid for the seconds it counts. -/
theorem payFor_eq_iff {d d' : Number} (hd : d.Integral) (hd' : d'.Integral)
    (hnan : d ≠ .nan) (hle : d'.le d = true) : stream.payFor d = stream.payFor d' ↔
      d.le (.fin 0) = true ∨ d = d' ∨ (stream.ratePerSecond = 0 ∧ d.isFinite = true) := by
  by_cases hzero : d.le (.fin 0) = true
  · rw [StreamInfo.payFor_of_le hzero, StreamInfo.payFor_of_le (Number.le_trans hle hzero)]
    exact ⟨fun _ => .inl hzero, fun _ => rfl⟩
  cases d with
  | nan => exact absurd rfl hnan
  | negInf => exact absurd rfl hzero
  | posInf =>
    -- the payment throws, and so does the other one only if it is infinite as well
    have hthrow : ∀ total, stream.payFor .posInf ≠ .ok total := by
      rintro total ⟨⟩
    cases d' with
    | nan => cases hle
    | posInf => simp
    | negInf =>
      rw [StreamInfo.payFor_of_le (d := .negInf) rfl]
      simpa [Number.isFinite, Number.le] using hthrow 0
    | fin q =>
      obtain ⟨k, rfl⟩ := hd' q rfl
      have hok : ∃ total, stream.payFor (.fin k) = .ok total := by
        rcases le_total k 0 with h | h
        · exact ⟨0, StreamInfo.payFor_of_le (by simpa using h)⟩
        · exact ⟨_, StreamInfo.payFor_intCast h⟩
      obtain ⟨total, hok⟩ := hok
      rw [hok]
      simpa [Number.isFinite, Number.le] using hthrow total
  | fin q =>
    obtain ⟨k, rfl⟩ := hd q rfl
    have hk : 0 < k := by simpa using hzero
    rw [StreamInfo.payFor_intCast hk.le]
    by_cases hzero' : d'.le (.fin 0) = true
    · rw [StreamInfo.payFor_of_le hzero']
      have hne : Number.fin k ≠ d' := by
        rintro rfl
        exact hzero hzero'
      simp [hk, hk.ne', hne, Number.isFinite]
    · obtain ⟨k', rfl⟩ : ∃ k' : ℤ, d' = .fin k' := by
        cases d' with
        | fin q =>
          obtain ⟨k', rfl⟩ := hd' q rfl
          exact ⟨k', rfl⟩
        | nan | posInf => cases hle
        | negInf => exact absurd rfl hzero'
      rw [StreamInfo.payFor_intCast (not_le.mp (by simpa using hzero')).le]
      simp [hk, Number.isFinite]

/-- Clamping the clamped instant to the pause as well changes no pay: it was not later than the
start, both are as many seconds after it, or seconds are worth nothing. -/
def PausePaysAlike (stream : StreamInfo) (nowSec : Number) : Prop :=
  let stop := stream.endClamped nowSec
  stop.le stream.startTime = true ∨
    stop.sub stream.startTime = stream.pausedAt.sub stream.startTime ∨
    (stream.ratePerSecond = 0 ∧ (stop.sub stream.startTime).isFinite = true)

theorem endClamped_intCast (hs : stream.WholeTimes) (n : ℤ) :
    ∃ stop : ℤ, stream.endClamped (.fin n) = .fin stop := by
  obtain ⟨e, he⟩ := hs.endTime
  rw [StreamInfo.endClamped, he]
  split_ifs
  · exact ⟨e, rfl⟩
  · exact ⟨n, rfl⟩

theorem accruedAmount_eq_iff_of_whole (hs : stream.WholeTimes) (hlive : stream.cancelled = false)
    (n : ℤ) : calculateAccruedAmount stream (.fin n) = streamedTotalLocal stream (.fin n) ↔
      (stream.paused = true ∧ stream.pausedAt.lt (stream.endClamped (.fin n)) = true →
        PausePaysAlike stream (.fin n)) := by
  rw [calculateAccruedAmount_eq_payFor hlive, streamedTotalLocal_eq_payFor hlive,
    StreamInfo.effectiveNow_def, ← Bool.and_eq_true]
  unfold PausePaysAlike
  by_cases hpause : (stream.paused && stream.pausedAt.lt (stream.endClamped (.fin n))) = true
  · rw [if_pos hpause, forall_prop_of_true hpause]
    rw [Bool.and_eq_true] at hpause
    obtain ⟨s, hstart⟩ := hs.startTime
    obtain ⟨p, hp⟩ := hs.pausedAt
    obtain ⟨stop, hstop⟩ := endClamped_intCast hs n
    rw [hp, hstop] at hpause
    simp only [hstart, hp, hstop]
    have hle := Number.sub_le_sub (Number.le_of_lt hpause.2) s
    rw [payFor_eq_iff (Number.integral_sub stop s) (Number.integral_sub p s)
      (Number.sub_fin_ne_nan _ _) hle, Number.sub_le_zero_iff]
    simp
  · rw [if_neg hpause]
    simp [hpause]

/-- For whole timestamps of at most `2 ^ 53`: the pause must lie before the instant, which must lie
after the start, and the rate must not be zero. -/
theorem pausePaysAlike_iff {start pause stop : ℕ} {n : ℤ} (hstart : stream.startTime = .fin start)
    (hpause : stream.pausedAt = .fin pause) (hstop : stream.endClamped (.fin n) = .fin stop)
    (h₁ : start ≤ 2 ^ 53) (h₂ : pause ≤ 2 ^ 53) (h₃ : stop ≤ 2 ^ 53) (hlt : pause < stop) :
    PausePaysAlike stream (.fin n) ↔ ¬ (start < stop ∧ stream.ratePerSecond ≠ 0) := by
  have hexact (m : ℕ) (hm : m ≤ 2 ^ 53) :
      Number.sub (.fin m) (.fin start) = .fin ((m : ℤ) - start : ℤ) := by
    have : |(m : ℤ) - start| ≤ 2 ^ 53 := by
      rw [abs_le]
      omega
    exact_mod_cast Number.sub_intCast this
  have hne : Number.fin ((stop : ℤ) - start : ℤ) ≠ .fin ((pause : ℤ) - start : ℤ) := by
    intro heq
    have : (stop : ℤ) - start = pause - start := by exact_mod_cast Number.fin.inj heq
    omega
  simp only [PausePaysAlike, hstart, hpause, hstop, hexact stop h₃, hexact pause h₂, hne, false_or]
  simp [Number.isFinite, or_iff_not_imp_left]

/-- **When the accrued amount is the streamed total**: unless the stream is paused before the
instant, or its end, and that time is paid for. -/
theorem calculateAccruedAmount_eq_iff (hs : stream.WholeTimes) (hlive : stream.cancelled = false)
    (n : ℤ) :
    (calculateAccruedAmount stream (.fin n) = streamedTotalLocal stream (.fin n) ↔
      (stream.paused = true ∧ stream.pausedAt.lt (stream.endClamped (.fin n)) = true →
        PausePaysAlike stream (.fin n))) ∧
    ∀ start pause stop : ℕ, stream.startTime = .fin start → stream.pausedAt = .fin pause →
      stream.endClamped (.fin n) = .fin stop → start ≤ 2 ^ 53 → pause ≤ 2 ^ 53 → stop ≤ 2 ^ 53 →
      (calculateAccruedAmount stream (.fin n) = streamedTotalLocal stream (.fin n) ↔
        ¬ (stream.paused = true ∧ pause < stop ∧ start < stop ∧ stream.ratePerSecond ≠ 0)) := by
  have hiff := accruedAmount_eq_iff_of_whole hs hlive n
  refine ⟨hiff, ?_⟩
  intro start pause stop hstart hpause hstop h₁ h₂ h₃
  rw [hiff, hpause, hstop]
  simp only [Number.lt_fin, decide_eq_true_eq, Nat.cast_lt]
  by_cases hlt : pause < stop
  · rw [pausePaysAlike_iff hstart hpause hstop h₁ h₂ h₃ hlt]
    tauto
  · tauto

theorem hundredStream_wholeTimes (paused : Bool) (pause : ℤ) :
    StreamInfo.WholeTimes { hundredStream with paused := paused, pausedAt := .fin pause } :=
  ⟨⟨1000, rfl⟩, ⟨2000, rfl⟩, ⟨pause, rfl⟩⟩

theorem calculateAccruedAmount_eq_hundred :
    let stream := { hundredStream with paused := true, pausedAt := .fin 5000 }
    calculateAccruedAmount stream (.fin 3000) = streamedTotalLocal stream (.fin 3000) := by
  intro stream
  have hs := hundredStream_wholeTimes true 5000
  refine (calculateAccruedAmount_eq_iff (n := 3000) hs rfl).1.mpr ?_
  rintro ⟨-, hlt⟩
  have hno : Number.lt (.fin 5000) (stream.endClamped (.fin 3000)) = false := by decide
  exact absurd (hno.symm.trans hlt) Bool.false_ne_true

/-- Paused at half time, the accrued amount runs on to the end. -/
theorem calculateAccruedAmount_runs_on :
    let stream := { hundredStream with paused := true, pausedAt := .fin 1500 }
    stream.cancelled = false ∧ calculateAccruedAmount stream (.fin 3000) = .ok 100000 ∧
      streamedTotalLocal stream (.fin 3000) = .ok 50000 ∧
      ¬ calculateAccruedAmount stream (.fin 3000) = streamedTotalLocal stream (.fin 3000) := by
  intro stream
  have hpaid : calculateAccruedAmount stream (.fin 3000) = .ok 100000 := by
    have hsec : Number.sub (.fin 2000) (.fin 1000) = .fin (1000 : ℤ) := by
      exact_mod_cast Number.sub_intCast (a := 2000) (b := 1000) (by norm_num)
    rw [calculateAccruedAmount_eq_payFor rfl, show stream.endClamped (.fin 3000) = .fin 2000 by decide]
    exact (congrArg stream.payFor hsec).trans (StreamInfo.payFor_intCast (by norm_num))
  refine ⟨rfl, hpaid, streamedTotalLocal_half, ?_⟩
  rw [hpaid, streamedTotalLocal_half]
  decide

end Accrued

/-! ## The vested fraction -/

section Vested

variable {stream : StreamInfo}

/-- The quotient whose nearest double is the vested percentage. -/
def StreamInfo.vestedFraction (stream : StreamInfo) (now : Number) : ℚ :=
  if (stream.effectiveNow now).le stream.startTime then 0
  else
    match (stream.effectiveNow now).sub stream.startTime, stream.endTime.sub stream.startTime with
    | .fin elapsed, .fin totalSeconds => elapsed / totalSeconds
    | _, _ => 0

/-- A stream with an end is clamped to it in either way of writing it. -/
theorem calculateVestedPercentage_eq (hlive : stream.cancelled = false)
    (hpos : (Number.fin 0).lt stream.endTime = true)
    (hseconds : (stream.endTime.sub stream.startTime).le (.fin 0) = false) (now : Number) :
    calculateVestedPercentage stream now =
      if (stream.effectiveNow now).le stream.startTime then .fin 0
      else
        let ratio := ((stream.effectiveNow now).sub stream.startTime).div
          (stream.endTime.sub stream.startTime)
        if (Number.fin 1).lt ratio then .fin 1 else ratio := by
  have hend : stream.endTime.le (.fin 0) = false := by
    cases h : stream.endTime <;> simp_all [Number.lt, Number.le]
  simp only [calculateVestedPercentage, StreamInfo.effectiveNow, hlive, hend, hseconds, hpos,
    Bool.true_and, Bool.or_self, Bool.false_eq_true, if_false]

/-- **What the clamps leave of the schedule**: nothing, or whole seconds of which there are no more
than the schedule has. -/
theorem elapsed_cases (hs : stream.WholeTimes) (hpos : (Number.fin 0).lt stream.endTime = true)
    {seconds : ℤ} (hsec : stream.endTime.sub stream.startTime = .fin seconds) (n : ℤ) :
    (stream.effectiveNow (.fin n)).le stream.startTime = true ∨
      (stream.effectiveNow (.fin n)).le stream.startTime = false ∧
        ∃ elapsed : ℤ, (stream.effectiveNow (.fin n)).sub stream.startTime = .fin elapsed ∧
          0 < elapsed ∧ elapsed ≤ seconds := by
  obtain ⟨s, hstart⟩ := hs.startTime
  obtain ⟨m, hm⟩ := StreamInfo.effectiveNow_intCast hs n
  have hmax := StreamInfo.effectiveNow_le_endTime hs hpos (by simp : Number.fin n ≠ .nan)
  have hsub := Number.sub_le_sub hmax s
  rw [← hstart, hsec] at hsub
  rw [hm, hstart] at hsub ⊢
  cases hle : (Number.fin m).le (.fin s) with
  | true => exact .inl rfl
  | false =>
    refine .inr ⟨rfl, ?_⟩
    have hlate : ¬ (Number.sub (.fin m) (.fin s)).le (.fin 0) = true := by
      rw [Number.sub_le_zero_iff]
      simpa using hle
    have hint := Number.integral_sub m s
    cases hx : Number.sub (.fin m) (.fin s) with
    | nan => exact absurd hx (Number.sub_fin_ne_nan _ _)
    | negInf => exact absurd (by rw [hx]; rfl) hlate
    | posInf =>
      rw [hx] at hsub
      cases hsub
    | fin q =>
      obtain ⟨elapsed, rfl⟩ := hint q hx
      rw [hx] at hlate hsub
      exact ⟨elapsed, rfl, by simpa using hlate, by simpa using hsub⟩

/-- **The vested fraction and the streamed total agree**, for any rate, paused or not. With
`seconds` for `endTime - startTime`, which is the integer difference whenever that is at most
`2 ^ 53`. -/
theorem vestedFraction_mul (hs : stream.WholeTimes) (hlive : stream.cancelled = false)
    (hlt : stream.startTime.lt stream.endTime = true)
    (hpos : (Number.fin 0).lt stream.endTime = true) {seconds : ℤ}
    (hsec : stream.endTime.sub stream.startTime = .fin seconds) (n : ℤ) :
    calculateVestedPercentage stream (.fin n) = Number.ofRat (stream.vestedFraction (.fin n)) ∧
      0 ≤ stream.vestedFraction (.fin n) ∧ stream.vestedFraction (.fin n) ≤ 1 ∧
      (∃ total, streamedTotalLocal stream (.fin n) = .ok total ∧
        stream.vestedFraction (.fin n) * (stream.ratePerSecond * seconds) = total) ∧
      ∀ start stop : ℤ, stream.startTime = .fin start → stream.endTime = .fin stop →
        |stop - start| ≤ 2 ^ 53 → seconds = stop - start := by
  have hpositive : 0 < seconds := by
    obtain ⟨s, hstart⟩ := hs.startTime
    obtain ⟨e, he⟩ := hs.endTime
    have hno : ¬ (stream.endTime.sub stream.startTime).le (.fin 0) = true := by
      rw [hstart, he, Number.sub_le_zero_iff, not_le]
      rw [hstart, he] at hlt
      simpa using hlt
    rw [hsec] at hno
    simpa using hno
  have hseconds : (stream.endTime.sub stream.startTime).le (.fin 0) = false := by
    rw [hsec]
    simpa using hpositive
  rw [calculateVestedPercentage_eq hlive hpos hseconds, streamedTotalLocal_eq_payFor hlive]
  have hexact (start stop : ℤ) (hstart : stream.startTime = .fin start)
      (hstop : stream.endTime = .fin stop) (h : |stop - start| ≤ 2 ^ 53) :
      seconds = stop - start := by
    rw [hstart, hstop, Number.sub_intCast h] at hsec
    exact_mod_cast (Number.fin.inj hsec).symm
  rcases elapsed_cases hs hpos hsec n with hearly | ⟨hlate, elapsed, helapsed, hgt, hmax⟩
  · have hfraction : stream.vestedFraction (.fin n) = 0 := if_pos hearly
    rw [if_pos hearly, hfraction, Number.ofRat_zero]
    refine ⟨rfl, le_rfl, zero_le_one, ⟨0, ?_, by simp⟩, hexact⟩
    apply StreamInfo.payFor_of_le
    obtain ⟨s, hstart⟩ := hs.startTime
    obtain ⟨m, hm⟩ := StreamInfo.effectiveNow_intCast hs n
    rw [hm, hstart] at hearly ⊢
    rw [Number.sub_le_zero_iff]
    simpa using hearly
  · have hsecQ : (0 : ℚ) < seconds := by exact_mod_cast hpositive
    have hfraction : stream.vestedFraction (.fin n) = elapsed / seconds := by
      simp only [StreamInfo.vestedFraction, hlate, helapsed, hsec, Bool.false_eq_true, if_false]
    have hle : (elapsed : ℚ) / seconds ≤ 1 := by
      rw [div_le_one hsecQ]
      exact_mod_cast hmax
    have hdiv : Number.div (.fin elapsed) (.fin seconds) = Number.ofRat (elapsed / seconds) := by
      rw [Number.div, if_pos hsecQ.ne']
    rw [hlate, hfraction, helapsed, hsec, hdiv]
    refine ⟨?_, ?_, hle, ⟨stream.ratePerSecond * elapsed, StreamInfo.payFor_intCast hgt.le, ?_⟩, hexact⟩
    · -- the quotient is at most `1`, and so is the nearest double
      have hone : (Number.ofRat (elapsed / seconds)).le (.fin 1) = true := by
        apply Number.ofRat_le_fin _ hle
        exact_mod_cast Number.isDouble_intCast (n := 1) (by norm_num)
      have hno : (Number.fin 1).lt (Number.ofRat (elapsed / seconds)) = false := by
        cases h : Number.ofRat ((elapsed : ℚ) / seconds) <;> simp_all [Number.lt, Number.le]
      simp [hno]
    · have : (0 : ℚ) ≤ elapsed := by exact_mod_cast hgt.le
      positivity
    · push_cast
      field_simp

theorem vestedFraction_mul_hundred :
    let stream := { hundredStream with paused := true, pausedAt := .fin 1250 }
    calculateVestedPercentage stream (.fin 3000) = .fin (1 / 4) ∧
      ∃ total, streamedTotalLocal stream (.fin 3000) = .ok total ∧
        stream.vestedFraction (.fin 3000) * (stream.ratePerSecond * 1000) = total := by
  intro stream
  have hs : stream.WholeTimes := hundredStream_wholeTimes true 1250
  have hsec : stream.endTime.sub stream.startTime = .fin (1000 : ℤ) := by
    exact_mod_cast Number.sub_intCast (a := 2000) (b := 1000) (by norm_num)
  have hlaws := vestedFraction_mul hs rfl (by decide) (by decide) hsec 3000
  refine ⟨by decide +kernel, ?_⟩
  exact_mod_cast hlaws.2.2.2.1

end Vested

end StreamFi
