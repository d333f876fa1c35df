import StreamFi.Stream.Balance

/-!
# The status of a stream

`streamStatus` calls a stream completed once `endTime` has passed; the balances freeze at a pause
that came before.

* `accrualStop`: where a completed stream stopped accruing;
* `FullyStreamed`: both balances are those of the whole schedule;
* **`completed_fullyStreamed_iff`**: when a completed stream has fully streamed.
-/

namespace StreamFi

open Js

inductive StreamStatus where
  | active
  | paused
  | completed
  | cancelled
  deriving DecidableEq

def streamStatus (stream : StreamInfo) (nowSec : Number) : StreamStatus :=
  if stream.cancelled then .cancelled
  else if stream.endTime ≠ .fin 0 && stream.endTime.le nowSec then .completed
  else if stream.paused then .paused
  else .active

/-- Both balances are those of the whole schedule. -/
def FullyStreamed (stream : StreamInfo) (nowSec : Number) : Prop :=
  ∃ seconds, (stream.endTime.sub stream.startTime).toBigInt = some seconds ∧
    streamedTotalLocal stream nowSec = .ok (stream.ratePerSecond * seconds) ∧
    withdrawableLocal stream nowSec =
      .ok (max 0 (stream.ratePerSecond * seconds - stream.withdrawn))

/-- The end, or the present when the end is not after the epoch, but no later than the pause. -/
def StreamInfo.accrualStop (stream : StreamInfo) (nowSec : Number) : Number :=
  let stop := if (Number.fin 0).lt stream.endTime then stream.endTime else nowSec
  if stream.paused && stream.pausedAt.lt stop then stream.pausedAt else stop

/-- The seconds until the accrual stops are those of the whole schedule, or no seconds are paid
for. -/
def AccruesToEnd (stream : StreamInfo) (nowSec : Number) : Prop :=
  let stop := stream.accrualStop nowSec
  ∃ seconds : ℤ, stream.endTime.sub stream.startTime = .fin seconds ∧
    ((0 < seconds ∧ stop.sub stream.startTime = .fin seconds) ∨
      (stream.ratePerSecond * seconds = 0 ∧
        (((stop.lt stream.startTime = true ∨ (stop.sub stream.startTime).le (.fin 0) = true) ∧
            0 ≤ stream.withdrawn) ∨
          ∃ elapsed : ℤ, 0 < elapsed ∧ stop.lt stream.startTime = false ∧
            stop.sub stream.startTime = .fin elapsed ∧ stream.ratePerSecond * elapsed = 0)))

section Completed

variable {stream : StreamInfo} {nowSec : Number}

theorem completed_iff : streamStatus stream nowSec = .completed ↔
    stream.cancelled = false ∧ stream.endTime ≠ .fin 0 ∧ stream.endTime.le nowSec = true := by
  unfold streamStatus
  split_ifs with h₁ h₂ h₃ <;> simp_all

/-- Once the end has passed, the clamps stop at the end or at the pause. -/
theorem effectiveNow_of_ended (h : stream.endTime.le nowSec = true) :
    stream.effectiveNow nowSec = stream.accrualStop nowSec := by
  have hstop : (if (Number.fin 0).lt stream.endTime && stream.endTime.lt nowSec then stream.endTime
      else nowSec) = if (Number.fin 0).lt stream.endTime then stream.endTime else nowSec := by
    cases hend : (Number.fin 0).lt stream.endTime with
    | false => rfl
    | true =>
      simp only [Bool.true_and, if_true]
      split_ifs with hlt
      · rfl
      · exact (Number.eq_of_le_of_not_lt h (by simpa using hlt)).symm
  simp only [StreamInfo.effectiveNow, StreamInfo.accrualStop, hstop]

theorem availableOf_some (withdrawn x : ℤ) : availableOf withdrawn (some x) = max 0 (x - withdrawn) := by
  show (if 0 < x - withdrawn then x - withdrawn else 0) = _
  split_ifs <;> omega

/-- Full streaming, by what has accrued. -/
theorem fullyStreamed_iff (hlive : stream.cancelled = false) : FullyStreamed stream nowSec ↔
    ∃ (seconds : ℤ) (streamed : Option ℤ), stream.endTime.sub stream.startTime = .fin seconds ∧
      stream.accrued nowSec = .ok streamed ∧ streamed.getD 0 = stream.ratePerSecond * seconds ∧
      availableOf stream.withdrawn streamed =
        max 0 (stream.ratePerSecond * seconds - stream.withdrawn) := by
  constructor
  · rintro ⟨seconds, hsec, htotal, havail⟩
    obtain ⟨streamed, hx, hval⟩ := (streamedTotalLocal_ok_iff hlive).mp htotal
    rw [withdrawableLocal, availableAt_eq hlive, hx] at havail
    exact ⟨seconds, streamed, Number.eq_of_toBigInt hsec, hx, hval, Except.ok.inj havail⟩
  · rintro ⟨seconds, streamed, hsec, hx, hval, havail⟩
    refine ⟨seconds, by rw [hsec, Number.toBigInt_intCast], ?_, ?_⟩
    · exact (streamedTotalLocal_ok_iff hlive).mpr ⟨streamed, hx, hval⟩
    · rw [withdrawableLocal, availableAt_eq hlive, hx]
      exact congrArg Except.ok havail

/-- **A stream that has ended has fully streamed** exactly when it accrued to the end. -/
theorem fullyStreamed_iff_accruesToEnd (hlive : stream.cancelled = false)
    (hended : stream.endTime.le nowSec = true) :
    FullyStreamed stream nowSec ↔ AccruesToEnd stream nowSec := by
  rw [fullyStreamed_iff hlive]
  simp only [AccruesToEnd, ← effectiveNow_of_ended hended, StreamInfo.accrued_iff]
  constructor
  · rintro ⟨seconds, streamed, hsec, hx, hval, havail⟩
    refine ⟨seconds, hsec, ?_⟩
    rcases hx with ⟨rfl, hearly⟩ | ⟨elapsed, rfl, hpos, hlt, helapsed⟩
    · -- nothing was paid
      have hzero : stream.ratePerSecond * seconds = 0 := hval.symm
      have havail : (0 : ℤ) = max 0 (stream.ratePerSecond * seconds - stream.withdrawn) := havail
      exact .inr ⟨hzero, .inl ⟨hearly, by omega⟩⟩
    · have hval : stream.ratePerSecond * elapsed = stream.ratePerSecond * seconds := hval
      by_cases hrate : stream.ratePerSecond = 0
      · exact .inr ⟨by rw [hrate, zero_mul], .inr ⟨elapsed, hpos, hlt, helapsed, by
          rw [hrate, zero_mul]⟩⟩
      · obtain rfl := mul_left_cancel₀ hrate hval
        exact .inl ⟨hpos, helapsed⟩
  · rintro ⟨seconds, hsec, ⟨hpos, helapsed⟩ | ⟨hzero, ⟨hearly, h₀⟩ | ⟨elapsed, hpos, hlt, helapsed, hval⟩⟩⟩
    · refine ⟨seconds, some (stream.ratePerSecond * seconds), hsec, .inr ⟨seconds, rfl, hpos, ?_, helapsed⟩,
        rfl, availableOf_some _ _⟩
      -- had it stopped before the start, the difference would not be positive
      by_contra hlt
      have hle := Number.sub_le_zero_of_lt (Bool.eq_true_of_not_eq_false hlt)
      rw [helapsed] at hle
      simp only [Number.le_fin, decide_eq_true_eq] at hle
      exact absurd (by exact_mod_cast hle) (not_le.mpr hpos)
    · refine ⟨seconds, none, hsec, .inl ⟨rfl, hearly⟩, hzero.symm, ?_⟩
      show (0 : ℤ) = _
      omega
    · refine ⟨seconds, some (stream.ratePerSecond * elapsed), hsec,
        .inr ⟨elapsed, rfl, hpos, hlt, helapsed⟩, ?_, ?_⟩
      · show stream.ratePerSecond * elapsed = _
        rw [hval, hzero]
      · rw [availableOf_some, hval, hzero]

/-- For whole timestamps and a positive rate: unless it was paused before the end. -/
theorem accruesToEnd_iff {start stop pause : ℕ} (hstart : stream.startTime = .fin start)
    (hstop : stream.endTime = .fin stop) (hpause : stream.pausedAt = .fin pause)
    (hlt : start < stop) (hs : stop ≤ 2 ^ 53) (hrate : 0 < stream.ratePerSecond) :
    AccruesToEnd stream nowSec ↔ ¬ (stream.paused = true ∧ pause < stop) := by
  have hexact (n : ℕ) (hn : n ≤ 2 ^ 53) :
      Number.sub (.fin n) (.fin start) = .fin ((n : ℤ) - start : ℤ) := by
    have : |(n : ℤ) - start| ≤ 2 ^ 53 := by
      rw [abs_le]
      omega
    exact_mod_cast Number.sub_intCast this
  have hfin {m n : ℤ} (h : Number.fin m = .fin n) : m = n := by
    exact_mod_cast Number.fin.inj h
  have hend : (Number.fin 0).lt (.fin stop) = true := by
    have : (0 : ℚ) < stop := by exact_mod_cast (Nat.zero_le start).trans_lt hlt
    simpa using this
  have hwhole : stream.endTime.sub stream.startTime = .fin ((stop : ℤ) - start : ℤ) := by
    rw [hstart, hstop]
    exact hexact stop hs
  have hpaid : stream.ratePerSecond * ((stop : ℤ) - start) ≠ 0 :=
    mul_ne_zero hrate.ne' (by omega)
  constructor
  · rintro ⟨seconds, hsec, hcase⟩ ⟨hpaused, hbefore⟩
    obtain rfl := hfin (hwhole.symm.trans hsec)
    have hpauseStop : stream.accrualStop nowSec = .fin pause := by
      have : (pause : ℚ) < stop := by exact_mod_cast hbefore
      simp [StreamInfo.accrualStop, hstop, hend, hpaused, hpause, this]
    rcases hcase with ⟨-, helapsed⟩ | ⟨hzero, -⟩
    · rw [hpauseStop, hstart, hexact pause (hbefore.le.trans hs)] at helapsed
      have := hfin helapsed
      omega
    · exact hpaid hzero
  · intro hno
    have hendStop : stream.accrualStop nowSec = .fin stop := by
      simp only [StreamInfo.accrualStop, hstop, hend, hpause, if_true]
      rw [if_neg]
      simpa using hno
    refine ⟨(stop : ℤ) - start, hwhole, .inl ⟨by omega, ?_⟩⟩
    rw [hendStop, hstart]
    exact hexact stop hs

/-- **When a completed stream has fully streamed**: exactly when it accrued to its end, which for
whole timestamps and a positive rate means that it was not paused before the end. -/
theorem completed_fullyStreamed_iff (hlt : stream.startTime.lt stream.endTime = true)
    (hstatus : streamStatus stream nowSec = .completed) :
    (FullyStreamed stream nowSec ↔ AccruesToEnd stream nowSec) ∧
      ∀ start stop pause : ℕ, stream.startTime = .fin start → stream.endTime = .fin stop →
        stream.pausedAt = .fin pause → stop ≤ 2 ^ 53 → 0 < stream.ratePerSecond →
        (FullyStreamed stream nowSec ↔ ¬ (stream.paused = true ∧ pause < stop)) := by
  obtain ⟨hlive, -, hended⟩ := completed_iff.mp hstatus
  have hiff := fullyStreamed_iff_accruesToEnd hlive hended
  refine ⟨hiff, ?_⟩
  intro start stop pause hstart hstop hpause hs hrate
  rw [hstart, hstop] at hlt
  rw [hiff]
  exact accruesToEnd_iff hstart hstop hpause (by simpa using hlt) hs hrate

end Completed

theorem completed_fullyStreamed_hundred : streamStatus hundredStream (.fin 3000) = .completed ∧
    FullyStreamed hundredStream (.fin 3000) := by
  have hc : streamStatus hundredStream (.fin 3000) = .completed := by decide
  refine ⟨hc, ?_⟩
  apply ((completed_fullyStreamed_iff (by decide) hc).2 1000 2000 0 (by simp [hundredStream])
    (by simp [hundredStream]) (by simp [hundredStream]) (by norm_num) (by decide)).mpr
  simp [hundredStream]

/-- A pause at half time stops it. -/
theorem streamedTotalLocal_half :
    streamedTotalLocal { hundredStream with paused := true, pausedAt := .fin 1500 } (.fin 3000) = .ok 50000 :=
  streamedTotalLocal_seconds rfl 1000 1500 rfl (by decide) (by norm_num) (by norm_num)

/-- Paused at half time, with the end passed: completed, and half of it streamed. -/
theorem completed_half_streamed :
    let stream := { hundredStream with paused := true, pausedAt := .fin 1500 }
    stream.startTime.lt stream.endTime = true ∧
      streamStatus stream (.fin 3000) = .completed ∧
      streamedTotalLocal stream (.fin 3000) = .ok 50000 ∧
      ¬ FullyStreamed stream (.fin 3000) := by
  refine ⟨by decide, by decide, streamedTotalLocal_half, ?_⟩
  rintro ⟨seconds, hsec, htotal, -⟩
  have hsec' : Number.sub (.fin 2000) (.fin 1000) = .fin (1000 : ℤ) := by
    exact_mod_cast Number.sub_intCast (a := 2000) (b := 1000) (by norm_num)
  have hseconds : seconds = 1000 := by
    have htoBigInt := (congrArg Number.toBigInt hsec').trans (Number.toBigInt_intCast 1000)
    exact Option.some.inj (hsec.symm.trans htoBigInt)
  have hpay := Except.ok.inj (htotal.symm.trans streamedTotalLocal_half)
  rw [hseconds] at hpay
  exact absurd hpay (by decide)

end StreamFi
