import StreamFi.Amount
import StreamFi.Js.Numeral
import StreamFi.Js.Quotient

/-!
# Stroops and their spelling

`fromStroops` writes stroops as a display amount; `toStroops` reads one.

* `fromStroops`: the code; `Canonical`: the spelling it writes;
* **`fromStroops_roundtrip`**: what is written is read back, canonical, and written again alike;
* `DecimalNumeral`, `StroopsLaw`: the amounts, and what reading one should give;
* **`stroopsLaw_iff`**: for which amounts and decimals it does.
-/

namespace StreamFi

open Js

/-! ## The code -/

/-- `s.padStart(length, '0')`. -/
def padStart (cs : List Char) (length : ℕ) : List Char :=
  List.replicate (length - cs.length) '0' ++ cs

/-- The end of the fraction, from `stop` down to the first digit. -/
def fractionEnd (frac : List Char) : ℕ → ℕ
  | stop + 2 => if frac[stop + 1]? = some '0' then fractionEnd frac (stop + 1) else stop + 2
  | stop => stop

def fromStroops (stroops : ℤ) (decimals : ℕ) : Except Thrown String := do
  let neg := decide (stroops < 0)
  let abs := if neg then -stroops else stroops
  let factor ← pow10 decimals
  let whole := abs.tdiv factor
  let rem := abs.tmod factor
  let frac := padStart (toString rem).toList decimals
  let trimmed := frac.take (fractionEnd frac frac.length)
  return String.ofList ((if neg then ['-'] else []) ++ (toString whole).toList ++ '.' :: trimmed)

/-- Digits around a point: no zero before others, and after the point no zero behind others. -/
def Canonical (amount : String) : Prop :=
  ∃ whole frac, amount.toList = whole ++ '.' :: frac ∧ AllDigits whole ∧ AllDigits frac ∧
    whole ≠ [] ∧ frac ≠ [] ∧ (whole.head? = some '0' → whole = ['0']) ∧
    (frac.getLast? = some '0' → frac.length = 1)

/-! ## The fraction -/

section Fraction

variable {frac : List Char} {stop : ℕ}

theorem fractionEnd_le (frac : List Char) (stop : ℕ) : fractionEnd frac stop ≤ stop := by
  fun_induction fractionEnd frac stop with
  | case1 stop h ih => omega
  | case2 stop h => exact le_rfl
  | case3 stop h => exact le_rfl

theorem fractionEnd_pos (h : 0 < stop) : 0 < fractionEnd frac stop := by
  fun_induction fractionEnd frac stop with
  | case1 stop h' ih => exact ih (Nat.succ_pos stop)
  | case2 stop h' => exact Nat.succ_pos _
  | case3 stop h' => exact h

/-- **What is cut off are zeros.** -/
theorem take_fractionEnd (h : stop ≤ frac.length) :
    ∃ k, frac.take stop = frac.take (fractionEnd frac stop) ++ List.replicate k '0' := by
  fun_induction fractionEnd frac stop with
  | case1 stop hzero ih =>
    obtain ⟨k, hk⟩ := ih (by omega)
    refine ⟨k + 1, ?_⟩
    rw [List.take_add_one, hzero, Option.toList_some, hk, List.replicate_succ', List.append_assoc]
  | case2 stop hzero => exact ⟨0, (List.append_nil _).symm⟩
  | case3 stop hzero => exact ⟨0, (List.append_nil _).symm⟩

/-- A last digit that is a zero is the only one. -/
theorem getElem_fractionEnd (h : frac[fractionEnd frac stop - 1]? = some '0') :
    fractionEnd frac stop ≤ 1 := by
  fun_induction fractionEnd frac stop with
  | case1 stop hzero ih => exact ih h
  | case2 stop hzero => exact absurd h hzero
  | case3 stop hsmall =>
    rcases stop with _ | _ | stop
    · omega
    · omega
    · exact absurd rfl (hsmall stop)

end Fraction

/-! ## Digits -/

theorem digitsValue_toDigits (n : ℕ) : digitsValue (Nat.toDigits 10 n) = n :=
  Nat.ofDigitChars_ten_toDigits

theorem digitsValue_padStart (cs : List Char) (length : ℕ) :
    digitsValue (padStart cs length) = digitsValue cs := by
  have hzeros : digitsValue (List.replicate (length - cs.length) '0') = 0 := by
    rw [digitsValue, Nat.ofDigitChars_replicate_zero, mul_zero]
  rw [padStart, digitsValue_append, hzeros, zero_mul, zero_add]

theorem length_padStart (cs : List Char) (length : ℕ) :
    (padStart cs length).length = max length cs.length := by
  rw [padStart, List.length_append, List.length_replicate]
  omega

theorem allDigits_append {cs ds : List Char} (h : AllDigits cs) (h' : AllDigits ds) :
    AllDigits (cs ++ ds) := by
  intro c hc
  rcases List.mem_append.mp hc with hc | hc
  · exact h c hc
  · exact h' c hc

theorem allDigits_padStart {cs : List Char} (h : AllDigits cs) (length : ℕ) :
    AllDigits (padStart cs length) := by
  apply allDigits_append _ h
  intro c hc
  rw [List.eq_of_mem_replicate hc]
  rfl

theorem allDigits_take {cs : List Char} (h : AllDigits cs) (k : ℕ) : AllDigits (cs.take k) :=
  fun c hc => h c (List.mem_of_mem_take hc)

/-! ## What is written -/

section Written

variable {d : ℕ}

/-- The digits behind the point. -/
def writtenFraction (n d : ℕ) : List Char :=
  let frac := padStart (Nat.toDigits 10 (n % 10 ^ d)) d
  frac.take (fractionEnd frac frac.length)

def written (n d : ℕ) : List Char := Nat.toDigits 10 (n / 10 ^ d) ++ '.' :: writtenFraction n d

theorem toList_toString_natCast (n : ℕ) : (toString (n : ℤ)).toList = Nat.toDigits 10 n :=
  Nat.toList_repr

theorem fromStroops_natCast (n : ℕ) (hd : d < 20) :
    fromStroops n d = .ok (String.ofList (written n d)) := by
  have hpow : pow10 d = .ok ((10 ^ d : ℕ) : ℤ) := by
    rw [Nat.cast_pow]
    exact if_pos hd
  have hneg : decide ((n : ℤ) < 0) = false := by simp
  simp only [fromStroops, hneg, hpow, ok_seq, Bool.false_eq_true, if_false, List.nil_append]
  rw [Int.tdiv_eq_ediv_of_nonneg (Int.natCast_nonneg n), Int.tmod_eq_emod_of_nonneg (Int.natCast_nonneg n),
    ← Int.natCast_ediv, ← Int.natCast_emod, toList_toString_natCast, toList_toString_natCast]
  rfl

theorem allDigits_writtenFraction (n d : ℕ) : AllDigits (writtenFraction n d) :=
  allDigits_take (allDigits_padStart (allDigits_toDigits _) d) _

/-- The digits and the place of the last one give the remainder. -/
theorem writtenFraction_value (n d : ℕ) :
    (digitsValue (writtenFraction n d) : ℚ) / 10 ^ (writtenFraction n d).length =
      (n % 10 ^ d : ℕ) / 10 ^ d := by
  set frac := padStart (Nat.toDigits 10 (n % 10 ^ d)) d with hfrac
  obtain ⟨k, hk⟩ := take_fractionEnd (le_refl frac.length)
  rw [List.take_length] at hk
  have hlen : frac.length = (writtenFraction n d).length + k := by
    conv_lhs => rw [hk]
    rw [List.length_append, List.length_replicate]
    rfl
  have hvalue : digitsValue frac = digitsValue (writtenFraction n d) * 10 ^ k := by
    conv_lhs => rw [hk]
    exact digitsValue_zeros _ k
  -- without decimals the remainder is zero, and its only digit is kept
  have hplace : ((n % 10 ^ d : ℕ) : ℚ) / 10 ^ frac.length = (n % 10 ^ d : ℕ) / 10 ^ d := by
    rcases Nat.eq_zero_or_pos d with rfl | hd
    · simp [Nat.mod_one]
    · have hlt : n % 10 ^ d < 10 ^ d := Nat.mod_lt _ (by positivity)
      have hdigits := (Nat.length_toDigits_le_iff (by norm_num : 1 < 10) hd).mpr hlt
      rw [hfrac, length_padStart, max_eq_left hdigits]
  have hrem : ((n % 10 ^ d : ℕ) : ℚ) = digitsValue frac := by
    rw [hfrac, digitsValue_padStart, digitsValue_toDigits]
  rw [← hplace, hrem, hvalue, hlen, pow_add]
  push_cast
  field_simp

theorem written_parts (n d : ℕ) : wholePart (written n d) = Nat.toDigits 10 (n / 10 ^ d) ∧
    fracPart (written n d) = writtenFraction n d := by
  have hdigits := allDigits_toDigits (n / 10 ^ d)
  have hne : ∀ c ∈ Nat.toDigits 10 (n / 10 ^ d), decide (c ≠ '.') = true := by
    intro c hc
    have : c ≠ '.' := by
      rintro rfl
      cases hdigits _ hc
    simpa using this
  constructor
  · rw [wholePart, written, List.takeWhile_append_of_pos hne, List.takeWhile_cons_of_neg (by simp),
      List.append_nil]
  · rw [fracPart, written, List.dropWhile_append_of_pos hne, List.dropWhile_cons_of_neg (by simp)]
    rfl

theorem amountFormat_written (n d : ℕ) : AmountFormat (String.ofList (written n d)) := by
  obtain ⟨hwhole, hfrac⟩ := written_parts n d
  have hne (s : String) (hs : wholePart s.toList = []) : String.ofList (written n d) ≠ s := by
    rintro rfl
    rw [String.toList_ofList, hwhole] at hs
    exact Nat.toDigits_ne_nil hs
  rw [AmountFormat, String.toList_ofList, hwhole, hfrac]
  exact ⟨allDigits_toDigits _, allDigits_writtenFraction n d, hne "." (by decide), hne "" (by decide)⟩

theorem amountValue_written (n d : ℕ) :
    amountValue (String.ofList (written n d)) * 10 ^ d = (n : ℚ) := by
  obtain ⟨hwhole, hfrac⟩ := written_parts n d
  rw [amountValue, String.toList_ofList, hwhole, hfrac, writtenFraction_value, digitsValue_toDigits,
    add_mul, div_mul_cancel₀ _ (by positivity)]
  exact_mod_cast Nat.div_add_mod' n (10 ^ d)

theorem toStroops_written (n : ℕ) (hd : d < 20) :
    toStroops (String.ofList (written n d)) d = .ok (n : ℤ) := by
  rw [toStroops_eq_round (amountFormat_written n d) hd, amountValue_written, round_natCast]

theorem canonical_written (n d : ℕ) : Canonical (String.ofList (written n d)) := by
  have hpos : 0 < (padStart (Nat.toDigits 10 (n % 10 ^ d)) d).length := by
    rw [length_padStart]
    exact lt_max_of_lt_right Nat.length_toDigits_pos
  have hlen : (writtenFraction n d).length = fractionEnd (padStart (Nat.toDigits 10 (n % 10 ^ d)) d)
      (padStart (Nat.toDigits 10 (n % 10 ^ d)) d).length := by
    rw [writtenFraction, List.length_take]
    exact Nat.min_eq_left (fractionEnd_le _ _)
  have hend : 0 < fractionEnd (padStart (Nat.toDigits 10 (n % 10 ^ d)) d) _ := fractionEnd_pos hpos
  refine ⟨_, _, String.toList_ofList, allDigits_toDigits _, allDigits_writtenFraction n d,
    Nat.toDigits_ne_nil, ?_, head_toDigits, ?_⟩
  · rw [← List.length_pos_iff, hlen]
    exact hend
  · intro hlast
    rw [List.getLast?_eq_getElem?, hlen, writtenFraction, List.getElem?_take_of_lt (by omega)] at hlast
    have := getElem_fractionEnd hlast
    omega

end Written

/-- **Writing and reading stroops**, with at most 19 decimals. Stroops that are written are read
back. The stroops read from any amount are written canonically, and a spelling so written is
written again for what is read from it. -/
theorem fromStroops_roundtrip {d : ℕ} (hd : d ≤ 19) :
    (∀ n : ℤ, 0 ≤ n → ∃ amount, fromStroops n d = .ok amount ∧ toStroops amount d = .ok n) ∧
      ∀ amount n, toStroops amount d = .ok n → ∃ spelling, fromStroops n d = .ok spelling ∧
        Canonical spelling ∧
        (do
          let n ← toStroops spelling d
          fromStroops n d) = .ok spelling := by
  have hd : d < 20 := by omega
  constructor
  · intro n hn
    lift n to ℕ using hn
    exact ⟨_, fromStroops_natCast n hd, toStroops_written n hd⟩
  · intro amount n hread
    lift n to ℕ using toStroops_nonneg hread
    refine ⟨_, fromStroops_natCast n hd, canonical_written n d, ?_⟩
    rw [toStroops_written n hd]
    exact fromStroops_natCast n hd

theorem fromStroops_roundtrip_seven :
    (∃ amount, fromStroops 15000000 7 = .ok amount ∧ toStroops amount 7 = .ok 15000000) ∧
      fromStroops 15000000 7 = .ok "1.5" ∧
      ∃ spelling, fromStroops 15000000 7 = .ok spelling ∧ Canonical spelling := by
  have hlaws := fromStroops_roundtrip (d := 7) (by norm_num)
  refine ⟨hlaws.1 15000000 (by norm_num), by decide, ?_⟩
  obtain ⟨spelling, hs, hc, -⟩ := hlaws.2 "001.500" 15000000 (by decide)
  exact ⟨spelling, hs, hc⟩

/-! ## The amounts that are read -/

/-- Digits with at most one point and at least one digit. -/
def DecimalNumeral (amount : String) : Prop :=
  (∀ c ∈ amount.toList, c.isDigit = true ∨ c = '.') ∧ amount.toList.count '.' ≤ 1 ∧
    ∃ c ∈ amount.toList, c.isDigit = true

theorem count_point_of_allDigits {cs : List Char} (h : AllDigits cs) : cs.count '.' = 0 := by
  rw [List.count_eq_zero]
  intro hmem
  cases h _ hmem

/-- An amount is its whole part, alone or with a point and the fraction. -/
theorem parts_cases (cs : List Char) : cs = wholePart cs ∧ fracPart cs = [] ∨
    cs = wholePart cs ++ '.' :: fracPart cs := by
  have happend := List.takeWhile_append_dropWhile (p := fun c : Char => decide (c ≠ '.')) (l := cs)
  rw [wholePart, fracPart]
  cases hrest : cs.dropWhile fun c : Char => decide (c ≠ '.') with
  | nil =>
    rw [hrest, List.append_nil] at happend
    exact .inl ⟨happend.symm, rfl⟩
  | cons c rest =>
    have hpoint : c = '.' := by
      have hnot := List.head?_dropWhile_not (fun c : Char => decide (c ≠ '.')) cs
      rw [hrest] at hnot
      simpa using hnot
    rw [hrest, hpoint] at happend
    exact .inr happend.symm

/-- **The format that is tested**, in terms of the characters. -/
theorem amountFormat_iff {amount : String} : AmountFormat amount ↔ DecimalNumeral amount := by
  constructor
  · rintro ⟨hw, hf, hdot, hne⟩
    rcases parts_cases amount.toList with ⟨hcs, -⟩ | hcs
    · rw [← hcs] at hw
      refine ⟨fun c hc => .inl (hw c hc), by rw [count_point_of_allDigits hw]; exact Nat.zero_le _, ?_⟩
      obtain ⟨c, hc⟩ := List.exists_mem_of_ne_nil amount.toList (by simpa using hne)
      exact ⟨c, hc, hw c hc⟩
    · refine ⟨?_, ?_, ?_⟩
      · intro c hc
        rw [hcs, List.mem_append, List.mem_cons] at hc
        rcases hc with hc | rfl | hc
        · exact .inl (hw c hc)
        · exact .inr rfl
        · exact .inl (hf c hc)
      · rw [hcs, List.count_append, List.count_cons_self, count_point_of_allDigits hw,
          count_point_of_allDigits hf]
      · by_contra hnone
        have hno (cs : List Char) (hcs : AllDigits cs) (hsub : ∀ c ∈ cs, c ∈ amount.toList) : cs = [] := by
          rw [List.eq_nil_iff_forall_not_mem]
          exact fun c hc => hnone ⟨c, hsub c hc, hcs c hc⟩
        have hw' := hno _ hw fun c hc => by rw [hcs]; exact List.mem_append_left _ hc
        have hf' := hno _ hf fun c hc => by
          rw [hcs]
          exact List.mem_append_right _ (List.mem_cons_of_mem _ hc)
        rw [hw', hf'] at hcs
        exact hdot (String.toList_inj.mp hcs)
  · rintro ⟨hchars, hcount, c, hc, hdigit⟩
    have hne (s : String) (hs : ∀ c ∈ s.toList, c.isDigit = false) : amount ≠ s := by
      rintro rfl
      rw [hs c hc] at hdigit
      cases hdigit
    refine ⟨?_, ?_, hne "." (by simp), hne "" (by simp)⟩
    · intro c hc
      have hpoint : c ≠ '.' := by simpa using List.mem_takeWhile_imp hc
      exact (hchars c ((List.takeWhile_sublist _).subset hc)).resolve_right hpoint
    · rcases parts_cases amount.toList with ⟨-, hnil⟩ | hcs
      · rw [hnil]
        rintro c ⟨⟩
      · intro c hc
        have hmem : c ∈ amount.toList := by
          rw [hcs]
          exact List.mem_append_right _ (List.mem_cons_of_mem _ hc)
        refine (hchars c hmem).resolve_right ?_
        -- a second point would be counted
        rintro rfl
        have hpos := List.count_pos_iff.mpr hc
        rw [hcs, List.count_append, List.count_cons_self] at hcount
        omega

/-! ## Powers of ten -/

section Powers

variable {d : ℕ}

/-- **A power of ten from `10 ^ 23` on is not a double**: its odd part has more than 53 bits. -/
theorem ofRat_ten_pow_ne (hd : 23 ≤ d) : Number.ofRat (10 ^ d) ≠ .fin (10 ^ d) := by
  intro h
  have hround := Number.rounded_of_ofRat h
  have hlt := Number.abs_lt_zpow_ulpExp ((10 : ℚ) ^ d)
  rw [abs_of_pos (by positivity), zpow_add₀ (two_ne_zero), mul_comm, ← div_lt_iff₀ (by positivity)] at hlt
  rw [Number.rounded] at hround
  set m := Number.roundEven (10 ^ d / 2 ^ Number.ulpExp (10 ^ d))
  have hm : m ≤ 2 ^ 53 := by
    have hle := Number.roundEven_le_roundEven hlt.le
    have hexact := Number.roundEven_intCast (2 ^ 53)
    push_cast at hexact
    exact hle.trans hexact.le
  have hbig : (2 : ℤ) ^ 53 < 5 ^ d :=
    (by norm_num : (2 : ℤ) ^ 53 < 5 ^ 23).trans_le (pow_le_pow_right₀ (by norm_num) hd)
  have hpos : 0 < m := by
    by_contra hle
    have hle : (m : ℚ) ≤ 0 := by exact_mod_cast not_lt.mp hle
    have := mul_nonpos_of_nonpos_of_nonneg hle
      (by positivity : (0 : ℚ) ≤ 2 ^ Number.ulpExp ((10 : ℚ) ^ d))
    rw [hround] at this
    exact absurd this (not_le.mpr (by positivity))
  have hdvd : (5 : ℤ) ^ d ∣ m := by
    have hten : (10 : ℚ) ^ d = 5 ^ d * 2 ^ d := by
      rw [← mul_pow]
      norm_num
    rcases le_total 0 (Number.ulpExp ((10 : ℚ) ^ d)) with he | he
    · obtain ⟨k, hk⟩ := Int.eq_ofNat_of_zero_le he
      rw [hk, zpow_natCast, hten] at hround
      have hint : m * 2 ^ k = 5 ^ d * 2 ^ d := by exact_mod_cast hround
      have hcop : IsCoprime ((5 : ℤ) ^ d) (2 ^ k) := IsCoprime.pow (by norm_num)
      exact hcop.dvd_of_dvd_mul_right ⟨_, hint⟩
    · obtain ⟨k, hk⟩ : ∃ k : ℕ, Number.ulpExp ((10 : ℚ) ^ d) = -(k : ℤ) :=
        ⟨(Number.ulpExp ((10 : ℚ) ^ d)).natAbs, by omega⟩
      rw [hk, zpow_neg, zpow_natCast, mul_inv_eq_iff_eq_mul₀ (by positivity), hten, mul_assoc] at hround
      have hint : m = 5 ^ d * (2 ^ d * 2 ^ k) := by exact_mod_cast hround
      exact ⟨_, hint⟩
  have := Int.le_of_dvd hpos hdvd
  omega

theorem pow10_exact (hd : d ≤ 22) : pow10 d = .ok (10 ^ d) := by
  rcases lt_or_ge d 20 with h | h
  · exact if_pos h
  · have hfive : 5 ^ d ≤ 2 ^ 53 := (Nat.pow_le_pow_right (by norm_num) hd).trans (by norm_num)
    have hdouble := Number.isDouble_mul_two_pow hfive (by omega : d ≤ 64)
    rw [← Nat.mul_pow] at hdouble
    have hten : Number.ofRat (10 ^ d) = .fin ((10 ^ d : ℤ) : ℚ) := by
      have hround := hdouble _ rfl
      push_cast at hround ⊢
      exact hround
    rw [pow10, if_neg h.not_gt, hten, bigIntOfNumber, Number.toBigInt_intCast]

/-- The powers that are finite, and no longer exact. -/
theorem pow10_inexact (h₁ : 23 ≤ d) (h₂ : d ≤ 308) : ∃ factor, pow10 d = .ok factor ∧ factor ≠ 10 ^ d := by
  have hlarge : (Number.ofRat (10 ^ 308)).isFinite = true := by decide +kernel
  have hle : (Number.ofRat (10 ^ d)).le (Number.ofRat (10 ^ 308)) = true :=
    Number.ofRat_le_ofRat (pow_le_pow_right₀ (by norm_num) h₂)
  have hint := Number.integral_ofRat (10 ^ d)
  push_cast at hint
  have hne := ofRat_ten_pow_ne h₁
  rw [pow10, if_neg (by omega)]
  cases hx : Number.ofRat (10 ^ d) with
  | nan =>
    rw [hx] at hle
    cases hle
  | posInf =>
    rw [hx] at hle
    cases hy : Number.ofRat (10 ^ 308) <;> simp_all [Number.le, Number.isFinite]
  | negInf =>
    have hzero := Number.ofRat_le_ofRat (by positivity : (0 : ℚ) ≤ 10 ^ d)
    rw [hx, Number.ofRat_zero] at hzero
    cases hzero
  | fin q =>
    obtain ⟨factor, rfl⟩ := hint q hx
    rw [hx] at hne
    refine ⟨factor, by rw [bigIntOfNumber, Number.toBigInt_intCast], ?_⟩
    rintro rfl
    exact hne (by push_cast; rfl)

/-- From `10 ^ 309` on the power overflows. -/
theorem pow10_overflow (hd : 309 ≤ d) : ∃ e, pow10 d = .error e := by
  have hlarge : Number.ofRat (10 ^ 309) = .posInf := by decide +kernel
  have hle : (Number.ofRat (10 ^ 309)).le (Number.ofRat (10 ^ d)) = true :=
    Number.ofRat_le_ofRat (pow_le_pow_right₀ (by norm_num) hd)
  have hinf : Number.ofRat (10 ^ d) = .posInf := by
    rw [hlarge] at hle
    cases hx : Number.ofRat (10 ^ d) <;> simp_all [Number.le]
  rw [pow10, if_neg (by omega), hinf]
  exact ⟨_, rfl⟩

end Powers

/-- Reading succeeds exactly on the amounts, and gives the exact value in stroops rounded half up. -/
def StroopsLaw (amount : String) (d : ℕ) : Prop :=
  (DecimalNumeral amount → toStroops amount d = .ok (round (amountValue amount * 10 ^ d))) ∧
    (¬ DecimalNumeral amount → ∃ e, toStroops amount d = .error e)

/-- **When an amount is read as it should be**: with at most 22 decimals always; with up to 308 if its
whole part is zero, so that the power of ten does not matter; and with more never, since the power
overflows. -/
theorem stroopsLaw_iff (amount : String) (d : ℕ) : StroopsLaw amount d ↔
    (DecimalNumeral amount → d ≤ 22 ∨ (d ≤ 308 ∧ digitsValue (wholePart amount.toList) = 0)) := by
  by_cases hf : DecimalNumeral amount
  · have hformat := amountFormat_iff.mpr hf
    simp only [StroopsLaw, hf, forall_const, not_true_eq_false, IsEmpty.forall_iff, and_true]
    rcases le_or_gt d 22 with h22 | h22
    · simp [toStroops_of_pow10 hformat (pow10_exact h22), h22]
    · rcases le_or_gt d 308 with h308 | h308
      · obtain ⟨factor, hpow, hne⟩ := pow10_inexact h22 h308
        rw [toStroops_of_pow10 hformat hpow]
        have hsub : factor - 10 ^ d ≠ 0 := sub_ne_zero.mpr hne
        simp [h308, not_le.mpr h22, hsub]
      · obtain ⟨e, hpow⟩ := pow10_overflow h308
        have herror : ∀ n, toStroops amount d ≠ .ok n := by
          intro n hn
          rw [toStroops, if_neg (not_not.mpr hformat)] at hn
          obtain ⟨hw, hfr, -, -⟩ := hformat
          simp only [bigIntOf_digits (allDigits_padFraction hfr (d + 1)), bigIntOf_digits hw, ok_seq,
            hpow] at hn
          cases hn
        simp [herror, not_le.mpr h22, not_le.mpr h308]
  · have hformat : ¬ AmountFormat amount := fun h => hf (amountFormat_iff.mp h)
    simp [StroopsLaw, hf, toStroops_eq_error hformat d]

/-- **One whole unit of 23 decimals** comes out 8388608 too small. -/
theorem toStroops_inexact :
    toStroops "1" 23 = .ok (10 ^ 23 - 8388608) ∧ ¬ StroopsLaw "1" 23 := by
  have hread : toStroops "1" 23 = .ok (10 ^ 23 - 8388608) := by decide +kernel
  have hone : DecimalNumeral "1" := amountFormat_iff.mp (by decide)
  have hvalue : amountValue "1" * 10 ^ 23 = ((10 ^ 23 : ℤ) : ℚ) := by
    have : amountValue "1" = 1 := by decide +kernel
    rw [this]
    norm_num
  refine ⟨hread, ?_⟩
  rintro ⟨hok, -⟩
  have hok := Except.ok.inj ((hok hone).symm.trans hread)
  rw [hvalue, round_intCast] at hok
  norm_num at hok

end StreamFi
