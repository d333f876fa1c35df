import StreamFi.Js.Number

/-!
# Rounding and order

Rounding to the nearest double keeps the order, and so do the operators built on it.

* `rounded`: the double nearest to a rational, before an overflow;
* **`rounded_le_rounded`**: rounding is monotone;
* `le_trans`, `le_of_not_lt`, **`cut_le_cut`**: the order of the numbers, and cutting off at a bound;
* `sub`: the operator, with **`sub_le_sub`**; `mul`, `div`, `ceil`, `floor`, `round`;
* **`integral_ofRat`**: an integer is rounded to an integer;
* `IsDouble`: a number that rounding leaves alone, with **`isDouble_ofRat`**, **`isDouble_trunc`**;
* **`ofRat_eq_of_near`**: what is close to a double is rounded to it;
* **`ceil_div_natCast`**: the quotient of two lengths is rounded up exactly; `relIndex_add`,
  `add_lt_natCast`: the end of a slice.
-/

namespace Js.Number

variable {q r : ℚ}

/-! ## To the nearest integer -/

theorem roundEven_le_floor_add_one (q : ℚ) : roundEven q ≤ ⌊q⌋ + 1 := by
  unfold roundEven
  split_ifs <;> omega

theorem floor_le_roundEven (q : ℚ) : ⌊q⌋ ≤ roundEven q := by
  unfold roundEven
  split_ifs <;> omega

theorem roundEven_le_add_half (q : ℚ) : (roundEven q : ℚ) ≤ q + 1 / 2 := by
  have hfloor := Int.floor_le q
  unfold roundEven
  split_ifs <;> push_cast <;> linarith

theorem roundEven_le_roundEven (h : q ≤ r) : roundEven q ≤ roundEven r := by
  rcases (Int.floor_le_floor h).lt_or_eq with hlt | heq
  · calc roundEven q ≤ ⌊q⌋ + 1 := roundEven_le_floor_add_one q
      _ ≤ ⌊r⌋ := hlt
      _ ≤ roundEven r := floor_le_roundEven r
  · -- on one unit interval only the fractions are compared
    unfold roundEven
    rw [heq]
    split_ifs <;> first | omega | (exfalso; linarith)

theorem roundEven_eq_of_near {m : ℤ} (h : |q - m| < 1 / 2) : roundEven q = m := by
  obtain ⟨h₁, h₂⟩ := abs_lt.mp h
  rcases le_or_gt (m : ℚ) q with hle | hgt
  · have hfloor : ⌊q⌋ = m := Int.floor_eq_iff.mpr ⟨hle, by linarith⟩
    rw [roundEven, hfloor, if_pos (by linarith)]
  · have hfloor : ⌊q⌋ = m - 1 := by
      rw [Int.floor_eq_iff]
      push_cast
      exact ⟨by linarith, by linarith⟩
    rw [roundEven, hfloor]
    push_cast
    rw [if_neg (by linarith), if_pos (by linarith), sub_add_cancel]

/-- **Rounding is odd.** -/
theorem roundEven_neg (q : ℚ) : roundEven (-q) = -roundEven q := by
  have hnear {m : ℤ} (h : |q - m| < 1 / 2) : roundEven (-q) = -roundEven q := by
    rw [roundEven_eq_of_near h, roundEven_eq_of_near (m := -m)]
    rw [Int.cast_neg, sub_neg_eq_add, neg_add_eq_sub, abs_sub_comm]
    exact h
  have h₁ := Int.floor_le q
  have h₂ := Int.lt_floor_add_one q
  rcases lt_trichotomy (q - ⌊q⌋) (1 / 2) with hlt | heq | hgt
  · exact hnear (m := ⌊q⌋) (abs_lt.mpr ⟨by linarith, hlt⟩)
  · have hq : q = ⌊q⌋ + 1 / 2 := by linarith
    have hfloor : ⌊-q⌋ = -⌊q⌋ - 1 := by
      rw [Int.floor_eq_iff]
      push_cast
      exact ⟨by linarith, by linarith⟩
    have htie : roundEven q = if ⌊q⌋ % 2 = 0 then ⌊q⌋ else ⌊q⌋ + 1 := by
      rw [roundEven, if_neg (by linarith), if_neg (by linarith)]
    have htie' : roundEven (-q) = if (-⌊q⌋ - 1) % 2 = 0 then -⌊q⌋ - 1 else -⌊q⌋ - 1 + 1 := by
      rw [roundEven, hfloor]
      push_cast
      rw [if_neg (by linarith), if_neg (by linarith)]
    rw [htie, htie']
    split_ifs <;> omega
  · exact hnear (m := ⌊q⌋ + 1) (abs_lt.mpr ⟨by push_cast; linarith, by push_cast; linarith⟩)

/-! ## To the nearest double -/

/-- The nearest double, were its exponent not bounded above. -/
def rounded (q : ℚ) : ℚ := roundEven (q / 2 ^ ulpExp q) * 2 ^ ulpExp q

theorem ofRat_def (q : ℚ) : ofRat q = if 2 ^ 1024 ≤ rounded q then .posInf
    else if rounded q ≤ -2 ^ 1024 then .negInf else .fin (rounded q) := rfl

/-- Rounding adds at most half a last place. -/
theorem rounded_le_add_half (q : ℚ) : rounded q ≤ q + 2 ^ ulpExp q / 2 := by
  have hulp : (0 : ℚ) < 2 ^ ulpExp q := by positivity
  calc rounded q ≤ (q / 2 ^ ulpExp q + 1 / 2) * 2 ^ ulpExp q :=
        mul_le_mul_of_nonneg_right (roundEven_le_add_half _) hulp.le
    _ = q + 2 ^ ulpExp q / 2 := by field_simp

/-- The multiple of a last place, in a smaller one. -/
theorem mul_zpow_div {e k : ℤ} (h : e ≤ k) (m : ℤ) :
    (m * 2 ^ k : ℚ) / 2 ^ e = ((m * 2 ^ (k - e).toNat : ℤ) : ℚ) := by
  have hk : (2 : ℚ) ^ k = 2 ^ (k - e) * 2 ^ e := by
    rw [← zpow_add₀ two_ne_zero, sub_add_cancel]
  have he : (2 : ℚ) ^ (k - e) = 2 ^ (k - e).toNat := by
    rw [← zpow_natCast, Int.toNat_of_nonneg (by omega)]
  rw [hk, ← mul_assoc, mul_div_cancel_right₀ _ (by positivity), he]
  push_cast
  rfl

/-- Rounding does not pass a multiple of a last place at least as large. -/
theorem rounded_le_of_le {k m : ℤ} (hk : ulpExp q ≤ k) (h : q ≤ m * 2 ^ k) :
    rounded q ≤ m * 2 ^ k := by
  have hpos : (0 : ℚ) < 2 ^ ulpExp q := by positivity
  have hq : q / 2 ^ ulpExp q ≤ ((m * 2 ^ (k - ulpExp q).toNat : ℤ) : ℚ) := by
    rw [← mul_zpow_div hk]
    gcongr
  have hr := roundEven_le_roundEven hq
  rw [roundEven_intCast] at hr
  have hr' : (roundEven (q / 2 ^ ulpExp q) : ℚ) ≤ m * 2 ^ k / 2 ^ ulpExp q := by
    rw [mul_zpow_div hk]
    exact_mod_cast hr
  exact (le_div_iff₀ hpos).mp hr'

theorem le_rounded_of_le {k m : ℤ} (hk : ulpExp q ≤ k) (h : m * 2 ^ k ≤ q) :
    m * 2 ^ k ≤ rounded q := by
  have hpos : (0 : ℚ) < 2 ^ ulpExp q := by positivity
  have hq : ((m * 2 ^ (k - ulpExp q).toNat : ℤ) : ℚ) ≤ q / 2 ^ ulpExp q := by
    rw [← mul_zpow_div hk]
    gcongr
  have hr := roundEven_le_roundEven hq
  rw [roundEven_intCast] at hr
  have hr' : m * 2 ^ k / 2 ^ ulpExp q ≤ (roundEven (q / 2 ^ ulpExp q) : ℚ) := by
    rw [mul_zpow_div hk]
    exact_mod_cast hr
  exact (div_le_iff₀ hpos).mp hr'

theorem rounded_zero : rounded 0 = 0 := by
  simp [rounded, roundEven]

theorem le_ulpExp (q : ℚ) : -1074 ≤ ulpExp q := le_max_right _ _

theorem abs_lt_zpow_ulpExp (q : ℚ) : |q| < 2 ^ (ulpExp q + 53) := by
  refine (Int.lt_zpow_succ_log_self Nat.one_lt_two |q|).trans_le ?_
  apply zpow_le_zpow_right₀ one_le_two
  unfold ulpExp
  omega

/-- Above the least last place there are 53 bits. -/
theorem zpow_ulpExp_le (h : -1074 < ulpExp q) (hq : q ≠ 0) : 2 ^ (ulpExp q + 52) ≤ |q| := by
  have hlog : ulpExp q + 52 = Int.log 2 |q| := by
    unfold ulpExp at *
    omega
  rw [hlog]
  exact_mod_cast Int.zpow_log_le_self Nat.one_lt_two (abs_pos.mpr hq)

/-- A larger last place than that of `q` goes with a power of two above `|q|`. -/
theorem abs_lt_of_ulpExp_lt (h : ulpExp q < ulpExp r) : |q| < 2 ^ (ulpExp r + 52) :=
  (abs_lt_zpow_ulpExp q).trans_le (zpow_le_zpow_right₀ one_le_two (by omega))

theorem le_abs_of_ulpExp_lt (h : ulpExp q < ulpExp r) (hr : r ≠ 0) : 2 ^ (ulpExp r + 52) ≤ |r| :=
  zpow_ulpExp_le ((le_ulpExp q).trans_lt h) hr

/-- **Rounding is monotone.** -/
theorem rounded_le_rounded (h : q ≤ r) : rounded q ≤ rounded r := by
  have hpow (k : ℤ) : (2 : ℚ) ^ (k + 52) = ((2 ^ 52 : ℤ) : ℚ) * 2 ^ k := by
    rw [zpow_add₀ two_ne_zero, mul_comm]
    norm_num
  rcases lt_trichotomy (ulpExp q) (ulpExp r) with hlt | heq | hgt
  · -- a power of two above `q` is at most `r`, and rounding passes it on neither side
    have hq := abs_lt_of_ulpExp_lt hlt
    by_cases hr0 : r = 0
    · subst hr0
      rw [rounded_zero]
      have := rounded_le_of_le (k := ulpExp q) (m := 0) le_rfl (by simpa using h)
      simpa using this
    have hr := le_abs_of_ulpExp_lt hlt hr0
    have hr' : |r| = r := by
      rcases abs_choice r with hr' | hr'
      · exact hr'
      · have := neg_abs_le q
        linarith
    rw [hr'] at hr
    rw [hpow] at hq hr
    calc rounded q ≤ ((2 ^ 52 : ℤ) : ℚ) * 2 ^ ulpExp r :=
          rounded_le_of_le hlt.le ((le_abs_self q).trans hq.le)
      _ ≤ rounded r := le_rounded_of_le le_rfl hr
  · -- one last place: the quotients are compared
    unfold rounded
    rw [heq]
    gcongr
    exact_mod_cast roundEven_le_roundEven (by gcongr)
  · -- the same below zero
    have hr := abs_lt_of_ulpExp_lt hgt
    by_cases hq0 : q = 0
    · subst hq0
      rw [rounded_zero]
      have := le_rounded_of_le (k := ulpExp r) (m := 0) le_rfl (by simpa using h)
      simpa using this
    have hq := le_abs_of_ulpExp_lt hgt hq0
    have hq' : |q| = -q := by
      rcases abs_choice q with hq' | hq'
      · have := le_abs_self r
        linarith
      · exact hq'
    rw [hq'] at hq
    rw [hpow] at hq hr
    have hneg : ((-2 ^ 52 : ℤ) : ℚ) = -((2 ^ 52 : ℤ) : ℚ) := by push_cast; rfl
    calc rounded q ≤ ((-2 ^ 52 : ℤ) : ℚ) * 2 ^ ulpExp q :=
          rounded_le_of_le le_rfl (by rw [hneg]; linarith)
      _ ≤ rounded r := by
          apply le_rounded_of_le hgt.le
          have := neg_abs_le r
          rw [hneg]
          linarith

theorem ofRat_le_ofRat (h : q ≤ r) : (ofRat q).le (ofRat r) = true := by
  have := rounded_le_rounded h
  have hpos : (0 : ℚ) < 2 ^ 1024 := by positivity
  rw [ofRat_def, ofRat_def]
  generalize (2 : ℚ) ^ 1024 = bound at *
  split_ifs <;> simp only [le, decide_eq_true_eq] <;> linarith

/-! ## The order -/

section Order

variable {x y z : Number}

theorem le_refl_fin (a : ℚ) : le (.fin a) (.fin a) = true := by
  simp

theorem le_trans (h : x.le y = true) (h' : y.le z = true) : x.le z = true := by
  cases x <;> cases y <;> cases z <;> simp_all [le]
  linarith

theorem lt_of_lt_of_le (h : x.lt y = true) (h' : y.le z = true) : x.lt z = true := by
  cases x <;> cases y <;> cases z <;> simp_all [le, lt]
  linarith

theorem lt_of_le_of_lt (h : x.le y = true) (h' : y.lt z = true) : x.lt z = true := by
  cases x <;> cases y <;> cases z <;> simp_all [le, lt]
  linarith

theorem le_of_lt (h : x.lt y = true) : x.le y = true := by
  cases x <;> cases y <;> simp_all [le, lt]
  linarith

/-- Two numbers are comparable. -/
theorem le_of_not_lt (hx : x ≠ .nan) (hy : y ≠ .nan) (h : x.lt y = false) : y.le x = true := by
  cases x <;> cases y <;> simp_all [le, lt]

theorem le_of_not_le (hx : x ≠ .nan) (hy : y ≠ .nan) (h : ¬ x.le y = true) : y.le x = true := by
  cases x <;> cases y <;> simp_all [le]
  linarith

theorem ne_nan_of_le (h : x.le y = true) : x ≠ .nan ∧ y ≠ .nan := by
  cases x <;> cases y <;> simp_all [le]

theorem eq_of_le_of_not_lt (h : x.le y = true) (h' : x.lt y = false) : x = y := by
  cases x <;> cases y <;> simp_all [le, lt]
  linarith

/-- **Cutting off at a bound is monotone**, whether or not the bound is in force. -/
theorem cut_le_cut (inForce : Bool) (c : ℚ) (h : x.le y = true) :
    le (if inForce && lt (.fin c) x then .fin c else x)
      (if inForce && lt (.fin c) y then .fin c else y) = true := by
  cases inForce with
  | false => simpa using h
  | true =>
    simp only [Bool.true_and]
    by_cases hx : lt (.fin c) x = true
    · rw [if_pos hx, if_pos (lt_of_lt_of_le hx h)]
      exact le_refl_fin c
    · rw [if_neg hx]
      by_cases hy : lt (.fin c) y = true
      · rw [if_pos hy]
        exact le_of_not_lt (by simp) (ne_nan_of_le h).1 (by simpa using hx)
      · rwa [if_neg hy]

theorem cut_le (inForce : Bool) (c : ℚ) (hx : x ≠ .nan) :
    le (if inForce && lt (.fin c) x then .fin c else x) x = true := by
  split_ifs with h
  · rw [Bool.and_eq_true] at h
    cases x <;> simp_all [le, lt]
    linarith
  · cases x <;> simp_all [le]

/-- A bound in force is kept. -/
theorem cut_le_bound (c : ℚ) (hx : x ≠ .nan) :
    le (if lt (.fin c) x then .fin c else x) (.fin c) = true := by
  split_ifs with h
  · exact le_refl_fin c
  · exact le_of_not_lt (by simp) hx (by simpa using h)

end Order

/-! ## Integers -/

/-- A number that is an integer or infinite. -/
def Integral (x : Number) : Prop := ∀ q, x = .fin q → ∃ n : ℤ, q = n

/-- **An integer is rounded to an integer.** -/
theorem integral_ofRat (n : ℤ) : Integral (ofRat n) := by
  intro q hq
  have hq : rounded n = q := by
    rw [ofRat_def] at hq
    split_ifs at hq
    exact Number.fin.inj hq
  rw [← hq, rounded]
  rcases le_total (ulpExp (n : ℚ)) 0 with h | h
  · refine ⟨n, ?_⟩
    rw [intCast_div_zpow h, roundEven_intCast, ← intCast_div_zpow h,
      div_mul_cancel₀ _ (by positivity)]
  · obtain ⟨k, hk⟩ := Int.eq_ofNat_of_zero_le h
    rw [hk]
    exact ⟨roundEven (n / 2 ^ (k : ℤ)) * 2 ^ k, by push_cast; rfl⟩

/-! ## Doubles -/

/-- A number that is a double. -/
def IsDouble (x : Number) : Prop := ∀ q, x = .fin q → ofRat q = .fin q

/-- What has at most 53 bits is a double. -/
theorem rounded_eq_self {k m : ℤ} (hm : |m| ≤ 2 ^ 53) (hk : -1074 ≤ k) :
    rounded (m * 2 ^ k) = m * 2 ^ k := by
  have hself {j n : ℤ} (hj : ulpExp (n * 2 ^ j : ℚ) ≤ j) : rounded (n * 2 ^ j) = n * 2 ^ j :=
    le_antisymm (rounded_le_of_le hj le_rfl) (le_rounded_of_le hj le_rfl)
  by_cases hm' : m = 0
  · rw [hm', Int.cast_zero, zero_mul, rounded_zero]
  rcases le_or_gt (ulpExp (m * 2 ^ k : ℚ)) k with hle | hgt
  · exact hself hle
  · -- only with all 53 bits used up can the last place be larger, and then it is even
    have hpos : (0 : ℚ) < 2 ^ k := by positivity
    have hm0 : (m * 2 ^ k : ℚ) ≠ 0 := mul_ne_zero (by exact_mod_cast hm') hpos.ne'
    have hlow := zpow_ulpExp_le (by omega) hm0
    have hstep : (2 : ℚ) ^ (k + 53) ≤ 2 ^ (ulpExp (m * 2 ^ k : ℚ) + 52) :=
      zpow_le_zpow_right₀ one_le_two (by omega)
    rw [abs_mul, abs_of_pos hpos] at hlow
    have hsplit (j : ℤ) : (2 : ℚ) ^ (k + j) = 2 ^ j * 2 ^ k := by
      rw [add_comm, zpow_add₀ two_ne_zero]
    have hm53 : |m| = 2 ^ 53 := by
      apply le_antisymm hm
      have := hstep.trans hlow
      rw [hsplit, mul_le_mul_iff_left₀ hpos] at this
      exact_mod_cast this
    have heq : (m * 2 ^ k : ℚ) = ((m / 2 : ℤ) : ℚ) * 2 ^ (k + 1) := by
      have hm2 : m = 2 * (m / 2) := by
        rcases abs_eq (by positivity) |>.mp hm53 with h | h <;> rw [h] <;> norm_num
      rw [hsplit, zpow_one, ← mul_assoc]
      congr 1
      exact_mod_cast hm2.trans (mul_comm 2 _)
    have hulp : ulpExp (m * 2 ^ k : ℚ) ≤ k + 1 := by
      have hup := zpow_ulpExp_le (by omega) hm0
      rw [abs_mul, abs_of_pos hpos] at hup
      have habs : |(m : ℚ)| = 2 ^ (53 : ℤ) := by exact_mod_cast hm53
      rw [habs, ← hsplit, zpow_le_zpow_iff_right₀ one_lt_two] at hup
      omega
    rw [heq] at hulp ⊢
    exact hself hulp

/-- **Rounding gives a double.** -/
theorem rounded_rounded (q : ℚ) : rounded (rounded q) = rounded q := by
  apply rounded_eq_self
  · have hpos : (0 : ℚ) < 2 ^ ulpExp q := by positivity
    have hlt := abs_lt_zpow_ulpExp q
    rw [add_comm, zpow_add₀ two_ne_zero, abs_lt] at hlt
    have hup : q / 2 ^ ulpExp q ≤ ((2 ^ 53 : ℤ) : ℚ) := by
      rw [div_le_iff₀ hpos]
      exact_mod_cast hlt.2.le
    have hlow : ((-2 ^ 53 : ℤ) : ℚ) ≤ q / 2 ^ ulpExp q := by
      rw [le_div_iff₀ hpos]
      have := hlt.1.le
      push_cast
      rw [neg_mul]
      exact_mod_cast this
    have h₁ := roundEven_le_roundEven hup
    have h₂ := roundEven_le_roundEven hlow
    rw [roundEven_intCast] at h₁ h₂
    rw [abs_le]
    exact ⟨h₂, h₁⟩
  · exact le_ulpExp q

theorem rounded_of_ofRat (h : ofRat q = .fin r) : rounded q = r := by
  rw [ofRat_def] at h
  split_ifs at h
  exact Number.fin.inj h

theorem isDouble_ofRat (q : ℚ) : IsDouble (ofRat q) := by
  intro r hr
  have hround := rounded_of_ofRat hr
  have hrr : rounded r = r := by rw [← hround, rounded_rounded]
  rw [← hr, ofRat_def, ofRat_def, hrr, hround]

theorem isDouble_add (x y : Number) : IsDouble (x.add y) := by
  cases x <;> cases y <;> first | exact isDouble_ofRat _ | (intro q hq; cases hq)

theorem isDouble_intCast {n : ℤ} (h : |n| ≤ 2 ^ 53) : IsDouble (.fin n) := by
  rw [← ofRat_intCast h]
  exact isDouble_ofRat _

theorem zpow_eq_mul {e k : ℤ} (h : e ≤ k) :
    (2 : ℚ) ^ k = ((2 ^ (k - e).toNat : ℤ) : ℚ) * 2 ^ e := by
  have := mul_zpow_div h 1
  rw [Int.cast_one, one_mul, one_mul, div_eq_iff (by positivity)] at this
  exact this

/-- The multiples of a power of two lie that far apart. -/
theorem add_zpow_le {e m n : ℤ} (h : (m : ℚ) * 2 ^ e < n * 2 ^ e) :
    (m : ℚ) * 2 ^ e + 2 ^ e ≤ n * 2 ^ e := by
  have hlt : m < n := by
    exact_mod_cast lt_of_mul_lt_mul_right h (by positivity)
  have hle : ((m + 1 : ℤ) : ℚ) ≤ n := by exact_mod_cast hlt
  calc (m : ℚ) * 2 ^ e + 2 ^ e = ((m + 1 : ℤ) : ℚ) * 2 ^ e := by push_cast; ring
    _ ≤ n * 2 ^ e := by gcongr

/-- **What is close to a double is rounded to it.** -/
theorem rounded_eq_of_near {x : ℚ} (hq : 0 < q) (hnormal : -1074 < ulpExp q)
    (hd : rounded q = q) (h : |x - q| < q / 2 ^ 54) : rounded x = q := by
  obtain ⟨h₁, h₂⟩ := abs_lt.mp h
  set e := ulpExp q with he
  set m := roundEven (q / 2 ^ e) with hm
  have hqm : q = m * 2 ^ e := hd.symm
  have habs : |q| = q := abs_of_pos hq
  have hlow : 2 ^ (e + 52) ≤ q := by
    rw [← habs]
    exact zpow_ulpExp_le hnormal hq.ne'
  have hup : q < 2 ^ (e + 53) := by
    rw [← habs]
    exact abs_lt_zpow_ulpExp q
  have hx : 0 < x := by linarith
  have hxabs : |x| = x := abs_of_pos hx
  have hpow (j k : ℤ) : (2 : ℚ) ^ (j + k) = 2 ^ j * 2 ^ k := zpow_add₀ two_ne_zero j k
  have hhalf : q / 2 ^ 54 < 2 ^ e / 2 := by
    have h53 : (2 : ℚ) ^ (53 : ℤ) = 2 ^ 54 / 2 := by norm_num
    rw [hpow, h53] at hup
    linarith
  have hepos : (0 : ℚ) < 2 ^ e := by positivity
  set f := ulpExp x with hf
  have hfe : f ≤ e := by
    by_contra hlt
    have hxlow : 2 ^ (f + 52) ≤ x := by
      rw [← hxabs]
      exact le_abs_of_ulpExp_lt (not_le.mp hlt) hx.ne'
    have hqf : q < 2 ^ (f + 52) := by
      rw [← habs]
      exact abs_lt_of_ulpExp_lt (not_le.mp hlt)
    -- both are multiples of the last place of `q`
    rw [zpow_eq_mul (by omega : e ≤ f + 52)] at hqf hxlow
    rw [hqm] at hqf
    have := add_zpow_le hqf
    rw [← hqm] at this
    linarith
  have hqf : q ≤ 2 ^ (f + 53) := by
    by_contra hlt
    rw [not_le] at hlt
    have hxup : x < 2 ^ (f + 53) := by
      rw [← hxabs]
      exact abs_lt_zpow_ulpExp x
    rcases eq_or_ne f (e - 1) with hf1 | hf1
    · -- below the power of two that `q` is at least, `q` has a neighbour no closer than its last place
      rw [hf1, (by ring : e - 1 + 53 = e + 52), zpow_eq_mul (by omega : e ≤ e + 52)] at hlt hxup
      rw [hqm] at hlt
      have := add_zpow_le hlt
      rw [← hqm] at this
      linarith
    · have hne : f ≠ e := by
        rintro hfe'
        rw [hfe'] at hlt
        linarith
      have hle : (2 : ℚ) ^ (f + 53) ≤ 2 ^ (e + 51) := zpow_le_zpow_right₀ one_le_two (by omega)
      have hdouble : (2 : ℚ) ^ (e + 52) = 2 ^ (e + 51) * 2 := by
        rw [(by ring : e + 52 = e + 51 + 1), hpow _ 1, zpow_one]
      linarith
  have hround : roundEven (x / 2 ^ f) = m * 2 ^ (e - f).toNat := by
    apply roundEven_eq_of_near
    rw [← mul_zpow_div hfe, ← hqm, ← sub_div, abs_div, abs_of_pos (by positivity : (0 : ℚ) < 2 ^ f),
      div_lt_iff₀ (by positivity)]
    have h53 : (2 : ℚ) ^ (53 : ℤ) = 2 ^ 54 / 2 := by norm_num
    rw [hpow, h53] at hqf
    linarith
  rw [rounded, ← hf, hround, ← mul_zpow_div hfe, div_mul_cancel₀ _ (by positivity), ← hqm]

/-- Numbers a factor of four apart are not rounded to one double. -/
theorem ofRat_ne_of_four_mul_le {a b : ℚ} (ha : 0 < a) (hb : 1 ≤ b) (h : 4 * a ≤ b)
    (hfin : ofRat b = .fin r) : ofRat a ≠ ofRat b := by
  intro heq
  have hpos : 0 < b := by linarith
  set k := Int.log 2 b with hk
  have hk0 : 0 ≤ k := by
    rw [hk, ← Int.zpow_le_iff_le_log Nat.one_lt_two hpos]
    simpa using hb
  have hlow : ((1 : ℤ) : ℚ) * 2 ^ k ≤ b := by
    rw [Int.cast_one, one_mul]
    exact_mod_cast Int.zpow_log_le_self Nat.one_lt_two hpos
  have hup : b < 2 ^ (k + 1) := by
    exact_mod_cast Int.lt_zpow_succ_log_self Nat.one_lt_two b
  have hdouble : (2 : ℚ) ^ (k + 1) = 4 * 2 ^ (k - 1) := by
    rw [(by ring : k + 1 = k - 1 + 2), zpow_add₀ two_ne_zero]
    norm_num
    ring
  have hsmall : a < 2 ^ (k - 1) := by linarith
  have hulpb : ulpExp b ≤ k := by
    rw [ulpExp, abs_of_pos hpos, ← hk]
    omega
  have hulpa : ulpExp a ≤ k - 1 := by
    have hlog : Int.log 2 |a| < k - 1 := by
      rw [← Int.lt_zpow_iff_log_lt Nat.one_lt_two (abs_pos.mpr ha.ne'), abs_of_pos ha]
      exact_mod_cast hsmall
    unfold ulpExp
    omega
  have hra : rounded a ≤ ((1 : ℤ) : ℚ) * 2 ^ (k - 1) :=
    rounded_le_of_le hulpa (by rw [Int.cast_one, one_mul]; exact hsmall.le)
  have hrb := le_rounded_of_le hulpb hlow
  have hsame : rounded a = rounded b := by
    rw [rounded_of_ofRat hfin, rounded_of_ofRat (heq.trans hfin)]
  have hlt : (2 : ℚ) ^ (k - 1) < 2 ^ k := zpow_lt_zpow_right₀ one_lt_two (by omega)
  rw [Int.cast_one, one_mul] at hra hrb
  linarith

theorem rounded_neg (q : ℚ) : rounded (-q) = -rounded q := by
  have hulp : ulpExp (-q) = ulpExp q := by rw [ulpExp, ulpExp, abs_neg]
  rw [rounded, rounded, hulp, neg_div, roundEven_neg, Int.cast_neg, neg_mul]

theorem ofRat_neg (h : ofRat q = .fin r) : ofRat (-q) = .fin (-r) := by
  have hr := rounded_of_ofRat h
  rw [ofRat_def, hr] at h
  rw [ofRat_def, rounded_neg, hr]
  split_ifs at h with h₁ h₂
  have hhigh : ¬ (2 : ℚ) ^ 1024 ≤ -r := fun h' => h₂ (le_neg_of_le_neg h')
  have hlow : ¬ -r ≤ -(2 : ℚ) ^ 1024 := fun h' => h₁ (neg_le_neg_iff.mp h')
  rw [if_neg hhigh, if_neg hlow]

theorem two_pow_mul_zpow {k : ℕ} {e f : ℤ} (h : k + e = f) : (2 : ℚ) ^ k * 2 ^ e = 2 ^ f := by
  rw [← zpow_natCast, ← zpow_add₀ two_ne_zero, h]

/-- The same next to a double of the least last place. -/
theorem rounded_eq_of_near_least {x : ℚ} (hq : 0 < q) (hleast : ulpExp q = -1074)
    (hd : rounded q = q) (h : |x - q| < q / 2 ^ 54) : rounded x = q := by
  obtain ⟨h₁, h₂⟩ := abs_lt.mp h
  set m := roundEven (q / 2 ^ (-1074 : ℤ)) with hm
  have hqm : q = m * 2 ^ (-1074 : ℤ) := by
    rw [rounded, hleast, ← hm] at hd
    exact hd.symm
  have hup : q < 2 ^ (-1021 : ℤ) := by
    have := abs_lt_zpow_ulpExp q
    rw [hleast, abs_of_pos hq] at this
    exact this.trans_eq (by norm_num)
  have hpos : 0 < x := by
    have : q / 2 ^ 54 < q := div_lt_self hq (by norm_num)
    linarith
  have hgap : q / 2 ^ 54 < 2 ^ (-1075 : ℤ) := by
    rw [div_lt_iff₀ (by positivity), mul_comm, two_pow_mul_zpow (f := -1021) (by norm_num)]
    exact hup
  -- `q` is a multiple of the last place below `2 ^ -1021`, and `x` does not reach that power
  have hmlt : m < 2 ^ 53 := by
    have hlt : (m : ℚ) * 2 ^ (-1074 : ℤ) < 2 ^ 53 * 2 ^ (-1074 : ℤ) := by
      rw [← hqm, two_pow_mul_zpow (f := -1021) (by norm_num)]
      exact hup
    exact_mod_cast lt_of_mul_lt_mul_right hlt (by positivity)
  have hxup : x < 2 ^ (-1021 : ℤ) := by
    have hstep : (m + 1 : ℚ) * 2 ^ (-1074 : ℤ) ≤ 2 ^ 53 * 2 ^ (-1074 : ℤ) :=
      mul_le_mul_of_nonneg_right (by exact_mod_cast hmlt) (by positivity)
    have hhalf : (2 : ℚ) ^ (-1075 : ℤ) < 2 ^ (-1074 : ℤ) :=
      zpow_lt_zpow_right₀ one_lt_two (by norm_num)
    rw [two_pow_mul_zpow (f := -1021) (by norm_num), add_mul, one_mul, ← hqm] at hstep
    linarith
  have hx : ulpExp x = -1074 := by
    have hlog : Int.log 2 |x| < -1021 := by
      rw [← Int.lt_zpow_iff_log_lt Nat.one_lt_two (abs_pos.mpr hpos.ne'), abs_of_pos hpos]
      exact_mod_cast hxup
    unfold ulpExp
    omega
  rw [rounded, hx, roundEven_eq_of_near (m := m), ← hqm]
  have hsplit : x / 2 ^ (-1074 : ℤ) - m = (x - q) / 2 ^ (-1074 : ℤ) := by
    rw [sub_div]
    congr 1
    rw [hqm, mul_div_cancel_right₀ _ (by positivity)]
  rw [hsplit, abs_div, abs_of_pos (by positivity : (0 : ℚ) < 2 ^ (-1074 : ℤ)), div_lt_iff₀ (by positivity)]
  have hhalf : (1 : ℚ) / 2 * 2 ^ (-1074 : ℤ) = 2 ^ (-1075 : ℤ) := by
    rw [← two_pow_mul_zpow (k := 1) (e := -1075) (f := -1074) (by norm_num)]
    ring
  rw [hhalf]
  exact h.trans hgap


theorem ofRat_eq_of_near {x : ℚ} (hq : 0 < q) (hd : ofRat q = .fin q) (h : |x - q| < q / 2 ^ 54) :
    ofRat x = .fin q := by
  have hround : rounded x = q := by
    rcases (le_ulpExp q).lt_or_eq with hnormal | hleast
    · exact rounded_eq_of_near hq hnormal (rounded_of_ofRat hd) h
    · exact rounded_eq_of_near_least hq hleast.symm (rounded_of_ofRat hd) h
  rw [← hd, ofRat_def, ofRat_def, hround, rounded_of_ofRat hd]

/-! ## Differences -/

/-- `x - y`. -/
def sub : Number → Number → Number
  | .nan, _ | _, .nan => .nan
  | .posInf, .posInf | .negInf, .negInf => .nan
  | .posInf, _ | _, .negInf => .posInf
  | .negInf, _ | _, .posInf => .negInf
  | .fin a, .fin b => ofRat (a - b)

theorem sub_fin (a b : ℚ) : sub (.fin a) (.fin b) = ofRat (a - b) := rfl

/-- **Subtracting a finite number is monotone.** -/
theorem sub_le_sub {x y : Number} (h : x.le y = true) (c : ℚ) :
    (x.sub (.fin c)).le (y.sub (.fin c)) = true := by
  cases x with
  | nan => cases y <;> cases h
  | posInf => cases y <;> first | rfl | cases h
  | negInf =>
    cases y with
    | nan => cases h
    | posInf | negInf => rfl
    | fin b =>
      show le .negInf (ofRat (b - c)) = true
      rw [ofRat_def]
      split_ifs <;> rfl
  | fin a =>
    cases y with
    | nan | negInf => cases h
    | posInf =>
      show le (ofRat (a - c)) .posInf = true
      rw [ofRat_def]
      split_ifs <;> rfl
    | fin b =>
      apply ofRat_le_ofRat
      have : a ≤ b := by simpa using h
      linarith

/-- A difference of finite numbers is a number. -/
theorem sub_fin_ne_nan (a b : ℚ) : sub (.fin a) (.fin b) ≠ .nan := by
  rw [sub_fin, ofRat_def]
  split_ifs <;> simp

theorem ofRat_zero : ofRat 0 = .fin 0 := by
  exact_mod_cast ofRat_intCast (n := 0) (by norm_num)

theorem sub_le_zero_of_lt {x y : Number} (h : x.lt y = true) : (x.sub y).le (.fin 0) = true := by
  cases x with
  | nan | posInf => cases y <;> cases h
  | negInf => cases y <;> first | rfl | cases h
  | fin a =>
    cases y with
    | nan | negInf => cases h
    | posInf => rfl
    | fin b =>
      rw [lt_fin, decide_eq_true_eq] at h
      rw [sub_fin, ← ofRat_zero]
      exact ofRat_le_ofRat (by linarith)

theorem integral_sub (m n : ℤ) : Integral (sub (.fin m) (.fin n)) := by
  rw [sub_fin, ← Int.cast_sub]
  exact integral_ofRat _

/-- The sign of a difference of integers is exact. -/
theorem sub_le_zero_iff (m n : ℤ) : (sub (.fin m) (.fin n)).le (.fin 0) = true ↔ m ≤ n := by
  constructor
  · intro h
    by_contra hlt
    have hone : (1 : ℚ) ≤ m - n := by exact_mod_cast (by omega : 1 ≤ m - n)
    have hle := ofRat_le_ofRat hone
    rw [← Int.cast_one, ofRat_intCast (by norm_num), ← sub_fin] at hle
    have hzero := le_trans hle h
    rw [le_fin, decide_eq_true_eq] at hzero
    norm_num at hzero
  · intro h
    rw [← ofRat_zero, sub_fin]
    apply ofRat_le_ofRat
    have : (m : ℚ) ≤ n := by exact_mod_cast h
    linarith

/-- **Differences of integers are exact up to `2 ^ 53`.** -/
theorem sub_intCast {a b : ℤ} (h : |a - b| ≤ 2 ^ 53) :
    sub (.fin a) (.fin b) = .fin (a - b : ℤ) := by
  rw [← ofRat_intCast h, Int.cast_sub]
  rfl

/-! ## Products and quotients -/

/-- `x * y`. -/
def mul : Number → Number → Number
  | .nan, _ | _, .nan => .nan
  | .fin a, .fin b => ofRat (a * b)
  | x, y =>
    if x = .fin 0 ∨ y = .fin 0 then .nan
    else if x.lt (.fin 0) = y.lt (.fin 0) then .posInf else .negInf

/-- `x / y`; a zero divides as the positive one. -/
def div : Number → Number → Number
  | .nan, _ | _, .nan => .nan
  | .posInf, .posInf | .posInf, .negInf | .negInf, .posInf | .negInf, .negInf => .nan
  | .posInf, .fin b => if b < 0 then .negInf else .posInf
  | .negInf, .fin b => if b < 0 then .posInf else .negInf
  | .fin _, .posInf | .fin _, .negInf => .fin 0
  | .fin a, .fin b =>
    if b ≠ 0 then ofRat (a / b)
    else if a = 0 then .nan else if 0 < a then .posInf else .negInf

/-- `Math.ceil(x)`. -/
def ceil : Number → Number
  | .fin q => .fin ⌈q⌉
  | x => x

/-- `Math.floor(x)`. -/
def floor : Number → Number
  | .fin q => .fin ⌊q⌋
  | x => x

/-- `Math.round(x)`. -/
def round : Number → Number
  | .fin q => .fin ⌊q + 1 / 2⌋
  | x => x

/-! ## Bounds -/

theorem fin_le_ofRat (hq : IsDouble (.fin q)) (h : q ≤ r) : (Number.fin q).le (ofRat r) = true := by
  have hle := ofRat_le_ofRat h
  rwa [hq q rfl] at hle

theorem ofRat_le_fin (hr : IsDouble (.fin r)) (h : q ≤ r) : (ofRat q).le (.fin r) = true := by
  have hle := ofRat_le_ofRat h
  rwa [hr r rfl] at hle

theorem floor_le_intCast {x : Number} {n : ℤ} (h : x.le (.fin n) = true) :
    x.floor.le (.fin n) = true := by
  cases x with
  | nan | posInf => cases h
  | negInf => rfl
  | fin q =>
    rw [le_fin, decide_eq_true_eq] at h
    rw [floor, le_fin, decide_eq_true_eq]
    exact (Int.floor_le q).trans h

/-- A smaller number is cut off below. -/
theorem max_fin_eq {a b : ℚ} {x : Number} (hx : x.le (.fin b) = true) (hab : a ≤ b) :
    ∃ q, Number.max (.fin a) x = .fin q ∧ a ≤ q ∧ q ≤ b := by
  cases x with
  | nan | posInf => cases hx
  | negInf => exact ⟨a, rfl, le_rfl, hab⟩
  | fin q =>
    rw [le_fin, decide_eq_true_eq] at hx
    by_cases h : a ≤ q
    · exact ⟨q, by simp [Number.max, h], h, hx⟩
    · exact ⟨a, by simp [Number.max, h], le_rfl, hab⟩

/-- A larger number is cut off above. -/
theorem min_fin_eq {a b : ℚ} {x : Number} (hx : (Number.fin a).le x = true) (hab : a ≤ b) :
    ∃ q, Number.min (.fin b) x = .fin q ∧ a ≤ q ∧ q ≤ b := by
  cases x with
  | nan | negInf => cases hx
  | posInf => exact ⟨b, rfl, hab, le_rfl⟩
  | fin q =>
    rw [le_fin, decide_eq_true_eq] at hx
    by_cases h : b ≤ q
    · exact ⟨b, by simp [Number.min, h], hab, le_rfl⟩
    · exact ⟨q, by simp [Number.min, h], hx, (not_le.mp h).le⟩

/-- **The integer part of a double is one.** -/
theorem isDouble_trunc {x : Number} (hx : IsDouble x) : IsDouble x.trunc := by
  cases x with
  | nan | posInf | negInf => exact hx
  | fin q =>
    have hq := rounded_of_ofRat (hx q rfl)
    by_cases he : 0 ≤ ulpExp q
    · obtain ⟨n, hn⟩ : ∃ n : ℤ, q = n := by
        obtain ⟨k, hk⟩ := Int.eq_ofNat_of_zero_le he
        rw [rounded, hk, zpow_natCast] at hq
        refine ⟨roundEven (q / 2 ^ k) * 2 ^ k, ?_⟩
        push_cast
        exact hq.symm
      rw [trunc, hn, Int.floor_intCast, Int.ceil_intCast, ite_self, ← hn]
      exact hx
    · apply isDouble_intCast
      have hlt : |q| < 2 ^ 53 := by
        refine (abs_lt_zpow_ulpExp q).trans_le ?_
        exact_mod_cast zpow_le_zpow_right₀ (one_le_two (α := ℚ)) (by omega : ulpExp q + 53 ≤ 53)
      obtain ⟨hlow, hup⟩ := abs_lt.mp hlt
      rw [abs_le]
      split_ifs with h
      · constructor
        · exact (by norm_num : (-2 ^ 53 : ℤ) ≤ 0).trans (Int.floor_nonneg.mpr h)
        · exact_mod_cast (Int.floor_le q).trans hup.le
      · constructor
        · exact_mod_cast hlow.le.trans (Int.le_ceil q)
        · have hceil : ⌈q⌉ ≤ 0 := by
            rw [Int.ceil_le, Int.cast_zero]
            exact (not_le.mp h).le
          exact hceil.trans (by norm_num)

/-! ## Products and quotients of lengths -/

theorem mul_natCast {a b : ℕ} (h : a * b ≤ 2 ^ 53) : mul (.fin a) (.fin b) = .fin (a * b : ℕ) := by
  have hround := ofRat_intCast (n := ((a * b : ℕ) : ℤ)) (by
    rw [abs_of_nonneg (by positivity)]
    exact_mod_cast h)
  rw [mul, ← Nat.cast_mul]
  exact_mod_cast hround

theorem isDouble_mul_zpow {k m : ℤ} (hm : |m| ≤ 2 ^ 53) (hk : -1074 ≤ k) (hk' : k ≤ 0) :
    IsDouble (.fin (m * 2 ^ k)) := by
  intro q hq
  cases hq
  have hround := rounded_eq_self hm hk
  have hpow : (2 : ℚ) ^ k ≤ 1 := zpow_le_one_of_nonpos₀ one_le_two hk'
  have hpos : (0 : ℚ) < 2 ^ k := by positivity
  have habs : |(m * 2 ^ k : ℚ)| ≤ 2 ^ 53 := by
    rw [abs_mul, abs_of_pos hpos]
    have hm' : |(m : ℚ)| ≤ 2 ^ 53 := by exact_mod_cast hm
    exact (mul_le_of_le_one_right (abs_nonneg _) hpow).trans hm'
  have hbig : (2 : ℚ) ^ 53 < 2 ^ 1024 := pow_lt_pow_right₀ one_lt_two (by norm_num)
  obtain ⟨hlow, hup⟩ := abs_le.mp habs
  rw [ofRat_def, hround, if_neg (not_le.mpr (hup.trans_lt hbig)), if_neg]
  exact not_le.mpr ((neg_lt_neg hbig).trans_le hlow)

/-- **Quotients of lengths round up exactly**, from the divisor on. -/
theorem ceil_div_natCast {n m : ℕ} (hm : 0 < m) (hmn : m ≤ n) (hn : n < 2 ^ 32) :
    ceil (div (.fin n) (.fin m)) = .fin ((n + m - 1) / m : ℕ) := by
  have hm0 : (0 : ℚ) < m := by exact_mod_cast hm
  obtain ⟨c, hc⟩ : ∃ c, (n + m - 1) / m = c + 1 := by
    have hpos := Nat.div_pos (by omega : m ≤ n + m - 1) hm
    exact ⟨(n + m - 1) / m - 1, by omega⟩
  obtain ⟨hlow, hup⟩ : c * m < n ∧ n ≤ (c + 1) * m := by
    have hdiv := Nat.div_add_mod (n + m - 1) m
    have hmod := Nat.mod_lt (n + m - 1) hm
    rw [hc, Nat.mul_succ, mul_comm] at hdiv
    rw [Nat.succ_mul]
    omega
  have hcn : c < n := (Nat.le_mul_of_pos_right c hm).trans_lt hlow
  -- a double between `c` and the quotient
  obtain ⟨j, hj, hj'⟩ : ∃ j : ℕ, m < 2 ^ j ∧ 2 ^ j ≤ 2 * m := by
    refine ⟨Nat.log 2 m + 1, Nat.lt_pow_succ_log_self one_lt_two m, ?_⟩
    rw [pow_succ, mul_comm]
    exact Nat.mul_le_mul_left 2 (Nat.pow_log_le_self 2 hm.ne')
  have hbits : c * 2 ^ j + 1 < 2 ^ 34 := by
    have hstep : c * 2 ^ j ≤ 2 * (c * m) := by
      rw [mul_left_comm]
      exact Nat.mul_le_mul_left c hj'
    omega
  have hjs : j ≤ 33 := by
    rw [← Nat.pow_le_pow_iff_right one_lt_two]
    omega
  have hdouble : IsDouble (.fin (((c * 2 ^ j + 1 : ℕ) : ℤ) * 2 ^ (-(j : ℤ)))) := by
    refine isDouble_mul_zpow ?_ (by omega) (by omega)
    rw [abs_of_nonneg (by positivity)]
    exact_mod_cast hbits.le.trans (by norm_num)
  have habove : (c : ℚ) < ((c * 2 ^ j + 1 : ℕ) : ℤ) * 2 ^ (-(j : ℤ)) := by
    rw [zpow_neg, zpow_natCast, ← div_eq_mul_inv, lt_div_iff₀ (by positivity)]
    push_cast
    linarith
  have hbelow : ((c * 2 ^ j + 1 : ℕ) : ℤ) * 2 ^ (-(j : ℤ)) ≤ (n / m : ℚ) := by
    rw [zpow_neg, zpow_natCast, ← div_eq_mul_inv, div_le_div_iff₀ (by positivity) hm0]
    have hnat : (c * 2 ^ j + 1) * m ≤ n * 2 ^ j := by
      have hnext : (c * m + 1) * 2 ^ j ≤ n * 2 ^ j := Nat.mul_le_mul_right _ hlow
      refine Nat.le_trans ?_ hnext
      rw [Nat.succ_mul, Nat.succ_mul, mul_right_comm]
      exact Nat.add_le_add_left hj.le _
    exact_mod_cast hnat
  have hle := fin_le_ofRat hdouble hbelow
  have hge : (ofRat (n / m)).le (.fin ((c + 1 : ℕ) : ℤ)) = true := by
    refine ofRat_le_fin (isDouble_intCast ?_) ?_
    · rw [abs_of_nonneg (by positivity)]
      exact_mod_cast (by omega : c + 1 ≤ 2 ^ 53)
    · rw [div_le_iff₀ hm0]
      exact_mod_cast hup
  rw [hc, div, if_pos hm0.ne']
  cases hr : ofRat (n / m) with
  | nan | negInf =>
    rw [hr] at hle
    cases hle
  | posInf =>
    rw [hr] at hge
    cases hge
  | fin r =>
    rw [hr, le_fin, decide_eq_true_eq] at hle hge
    have hceil : ⌈r⌉ = ((c + 1 : ℕ) : ℤ) := by
      rw [Int.ceil_eq_iff]
      push_cast at hge ⊢
      exact ⟨by linarith [habove.trans_le hle], hge⟩
    rw [ceil, hceil]
    rfl

/-- Numbers of pages, of which there is at least one. -/
theorem max_ceil_div_natCast {n m : ℕ} (hm : 0 < m) (hn : n < 2 ^ 32) :
    Number.max (.fin 1) (ceil (div (.fin n) (.fin m))) = .fin (1 ⊔ ((n + m - 1) / m) : ℕ) := by
  by_cases hmn : m ≤ n
  · rw [ceil_div_natCast hm hmn hn]
    have hpos := Nat.div_pos (by omega : m ≤ n + m - 1) hm
    rw [max_eq_right hpos]
    have hone : (1 : ℚ) ≤ ((n + m - 1) / m : ℕ) := by exact_mod_cast hpos
    simp [Number.max, hone]
  · have hm0 : (0 : ℚ) < m := by exact_mod_cast hm
    have hsmall : (n + m - 1) / m ≤ 1 := by
      rw [Nat.div_le_iff_le_mul_add_pred hm]
      omega
    rw [max_eq_left hsmall, div, if_pos hm0.ne']
    have hge : (ofRat (n / m)).le (.fin ((1 : ℤ) : ℚ)) = true := by
      refine ofRat_le_fin (isDouble_intCast (by norm_num)) ?_
      rw [Int.cast_one, div_le_one hm0]
      exact_mod_cast (by omega : n ≤ m)
    cases hr : ofRat (n / m) with
    | nan | posInf =>
      rw [hr] at hge
      cases hge
    | negInf => rfl
    | fin r =>
      rw [hr, le_fin, decide_eq_true_eq] at hge
      have hceil : ((⌈r⌉ : ℤ) : ℚ) ≤ 1 := by exact_mod_cast Int.ceil_le.mpr hge
      rw [ceil, Number.max, if_neg (by simp), Nat.cast_one]
      split_ifs with hle
      · rw [le_fin, decide_eq_true_eq] at hle
        rw [le_antisymm hceil hle]
      · rfl

/-- A sum of naturals is exact, or behind every length. -/
theorem add_lengths (a m : ℕ) :
    (add (.fin a) (.fin m) = .fin (a + m : ℕ)) ∨
      2 ^ 53 < a + m ∧ (fin (2 ^ 53 : ℕ)).le (add (.fin a) (.fin m)) = true := by
  by_cases hsmall : a + m ≤ 2 ^ 53
  · exact .inl (add_natCast hsmall)
  · refine .inr ⟨not_le.mp hsmall, fin_le_ofRat ?_ ?_⟩
    · have hdouble := isDouble_intCast (n := 2 ^ 53) (by norm_num)
      exact_mod_cast hdouble
    · exact_mod_cast (not_le.mp hsmall).le

/-- The end of a slice. -/
theorem relIndex_add (a m : ℕ) {len : ℕ} (hlen : len < 2 ^ 32) :
    (add (.fin a) (.fin m)).relIndex len = (a + m) ⊓ len := by
  rcases add_lengths a m with hexact | ⟨hlarge, hle⟩
  · rw [hexact, relIndex_natCast]
  · rw [Nat.min_eq_right (by omega)]
    cases hk : add (.fin a) (.fin m) with
    | nan | negInf =>
      rw [hk] at hle
      cases hle
    | posInf => rfl
    | fin q =>
      rw [hk, le_fin, decide_eq_true_eq] at hle
      have hq : (0 : ℚ) ≤ q := (by positivity : (0 : ℚ) ≤ ((2 ^ 53 : ℕ) : ℚ)).trans hle
      have hfloor : ((2 ^ 53 : ℕ) : ℤ) ≤ ⌊q⌋ := by
        rw [Int.le_floor]
        exact_mod_cast hle
      simp only [relIndex, if_pos hq]
      rw [if_neg (by omega), Nat.min_eq_right (by omega)]

/-- Whether the end of a slice is inside. -/
theorem add_lt_natCast (a m : ℕ) {len : ℕ} (hlen : len < 2 ^ 32) :
    (add (.fin a) (.fin m)).lt (.fin len) = decide (a + m < len) := by
  rcases add_lengths a m with hexact | ⟨hlarge, hle⟩
  · rw [hexact, lt_fin]
    exact decide_eq_decide.mpr Nat.cast_lt
  · rw [decide_eq_false (by omega)]
    by_contra hlt
    rw [Bool.not_eq_false] at hlt
    have hlt := lt_of_le_of_lt hle hlt
    rw [lt_fin, decide_eq_true_eq, Nat.cast_lt] at hlt
    omega

/-- `Math.abs(x)`. -/
def abs : Number → Number
  | .nan => .nan
  | .posInf | .negInf => .posInf
  | .fin q => .fin |q|

end Js.Number
