import StreamFi.Js.Rounding
import StreamFi.Js.Text

/-!
# Reading numbers back

`String(x)` writes a double with as few digits as read back as it, and seventeen always do.

* `digitsAt_spec`, **`digitsAt_seventeen`**: the digits of one length, and the length that suffices;
* **`numToText_reads`**: where `BigInt` takes the text of a positive double, the text is a string of
  digits whose value is rounded to that double;
* `toNumber`: `Number(s)` on a string, with **`toNumber_decimal`**; `Double`: the numbers that are
  doubles.
-/

namespace Js

open Number

/-! ## Integer literals -/

theorem isDigit_of_digitVal {c : Char} {d : ℕ} (h : digitVal c = some d) (hd : d < 10) :
    c.isDigit = true := by
  have hnat (c : Char) : c.val.toNat = c.toNat := rfl
  unfold digitVal at h
  split_ifs at h with h₁ h₂ h₃
  · exact h₁
  · have := Option.some.inj h
    simp [Char.isLower, UInt32.le_iff_toNat_le, hnat] at h₂
    omega
  · have := Option.some.inj h
    simp [Char.isUpper, UInt32.le_iff_toNat_le, hnat] at h₃
    omega

theorem allDigits_of_foldlM {cs : List Char} {m n : ℕ}
    (h : cs.foldlM (fun n c => (digitVal c).bind fun d => if d < 10 then some (10 * n + d) else none)
      m = some n) : AllDigits cs := by
  induction cs generalizing m with
  | nil =>
    intro c hc
    cases hc
  | cons c cs ih =>
    obtain ⟨k, hk, h⟩ := Option.bind_eq_some_iff.mp h
    obtain ⟨d, hd, hlt⟩ := Option.bind_eq_some_iff.mp hk
    intro c' hc'
    rcases List.mem_cons.mp hc' with rfl | hc'
    · refine isDigit_of_digitVal hd ?_
      by_contra hge
      rw [if_neg hge] at hlt
      cases hlt
    · exact ih h c' hc'

theorem allDigits_of_ofDigits {cs : List Char} {n : ℕ} (h : ofDigits 10 cs = some n) :
    AllDigits cs := by
  unfold ofDigits at h
  split_ifs at h
  exact allDigits_of_foldlM h

/-- The characters of a number's text: digits, a point, an exponent with its sign. -/
def TextChar (c : Char) : Prop := c.isDigit = true ∨ c = '.' ∨ c = 'e' ∨ c = '+' ∨ c = '-'

theorem TextChar.not_isSpace {c : Char} (h : TextChar c) : isSpace c = false := by
  rcases h with h | rfl | rfl | rfl | rfl
  · exact not_isSpace_of_isDigit h
  all_goals decide

theorem TextChar.not_radix {c : Char} (h : TextChar c) :
    c ≠ 'x' ∧ c ≠ 'X' ∧ c ≠ 'o' ∧ c ≠ 'O' ∧ c ≠ 'b' ∧ c ≠ 'B' := by
  rcases h with h | rfl | rfl | rfl | rfl
  · refine ⟨?_, ?_, ?_, ?_, ?_, ?_⟩ <;> (rintro rfl; cases h)
  all_goals decide

theorem radixPrefix_of_text {cs : List Char} (h : ∀ c ∈ cs, TextChar c) : radixPrefix cs = none := by
  unfold radixPrefix
  split
  · rename_i d ds
    obtain ⟨h₁, h₂, h₃, h₄, h₅, h₆⟩ := (h d (by simp)).not_radix
    simp [h₁, h₂, h₃, h₄, h₅, h₆]
  · rfl

/-- Of the texts that do not start with a sign `BigInt` takes the digit strings. -/
theorem allDigits_of_bigInt {c : Char} {cs : List Char} {n : ℤ} (h₁ : c ≠ '-') (h₂ : c ≠ '+')
    (htext : ∀ d ∈ c :: cs, TextChar d) (h : bigInt (String.ofList (c :: cs)) = some n) :
    AllDigits (c :: cs) := by
  rw [bigInt, String.toList_ofList, trim_of_forall fun d hd => (htext d hd).not_isSpace, intLiteral,
    if_neg h₁, if_neg h₂, radixPrefix_of_text htext] at h
  cases hm : ofDigits 10 (c :: cs) with
  | none =>
    rw [hm] at h
    cases h
  | some m => exact allDigits_of_ofDigits hm

/-! ## Shortest digits -/

section Digits

variable {q : ℚ} {n : ℤ} {k d : ℕ}

/-- What is found has `k` digits and reads back. -/
theorem digitsAt_spec (h : digitsAt q n k = some d) :
    10 ^ (k - 1) ≤ d ∧ d < 10 ^ k ∧ ofRat (d * 10 ^ (n - k)) = .fin q := by
  have hread {s : ℤ} (hs : (10 ^ (k - 1) ≤ s && s < 10 ^ k &&
      ofRat (s * 10 ^ (n - k)) = .fin q) = true) (hd : s.toNat = d) :
      10 ^ (k - 1) ≤ d ∧ d < 10 ^ k ∧ ofRat (d * 10 ^ (n - k)) = .fin q := by
    simp only [Bool.and_eq_true, decide_eq_true_eq] at hs
    obtain ⟨⟨hlow, hup⟩, hround⟩ := hs
    have hnonneg : 0 ≤ s := le_trans (by positivity) hlow
    lift s to ℕ using hnonneg
    rw [Int.toNat_natCast] at hd
    subst hd
    exact ⟨by exact_mod_cast hlow, by exact_mod_cast hup, by exact_mod_cast hround⟩
  unfold digitsAt at h
  simp only at h
  split_ifs at h with h₁ h₂
  · rw [Bool.and_eq_true] at h₁
    exact hread h₁.1 (Option.some.inj h)
  · exact hread h₂ (Option.some.inj h)

theorem length_toDigits (h₁ : 10 ^ (k - 1) ≤ d) (h₂ : d < 10 ^ k) (hk : 0 < k) :
    (Nat.toDigits 10 d).length = k := by
  have hle : (Nat.toDigits 10 d).length ≤ k :=
    (Nat.length_toDigits_le_iff (by norm_num) hk).mpr h₂
  rcases Nat.lt_or_ge (Nat.toDigits 10 d).length k with hlt | hge
  · rcases Nat.eq_zero_or_pos (k - 1) with h0 | hpos
    · have := Nat.length_toDigits_pos (b := 10) (n := d)
      omega
    · have := (Nat.length_toDigits_le_iff (b := 10) (n := d) (by norm_num) hpos).mp (by omega)
      omega
  · omega

/-- **Seventeen digits suffice**, next to a power of ten. -/
theorem digitsAt_seventeen (hq : 0 < q) (hd : ofRat q = .fin q) (hlow : 10 ^ (n - 1) ≤ q)
    (hup : q < 10 ^ n) (hpow : ofRat (10 ^ n) ≠ .fin q) : (digitsAt q n 17).isSome = true := by
  set u : ℚ := 10 ^ (n - (17 : ℕ)) with hu
  have hupos : 0 < u := by positivity
  have hsplit (k : ℤ) : (10 : ℚ) ^ (n - 17 + k) = 10 ^ k * u := by
    rw [hu, add_comm, zpow_add₀ (by norm_num)]
    norm_num
  have hlow' : 10 ^ 16 * u ≤ q := by
    rw [← zpow_natCast, ← hsplit]
    exact_mod_cast (by ring_nf : (10 : ℚ) ^ (n - 17 + 16) = 10 ^ (n - 1)).trans_le hlow
  have hten : (10 : ℚ) ^ 17 * u = 10 ^ n := by
    rw [← zpow_natCast, ← hsplit]
    congr 1
    push_cast
    ring
  have hylow : (10 : ℚ) ^ 16 ≤ q / u := (le_div_iff₀ hupos).mpr hlow'
  have hyup : q / u < 10 ^ 17 := by
    rw [div_lt_iff₀ hupos, hten]
    exact hup
  -- an integer within one half of the quotient reads back
  have hread {s : ℤ} (hs : |s - q / u| ≤ 1 / 2) : ofRat (s * u) = .fin q := by
    apply ofRat_eq_of_near hq hd
    have hsu : (s * u - q : ℚ) = (s - q / u) * u := by
      rw [sub_mul, div_mul_cancel₀ _ hupos.ne']
    rw [hsu, abs_mul, abs_of_pos hupos]
    have : |(s : ℚ) - q / u| * u ≤ 1 / 2 * u := by gcongr
    linarith
  have hfl : (10 : ℤ) ^ 16 ≤ ⌊q / u⌋ := Int.le_floor.mpr (by exact_mod_cast hylow)
  have hfl' : ⌊q / u⌋ < (10 : ℤ) ^ 17 := Int.floor_lt.mpr (by exact_mod_cast hyup)
  have hce : (10 : ℤ) ^ 16 ≤ ⌈q / u⌉ := hfl.trans (Int.floor_le_ceil _)
  have hce' : ⌈q / u⌉ ≤ (10 : ℤ) ^ 17 := Int.ceil_le.mpr (by exact_mod_cast hyup.le)
  have h₁ := Int.floor_le (q / u)
  have h₂ := Int.le_ceil (q / u)
  have h₃ : (⌈q / u⌉ : ℚ) ≤ ⌊q / u⌋ + 1 := by exact_mod_cast Int.ceil_le_floor_add_one (q / u)
  have hok {s : ℤ} (hs : |s - q / u| ≤ 1 / 2) (h16 : 10 ^ 16 ≤ s) (h17 : s < 10 ^ 17) :
      (10 ^ (17 - 1) ≤ s && s < 10 ^ 17 && ofRat (s * u) = .fin q) = true := by
    simp only [Bool.and_eq_true, decide_eq_true_eq]
    exact ⟨⟨h16, h17⟩, hread hs⟩
  simp only [digitsAt, ← hu]
  split_ifs with ha hb
  · rfl
  · rfl
  · exfalso
    rcases le_or_gt (q / u - ⌊q / u⌋) (1 / 2) with hnear | hfar
    · have hfloor := hok (s := ⌊q / u⌋) (abs_le.mpr ⟨by linarith, by linarith⟩) hfl hfl'
      rw [hfloor, Bool.true_and, Bool.or_eq_true, not_or] at ha
      exact hb (by simpa using ha.1)
    · have hnear : |(⌈q / u⌉ : ℚ) - q / u| ≤ 1 / 2 := abs_le.mpr ⟨by linarith, by linarith⟩
      rcases hce'.lt_or_eq with hlt | heq
      · exact hb (hok hnear hce hlt)
      · apply hpow
        rw [← hten, ← hread hnear, heq]
        norm_num

/-- **The shortest digits read back.** -/
theorem shortest_reads (hq : 0 < q) (hd : ofRat q = .fin q) :
    ∃ d : ℕ, 0 < d ∧ (shortest q).2 = Nat.toDigits 10 d ∧
      ofRat (d * 10 ^ ((shortest q).1 - (shortest q).2.length)) = .fin q := by
  unfold shortest
  simp only
  split_ifs with hpow
  · -- a power of ten
    refine ⟨1, one_pos, rfl, ?_⟩
    rw [List.length_singleton, Nat.cast_one, Nat.cast_one, add_sub_cancel_right, one_mul]
    exact hpow
  · have hlow : (10 : ℚ) ^ (Int.log 10 q + 1 - 1) ≤ q := by
      rw [add_sub_cancel_right]
      exact_mod_cast Int.zpow_log_le_self (by norm_num) hq
    have hup : q < (10 : ℚ) ^ (Int.log 10 q + 1) := by
      exact_mod_cast Int.lt_zpow_succ_log_self (by norm_num) q
    have h17 := digitsAt_seventeen hq hd hlow hup hpow
    cases hfind : ((List.range 17).map (· + 1)).findSome? (digitsAt q (Int.log 10 q + 1)) with
    | none =>
      have := List.findSome?_eq_none_iff.mp hfind 17 (by decide)
      rw [this] at h17
      cases h17
    | some d =>
      obtain ⟨k, hk, hdk⟩ := List.exists_of_findSome?_eq_some hfind
      have hkpos : 0 < k := by
        obtain ⟨j, -, rfl⟩ := List.mem_map.mp hk
        exact Nat.succ_pos j
      obtain ⟨hlow, hup, hread⟩ := digitsAt_spec hdk
      have hdpos : 0 < d := lt_of_lt_of_le (by positivity) hlow
      refine ⟨d, hdpos, rfl, ?_⟩
      rw [Option.getD_some, length_toDigits hlow hup hkpos]
      exact hread

/-- The same when none of them stands behind the point. -/
theorem shortest_spec (hq : 0 < q) (hd : ofRat q = .fin q)
    (hlen : ((shortest q).2.length : ℤ) ≤ (shortest q).1) :
    ∃ d : ℕ, 0 < d ∧ (shortest q).2 = Nat.toDigits 10 d ∧
      ofRat ((d * 10 ^ ((shortest q).1 - (shortest q).2.length).toNat : ℕ)) = .fin q := by
  obtain ⟨d, hdpos, hdigits, hread⟩ := shortest_reads hq hd
  refine ⟨d, hdpos, hdigits, ?_⟩
  push_cast
  rw [← zpow_natCast, Int.toNat_of_nonneg (by omega)]
  exact hread

end Digits

/-! ## The text of a number -/

/-- Where `BigInt` takes laid-out digits, zeros have been appended to them. -/
theorem layout_of_bigInt {n : ℤ} {ds : List Char} {N : ℤ} (hds : AllDigits ds) (hne : ds ≠ [])
    (h : bigInt (String.ofList (layout (n, ds))) = some N) :
    (ds.length : ℤ) ≤ n ∧ n ≤ 21 ∧
      layout (n, ds) = ds ++ List.replicate (n - ds.length).toNat '0' := by
  obtain ⟨d, ds, rfl⟩ := List.exists_cons_of_ne_nil hne
  have hd : d.isDigit = true := hds d List.mem_cons_self
  have htext : ∀ c ∈ ds, TextChar c := fun c hc => .inl (hds c (List.mem_cons_of_mem _ hc))
  -- a point or an exponent behind a first digit is not taken
  have hno {c : Char} {cs : List Char} {x : Char} (hx : x.isDigit = false) (hmem : x ∈ cs)
      (hc : c.isDigit = true) (hcs : ∀ y ∈ cs, TextChar y)
      (h : bigInt (String.ofList (c :: cs)) = some N) : False := by
    have h₁ : c ≠ '-' := by rintro rfl; cases hc
    have h₂ : c ≠ '+' := by rintro rfl; cases hc
    have htext : ∀ y ∈ c :: cs, TextChar y := by
      intro y hy
      rcases List.mem_cons.mp hy with rfl | hy
      · exact .inl hc
      · exact hcs y hy
    have := allDigits_of_bigInt h₁ h₂ htext h x (List.mem_cons_of_mem _ hmem)
    rw [hx] at this
    cases this
  simp only [layout] at h ⊢
  by_cases h₁ : ((d :: ds).length : ℤ) ≤ n ∧ n ≤ 21
  · rw [if_pos h₁]
    exact ⟨h₁.1, h₁.2, rfl⟩
  rw [if_neg h₁] at h
  exfalso
  by_cases h₂ : 0 < n ∧ n ≤ 21
  · rw [if_pos h₂] at h
    obtain ⟨m, hm⟩ : ∃ m, n.toNat = m + 1 := ⟨n.toNat - 1, by omega⟩
    rw [hm, List.take_succ_cons, List.drop_succ_cons, List.cons_append] at h
    refine hno (x := '.') (by decide) (by simp) hd ?_ h
    intro y hy
    simp only [List.mem_append, List.mem_cons] at hy
    rcases hy with hy | rfl | hy
    · exact htext y (List.mem_of_mem_take hy)
    · exact .inr (.inl rfl)
    · exact htext y (List.mem_of_mem_drop hy)
  rw [if_neg h₂] at h
  by_cases h₃ : -6 < n ∧ n ≤ 0
  · rw [if_pos h₃, List.cons_append] at h
    refine hno (x := '.') (by decide) (by simp) (by decide) ?_ h
    intro y hy
    simp only [List.cons_append, List.mem_append, List.mem_cons, List.mem_replicate] at hy
    rcases hy with rfl | ⟨-, rfl⟩ | rfl | hy
    · exact .inr (.inl rfl)
    · exact .inl (by decide)
    · exact .inl hd
    · exact htext y hy
  · rw [if_neg h₃, List.take_succ_cons, List.take_zero, List.cons_append, List.cons_append,
      List.nil_append] at h
    refine hno (x := 'e') (by decide) (by simp) hd ?_ h
    intro y hy
    rw [List.mem_append, List.mem_cons, List.mem_cons] at hy
    rcases hy with hy | rfl | rfl | hy
    · split_ifs at hy
      · cases hy
      · rcases List.mem_cons.mp hy with rfl | hy
        · exact .inr (.inl rfl)
        · exact htext y hy
    · exact .inr (.inr (.inl rfl))
    · split_ifs
      · exact .inr (.inr (.inr (.inl rfl)))
      · exact .inr (.inr (.inr (.inr rfl)))
    · exact .inl (allDigits_toDigits _ y hy)

theorem ofDigitChars_zeros (d m : ℕ) :
    Nat.ofDigitChars 10 (Nat.toDigits 10 d ++ List.replicate m '0') 0 = d * 10 ^ m := by
  rw [Nat.ofDigitChars_append, Nat.ofDigitChars_ten_toDigits, Nat.ofDigitChars_replicate_zero,
    mul_comm]

/-- Digits and zeros behind them, in `n` places. -/
theorem lt_of_toDigits {d k : ℕ} {n : ℤ} (hk : (Nat.toDigits 10 d).length = k) (hlen : (k : ℤ) ≤ n) :
    (d : ℤ) * 10 ^ (n - k).toNat < 10 ^ n.toNat := by
  have hpos : 0 < k := hk ▸ Nat.length_toDigits_pos
  have hd : d < 10 ^ k := (Nat.length_toDigits_le_iff (by norm_num) hpos).mp hk.le
  have hsplit : n.toNat = k + (n - k).toNat := by omega
  rw [hsplit, pow_add]
  have : (d : ℤ) < 10 ^ k := by exact_mod_cast hd
  exact mul_lt_mul_of_pos_right this (by positivity)

/-- **What `BigInt` takes of the text of a positive double**: a string of digits, at most twenty-one,
whose value is rounded to that double. -/
theorem numToText_reads {q : ℚ} (hq : 0 < q) (hd : IsDouble (.fin q)) {N : ℤ}
    (h : bigInt (numToText (.fin q)) = some N) :
    AllDigits (numToText (.fin q)).toList ∧ (numToText (.fin q)).toList ≠ [] ∧ 0 < N ∧
      N < 10 ^ 21 ∧ ofRat N = .fin q := by
  have hdq := hd q rfl
  have habs : |q| = q := abs_of_pos hq
  simp only [numToText, if_neg hq.le.not_gt, List.nil_append, habs] at h ⊢
  by_cases hint : q.isInt = true ∧ q ≤ 2 ^ 53
  · rw [if_pos hint] at h ⊢
    have hdigits := allDigits_toDigits q.num.natAbs
    obtain ⟨n, rfl⟩ := Number.isInt_iff.mp hint.1
    have hn : 0 < n := by exact_mod_cast hq
    rw [bigInt_ofDigits hdigits, Nat.ofDigitChars_ten_toDigits, Rat.num_intCast,
      Int.natAbs_of_nonneg hn.le] at h
    cases h
    rw [String.toList_ofList]
    have hle : N ≤ 2 ^ 53 := by exact_mod_cast hint.2
    exact ⟨hdigits, Nat.toDigits_ne_nil, hn, hle.trans_lt (by norm_num), hdq⟩
  · rw [if_neg hint] at h ⊢
    have hds : AllDigits (shortest q).2 := by
      unfold shortest
      simp only
      split_ifs
      · intro c hc
        rw [List.mem_singleton.mp hc]
        rfl
      · exact allDigits_toDigits _
    have hne : (shortest q).2 ≠ [] := by
      unfold shortest
      simp only
      split_ifs
      · exact List.cons_ne_nil _ _
      · exact Nat.toDigits_ne_nil
    obtain ⟨hlen, hmax, hlayout⟩ := layout_of_bigInt (n := (shortest q).1) hds hne h
    obtain ⟨d, hdpos, hdigits, hread⟩ := shortest_spec hq hdq hlen
    have hall : AllDigits (layout (shortest q)) := by
      intro c hc
      rw [hlayout, List.mem_append, List.mem_replicate] at hc
      rcases hc with hc | ⟨-, rfl⟩
      · exact hds c hc
      · rfl
    rw [bigInt_ofDigits hall, hlayout, hdigits, ofDigitChars_zeros] at h
    cases h
    rw [String.toList_ofList]
    refine ⟨hall, ?_, by positivity, ?_, ?_⟩
    · rw [hlayout]
      exact List.append_ne_nil_of_left_ne_nil hne _
    · have hlt := lt_of_toDigits (d := d) rfl (hdigits ▸ hlen)
      have hpow : (10 : ℤ) ^ (shortest q).1.toNat ≤ 10 ^ 21 :=
        pow_le_pow_right₀ (by norm_num) (by omega)
      rw [Nat.cast_mul, Nat.cast_pow, Nat.cast_ofNat]
      exact lt_of_lt_of_le hlt hpow
    · rw [← hread, hdigits]
      push_cast
      rfl

/-! ## Reading a string -/

/-- The exponent, with its letter; none is `0`. -/
def exponentPart : List Char → Option ℤ
  | [] => some 0
  | _ :: '+' :: ds => (ofDigits 10 ds).map Int.ofNat
  | _ :: '-' :: ds => (ofDigits 10 ds).map fun n => -Int.ofNat n
  | _ :: ds => (ofDigits 10 ds).map Int.ofNat

/-- The value of digits around an optional point. -/
def pointValue (cs : List Char) : ℚ :=
  Nat.ofDigitChars 10 (cs.takeWhile (· ≠ '.')) 0 +
    Nat.ofDigitChars 10 ((cs.dropWhile (· ≠ '.')).drop 1) 0 /
      10 ^ ((cs.dropWhile (· ≠ '.')).drop 1).length

/-- Digits around an optional point, at least one of them. -/
def PointDigits (cs : List Char) : Prop :=
  AllDigits (cs.takeWhile (· ≠ '.')) ∧ AllDigits ((cs.dropWhile (· ≠ '.')).drop 1) ∧
    ¬ (cs.takeWhile (· ≠ '.') = [] ∧ (cs.dropWhile (· ≠ '.')).drop 1 = [])

instance (cs : List Char) : Decidable (PointDigits cs) := inferInstanceAs (Decidable (_ ∧ _ ∧ _))

/-- An unsigned decimal literal. -/
def decimalLiteral (cs : List Char) : Option ℚ :=
  let mantissa := cs.takeWhile fun c => c ≠ 'e' ∧ c ≠ 'E'
  if PointDigits mantissa then
    (exponentPart (cs.drop mantissa.length)).map fun e => pointValue mantissa * 10 ^ e
  else none

/-- What follows a sign. -/
def decimalNumber (negative : Bool) (cs : List Char) : Number :=
  if cs = "Infinity".toList then if negative then .negInf else .posInf
  else match decimalLiteral cs with
    | some q => ofRat (if negative then -q else q)
    | none => .nan

/-- `Number(s)`. -/
def toNumber (s : String) : Number :=
  match trim s.toList with
  | [] => .fin 0
  | c :: cs => match radixPrefix (c :: cs) with
    | some (b, ds) => match ofDigits b ds with
      | some n => ofRat n
      | none => .nan
    | none =>
      if c = '-' then decimalNumber true cs
      else if c = '+' then decimalNumber false cs
      else decimalNumber false (c :: cs)

theorem isDouble_of_not_fin {x : Number} (h : ∀ q, x ≠ .fin q) : IsDouble x :=
  fun q hq => absurd hq (h q)

theorem isDouble_decimalNumber (negative : Bool) (cs : List Char) :
    IsDouble (decimalNumber negative cs) := by
  unfold decimalNumber
  split_ifs
  · exact isDouble_of_not_fin (by simp)
  · exact isDouble_of_not_fin (by simp)
  all_goals
    split
    · exact isDouble_ofRat _
    · exact isDouble_of_not_fin (by simp)

/-- **A string is read as a double.** -/
theorem isDouble_toNumber (s : String) : IsDouble (toNumber s) := by
  unfold toNumber
  split
  · exact_mod_cast isDouble_intCast (n := 0) (by norm_num)
  · split
    · split
      · exact isDouble_ofRat _
      · exact isDouble_of_not_fin (by simp)
    · split_ifs <;> exact isDouble_decimalNumber _ _

theorem PointDigits.char {cs : List Char} (h : PointDigits cs) {c : Char} (hc : c ∈ cs) :
    c.isDigit = true ∨ c = '.' := by
  obtain ⟨hw, hf, -⟩ := h
  rw [← List.takeWhile_append_dropWhile (p := (· ≠ '.')) (l := cs), List.mem_append] at hc
  rcases hc with hc | hc
  · exact .inl (hw c hc)
  · cases hdrop : cs.dropWhile (· ≠ '.') with
    | nil =>
      rw [hdrop] at hc
      cases hc
    | cons d ds =>
      rw [hdrop] at hc hf
      rcases List.mem_cons.mp hc with rfl | hc
      · have hne : cs.dropWhile (· ≠ '.') ≠ [] := by
          rw [hdrop]
          exact List.cons_ne_nil _ _
        have := List.head_dropWhile_not (· ≠ '.') hne
        simp only [hdrop, List.head_cons, decide_eq_false_iff_not, not_not] at this
        exact .inr this
      · exact .inl (hf c hc)

theorem digit_ne {c : Char} (h : c.isDigit = true) : c ≠ '.' ∧ c ≠ 'e' ∧ c ≠ 'E' := by
  refine ⟨?_, ?_, ?_⟩ <;> (rintro rfl; cases h)

/-- A mantissa without an exponent. -/
theorem decimalLiteral_of_point {cs : List Char} (h : PointDigits cs) :
    decimalLiteral cs = some (pointValue cs) := by
  have hmant : (cs.takeWhile fun c => c ≠ 'e' ∧ c ≠ 'E') = cs := by
    rw [List.takeWhile_eq_self_iff]
    intro c hc
    rcases h.char hc with hc | rfl
    · have := digit_ne hc
      simp [this.2.1, this.2.2]
    · decide
  simp only [decimalLiteral, hmant, if_pos h, List.drop_length, exponentPart, Option.map_some,
    zpow_zero, mul_one]

/-- **A decimal string is read as the double next to its value.** -/
theorem toNumber_decimal {s : String} (h : PointDigits s.toList) :
    toNumber s = ofRat (pointValue s.toList) := by
  have hchar := fun c hc => h.char (c := c) hc
  have htext : ∀ c ∈ s.toList, TextChar c := by
    intro c hc
    rcases hchar c hc with h | h
    · exact .inl h
    · exact .inr (.inl h)
  have htrim : trim s.toList = s.toList := trim_of_forall fun c hc => (htext c hc).not_isSpace
  have hlit := decimalLiteral_of_point h
  have hnum : decimalNumber false s.toList = ofRat (pointValue s.toList) := by
    rw [decimalNumber, if_neg, hlit]
    · rfl
    · intro heq
      have := hchar 'I' (by rw [heq]; decide)
      revert this
      decide
  rw [toNumber, htrim]
  cases hcs : s.toList with
  | nil =>
    rw [hcs] at h
    exact absurd ⟨rfl, rfl⟩ h.2.2
  | cons c cs =>
    rw [hcs] at hchar htext hnum
    have hradix : radixPrefix (c :: cs) = none := radixPrefix_of_text htext
    have hc := hchar c List.mem_cons_self
    have h₁ : c ≠ '-' := by rintro rfl; revert hc; decide
    have h₂ : c ≠ '+' := by rintro rfl; revert hc; decide
    simp only [hradix, if_neg h₁, if_neg h₂]
    exact hnum

/-- A number, with the fact that it is a double. -/
structure Double where
  val : Number
  isDouble : IsDouble val
  deriving DecidableEq

/-- `Number(s)`. -/
def Double.ofString (s : String) : Double := ⟨toNumber s, isDouble_toNumber s⟩

/-- An integer of at most 53 bits. -/
def Double.ofInt (n : ℤ) (h : |n| ≤ 2 ^ 53 := by decide) : Double := ⟨.fin n, isDouble_intCast h⟩

end Js
