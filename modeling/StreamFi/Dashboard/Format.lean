import StreamFi.Dashboard.Records
import StreamFi.Display
import StreamFi.Js.Reading

/-!
# Formatted amounts

The dashboard writes an amount in stroops without arithmetic: it pads the digits, cuts them at the
point, drops zeros and puts commas between thousands.

* `formatAmount`: the code; `AmountText`: the spelling it writes;
* **`formatAmount_exact`**: it writes an integer exactly, as `formatTokenAmount` does.
-/

namespace StreamFi

open Js

/-! ## The code -/

/-- `/^-?\d+$/`. -/
def isIntegerText : List Char → Bool
  | '-' :: digits => !digits.isEmpty && digits.all Char.isDigit
  | digits => !digits.isEmpty && digits.all Char.isDigit

/-- `cs.replace(/^0+(?=\d)/, '')`. -/
def dropLeadingZeros : List Char → List Char
  | '0' :: c :: cs => if c.isDigit then dropLeadingZeros (c :: cs) else '0' :: c :: cs
  | cs => cs

/-- `cs.replace(/\B(?=(\d{3})+(?!\d))/g, ',')`, on digits. -/
def groupThousands : List Char → List Char
  | [] => []
  | c :: cs => if cs ≠ [] ∧ cs.length % 3 = 0 then c :: ',' :: groupThousands cs else c :: groupThousands cs

/-- The decimals of `formatAmount`. -/
def formatPlaces (decimals : Number) : ℕ := if decimals.isFinite then decimals.toNat else 7

def formatAmount {ι : Type} (amount : Value ι) (decimals : Number) : String :=
  let raw := trim (asString amount "0").toList
  if ¬ isIntegerText raw then "0"
  else
    let negative := raw.head? = some '-'
    let digits := if negative then raw.drop 1 else raw
    let places := formatPlaces decimals
    let padded := padStart digits (places + 1)
    let head := padded.take (padded.length - places)
    let whole := dropLeadingZeros (if head = [] then ['0'] else head)
    let fraction := if places = 0 then [] else padded.drop (padded.length - places)
    let trimmedFraction := fraction.rdropWhile (· = '0')
    let formattedWhole := groupThousands whole
    let isZero := formattedWhole = ['0'] ∧ trimmedFraction = []
    let sign := if negative ∧ ¬ isZero then ['-'] else []
    String.ofList (if trimmedFraction = [] then sign ++ formattedWhole
      else sign ++ formattedWhole ++ '.' :: trimmedFraction)

/-! ## The spelling -/

/-- One to three digits, and groups of three behind commas. -/
inductive Grouped : List Char → Prop
  | short {cs : List Char} (h : AllDigits cs) (hne : cs ≠ []) (hlen : cs.length ≤ 3) : Grouped cs
  | group {cs g : List Char} (h : Grouped cs) (hg : AllDigits g) (hlen : g.length = 3) :
      Grouped (cs ++ ',' :: g)

/-- `/^-?(0|[1-9][0-9]{0,2}(,[0-9]{3})*)(\.[0-9]*[1-9])?$/`. -/
def AmountText (cs : List Char) : Prop :=
  ∃ (negative : Bool) (whole frac : List Char),
    cs = (if negative then ['-'] else []) ++ whole ++ pointed frac ∧
      (whole = ['0'] ∨ Grouped whole ∧ whole.head? ≠ some '0') ∧
      AllDigits frac ∧ frac.getLast? ≠ some '0'

/-! ## Zeros -/

section Zeros

variable {cs : List Char}

theorem dropLeadingZeros_spec (h : AllDigits cs) (hne : cs ≠ []) :
    AllDigits (dropLeadingZeros cs) ∧ digitsValue (dropLeadingZeros cs) = digitsValue cs ∧
      dropLeadingZeros cs ≠ [] ∧
      (dropLeadingZeros cs = ['0'] ∨ (dropLeadingZeros cs).head? ≠ some '0') := by
  fun_induction dropLeadingZeros cs with
  | case1 c cs hc ih =>
    have hrest : AllDigits (c :: cs) := fun x hx => h x (List.mem_cons_of_mem _ hx)
    obtain ⟨hdigits, hvalue, hne', hhead⟩ := ih hrest (List.cons_ne_nil _ _)
    refine ⟨hdigits, ?_, hne', hhead⟩
    have hzero : digitsValue ['0'] = 0 := by decide
    rw [hvalue, ← List.singleton_append (l := c :: cs), digitsValue_append, hzero, zero_mul, zero_add]
  | case2 c cs hc => exact absurd (h c (by simp)) hc
  | case3 cs hcs =>
    refine ⟨h, rfl, hne, ?_⟩
    cases cs with
    | nil => exact absurd rfl hne
    | cons c cs =>
      by_cases hc : c = '0'
      · subst hc
        cases cs with
        | nil => exact .inl rfl
        | cons c cs => exact absurd rfl (hcs c cs)
      · exact .inr fun h => hc (Option.some.inj h)

/-- Zeros at the end of a fraction do not count. -/
theorem rdropWhile_zeros (cs : List Char) :
    (digitsValue (cs.rdropWhile (· = '0')) : ℚ) / 10 ^ (cs.rdropWhile (· = '0')).length =
      digitsValue cs / 10 ^ cs.length := by
  induction cs using List.reverseRecOn with
  | nil => rfl
  | append_singleton cs c ih =>
    by_cases hc : c = '0'
    · subst hc
      have hvalue := digitsValue_zeros cs 1
      rw [List.replicate_one] at hvalue
      rw [List.rdropWhile_concat_pos _ _ _ (by decide), ih, hvalue, List.length_append,
        List.length_singleton, pow_add]
      push_cast
      field_simp
    · rw [List.rdropWhile_concat_neg _ _ _ (by simpa using hc)]

theorem getLast?_rdropWhile (cs : List Char) : (cs.rdropWhile (· = '0')).getLast? ≠ some '0' := by
  induction cs using List.reverseRecOn with
  | nil =>
    intro h
    cases h
  | append_singleton cs c ih =>
    by_cases hc : c = '0'
    · rw [List.rdropWhile_concat_pos _ _ _ (by simpa using hc)]
      exact ih
    · rw [List.rdropWhile_concat_neg _ _ _ (by simpa using hc), List.getLast?_concat]
      exact fun h => hc (Option.some.inj h)

theorem allDigits_rdropWhile (h : AllDigits cs) : AllDigits (cs.rdropWhile (· = '0')) :=
  h.sublist (List.rdropWhile_prefix _ _).subset

end Zeros

/-! ## Thousands -/

section Thousands

variable {cs : List Char}

theorem groupThousands_short (h : cs.length ≤ 3) : groupThousands cs = cs := by
  induction cs with
  | nil => rfl
  | cons c cs ih =>
    rw [List.length_cons] at h
    rw [groupThousands, if_neg, ih (by omega)]
    rintro ⟨hne, hmod⟩
    have := List.length_pos_iff.mpr hne
    omega

theorem groupThousands_append {g : List Char} (hne : cs ≠ []) (hg : g.length = 3) :
    groupThousands (cs ++ g) = groupThousands cs ++ ',' :: g := by
  induction cs with
  | nil => exact absurd rfl hne
  | cons c cs ih =>
    rcases List.eq_nil_or_concat cs with rfl | ⟨init, last, rfl⟩
    · have hg' : g ≠ [] := List.length_pos_iff.mp (by omega)
      rw [List.singleton_append, groupThousands, if_pos ⟨hg', by omega⟩, groupThousands_short (by omega)]
      rfl
    · have hne' : init.concat last ≠ [] := by simp
      have hcond : (init.concat last ++ g ≠ [] ∧ (init.concat last ++ g).length % 3 = 0) ↔
          init.concat last ≠ [] ∧ (init.concat last).length % 3 = 0 := by
        rw [List.length_append, hg, Nat.add_mod_right]
        exact and_congr_left' ⟨fun _ => hne', fun _ => List.append_ne_nil_of_left_ne_nil hne' g⟩
      rw [List.cons_append, groupThousands, groupThousands, ih hne', if_congr hcond rfl rfl]
      split_ifs <;> rfl

theorem head?_groupThousands (cs : List Char) : (groupThousands cs).head? = cs.head? := by
  cases cs with
  | nil => rfl
  | cons c cs =>
    rw [groupThousands]
    split_ifs <;> rfl

theorem filter_groupThousands (h : AllDigits cs) : (groupThousands cs).filter (· ≠ ',') = cs := by
  induction cs with
  | nil => rfl
  | cons c cs ih =>
    have hc : c ≠ ',' := by
      rintro rfl
      cases h _ List.mem_cons_self
    have hrest := ih fun x hx => h x (List.mem_cons_of_mem _ hx)
    rw [groupThousands]
    split_ifs
    · rw [List.filter_cons_of_pos (by simpa using hc), List.filter_cons_of_neg (by decide), hrest]
    · rw [List.filter_cons_of_pos (by simpa using hc), hrest]

/-- **The digits are grouped from their end.** -/
theorem grouped_groupThousands (h : AllDigits cs) (hne : cs ≠ []) : Grouped (groupThousands cs) := by
  induction hlen : cs.length using Nat.strong_induction_on generalizing cs with
  | _ n ih =>
    rcases Nat.lt_or_ge 3 n with hn | hn
    · have hg : (cs.drop (n - 3)).length = 3 := by
        rw [List.length_drop]
        omega
      have htake : (cs.take (n - 3)).length = n - 3 := by
        rw [List.length_take]
        omega
      have hne' : cs.take (n - 3) ≠ [] := List.length_pos_iff.mp (by omega)
      rw [← List.take_append_drop (n - 3) cs, groupThousands_append hne' hg]
      refine .group (ih (n - 3) (by omega) ?_ hne' htake) ?_ hg
      · exact h.sublist (List.take_subset _ _)
      · exact h.sublist (List.drop_subset _ _)
    · rw [groupThousands_short (by omega)]
      exact .short h hne (by omega)

end Thousands

/-! ## Reading -/

/-- The number that digits with a point and a minus sign are read as. -/
def decimalValue : List Char → ℚ
  | '-' :: cs => -amountValue (String.ofList cs)
  | cs => amountValue (String.ofList cs)

section Reading

variable {whole : List Char}

theorem amountValue_pointed (hw : AllDigits whole) (frac : List Char) :
    amountValue (String.ofList (whole ++ pointed frac)) =
      digitsValue whole + digitsValue frac / 10 ^ frac.length := by
  have hne : ∀ c ∈ whole, decide (c ≠ '.') = true := by
    intro c hc
    have hpoint : c ≠ '.' := by
      rintro rfl
      cases hw _ hc
    exact decide_eq_true hpoint
  rw [amountValue, String.toList_ofList, wholePart, fracPart, List.takeWhile_append_of_pos hne,
    List.dropWhile_append_of_pos hne]
  unfold pointed
  split_ifs with hnil
  · rw [hnil, List.takeWhile_nil, List.dropWhile_nil, List.append_nil]
    rfl
  · rw [List.takeWhile_cons_of_neg (by decide), List.dropWhile_cons_of_neg (by decide), List.append_nil]
    rfl

theorem filter_pointed {frac : List Char} (h : AllDigits frac) :
    (pointed frac).filter (· ≠ ',') = pointed frac := by
  rw [List.filter_eq_self]
  intro c hc
  unfold pointed at hc
  split_ifs at hc with hnil
  · cases hc
  · rcases List.mem_cons.mp hc with rfl | hc
    · rfl
    · apply decide_eq_true
      rintro rfl
      cases h _ hc

theorem decimalValue_signed (negative : Bool) (hw : AllDigits whole) (hne : whole ≠ [])
    (frac : List Char) :
    decimalValue ((if negative then ['-'] else []) ++ whole ++ pointed frac) =
      (if negative then -1 else 1) * (digitsValue whole + digitsValue frac / 10 ^ frac.length) := by
  rw [← amountValue_pointed hw frac, List.append_assoc]
  cases negative with
  | true => exact (neg_one_mul _).symm
  | false =>
    obtain ⟨c, cs, rfl⟩ := List.exists_cons_of_ne_nil hne
    have hc : c ≠ '-' := by
      rintro rfl
      cases hw _ List.mem_cons_self
    refine Eq.trans ?_ (one_mul _).symm
    unfold decimalValue
    split
    · next heq => exact absurd (List.cons.inj heq).1 hc
    · rfl

theorem decimalValue_fixedText (a : ℤ) (N k : ℕ) :
    decimalValue (signText a ++ fixedText N k) = (if a < 0 then -1 else 1) * (N / 10 ^ k) := by
  have hsign : signText a = if decide (a < 0) then ['-'] else [] := by
    simp only [decide_eq_true_eq, signText]
  rw [hsign, fixedText, ← List.append_assoc, decimalValue_signed _ (allDigits_toDigits _)
    Nat.toDigits_ne_nil, length_fixedFraction, fixedText_value]
  simp only [decide_eq_true_eq]

end Reading

/-! ## Integers -/

/-- An integer of digits with an optional minus sign. -/
def integerText (negative : Bool) (digits : List Char) : List Char :=
  (if negative then ['-'] else []) ++ digits

def integerOf (negative : Bool) (digits : List Char) : ℤ :=
  if negative then -digitsValue digits else digitsValue digits

section Integers

variable {digits : List Char} {negative : Bool}

theorem integerText_true (digits : List Char) : integerText true digits = '-' :: digits := rfl

theorem integerText_false (digits : List Char) : integerText false digits = digits := rfl

theorem isIntegerText_integerText (h : AllDigits digits) (hne : digits ≠ []) :
    isIntegerText (integerText negative digits) = true := by
  obtain ⟨c, cs, rfl⟩ := List.exists_cons_of_ne_nil hne
  have hall : (c :: cs).all Char.isDigit = true := List.all_eq_true.mpr h
  cases negative with
  | true => exact hall
  | false =>
    rw [integerText_false]
    unfold isIntegerText
    split
    · next heq =>
      rw [heq] at h
      cases h _ List.mem_cons_self
    · exact hall

theorem trim_integerText (h : AllDigits digits) :
    trim (integerText negative digits) = integerText negative digits := by
  apply trim_of_forall
  intro c hc
  rcases List.mem_append.mp hc with hc | hc
  · cases negative with
    | true =>
      rw [List.mem_singleton.mp hc]
      decide
    | false => cases hc
  · exact not_isSpace_of_isDigit (h c hc)

theorem bigIntOf_integerText (h : AllDigits digits) (hne : digits ≠ []) :
    bigIntOf (String.ofList (integerText negative digits)) = .ok (integerOf negative digits) := by
  cases negative with
  | true =>
    rw [bigIntOf, bigInt, String.toList_ofList, trim_integerText h, integerText_true, intLiteral,
      if_pos rfl, ofDigits_of_allDigits h hne]
    rfl
  | false =>
    rw [integerText_false, bigIntOf_digits h]
    rfl

variable (digits negative) in
theorem natAbs_integerOf : (integerOf negative digits).natAbs = digitsValue digits := by
  unfold integerOf
  split_ifs <;> omega

end Integers

/-! ## What is written -/

section Written

variable {digits : List Char} {negative : Bool}

/-- The digits before the point. -/
def wholeDigits (digits : List Char) (d : ℕ) : List Char :=
  dropLeadingZeros ((padStart digits (d + 1)).take ((padStart digits (d + 1)).length - d))

/-- The digits behind the point, as they are kept. -/
def fractionDigits (digits : List Char) (d : ℕ) : List Char :=
  ((padStart digits (d + 1)).drop ((padStart digits (d + 1)).length - d)).rdropWhile (· = '0')

theorem lt_length_padded (digits : List Char) (d : ℕ) : d < (padStart digits (d + 1)).length := by
  rw [length_padStart]
  exact lt_max_of_lt_left (Nat.lt_succ_self d)

theorem wholeDigits_spec (h : AllDigits digits) (d : ℕ) :
    AllDigits (wholeDigits digits d) ∧ digitsValue (wholeDigits digits d) = digitsValue digits / 10 ^ d ∧
      wholeDigits digits d ≠ [] ∧
      (wholeDigits digits d = ['0'] ∨ (wholeDigits digits d).head? ≠ some '0') := by
  have hpad := allDigits_padStart h (d + 1)
  have hlen := lt_length_padded digits d
  have hne : (padStart digits (d + 1)).take ((padStart digits (d + 1)).length - d) ≠ [] := by
    rw [← List.length_pos_iff, List.length_take]
    omega
  obtain ⟨hdigits, hvalue, hrest⟩ := dropLeadingZeros_spec (allDigits_take hpad _) hne
  refine ⟨hdigits, ?_, hrest⟩
  rw [wholeDigits, hvalue, digitsValue_take hpad, digitsValue_padStart, Nat.sub_sub_self hlen.le]

theorem allDigits_fractionDigits (h : AllDigits digits) (d : ℕ) : AllDigits (fractionDigits digits d) :=
  allDigits_rdropWhile ((allDigits_padStart h (d + 1)).sublist (List.drop_subset _ _))

theorem fractionDigits_value (h : AllDigits digits) (d : ℕ) :
    (digitsValue (fractionDigits digits d) : ℚ) / 10 ^ (fractionDigits digits d).length =
      (digitsValue digits % 10 ^ d : ℕ) / 10 ^ d := by
  have hlen := lt_length_padded digits d
  have hpad := allDigits_padStart h (d + 1)
  set padded := padStart digits (d + 1)
  have hdrop : (padded.drop (padded.length - d)).length = d := by
    rw [List.length_drop]
    omega
  have hvalue : digitsValue padded = digitsValue (padded.take (padded.length - d)) * 10 ^ d +
      digitsValue (padded.drop (padded.length - d)) := by
    conv_lhs => rw [← List.take_append_drop (padded.length - d) padded]
    rw [digitsValue_append, hdrop]
  have hlt := digitsValue_lt fun c hc => hpad c (List.mem_of_mem_drop (i := padded.length - d) hc)
  rw [hdrop] at hlt
  have hrem : digitsValue (padded.drop (padded.length - d)) = digitsValue digits % 10 ^ d := by
    rw [← digitsValue_padStart digits (d + 1), hvalue, Nat.mul_add_mod_of_lt hlt]
  rw [fractionDigits, rdropWhile_zeros, hdrop, hrem]

/-- **The digits stand for the amount.** -/
theorem formatted_value (h : AllDigits digits) (d : ℕ) :
    (digitsValue (wholeDigits digits d) : ℚ) +
      digitsValue (fractionDigits digits d) / 10 ^ (fractionDigits digits d).length =
      digitsValue digits / 10 ^ d := by
  rw [fractionDigits_value h, (wholeDigits_spec h d).2.1, eq_div_iff (by positivity), add_mul,
    div_mul_cancel₀ _ (by positivity)]
  exact_mod_cast Nat.div_add_mod' (digitsValue digits) (10 ^ d)

/-- Digits of value zero are zeros. -/
theorem eq_zero_of_digitsValue {cs : List Char} (h : AllDigits cs) (hvalue : digitsValue cs = 0) :
    ∀ c ∈ cs, c = '0' := by
  induction cs with
  | nil =>
    intro c hc
    cases hc
  | cons c cs ih =>
    have hrest : AllDigits cs := fun x hx => h x (List.mem_cons_of_mem _ hx)
    have hc := isDigit_bounds (h c List.mem_cons_self)
    rw [← List.singleton_append, digitsValue_append, Nat.add_eq_zero_iff, Nat.mul_eq_zero] at hvalue
    have hsingle : digitsValue [c] = c.toNat - 48 := by simp [digitsValue, Nat.ofDigitChars_cons]
    have hpow : 10 ^ cs.length ≠ 0 := by positivity
    have hzero : c = '0' := by
      apply Char.ext
      apply UInt32.toNat_inj.mp
      show c.toNat = 48
      have := hvalue.1.resolve_right hpow
      omega
    exact List.forall_mem_cons.mpr ⟨hzero, ih hrest hvalue.2⟩

/-- **Nothing is left of zero** but one digit. -/
theorem isZero_iff (h : AllDigits digits) (d : ℕ) :
    (groupThousands (wholeDigits digits d) = ['0'] ∧ fractionDigits digits d = []) ↔
      digitsValue digits = 0 := by
  obtain ⟨hdigits, hvalue, hne, hhead⟩ := wholeDigits_spec h d
  constructor
  · rintro ⟨hwhole, hfrac⟩
    have hzero : wholeDigits digits d = ['0'] := by
      rw [← filter_groupThousands hdigits, hwhole]
      rfl
    have hformatted := formatted_value h d
    rw [hzero, hfrac] at hformatted
    have hleft : ((digitsValue ['0'] : ℕ) : ℚ) + digitsValue [] / 10 ^ ([] : List Char).length = 0 := by
      have h₀ : digitsValue ['0'] = 0 := by decide
      have h₁ : digitsValue [] = 0 := by decide
      rw [h₀, h₁]
      norm_num
    rw [hleft, eq_comm, div_eq_zero_iff] at hformatted
    exact_mod_cast hformatted.resolve_right (by positivity)
  · intro hzero
    rw [hzero, Nat.zero_div] at hvalue
    have hwhole : wholeDigits digits d = ['0'] := by
      refine hhead.resolve_right fun hnot => ?_
      obtain ⟨c, cs, hcs⟩ := List.exists_cons_of_ne_nil hne
      rw [hcs] at hdigits hvalue hnot
      rw [eq_zero_of_digitsValue hdigits hvalue c List.mem_cons_self] at hnot
      exact hnot rfl
    refine ⟨by rw [hwhole]; rfl, ?_⟩
    by_contra hfrac
    have hfraction := fractionDigits_value h d
    rw [hzero, Nat.zero_mod, Nat.cast_zero, zero_div, div_eq_zero_iff] at hfraction
    have hvalue' : digitsValue (fractionDigits digits d) = 0 := by
      exact_mod_cast hfraction.resolve_right (by positivity)
    have hlast := eq_zero_of_digitsValue (allDigits_fractionDigits h d) hvalue' _
      (List.getLast_mem hfrac)
    apply getLast?_rdropWhile ((padStart digits (d + 1)).drop ((padStart digits (d + 1)).length - d))
    exact (List.getLast?_eq_some_getLast hfrac).trans (congrArg some hlast)

theorem formatPlaces_natCast (d : ℕ) : formatPlaces (.fin d) = d := by
  simp [formatPlaces, Number.isFinite, Number.toNat]

/-- The sign is left away from zero. -/
def shownSign (negative : Bool) (digits : List Char) : Bool := negative && decide (digitsValue digits ≠ 0)

theorem shownSign_mul (negative : Bool) (digits : List Char) :
    (if shownSign negative digits then -1 else 1) * (digitsValue digits : ℚ) =
      integerOf negative digits := by
  unfold shownSign integerOf
  cases negative with
  | false => simp
  | true =>
    rcases Nat.eq_zero_or_pos (digitsValue digits) with hzero | hpos
    · simp [hzero]
    · simp [hpos.ne']

theorem formatAmount_integerText {ι : Type} (h : AllDigits digits) (hne : digits ≠ []) (d : ℕ) :
    formatAmount (.string (String.ofList (integerText negative digits)) : Value ι) (.fin d) =
      String.ofList ((if shownSign negative digits then ['-'] else []) ++
        groupThousands (wholeDigits digits d) ++ pointed (fractionDigits digits d)) := by
  have hminus : (integerText negative digits).head? = some '-' ↔ negative = true := by
    cases negative with
    | true => exact ⟨fun _ => rfl, fun _ => rfl⟩
    | false =>
      constructor
      · intro hhead
        cases h _ (List.mem_of_mem_head? hhead)
      · intro hfalse
        cases hfalse
  have hdigits : (if negative = true then (integerText negative digits).drop 1
      else integerText negative digits) = digits := by
    cases negative <;> rfl
  have hlen := lt_length_padded digits d
  have hhead : (padStart digits (d + 1)).take ((padStart digits (d + 1)).length - d) ≠ [] := by
    rw [← List.length_pos_iff, List.length_take]
    omega
  have hfrac : (if d = 0 then [] else (padStart digits (d + 1)).drop ((padStart digits (d + 1)).length - d)) =
      (padStart digits (d + 1)).drop ((padStart digits (d + 1)).length - d) := by
    split_ifs with hd
    · rw [hd, Nat.sub_zero, List.drop_length]
    · rfl
  have hsign : (if negative = true ∧ ¬ (groupThousands (wholeDigits digits d) = ['0'] ∧
      fractionDigits digits d = []) then ['-'] else []) =
      if shownSign negative digits then ['-'] else [] := by
    refine if_congr ?_ rfl rfl
    simp only [shownSign, Bool.and_eq_true, decide_eq_true_eq, ne_eq, isZero_iff h]
  simp only [formatAmount, asString, String.toList_ofList, trim_integerText h,
    isIntegerText_integerText h hne, not_true_eq_false, if_false, hminus, hdigits, formatPlaces_natCast,
    if_neg hhead, hfrac]
  rw [← wholeDigits, ← fractionDigits, hsign]
  unfold pointed
  split_ifs <;> simp

end Written

/-- **An integer is formatted exactly**: the text has the documented form, stands for the amount,
has no sign when it stands for zero, and is what `formatTokenAmount` stands for. -/
theorem formatAmount_exact {ι : Type} (negative : Bool) {digits : List Char} (h : AllDigits digits)
    (hne : digits ≠ []) (d : ℕ) :
    let amount := String.ofList (integerText negative digits)
    let text := (formatAmount (.string amount : Value ι) (.fin d)).toList
    AmountText text ∧
      decimalValue (text.filter (· ≠ ',')) = integerOf negative digits / 10 ^ d ∧
      (integerOf negative digits = 0 → text.head? ≠ some '-') ∧
      (d ≤ 19 → ∃ shown, formatTokenAmount (.string amount) d none = .ok shown ∧
        decimalValue shown.toList = decimalValue (text.filter (· ≠ ','))) := by
  intro amount text
  obtain ⟨hdigits, -, hwhole, hhead⟩ := wholeDigits_spec h d
  have hfrac := allDigits_fractionDigits h d
  have htext : text = (if shownSign negative digits then ['-'] else []) ++
      groupThousands (wholeDigits digits d) ++ pointed (fractionDigits digits d) := by
    rw [← String.toList_ofList (l := (if shownSign negative digits then ['-'] else []) ++ _ ++ _)]
    exact congrArg String.toList (formatAmount_integerText h hne d)
  have hfilter : text.filter (· ≠ ',') = (if shownSign negative digits then ['-'] else []) ++
      wholeDigits digits d ++ pointed (fractionDigits digits d) := by
    rw [htext, List.filter_append, List.filter_append, filter_groupThousands hdigits,
      filter_pointed hfrac]
    split_ifs <;> rfl
  have hvalue : decimalValue (text.filter (· ≠ ',')) = integerOf negative digits / 10 ^ d := by
    rw [hfilter, decimalValue_signed _ hdigits hwhole, formatted_value h, mul_div_assoc']
    exact congrArg (· / (10 : ℚ) ^ d) (shownSign_mul ..)
  refine ⟨⟨_, _, _, htext, ?_, hfrac, getLast?_rdropWhile _⟩, hvalue, ?_, ?_⟩
  · rcases hhead with hzero | hhead
    · exact .inl (by rw [hzero]; rfl)
    · exact .inr ⟨grouped_groupThousands hdigits hwhole, by rwa [head?_groupThousands]⟩
  · intro hzero hminus
    have hsign : shownSign negative digits = false := by
      rw [shownSign, ← natAbs_integerOf digits negative, hzero]
      exact Bool.and_false _
    rw [htext, hsign, List.append_assoc, if_neg Bool.false_ne_true, List.nil_append,
      List.head?_append_of_ne_nil, head?_groupThousands] at hminus
    · cases hdigits _ (List.mem_of_mem_head? hminus)
    · intro hnil
      rw [← List.head?_eq_none_iff, head?_groupThousands, List.head?_eq_none_iff] at hnil
      exact hwhole hnil
  · intro hd
    refine ⟨_, (formatTokenAmount_string (bigIntOf_integerText h hne) ..).trans
      (formatTokenAmount_natAbs _ (by omega) (by omega)), ?_⟩
    rw [String.toList_ofList, decimalValue_fixedText, lastPlaces_self, hvalue, mul_div_assoc']
    refine congrArg (· / (10 : ℚ) ^ d) ?_
    split_ifs with hneg
    · have habs : ((integerOf negative digits).natAbs : ℤ) = -integerOf negative digits := by omega
      rw [neg_one_mul, ← Int.cast_natCast, habs, Int.cast_neg, neg_neg]
    · have habs : ((integerOf negative digits).natAbs : ℤ) = integerOf negative digits := by omega
      rw [one_mul, ← Int.cast_natCast, habs]

theorem formatAmount_exact_minus :
    let text := (formatAmount (.string "-0012345678" : Value Unit) (.fin 3)).toList
    text = "-12,345.678".toList ∧ decimalValue (text.filter (· ≠ ',')) = -12345678 / 10 ^ 3 := by
  refine ⟨by decide, ?_⟩
  have h := (@formatAmount_exact Unit true "0012345678".toList (by decide) (by decide) 3).2.1
  exact h

end StreamFi
