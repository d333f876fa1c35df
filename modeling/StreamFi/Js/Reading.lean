import StreamFi.Js.Numeral

/-!
# Texts of numbers are read back

* **`decimalLiteral_layout`**: digits laid out around the point, or in exponent form, have the value
  of the digits;
* **`toNumber_numToText`**: `Number(String(x))` is `x`; `numToText_injective`: doubles have different
  texts;
* `literalValue`: what a numeric literal says, with **`toNumber_fin_iff`**: `Number(s)` rounds it;
* `joined`: parts with a separator between them, and **`joined_injective`**: the parts can be told
  when all but the first are free of the separator.
-/

namespace Js

open Number

/-! ## Laid-out digits -/

section Layout

variable {ds : List Char} {n : ℤ}

theorem AllDigits.append {cs cs' : List Char} (h : AllDigits cs) (h' : AllDigits cs') :
    AllDigits (cs ++ cs') := by
  intro c hc
  rcases List.mem_append.mp hc with hc | hc
  · exact h c hc
  · exact h' c hc

theorem AllDigits.sublist {cs cs' : List Char} (h : AllDigits cs') (hsub : cs ⊆ cs') : AllDigits cs :=
  fun c hc => h c (hsub hc)

theorem allDigits_zeros (k : ℕ) : AllDigits (List.replicate k '0') := by
  intro c hc
  rw [(List.mem_replicate.mp hc).2]
  rfl

/-- A digit is none of the characters that end a run of digits. -/
theorem takeWhile_point (h : AllDigits ds) (cs : List Char) :
    (ds ++ '.' :: cs).takeWhile (· ≠ '.') = ds ∧ (ds ++ '.' :: cs).dropWhile (· ≠ '.') = '.' :: cs := by
  have hall : ∀ c ∈ ds, (decide (c ≠ '.')) = true := fun c hc => by simpa using (digit_ne (h c hc)).1
  constructor
  · rw [List.takeWhile_append_of_pos hall, List.takeWhile_cons_of_neg (by simp), List.append_nil]
  · rw [List.dropWhile_append_of_pos hall, List.dropWhile_cons_of_neg (by simp)]

theorem takeWhile_digits (h : AllDigits ds) :
    ds.takeWhile (· ≠ '.') = ds ∧ ds.dropWhile (· ≠ '.') = [] := by
  have hall : ∀ c ∈ ds, (decide (c ≠ '.')) = true := fun c hc => by simpa using (digit_ne (h c hc)).1
  exact ⟨List.takeWhile_eq_self_iff.mpr hall, List.dropWhile_eq_nil_iff.mpr hall⟩

theorem ofDigitChars_append_zero (cs cs' : List Char) :
    Nat.ofDigitChars 10 (cs ++ cs') 0 =
      Nat.ofDigitChars 10 cs 0 * 10 ^ cs'.length + Nat.ofDigitChars 10 cs' 0 := by
  rw [Nat.ofDigitChars_append, Nat.ofDigitChars_eq_ofDigitChars_zero, mul_comm]

/-- Digits around a point. -/
theorem pointValue_point {cs : List Char} (h : AllDigits ds) (h' : AllDigits cs) (hne : ds ≠ []) :
    PointDigits (ds ++ '.' :: cs) ∧ pointValue (ds ++ '.' :: cs) =
      (Nat.ofDigitChars 10 (ds ++ cs) 0 : ℚ) * 10 ^ (-(cs.length : ℤ)) := by
  obtain ⟨htake, hdrop⟩ := takeWhile_point h cs
  refine ⟨⟨?_, ?_, ?_⟩, ?_⟩
  · rw [htake]
    exact h
  · rw [hdrop]
    exact h'
  · rw [htake]
    exact fun hnil => hne hnil.1
  · rw [pointValue, htake, hdrop, List.drop_one, List.tail_cons, ofDigitChars_append_zero, zpow_neg,
      zpow_natCast]
    push_cast
    field_simp

theorem pointValue_digits (h : AllDigits ds) (hne : ds ≠ []) :
    PointDigits ds ∧ pointValue ds = Nat.ofDigitChars 10 ds 0 := by
  obtain ⟨htake, hdrop⟩ := takeWhile_digits h
  refine ⟨⟨?_, ?_, ?_⟩, ?_⟩
  · rw [htake]
    exact h
  · rw [hdrop]
    exact fun c hc => nomatch hc
  · rw [htake]
    exact fun hnil => hne hnil.1
  · rw [pointValue, htake, hdrop]
    simp

/-- A mantissa with an exponent. -/
theorem decimalLiteral_exponent {cs : List Char} (h : PointDigits cs) (e : ℤ) :
    decimalLiteral (cs ++ 'e' :: (if 0 ≤ e then '+' else '-') :: Nat.toDigits 10 e.natAbs) =
      some (pointValue cs * 10 ^ e) := by
  have hall : ∀ c ∈ cs, (decide (c ≠ 'e' ∧ c ≠ 'E')) = true := by
    intro c hc
    rcases h.char hc with hc | rfl
    · have := digit_ne hc
      simp [this.2.1, this.2.2]
    · decide
  have hdigits : ofDigits 10 (Nat.toDigits 10 e.natAbs) = some e.natAbs := by
    rw [ofDigits_of_allDigits (allDigits_toDigits _) Nat.toDigits_ne_nil, Nat.ofDigitChars_ten_toDigits]
  have hexp : exponentPart ('e' :: (if 0 ≤ e then '+' else '-') :: Nat.toDigits 10 e.natAbs) =
      some e := by
    split_ifs with hsign
    · rw [exponentPart, hdigits, Option.map_some, Int.ofNat_eq_natCast, Int.natAbs_of_nonneg hsign]
    · rw [exponentPart, hdigits, Option.map_some, Int.ofNat_eq_natCast,
        Int.ofNat_natAbs_of_nonpos (by omega), neg_neg]
  have hmant : ((cs ++ 'e' :: (if 0 ≤ e then '+' else '-') :: Nat.toDigits 10 e.natAbs).takeWhile
      fun c => c ≠ 'e' ∧ c ≠ 'E') = cs := by
    rw [List.takeWhile_append_of_pos hall, List.takeWhile_cons_of_neg (by simp), List.append_nil]
  simp only [decimalLiteral, hmant, if_pos h, List.drop_left, hexp, Option.map_some]

/-- **The value of laid-out digits.** -/
theorem decimalLiteral_layout (h : AllDigits ds) (hne : ds ≠ []) (n : ℤ) :
    decimalLiteral (layout (n, ds)) =
      some ((Nat.ofDigitChars 10 ds 0 : ℚ) * 10 ^ (n - ds.length)) := by
  have hpos : 0 < ds.length := List.length_pos_iff.mpr hne
  simp only [layout]
  by_cases h₁ : (ds.length : ℤ) ≤ n ∧ n ≤ 21
  · -- zeros behind the digits
    rw [if_pos h₁]
    obtain ⟨hpoint, hvalue⟩ := pointValue_digits (h.append (allDigits_zeros (n - ds.length).toNat))
      (by simp [hne])
    rw [decimalLiteral_of_point hpoint, hvalue, ofDigitChars_append_zero, List.length_replicate,
      Nat.ofDigitChars_replicate_zero, mul_zero, add_zero]
    push_cast
    rw [← zpow_natCast, Int.toNat_of_nonneg (by omega)]
  rw [if_neg h₁]
  by_cases h₂ : 0 < n ∧ n ≤ 21
  · -- the point among the digits
    rw [if_pos h₂]
    obtain ⟨hpoint, hvalue⟩ := pointValue_point (h.sublist (List.take_subset n.toNat ds))
      (h.sublist (List.drop_subset n.toNat ds)) (by simp [hne]; omega)
    have hexp : -((ds.length - n.toNat : ℕ) : ℤ) = n - ds.length := by omega
    rw [decimalLiteral_of_point hpoint, hvalue, List.take_append_drop, List.length_drop, hexp]
  rw [if_neg h₂]
  by_cases h₃ : -6 < n ∧ n ≤ 0
  · -- zeros between the point and the digits
    rw [if_pos h₃]
    have hdigit : AllDigits ['0'] := allDigits_zeros 1
    obtain ⟨hpoint, hvalue⟩ := pointValue_point hdigit ((allDigits_zeros (-n).toNat).append h) (by simp)
    have hshape : '0' :: '.' :: List.replicate (-n).toNat '0' ++ ds =
        ['0'] ++ '.' :: (List.replicate (-n).toNat '0' ++ ds) := rfl
    have hzero : Nat.ofDigitChars 10 ['0'] 0 = 0 := rfl
    have hexp : -(((-n).toNat + ds.length : ℕ) : ℤ) = n - ds.length := by omega
    rw [hshape, decimalLiteral_of_point hpoint, hvalue, ofDigitChars_append_zero, hzero,
      ofDigitChars_append_zero, Nat.ofDigitChars_replicate_zero, List.length_append,
      List.length_replicate, mul_zero, zero_mul, zero_mul, zero_add, zero_add, hexp]
  rw [if_neg h₃]
  by_cases h₄ : ds.length = 1
  · -- one digit and an exponent
    obtain ⟨hpoint, hvalue⟩ := pointValue_digits (h.sublist (List.take_subset 1 ds)) (by simp [hne])
    rw [if_pos h₄, List.append_nil, decimalLiteral_exponent hpoint, hvalue,
      List.take_of_length_le (by omega), h₄]
    rfl
  · -- a point behind the first digit, and an exponent
    obtain ⟨hpoint, hvalue⟩ := pointValue_point (h.sublist (List.take_subset 1 ds))
      (h.sublist (List.drop_subset 1 ds)) (by simp [hne])
    have hexp : -((ds.length - 1 : ℕ) : ℤ) + (n - 1) = n - ds.length := by omega
    rw [if_neg h₄, decimalLiteral_exponent hpoint, hvalue, List.take_append_drop, List.length_drop,
      mul_assoc, ← zpow_add₀ (by norm_num), hexp]

end Layout

/-! ## Texts -/

theorem layout_text {ds : List Char} (h : AllDigits ds) (n : ℤ) :
    ∀ c ∈ layout (n, ds), TextChar c := by
  have htext {cs : List Char} (hsub : cs ⊆ ds) : ∀ c ∈ cs, TextChar c :=
    fun c hc => .inl (h c (hsub hc))
  have hzeros (k : ℕ) : ∀ c ∈ List.replicate k '0', TextChar c :=
    fun c hc => .inl (allDigits_zeros k c hc)
  have hexp : ∀ c ∈ 'e' :: (if 0 ≤ n - 1 then '+' else '-') :: Nat.toDigits 10 (n - 1).natAbs,
      TextChar c := by
    intro c hc
    rcases List.mem_cons.mp hc with rfl | hc
    · exact .inr (.inr (.inl rfl))
    rcases List.mem_cons.mp hc with rfl | hc
    · split_ifs
      · exact .inr (.inr (.inr (.inl rfl)))
      · exact .inr (.inr (.inr (.inr rfl)))
    · exact .inl (allDigits_toDigits _ c hc)
  have hpoint : TextChar '.' := .inr (.inl rfl)
  intro c hc
  simp only [layout] at hc
  by_cases h₁ : (ds.length : ℤ) ≤ n ∧ n ≤ 21
  · rw [if_pos h₁] at hc
    exact (List.mem_append.mp hc).elim (htext (List.Subset.refl _) c) (hzeros _ c)
  rw [if_neg h₁] at hc
  by_cases h₂ : 0 < n ∧ n ≤ 21
  · rw [if_pos h₂, List.mem_append, List.mem_cons] at hc
    rcases hc with hc | rfl | hc
    · exact htext (List.take_subset _ _) c hc
    · exact hpoint
    · exact htext (List.drop_subset _ _) c hc
  rw [if_neg h₂] at hc
  by_cases h₃ : -6 < n ∧ n ≤ 0
  · rw [if_pos h₃, List.cons_append, List.cons_append, List.mem_cons, List.mem_cons,
      List.mem_append] at hc
    rcases hc with rfl | rfl | hc | hc
    · exact .inl rfl
    · exact hpoint
    · exact hzeros _ c hc
    · exact htext (List.Subset.refl _) c hc
  rw [if_neg h₃, List.mem_append, List.mem_append] at hc
  rcases hc with (hc | hc) | hc
  · exact htext (List.take_subset _ _) c hc
  · split_ifs at hc
    · cases hc
    · rcases List.mem_cons.mp hc with rfl | hc
      · exact hpoint
      · exact htext (List.drop_subset _ _) c hc
  · exact hexp c hc

theorem layout_head {ds : List Char} (h : AllDigits ds) (hne : ds ≠ []) (n : ℤ) :
    ∃ c cs, layout (n, ds) = c :: cs ∧ c.isDigit = true := by
  obtain ⟨d, ds, rfl⟩ := List.exists_cons_of_ne_nil hne
  have hd := h d List.mem_cons_self
  simp only [layout]
  by_cases h₁ : ((d :: ds).length : ℤ) ≤ n ∧ n ≤ 21
  · rw [if_pos h₁]
    exact ⟨d, _, rfl, hd⟩
  rw [if_neg h₁]
  by_cases h₂ : 0 < n ∧ n ≤ 21
  · obtain ⟨m, hm⟩ : ∃ m, n.toNat = m + 1 := ⟨n.toNat - 1, by omega⟩
    rw [if_pos h₂, hm]
    exact ⟨d, _, rfl, hd⟩
  rw [if_neg h₂]
  by_cases h₃ : -6 < n ∧ n ≤ 0
  · rw [if_pos h₃]
    exact ⟨'0', _, rfl, rfl⟩
  · rw [if_neg h₃]
    exact ⟨d, _, rfl, hd⟩

/-- A text that starts with a digit and denotes `v`. -/
structure Denotes (cs : List Char) (v : ℚ) : Prop where
  head : ∃ c cs', cs = c :: cs' ∧ c.isDigit = true
  text : ∀ c ∈ cs, TextChar c
  value : decimalLiteral cs = some v

variable {cs : List Char} {v q : ℚ}

theorem Denotes.decimalNumber (h : Denotes cs v) (negative : Bool) :
    decimalNumber negative cs = ofRat (if negative then -v else v) := by
  obtain ⟨c, cs', rfl, hc⟩ := h.head
  rw [Js.decimalNumber, if_neg, h.value]
  intro heq
  have hI : c = 'I' := (List.cons.inj heq).1
  rw [hI] at hc
  cases hc

theorem Denotes.trim (h : Denotes cs v) {c : Char} (hc : TextChar c) :
    trim cs = cs ∧ trim (c :: cs) = c :: cs := by
  constructor
  · exact trim_of_forall fun d hd => (h.text d hd).not_isSpace
  · refine trim_of_forall fun d hd => ?_
    rcases List.mem_cons.mp hd with rfl | hd
    · exact hc.not_isSpace
    · exact (h.text d hd).not_isSpace

/-- What `Number` reads of a text, with or without a sign. -/
theorem toNumber_of_denotes (h : Denotes cs v) :
    toNumber (String.ofList cs) = ofRat v ∧ toNumber (String.ofList ('-' :: cs)) = ofRat (-v) := by
  have hminus : TextChar '-' := .inr (.inr (.inr (.inr rfl)))
  obtain ⟨htrim, htrim'⟩ := h.trim hminus
  obtain ⟨c, cs', rfl, hc⟩ := h.head
  have h₁ : c ≠ '-' := by rintro rfl; cases hc
  have h₂ : c ≠ '+' := by rintro rfl; cases hc
  constructor
  · rw [toNumber, String.toList_ofList, htrim]
    simp only [radixPrefix_of_text h.text, if_neg h₁, if_neg h₂]
    exact h.decimalNumber false
  · rw [toNumber, String.toList_ofList, htrim']
    exact h.decimalNumber true

/-- The text of a double that is not negative. -/
theorem denotes_text (hq : 0 ≤ q) (hd : ofRat q = .fin q) :
    ∃ v, Denotes (if q.isInt ∧ |q| ≤ 2 ^ 53 then Nat.toDigits 10 q.num.natAbs
      else layout (shortest |q|)) v ∧ ofRat v = .fin q := by
  rw [abs_of_nonneg hq]
  by_cases hint : q.isInt ∧ q ≤ 2 ^ 53
  · rw [if_pos hint]
    have hdigits := allDigits_toDigits q.num.natAbs
    obtain ⟨hpoint, hvalue⟩ := pointValue_digits hdigits Nat.toDigits_ne_nil
    refine ⟨_, ⟨?_, fun c hc => .inl (hdigits c hc), decimalLiteral_of_point hpoint⟩, ?_⟩
    · obtain ⟨c, cs, hcs⟩ := List.exists_cons_of_ne_nil (Nat.toDigits_ne_nil (b := 10) (n := q.num.natAbs))
      exact ⟨c, cs, hcs, hdigits c (by rw [hcs]; exact List.mem_cons_self)⟩
    · obtain ⟨n, rfl⟩ := Number.isInt_iff.mp hint.1
      have hn : 0 ≤ n := by exact_mod_cast hq
      rw [hvalue, Nat.ofDigitChars_ten_toDigits, Rat.num_intCast, Nat.cast_natAbs, abs_of_nonneg hn]
      exact hd
  · rw [if_neg hint]
    have hpos : 0 < q := by
      refine hq.lt_of_ne fun hzero => hint ?_
      rw [← hzero]
      exact ⟨rfl, by positivity⟩
    obtain ⟨d, -, hdigits, hread⟩ := shortest_reads hpos hd
    have hall : AllDigits (shortest q).2 := by
      rw [hdigits]
      exact allDigits_toDigits d
    have hne : (shortest q).2 ≠ [] := by
      rw [hdigits]
      exact Nat.toDigits_ne_nil
    refine ⟨_, ⟨layout_head hall hne (shortest q).1, layout_text hall (shortest q).1,
      decimalLiteral_layout hall hne (shortest q).1⟩, ?_⟩
    rw [← hread, hdigits, Nat.ofDigitChars_ten_toDigits]

/-- **A number is read back from its text.** -/
theorem toNumber_numToText {x : Number} (hx : IsDouble x) : toNumber (numToText x) = x := by
  cases x with
  | nan | posInf | negInf => decide
  | fin q =>
    rw [numToText]
    rcases le_or_gt 0 q with hq | hq
    · obtain ⟨v, hv, hread⟩ := denotes_text hq (hx q rfl)
      rw [if_neg hq.not_gt, List.nil_append, (toNumber_of_denotes hv).1, hread]
    · obtain ⟨v, hv, hread⟩ := denotes_text (q := -q) (by linarith) (ofRat_neg (hx q rfl))
      rw [Rat.neg_num, Int.natAbs_neg, abs_neg] at hv
      have hint : (-q).isInt = q.isInt := by rw [Rat.isInt, Rat.isInt, Rat.den_neg_eq_den]
      rw [hint] at hv
      rw [if_pos hq, List.singleton_append, (toNumber_of_denotes hv).2]
      have := ofRat_neg hread
      rwa [neg_neg] at this

/-- **Doubles have different texts.** -/
theorem numToText_injective {x y : Number} (hx : IsDouble x) (hy : IsDouble y)
    (h : numToText x = numToText y) : x = y := by
  rw [← toNumber_numToText hx, h, toNumber_numToText hy]

/-! ## Exact values -/

/-- What a numeric literal without surrounding blanks says, before it is rounded. -/
def literalValue : List Char → Option ℚ
  | [] => some 0
  | c :: cs => match radixPrefix (c :: cs) with
    | some (b, ds) => (ofDigits b ds).map fun n => (n : ℚ)
    | none =>
      if c = '-' then (decimalLiteral cs).map fun q => -q
      else if c = '+' then decimalLiteral cs
      else decimalLiteral (c :: cs)

theorem decimalLiteral_infinity {cs : List Char} (h : cs = "Infinity".toList) :
    decimalLiteral cs = none := by
  have hno : ¬ PointDigits (cs.takeWhile fun c => c ≠ 'e' ∧ c ≠ 'E') := by
    rw [h]
    decide
  simp only [decimalLiteral, if_neg hno]

theorem decimalNumber_fin_iff {negative : Bool} {cs : List Char} {x : ℚ} :
    decimalNumber negative cs = .fin x ↔
      ∃ q, decimalLiteral cs = some q ∧ ofRat (if negative then -q else q) = .fin x := by
  unfold decimalNumber
  split_ifs with hinf
  · simp [decimalLiteral_infinity hinf]
  · simp [decimalLiteral_infinity hinf]
  all_goals
    cases decimalLiteral cs with
    | none => simp
    | some q => simp

/-- **A string is read as a finite number** if it has a value that is not rounded to infinity. -/
theorem toNumber_fin_iff {s : String} {x : ℚ} :
    toNumber s = .fin x ↔ ∃ q, literalValue (trim s.toList) = some q ∧ ofRat q = .fin x := by
  unfold toNumber literalValue
  cases trim s.toList with
  | nil => simp [ofRat_zero]
  | cons c cs =>
    cases hr : radixPrefix (c :: cs) with
    | some p =>
      obtain ⟨b, ds⟩ := p
      simp only [hr]
      cases ofDigits b ds with
      | none => simp
      | some n => simp
    | none =>
      simp only [hr]
      split_ifs
      · rw [decimalNumber_fin_iff]
        simp
      · rw [decimalNumber_fin_iff]
        simp
      · rw [decimalNumber_fin_iff]
        simp

theorem literalValue_of_digits {cs : List Char} (h : AllDigits cs) :
    literalValue cs = some (Nat.ofDigitChars 10 cs 0 : ℚ) := by
  cases cs with
  | nil => simp [literalValue]
  | cons c cs =>
    have hc := h c List.mem_cons_self
    have h₁ : c ≠ '-' := by rintro rfl; cases hc
    have h₂ : c ≠ '+' := by rintro rfl; cases hc
    obtain ⟨hpoint, hvalue⟩ := pointValue_digits h (List.cons_ne_nil c cs)
    simp only [literalValue, radixPrefix_of_allDigits h, if_neg h₁, if_neg h₂]
    rw [decimalLiteral_of_point hpoint, hvalue]

/-! ## Joined parts -/

/-- The characters of a text of a number. -/
def NumeralChar (c : Char) : Prop := TextChar c ∨ c ∈ "NaInfity".toList

theorem numeralChar_numToText {x : Number} (hx : IsDouble x) :
    ∀ c ∈ (numToText x).toList, NumeralChar c := by
  intro c hc
  cases x with
  | nan => exact .inr (by fin_cases hc <;> decide)
  | posInf => exact .inr (by fin_cases hc <;> decide)
  | negInf =>
    rcases List.mem_cons.mp hc with rfl | hc
    · exact .inl (.inr (.inr (.inr (.inr rfl))))
    · exact .inr (by fin_cases hc <;> decide)
  | fin q =>
    rw [numToText, String.toList_ofList, List.mem_append] at hc
    refine .inl (hc.elim (fun hc => ?_) fun hc => ?_)
    · split_ifs at hc
      · rw [List.mem_singleton.mp hc]
        exact .inr (.inr (.inr (.inr rfl)))
      · cases hc
    · split_ifs at hc with hint
      · exact .inl (allDigits_toDigits _ c hc)
      · have hpos : 0 < |q| := by
          rw [abs_pos]
          rintro rfl
          exact hint ⟨rfl, by simp⟩
        have habs : ofRat |q| = .fin |q| := by
          rcases abs_cases q with ⟨h, -⟩ | ⟨h, -⟩
          · rw [h]
            exact hx q rfl
          · rw [h]
            exact ofRat_neg (hx q rfl)
        obtain ⟨d, -, hdigits, -⟩ := shortest_reads hpos habs
        have hall : AllDigits (shortest |q|).2 := by
          rw [hdigits]
          exact allDigits_toDigits d
        exact layout_text hall (shortest |q|).1 c hc

theorem numeralChar_toString (n : ℤ) : ∀ c ∈ (toString n).toList, NumeralChar c := by
  intro c hc
  cases n with
  | ofNat m =>
    have hlist : (toString (Int.ofNat m)).toList = Nat.toDigits 10 m := by
      show (Nat.repr m).toList = _
      simp [Nat.repr]
    rw [hlist] at hc
    exact .inl (.inl (allDigits_toDigits m c hc))
  | negSucc m =>
    have hlist : (toString (Int.negSucc m)).toList = '-' :: Nat.toDigits 10 (m + 1) := by
      show ("-" ++ Nat.repr (m + 1)).toList = _
      simp [Nat.repr]
    rw [hlist] at hc
    rcases List.mem_cons.mp hc with rfl | hc
    · exact .inl (.inr (.inr (.inr (.inr rfl))))
    · exact .inl (.inl (allDigits_toDigits _ c hc))

theorem toString_injective {m n : ℤ} (h : toString m = toString n) : m = n := by
  have := bigInt_toString m
  rw [h, bigInt_toString] at this
  exact (Option.some.inj this).symm

/-- A template of parts with the separator `c` between them. -/
def joined (c : Char) (first : String) (parts : List String) : String :=
  String.ofList (parts.foldl (fun cs part => cs ++ c :: part.toList) first.toList)

theorem append_cons_inj {c : Char} {as bs xs ys : List Char} (hx : c ∉ xs) (hy : c ∉ ys)
    (h : as ++ c :: xs = bs ++ c :: ys) : as = bs ∧ xs = ys := by
  have htake {zs : List Char} (hz : c ∉ zs) (ws : List Char) :
      (zs.reverse ++ c :: ws).takeWhile (· ≠ c) = zs.reverse := by
    have hall : ∀ d ∈ zs.reverse, (decide (d ≠ c)) = true := by
      intro d hd
      rw [decide_eq_true_eq]
      rintro rfl
      exact hz (List.mem_reverse.mp hd)
    rw [List.takeWhile_append_of_pos hall, List.takeWhile_cons_of_neg (by simp), List.append_nil]
  have hrev := congrArg List.reverse h
  simp only [List.reverse_append, List.reverse_cons, List.append_assoc, List.singleton_append] at hrev
  have hxy : xs.reverse = ys.reverse := by
    rw [← htake hx as.reverse, hrev, htake hy]
  have hxs := List.reverse_injective hxy
  subst hxs
  exact ⟨List.append_cancel_right h, rfl⟩

theorem cons_append_inj {c : Char} {as bs xs ys : List Char} (ha : c ∉ as) (hb : c ∉ bs)
    (h : as ++ c :: xs = bs ++ c :: ys) : as = bs ∧ xs = ys := by
  have hrev := congrArg List.reverse h
  simp only [List.reverse_append, List.reverse_cons, List.append_assoc, List.singleton_append] at hrev
  obtain ⟨hxy, hab⟩ := append_cons_inj (fun hmem => ha (List.mem_reverse.mp hmem))
    (fun hmem => hb (List.mem_reverse.mp hmem)) hrev
  exact ⟨List.reverse_injective hab, List.reverse_injective hxy⟩

/-- **The parts can be told**: of two templates, where only the first parts may have the separator
in them. -/
theorem joined_injective {c : Char} {first first' : String} {parts parts' : List String}
    (hlen : parts.length = parts'.length) (hfree : ∀ part ∈ parts, c ∉ part.toList)
    (hfree' : ∀ part ∈ parts', c ∉ part.toList)
    (h : joined c first parts = joined c first' parts') : first = first' ∧ parts = parts' := by
  have hlist : parts.foldl (fun cs part => cs ++ c :: part.toList) first.toList =
      parts'.foldl (fun cs part => cs ++ c :: part.toList) first'.toList := by
    have := congrArg String.toList h
    rwa [joined, joined, String.toList_ofList, String.toList_ofList] at this
  clear h
  induction parts using List.reverseRecOn generalizing parts' with
  | nil =>
    have hnil : parts' = [] := List.eq_nil_of_length_eq_zero hlen.symm
    subst hnil
    exact ⟨String.toList_inj.mp hlist, rfl⟩
  | append_singleton parts part ih =>
    obtain ⟨parts', part', rfl⟩ := List.eq_nil_or_concat' parts' |>.resolve_left (by
      rintro rfl
      simp at hlen)
    rw [List.foldl_append, List.foldl_append] at hlist
    obtain ⟨hinit, hlast⟩ := append_cons_inj (hfree part (by simp)) (hfree' part' (by simp)) hlist
    obtain ⟨hfirst, hparts⟩ := ih (by simpa using hlen) (fun p hp => hfree p (by simp [hp]))
      (fun p hp => hfree' p (by simp [hp])) hinit
    rw [hfirst, hparts, String.toList_inj.mp hlast]
    exact ⟨rfl, rfl⟩

end Js
