import Mathlib
import StreamFi.Js.Number

/-!
# JavaScript strings and numerals

Strings are lists of Unicode scalar values.

* `utf16Length`, `trim`: `s.length` and `s.trim()`;
* `bigInt`: `BigInt(s)` on a string; **`bigInt_ofDigits`**: its value on a digit string,
  **`bigInt_toString`**: on the text of an integer;
* `numToText`: `String(x)` on a number; `digitsToNum`: `Number(s)` on a digit string;
  **`digitsToNum_toDigits`**: the round trip on naturals.
-/

namespace Js

/-- `s.length`, in UTF-16 code units. -/
def utf16Length (s : String) : ℕ := (s.toList.map fun c => if c.toNat < 65536 then 1 else 2).sum

/-- White space and line terminators. -/
def isSpace (c : Char) : Bool :=
  c.toNat ∈ [9, 10, 11, 12, 13, 32, 160, 5760, 8232, 8233, 8239, 8287, 12288, 65279] ||
    (8192 ≤ c.toNat && c.toNat ≤ 8202)

/-- `s.trim()`. -/
def trim (cs : List Char) : List Char := ((cs.dropWhile isSpace).reverse.dropWhile isSpace).reverse

/-! ## Integer literals -/

/-- The value of a digit or letter. -/
def digitVal (c : Char) : Option ℕ :=
  if c.isDigit then some (c.toNat - 48)
  else if c.isLower then some (c.toNat - 87)
  else if c.isUpper then some (c.toNat - 55)
  else none

/-- A nonempty digit string in base `b`. -/
def ofDigits (b : ℕ) (cs : List Char) : Option ℕ :=
  if cs = [] then none
  else cs.foldlM (fun n c => (digitVal c).bind fun d => if d < b then some (b * n + d) else none) 0

/-- The base of a prefixed literal, with the rest of it. -/
def radixPrefix : List Char → Option (ℕ × List Char)
  | '0' :: c :: cs =>
    if c = 'x' ∨ c = 'X' then some (16, cs)
    else if c = 'o' ∨ c = 'O' then some (8, cs)
    else if c = 'b' ∨ c = 'B' then some (2, cs)
    else none
  | _ => none

/-- An integer literal without surrounding blanks; only a decimal one takes a sign. -/
def intLiteral : List Char → Option ℤ
  | [] => some 0
  | c :: cs =>
    if c = '-' then (ofDigits 10 cs).map fun n => -(n : ℤ)
    else if c = '+' then (ofDigits 10 cs).map fun n => (n : ℤ)
    else match radixPrefix (c :: cs) with
      | some (b, ds) => (ofDigits b ds).map fun n => (n : ℤ)
      | none => (ofDigits 10 (c :: cs)).map fun n => (n : ℤ)

/-- `BigInt(s)`; `none` is the `SyntaxError`. -/
def bigInt (s : String) : Option ℤ := intLiteral (trim s.toList)

/-- Every character is an ASCII digit, `/^\d*$/`. -/
def AllDigits (cs : List Char) : Prop := ∀ c ∈ cs, c.isDigit = true

instance (cs : List Char) : Decidable (AllDigits cs) :=
  decidable_of_iff (cs.all Char.isDigit = true) List.all_eq_true

theorem isDigit_bounds {c : Char} (h : c.isDigit = true) : 48 ≤ c.toNat ∧ c.toNat ≤ 57 := by
  simpa [Char.isDigit, UInt32.le_iff_toNat_le] using h

theorem not_isSpace_of_isDigit {c : Char} (h : c.isDigit = true) : isSpace c = false := by
  obtain ⟨h₁, h₂⟩ := isDigit_bounds h
  simp only [isSpace, List.mem_cons, List.not_mem_nil, or_false, Bool.or_eq_false_iff,
    decide_eq_false_iff_not, Bool.and_eq_false_iff]
  omega

theorem trim_of_forall {cs : List Char} (h : ∀ c ∈ cs, isSpace c = false) : trim cs = cs := by
  have hdrop : ∀ ds : List Char, (∀ c ∈ ds, isSpace c = false) → ds.dropWhile isSpace = ds := by
    intro ds hds
    cases ds with
    | nil => rfl
    | cons c ds => rw [List.dropWhile_cons_of_neg]; simp [hds c List.mem_cons_self]
  rw [trim, hdrop cs h, hdrop cs.reverse fun c hc => h c (List.mem_reverse.mp hc), List.reverse_reverse]

theorem trim_of_ends {cs : List Char} (hhead : ∀ c ∈ cs.head?, isSpace c = false)
    (hlast : ∀ c ∈ cs.getLast?, isSpace c = false) : trim cs = cs := by
  have hdrop : ∀ ds : List Char, (∀ c ∈ ds.head?, isSpace c = false) → ds.dropWhile isSpace = ds := by
    intro ds hds
    cases ds with
    | nil => rfl
    | cons c ds => rw [List.dropWhile_cons_of_neg]; simp [hds c rfl]
  rw [trim, hdrop cs hhead, hdrop cs.reverse (by simpa using hlast), List.reverse_reverse]

theorem trim_trim (cs : List Char) : trim (trim cs) = trim cs := by
  have htrim (ds : List Char) : trim ds = (ds.dropWhile isSpace).rdropWhile isSpace := rfl
  have hpre : trim cs <+: cs.dropWhile isSpace := List.rdropWhile_prefix isSpace _
  have hhead : (trim cs).dropWhile isSpace = trim cs := by
    rw [List.dropWhile_eq_self_iff]
    intro hl
    rw [hpre.getElem hl]
    exact List.dropWhile_get_zero_not isSpace cs (hl.trans_le hpre.length_le)
  rw [htrim (trim cs), hhead, htrim cs, List.rdropWhile_idempotent]

theorem trim_of_allDigits {cs : List Char} (h : AllDigits cs) : trim cs = cs :=
  trim_of_forall fun c hc => not_isSpace_of_isDigit (h c hc)

theorem digitVal_of_isDigit {c : Char} (h : c.isDigit = true) : digitVal c = some (c.toNat - 48) := by
  simp [digitVal, h]

theorem foldlM_digits {cs : List Char} (h : AllDigits cs) (n : ℕ) :
    cs.foldlM (fun n c => (digitVal c).bind fun d => if d < 10 then some (10 * n + d) else none) n =
      some (Nat.ofDigitChars 10 cs n) := by
  induction cs generalizing n with
  | nil => simp
  | cons c cs ih =>
    have hc := h c List.mem_cons_self
    have hlt : c.toNat - 48 < 10 := by have := isDigit_bounds hc; omega
    simp only [List.foldlM_cons, digitVal_of_isDigit hc, Option.bind_some, hlt, if_true,
      Nat.ofDigitChars_cons]
    exact ih (fun c' hc' => h c' (List.mem_cons_of_mem _ hc')) _

theorem ofDigits_of_allDigits {cs : List Char} (h : AllDigits cs) (hne : cs ≠ []) :
    ofDigits 10 cs = some (Nat.ofDigitChars 10 cs 0) := by
  rw [ofDigits, if_neg hne, foldlM_digits h]

theorem radixPrefix_of_allDigits {cs : List Char} (h : AllDigits cs) : radixPrefix cs = none := by
  unfold radixPrefix
  split
  · rename_i c cs
    have hc : c.isDigit = true := h c (by simp)
    have hne : ∀ d : Char, d.isDigit = false → c ≠ d := by
      rintro d hd rfl
      rw [hc] at hd
      cases hd
    simp [hne]
  · rfl

/-- **`BigInt` of a digit string is its decimal value**, `0` for the empty string. -/
theorem bigInt_ofDigits {cs : List Char} (h : AllDigits cs) :
    bigInt (String.ofList cs) = some (Nat.ofDigitChars 10 cs 0 : ℤ) := by
  rw [bigInt, String.toList_ofList, trim_of_allDigits h]
  cases cs with
  | nil => rfl
  | cons c cs =>
    have hc := h c List.mem_cons_self
    have h₁ : c ≠ '-' := by rintro rfl; cases hc
    have h₂ : c ≠ '+' := by rintro rfl; cases hc
    rw [intLiteral, if_neg h₁, if_neg h₂, radixPrefix_of_allDigits h,
      ofDigits_of_allDigits h (List.cons_ne_nil _ _)]
    rfl

/-! ## Numerals -/

/-- The closest `k`-digit `s` for which `s * 10 ^ (n - k)` rounds to `q`. -/
def digitsAt (q : ℚ) (n : ℤ) (k : ℕ) : Option ℕ :=
  let u : ℚ := 10 ^ (n - k)
  let ok (s : ℤ) : Bool := 10 ^ (k - 1) ≤ s && s < 10 ^ k && Number.ofRat (s * u) = .fin q
  if ok ⌊q / u⌋ && (!ok ⌈q / u⌉ || q / u - ⌊q / u⌋ ≤ ⌈q / u⌉ - q / u) then some ⌊q / u⌋.toNat
  else if ok ⌈q / u⌉ then some ⌈q / u⌉.toNat
  else none

/-- The fewest digits that read back as the positive `q`, with their exponent. -/
def shortest (q : ℚ) : ℤ × List Char :=
  let n := Int.log 10 q + 1
  if Number.ofRat (10 ^ n) = .fin q then (n + 1, ['1'])
  else (n, Nat.toDigits 10 ((((List.range 17).map (· + 1)).findSome? (digitsAt q n)).getD 0))

/-- The digits laid out around the decimal point, or in exponent form. -/
def layout : ℤ × List Char → List Char
  | (n, ds) =>
    if ds.length ≤ n ∧ n ≤ 21 then ds ++ List.replicate (n - ds.length).toNat '0'
    else if 0 < n ∧ n ≤ 21 then ds.take n.toNat ++ '.' :: ds.drop n.toNat
    else if -6 < n ∧ n ≤ 0 then '0' :: '.' :: List.replicate (-n).toNat '0' ++ ds
    else ds.take 1 ++ (if ds.length = 1 then [] else '.' :: ds.drop 1) ++
      'e' :: (if 0 ≤ n - 1 then '+' else '-') :: Nat.toDigits 10 (n - 1).natAbs

/-- `String(x)`. An integer up to `2 ^ 53` has no shorter digits than its own. -/
def numToText : Number → String
  | .nan => "NaN"
  | .posInf => "Infinity"
  | .negInf => "-Infinity"
  | .fin q =>
    String.ofList ((if q < 0 then ['-'] else []) ++
      if q.isInt ∧ |q| ≤ 2 ^ 53 then Nat.toDigits 10 q.num.natAbs else layout (shortest |q|))

/-- `Number(s)` for a digit string `s`. -/
def digitsToNum (cs : List Char) : Number := Number.ofRat (Nat.ofDigitChars 10 cs 0)

theorem allDigits_toDigits (n : ℕ) : AllDigits (Nat.toDigits 10 n) := fun _ hc =>
  Nat.isDigit_of_mem_toDigits (by norm_num) (by norm_num) hc

/-- **No zero stands before other digits.** -/
theorem head_toDigits {n : ℕ} (h : (Nat.toDigits 10 n).head? = some '0') :
    Nat.toDigits 10 n = ['0'] := by
  induction n using Nat.strong_induction_on with
  | _ n ih =>
    rcases lt_or_ge n 10 with hn | hn
    · rw [Nat.toDigits_of_lt_base hn] at h ⊢
      rw [Option.some.inj h]
    · exfalso
      rw [Nat.toDigits_of_base_le (by norm_num) hn,
        List.head?_append_of_ne_nil _ Nat.toDigits_ne_nil] at h
      have hvalue := Nat.ofDigitChars_ten_toDigits (n := n / 10)
      rw [ih (n / 10) (by omega) h] at hvalue
      have : Nat.ofDigitChars 10 ['0'] 0 = 0 := by decide
      omega

/-- **Integers survive the trip through text.** -/
theorem bigInt_toString (n : ℤ) : bigInt (toString n) = some n := by
  cases n with
  | ofNat m =>
    show bigInt (Nat.repr m) = _
    rw [Nat.repr, bigInt_ofDigits (allDigits_toDigits m), Nat.ofDigitChars_ten_toDigits]
    rfl
  | negSucc m =>
    show bigInt ("-" ++ Nat.repr (m + 1)) = _
    have hd := allDigits_toDigits (m + 1)
    have hlist : ("-" ++ Nat.repr (m + 1)).toList = '-' :: Nat.toDigits 10 (m + 1) := by
      simp [Nat.repr]
    rw [bigInt, hlist, trim_of_forall, intLiteral, if_pos rfl, ofDigits_of_allDigits hd Nat.toDigits_ne_nil,
      Nat.ofDigitChars_ten_toDigits]
    · rfl
    · intro c hc
      rcases List.mem_cons.mp hc with rfl | hc
      · decide
      · exact not_isSpace_of_isDigit (hd c hc)

theorem numToText_natCast {n : ℕ} (hn : n ≤ 2 ^ 53) :
    numToText (.fin n) = String.ofList (Nat.toDigits 10 n) := by
  have hle : |(n : ℚ)| ≤ 2 ^ 53 := by rw [abs_of_nonneg (by positivity)]; exact_mod_cast hn
  have hint : (n : ℚ).isInt = true := Number.isInt_iff.mpr ⟨n, by simp⟩
  have hneg : ¬ (n : ℚ) < 0 := not_lt.mpr (by positivity)
  simp only [numToText, if_neg hneg, hint, hle, and_self, if_true, List.nil_append, Rat.num_natCast,
    Int.natAbs_natCast]

/-- **Naturals survive the trip through text.** -/
theorem digitsToNum_toDigits {n : ℕ} (hn : n ≤ 2 ^ 53) :
    digitsToNum (Nat.toDigits 10 n) = .fin n := by
  rw [digitsToNum, Nat.ofDigitChars_ten_toDigits]
  have := Number.ofRat_intCast (n := n) (by rw [abs_of_nonneg (by positivity)]; exact_mod_cast hn)
  exact_mod_cast this

end Js
