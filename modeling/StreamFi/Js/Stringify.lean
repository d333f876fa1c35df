import StreamFi.Js.Json
import StreamFi.Js.Reading

/-!
# JSON texts

* `unsignedText_spec`: the text of a double is a number of JSON;
* `Json.stringify`: the text that `JSON.stringify` writes;
* `Json.parse`: `JSON.parse`, a descent over the text with as much fuel as the text can need. A lone
  surrogate has no `Char` and is read as the replacement character;
* `propertyOrder`: the order in which JavaScript lists properties;
* `Json.Proper`: the names of an object differ and stand in that order, and numbers are doubles;
* **`parse_stringify`**: what was written is read as `Json.written` says; **`proper_of_parse`**: what is read is
  proper.
-/

namespace Js

open Number

/-! ## Decimal texts -/

/-- An exponent with its letter and its sign. -/
def exponentText : Option ℤ → List Char
  | none => []
  | some e => 'e' :: (if 0 ≤ e then '+' else '-') :: Nat.toDigits 10 e.natAbs

/-- Digits, a point before more of them, and an exponent. -/
def decimalText (whole fraction : List Char) (exponent : Option ℤ) : List Char :=
  (whole ++ if fraction = [] then [] else '.' :: fraction) ++ exponentText exponent

/-- Digits that do not start with a zero, unless it is the only one. -/
def isWhole (cs : List Char) : Bool :=
  cs = ['0'] || cs.all Char.isDigit && cs ≠ [] && cs.head? ≠ some '0'

/-- A point with digits behind it, or nothing. -/
def isFraction : List Char → Bool
  | [] => true
  | _ :: ds => ds.all Char.isDigit && ds ≠ []

/-- An exponent with its letter, or nothing. -/
def isExponent : List Char → Bool
  | [] => true
  | _ :: '+' :: ds | _ :: '-' :: ds => ds.all Char.isDigit && ds ≠ []
  | _ :: ds => ds.all Char.isDigit && ds ≠ []

/-- The numbers of JSON, without their sign. -/
def isUnsigned (cs : List Char) : Bool :=
  let mantissa := cs.takeWhile fun c => c ≠ 'e' ∧ c ≠ 'E'
  let whole := mantissa.takeWhile (· ≠ '.')
  isWhole whole && isFraction (mantissa.drop whole.length) && isExponent (cs.drop mantissa.length)

section Decimal

variable {q : ℚ} {n : ℤ} {ds whole fraction : List Char} {exponent : Option ℤ} {d : ℕ}

theorem allDigits_iff {cs : List Char} : cs.all Char.isDigit = true ↔ AllDigits cs := by
  simp [AllDigits]

/-- Where the exponent starts. -/
theorem takeWhile_mantissa (hw : AllDigits whole) (hf : AllDigits fraction) :
    (decimalText whole fraction exponent).takeWhile (fun c => c ≠ 'e' ∧ c ≠ 'E') =
      whole ++ if fraction = [] then [] else '.' :: fraction := by
  have hne : ∀ c ∈ whole ++ (if fraction = [] then [] else '.' :: fraction),
      decide (c ≠ 'e' ∧ c ≠ 'E') = true := by
    intro c hc
    have hdigit : c.isDigit = true ∨ c = '.' := by
      rw [List.mem_append] at hc
      rcases hc with hc | hc
      · exact .inl (hw c hc)
      · split_ifs at hc
        · cases hc
        · exact (List.mem_cons.mp hc).elim .inr fun hc => .inl (hf c hc)
    rcases hdigit with h | rfl
    · exact decide_eq_true (digit_ne h).2
    · decide
  rw [decimalText, List.takeWhile_append_of_pos hne]
  cases exponent <;> simp [exponentText]

/-- **A decimal text is a number of JSON.** -/
theorem isUnsigned_text (hw : isWhole whole = true) (hd : AllDigits whole) (hf : AllDigits fraction) :
    isUnsigned (decimalText whole fraction exponent) = true := by
  simp only [isUnsigned, takeWhile_mantissa hd hf, Bool.and_eq_true]
  refine ⟨⟨?_, ?_⟩, ?_⟩
  · by_cases hnil : fraction = []
    · rw [if_pos hnil, List.append_nil, (takeWhile_digits hd).1, hw]
    · rw [if_neg hnil, (takeWhile_point hd fraction).1, hw]
  · by_cases hnil : fraction = []
    · rw [if_pos hnil, List.append_nil, (takeWhile_digits hd).1, List.drop_length]
      rfl
    · rw [if_neg hnil, (takeWhile_point hd fraction).1, List.drop_left]
      simp [isFraction, hnil, allDigits_iff.mpr hf]
  · rw [decimalText, List.drop_left]
    cases exponent with
    | none => rfl
    | some e =>
      have hall := allDigits_iff.mpr (allDigits_toDigits e.natAbs)
      by_cases he : 0 ≤ e <;> simp [isExponent, exponentText, he, hall]

/-- The digits of a positive number as a whole part. -/
theorem isWhole_toDigits (hd : 0 < d) : (Nat.toDigits 10 d).head? ≠ some '0' := by
  intro h
  have hvalue := Nat.ofDigitChars_ten_toDigits (n := d)
  rw [head_toDigits h] at hvalue
  have : Nat.ofDigitChars 10 ['0'] 0 = 0 := by decide
  omega

theorem isWhole_of_head (hds : AllDigits whole) (hne : whole ≠ []) (hhead : whole.head? ≠ some '0') :
    isWhole whole = true := by
  simp [isWhole, allDigits_iff.mpr hds, hne, hhead]

variable (n ds) in
/-- The digits of a number, laid out, are a decimal text. -/
theorem layout_decimal (hds : AllDigits ds) (hne : ds ≠ []) (hhead : ds.head? ≠ some '0') :
    ∃ whole fraction exponent, layout (n, ds) = decimalText whole fraction exponent ∧
      AllDigits whole ∧ isWhole whole = true ∧ AllDigits fraction := by
  have hpos : 0 < ds.length := List.length_pos_iff.mpr hne
  have hwhole {m : ℕ} : isWhole (ds.take (m + 1)) = true := by
    obtain ⟨c, cs, rfl⟩ := List.exists_cons_of_ne_nil hne
    exact isWhole_of_head (hds.sublist (List.take_subset _ _)) (by simp) hhead
  simp only [layout]
  by_cases h₁ : (ds.length : ℤ) ≤ n ∧ n ≤ 21
  · -- all digits are before the point
    refine ⟨ds ++ List.replicate (n - ds.length).toNat '0', [], none, ?_, hds.append (allDigits_zeros _), ?_,
      by simp [AllDigits]⟩
    · rw [if_pos h₁]
      simp [decimalText, exponentText]
    · refine isWhole_of_head (hds.append (allDigits_zeros _)) (by simp [hne]) ?_
      rwa [List.head?_append_of_ne_nil _ hne]
  rw [if_neg h₁]
  by_cases h₂ : 0 < n ∧ n ≤ 21
  · -- the point is between two digits
    obtain ⟨m, hm⟩ : ∃ m, n.toNat = m + 1 := ⟨n.toNat - 1, by omega⟩
    refine ⟨ds.take n.toNat, ds.drop n.toNat, none, ?_, hds.sublist (List.take_subset _ _), by rw [hm, hwhole],
      hds.sublist (List.drop_subset _ _)⟩
    rw [if_pos h₂, decimalText, if_neg (by rw [List.drop_eq_nil_iff]; omega)]
    simp [exponentText]
  rw [if_neg h₂]
  by_cases h₃ : -6 < n ∧ n ≤ 0
  · -- zeros stand behind the point
    refine ⟨['0'], List.replicate (-n).toNat '0' ++ ds, none, ?_, by simp [AllDigits], rfl,
      (allDigits_zeros _).append hds⟩
    rw [if_pos h₃, decimalText, if_neg (by simp [hne])]
    simp [exponentText]
  · -- one digit is before the point
    rw [if_neg h₃]
    refine ⟨ds.take 1, ds.drop 1, some (n - 1), ?_, hds.sublist (List.take_subset _ _), hwhole,
      hds.sublist (List.drop_subset _ _)⟩
    have hnil : ds.drop 1 = [] ↔ ds.length = 1 := by
      rw [List.drop_eq_nil_iff]
      omega
    simp only [decimalText, exponentText, hnil]

/-- What `numToText` writes behind the sign. -/
def unsignedText (q : ℚ) : List Char :=
  if q.isInt ∧ |q| ≤ 2 ^ 53 then Nat.toDigits 10 q.num.natAbs else layout (shortest |q|)

theorem toList_numToText (q : ℚ) :
    (numToText (.fin q)).toList = (if q < 0 then ['-'] else []) ++ unsignedText q := by
  rw [numToText, unsignedText, String.toList_ofList]

/-- **The text of a double** is a decimal text. -/
theorem unsignedText_spec (hd : IsDouble (.fin q)) : ∃ whole fraction exponent,
    unsignedText q = decimalText whole fraction exponent ∧ AllDigits whole ∧ isWhole whole = true ∧
      AllDigits fraction := by
  unfold unsignedText
  by_cases hint : q.isInt = true ∧ |q| ≤ 2 ^ 53
  · rw [if_pos hint]
    refine ⟨_, [], none, ?_, allDigits_toDigits q.num.natAbs, ?_, by simp [AllDigits]⟩
    · simp [decimalText, exponentText]
    · rcases Nat.eq_zero_or_pos q.num.natAbs with h0 | hpos
      · rw [h0]
        rfl
      · exact isWhole_of_head (allDigits_toDigits _) Nat.toDigits_ne_nil (isWhole_toDigits hpos)
  · rw [if_neg hint]
    have hq : 0 < |q| := by
      rw [abs_pos]
      rintro rfl
      exact hint ⟨rfl, by norm_num⟩
    have habs : ofRat |q| = .fin |q| := by
      rcases abs_choice q with h | h <;> rw [h]
      · exact hd q rfl
      · exact ofRat_neg (hd q rfl)
    obtain ⟨d, hdpos, hdigits, -⟩ := shortest_reads hq habs
    refine layout_decimal (shortest |q|).1 (shortest |q|).2 ?_ ?_ ?_
    · rw [hdigits]
      exact allDigits_toDigits d
    · rw [hdigits]
      exact Nat.toDigits_ne_nil
    · rw [hdigits]
      exact isWhole_toDigits hdpos

variable (fraction exponent) in
/-- The first character of a decimal text. -/
theorem decimalText_head (hw : AllDigits whole) (hwhole : isWhole whole = true) :
    ∃ c cs, decimalText whole fraction exponent = c :: cs ∧ c.isDigit = true := by
  cases whole with
  | nil => simp [isWhole] at hwhole
  | cons c cs => exact ⟨c, _, rfl, hw c List.mem_cons_self⟩

theorem mem_decimalText {c : Char} (hw : AllDigits whole) (hf : AllDigits fraction)
    (hc : c ∈ decimalText whole fraction exponent) : TextChar c := by
  rw [decimalText, List.mem_append, List.mem_append] at hc
  rcases hc with (hc | hc) | hc
  · exact .inl (hw c hc)
  · split_ifs at hc
    · cases hc
    · rcases List.mem_cons.mp hc with rfl | hc
      · exact .inr (.inl rfl)
      · exact .inl (hf c hc)
  · cases exponent with
    | none => cases hc
    | some e =>
      rw [exponentText, List.mem_cons, List.mem_cons] at hc
      rcases hc with rfl | rfl | hc
      · exact .inr (.inr (.inl rfl))
      · split_ifs
        · exact .inr (.inr (.inr (.inl rfl)))
        · exact .inr (.inr (.inr (.inr rfl)))
      · exact .inl (allDigits_toDigits _ c hc)

end Decimal

namespace Json

/-! ## Writing -/

/-- The escapes with a letter of their own. -/
def letterEscapes : List (Char × Char) :=
  [('"', '"'), ('\\', '\\'), (Char.ofNat 8, 'b'), (Char.ofNat 12, 'f'), ('\n', 'n'), ('\r', 'r'), ('\t', 't')]

def hexQuad (n : ℕ) : List Char :=
  [Nat.digitChar (n / 4096 % 16), Nat.digitChar (n / 256 % 16), Nat.digitChar (n / 16 % 16),
    Nat.digitChar (n % 16)]

def escapeChar (c : Char) : List Char :=
  match letterEscapes.lookup c with
  | some letter => ['\\', letter]
  | none => if c.toNat < 32 then '\\' :: 'u' :: hexQuad c.toNat else [c]

def quote (s : String) : List Char := '"' :: s.toList.flatMap escapeChar ++ ['"']

mutual

/-- `JSON.stringify(x)`. -/
def stringify : Json → List Char
  | .null => "null".toList
  | .bool true => "true".toList
  | .bool false => "false".toList
  | .number x => if x.isFinite then (numToText x).toList else "null".toList
  | .string s => quote s
  | .array items => '[' :: stringifyItems items ++ [']']
  | .object fields => '\x7b' :: stringifyFields fields ++ ['\x7d']

def stringifyItems : List Json → List Char
  | [] => []
  | item :: items => item.stringify ++ if items.isEmpty then [] else ',' :: stringifyItems items

def stringifyFields : List (String × Json) → List Char
  | [] => []
  | (name, value) :: fields =>
    quote name ++ ':' :: value.stringify ++ if fields.isEmpty then [] else ',' :: stringifyFields fields

end

/-! ## Reading -/

def isBlank (c : Char) : Bool := c = ' ' || c = '\t' || c = '\n' || c = '\r'

def skipBlanks (cs : List Char) : List Char := cs.dropWhile isBlank

def unescape (letter : Char) : Option Char :=
  if letter = '/' then some '/' else (letterEscapes.find? fun p => p.2 = letter).map Prod.fst

/-- The characters and the escaped code units up to the closing quote, and what follows it. -/
def readUnits : List Char → Option (List (Char ⊕ ℕ) × List Char)
  | [] => none
  | '"' :: rest => some ([], rest)
  | '\\' :: 'u' :: a :: b :: c :: d :: rest => do
    let n ← ofDigits 16 [a, b, c, d]
    let (units, rest) ← readUnits rest
    return (.inr n :: units, rest)
  | '\\' :: letter :: rest => do
    let c ← unescape letter
    let (units, rest) ← readUnits rest
    return (.inl c :: units, rest)
  | c :: rest => do
    guard (32 ≤ c.toNat ∧ c ≠ '\\')
    let (units, rest) ← readUnits rest
    return (.inl c :: units, rest)

/-- A code unit by itself. -/
def unitChar (n : ℕ) : Char := if 0xD800 ≤ n ∧ n < 0xE000 then Char.ofNat 0xFFFD else Char.ofNat n

/-- Escaped surrogates are put together. -/
def joinUnits : List (Char ⊕ ℕ) → List Char
  | [] => []
  | .inl c :: units => c :: joinUnits units
  | [.inr n] => [unitChar n]
  | .inr n :: .inl c :: units => unitChar n :: c :: joinUnits units
  | .inr n :: .inr m :: units =>
    if 0xD800 ≤ n ∧ n < 0xDC00 ∧ 0xDC00 ≤ m ∧ m < 0xE000 then
      Char.ofNat (0x10000 + (n - 0xD800) * 1024 + (m - 0xDC00)) :: joinUnits units
    else unitChar n :: joinUnits (.inr m :: units)

def readString (cs : List Char) : Option (String × List Char) :=
  (readUnits cs).map fun p => (String.ofList (joinUnits p.1), p.2)

def isNumberChar (c : Char) : Bool :=
  c.isDigit || c = '-' || c = '+' || c = '.' || c = 'e' || c = 'E'

def readNumber (cs : List Char) : Option (Number × List Char) :=
  let text := cs.takeWhile isNumberChar
  if isUnsigned (if text.head? = some '-' then text.tail else text) then
    some (toNumber (String.ofList text), cs.drop text.length)
  else none

/-- A property is defined once more. -/
def putField (fields : List (String × Json)) (field : String × Json) : List (String × Json) :=
  if fields.any fun p => p.1 = field.1 then fields.map fun p => if p.1 = field.1 then field else p
  else fields ++ [field]

/-- Names that are indices of arrays come first, in their order. -/
def nameRank (name : String) : ℕ :=
  match ofDigits 10 name.toList with
  | some n => if n < 2 ^ 32 - 1 ∧ Nat.toDigits 10 n = name.toList then n else 2 ^ 32
  | none => 2 ^ 32

/-- The order in which the properties of an object are listed. -/
def propertyOrder {β : Type} (fields : List (String × β)) : List (String × β) :=
  fields.mergeSort fun p q => nameRank p.1 ≤ nameRank q.1

/-- The values that are words. -/
def readWord (cs : List Char) : Option (Json × List Char) :=
  if "null".toList.isPrefixOf cs then some (.null, cs.drop 4)
  else if "true".toList.isPrefixOf cs then some (.bool true, cs.drop 4)
  else if "false".toList.isPrefixOf cs then some (.bool false, cs.drop 5)
  else none

mutual

/-- A value at the start of the text. -/
def parseValue : ℕ → List Char → Option (Json × List Char)
  | 0, _ => none
  | fuel + 1, cs =>
    match skipBlanks cs with
    | [] => none
    | '"' :: rest => (readString rest).map fun p => (.string p.1, p.2)
    | '[' :: rest =>
      match skipBlanks rest with
      | ']' :: rest => some (.array [], rest)
      | _ => (parseItems fuel rest).map fun p => (.array p.1, p.2)
    | '\x7b' :: rest =>
      match skipBlanks rest with
      | '\x7d' :: rest => some (.object [], rest)
      | _ => (parseFields fuel rest).map fun p => (.object (propertyOrder (p.1.foldl putField [])), p.2)
    | c :: rest =>
      if c.isDigit ∨ c = '-' then (readNumber (c :: rest)).map fun p => (.number p.1, p.2)
      else readWord (c :: rest)

/-- The elements up to the closing bracket. -/
def parseItems : ℕ → List Char → Option (List Json × List Char)
  | 0, _ => none
  | fuel + 1, cs => do
    let (item, rest) ← parseValue fuel cs
    match skipBlanks rest with
    | ',' :: rest => (parseItems fuel rest).map fun p => (item :: p.1, p.2)
    | ']' :: rest => some ([item], rest)
    | _ => none

/-- The properties up to the closing brace. -/
def parseFields : ℕ → List Char → Option (List (String × Json) × List Char)
  | 0, _ => none
  | fuel + 1, cs =>
    match skipBlanks cs with
    | '"' :: rest => do
      let (name, rest) ← readString rest
      match skipBlanks rest with
      | ':' :: rest => do
        let (value, rest) ← parseValue fuel rest
        match skipBlanks rest with
        | ',' :: rest => (parseFields fuel rest).map fun p => ((name, value) :: p.1, p.2)
        | '\x7d' :: rest => some ([(name, value)], rest)
        | _ => none
      | _ => none
    | _ => none

end

/-- `JSON.parse(text)`, unless it throws a `SyntaxError`. -/
def parse (text : List Char) : Option Json :=
  match parseValue (2 * text.length + 2) text with
  | some (value, rest) => if skipBlanks rest = [] then some value else none
  | none => none

/-! ## The order of properties -/

theorem propertyOrder_perm {β : Type} (fields : List (String × β)) : (propertyOrder fields).Perm fields :=
  List.mergeSort_perm _ _

theorem propertyOrder_pairwise {β : Type} (fields : List (String × β)) :
    ((propertyOrder fields).map Prod.fst).Pairwise fun a b => nameRank a ≤ nameRank b := by
  rw [List.pairwise_map]
  have hsorted : (propertyOrder fields).Pairwise fun p q => decide (nameRank p.1 ≤ nameRank q.1) :=
    List.pairwise_mergeSort
      (fun a b c hab hbc => decide_eq_true ((of_decide_eq_true hab).trans (of_decide_eq_true hbc)))
      (fun a b => by simpa using Nat.le_total _ _) fields
  exact hsorted.imp of_decide_eq_true

theorem propertyOrder_of_pairwise {β : Type} {fields : List (String × β)}
    (h : (fields.map Prod.fst).Pairwise fun a b => nameRank a ≤ nameRank b) : propertyOrder fields = fields := by
  rw [List.pairwise_map] at h
  exact List.mergeSort_of_pairwise (h.imp decide_eq_true)

/-! ## What was written is read -/

/-- How an escaped character is read. -/
def unitOf (c : Char) : Char ⊕ ℕ :=
  if (letterEscapes.lookup c).isNone ∧ c.toNat < 32 then .inr c.toNat else .inl c

theorem ofDigits_hexQuad : ∀ n < 32, ofDigits 16 (hexQuad n) = some n := by decide

theorem mem_letterEscapes {c : Char} (h : letterEscapes.lookup c ≠ none) :
    c = '"' ∨ c = '\\' ∨ c = Char.ofNat 8 ∨ c = Char.ofNat 12 ∨ c = '\n' ∨ c = '\r' ∨ c = '\t' := by
  by_contra hne
  push Not at hne
  obtain ⟨h₁, h₂, h₃, h₄, h₅, h₆, h₇⟩ := hne
  exact h (by simp [letterEscapes, List.lookup, beq_false_of_ne, *])

/-- A character that stands for itself. -/
theorem readUnits_plain {c : Char} (hquote : c ≠ '"') (hslash : c ≠ '\\') (hc : 32 ≤ c.toNat) (rest : List Char) :
    readUnits (c :: rest) = (readUnits rest).map fun p => (.inl c :: p.1, p.2) := by
  rw [readUnits]
  · rw [guard, if_pos ⟨hc, hslash⟩]
    cases readUnits rest <;> rfl
  · exact fun h => hquote h
  · exact fun _ _ _ _ _ h => absurd h hslash
  · exact fun _ _ h => absurd h hslash

/-- A letter behind a backslash. -/
theorem readUnits_letter {c letter : Char} (hu : letter ≠ 'u') (hc : unescape letter = some c) (rest : List Char) :
    readUnits ('\\' :: letter :: rest) = (readUnits rest).map fun p => (.inl c :: p.1, p.2) := by
  rw [readUnits]
  · rw [hc]
    cases readUnits rest <;> rfl
  · exact fun _ _ _ _ _ h => absurd h hu

theorem readUnits_escape (c : Char) (rest : List Char) :
    readUnits (escapeChar c ++ rest) = (readUnits rest).map fun p => (unitOf c :: p.1, p.2) := by
  by_cases hletter : letterEscapes.lookup c = none
  · by_cases hc : c.toNat < 32
    · have hunit : unitOf c = .inr c.toNat := by rw [unitOf, hletter, if_pos ⟨rfl, hc⟩]
      have hhex := ofDigits_hexQuad c.toNat hc
      rw [escapeChar, hletter, hunit]
      simp only [if_pos hc]
      rw [hexQuad] at hhex ⊢
      simp only [List.cons_append, List.nil_append, readUnits, hhex]
      cases readUnits rest <;> rfl
    · have hunit : unitOf c = .inl c := if_neg fun h => hc h.2
      have hquote : c ≠ '"' := by rintro rfl; cases hletter
      have hslash : c ≠ '\\' := by rintro rfl; cases hletter
      rw [escapeChar, hletter, hunit]
      simp only [if_neg hc]
      exact readUnits_plain hquote hslash (not_lt.mp hc) rest
  · rcases mem_letterEscapes hletter with rfl | rfl | rfl | rfl | rfl | rfl | rfl <;>
      exact readUnits_letter (by decide) rfl rest

/-- **A string that was written** is read up to its closing quote. -/
theorem readUnits_quoted (cs rest : List Char) :
    readUnits (cs.flatMap escapeChar ++ '"' :: rest) = some (cs.map unitOf, rest) := by
  induction cs with
  | nil => rfl
  | cons c cs ih => rw [List.flatMap_cons, List.append_assoc, readUnits_escape, ih, Option.map_some, List.map_cons]

theorem joinUnits_cons (c : Char) (units : List (Char ⊕ ℕ)) :
    joinUnits (unitOf c :: units) = c :: joinUnits units := by
  by_cases h : (letterEscapes.lookup c).isNone = true ∧ c.toNat < 32
  · have hunit : unitOf c = .inr c.toNat := if_pos h
    have hchar : unitChar c.toNat = c := by
      rw [unitChar, if_neg (by omega), Char.ofNat_toNat]
    rw [hunit]
    cases units with
    | nil => simp only [joinUnits, hchar]
    | cons unit units => cases unit with
      | inl d => simp only [joinUnits, hchar]
      | inr m => rw [joinUnits, if_neg (by omega), hchar]
  · have hunit : unitOf c = .inl c := if_neg h
    rw [hunit, joinUnits]

theorem joinUnits_map (cs : List Char) : joinUnits (cs.map unitOf) = cs := by
  induction cs with
  | nil => rfl
  | cons c cs ih => rw [List.map_cons, joinUnits_cons, ih]

theorem readString_quote (s : String) (rest : List Char) :
    readString (s.toList.flatMap escapeChar ++ '"' :: rest) = some (s, rest) := by
  rw [readString, readUnits_quoted, Option.map_some, joinUnits_map, String.ofList_toList]

/-- The text goes on with something that is not part of a number. -/
def Terminated (rest : List Char) : Prop := ∀ c ∈ rest.head?, isNumberChar c = false

theorem isNumberChar_of_text {c : Char} (h : TextChar c) : isNumberChar c = true := by
  rcases h with h | rfl | rfl | rfl | rfl
  · simp [isNumberChar, h]
  all_goals rfl

theorem readNumber_text {q : ℚ} (hd : IsDouble (.fin q)) {rest : List Char} (hrest : Terminated rest) :
    readNumber ((numToText (.fin q)).toList ++ rest) = some (.fin q, rest) := by
  obtain ⟨whole, fraction, exponent, htext, hw, hwhole, hf⟩ := unsignedText_spec hd
  have hchars : ∀ c ∈ (numToText (.fin q)).toList, isNumberChar c = true := by
    intro c hc
    rw [toList_numToText, htext, List.mem_append] at hc
    rcases hc with hc | hc
    · split_ifs at hc
      · rw [List.mem_singleton.mp hc]
        rfl
      · cases hc
    · exact isNumberChar_of_text (mem_decimalText hw hf hc)
  have htake : ((numToText (.fin q)).toList ++ rest).takeWhile isNumberChar = (numToText (.fin q)).toList := by
    rw [List.takeWhile_append_of_pos hchars]
    cases rest with
    | nil => rw [List.takeWhile_nil, List.append_nil]
    | cons c cs => rw [List.takeWhile_cons_of_neg (by simp [hrest c rfl]), List.append_nil]
  have hunsigned : (if (numToText (.fin q)).toList.head? = some '-' then (numToText (.fin q)).toList.tail
      else (numToText (.fin q)).toList) = unsignedText q := by
    rw [toList_numToText]
    by_cases hneg : q < 0
    · rw [if_pos hneg]
      rfl
    · obtain ⟨c, cs, hhead, hdigit⟩ := decimalText_head fraction exponent hw hwhole
      rw [if_neg hneg, List.nil_append, if_neg]
      rw [htext, hhead, List.head?_cons, Option.some.injEq]
      rintro rfl
      cases hdigit
  rw [readNumber, htake]
  simp only [hunsigned]
  rw [if_pos (by rw [htext]; exact isUnsigned_text hwhole hw hf), String.ofList_toList, toNumber_numToText hd,
    List.drop_left]

mutual

/-- The names of an object differ and stand in their order, and numbers are doubles. -/
def Proper : Json → Prop
  | .number x => IsDouble x
  | .array items => ProperItems items
  | .object fields => (fields.map Prod.fst).Nodup ∧
      (fields.map Prod.fst).Pairwise (fun a b => nameRank a ≤ nameRank b) ∧ ProperFields fields
  | _ => True

def ProperItems : List Json → Prop
  | [] => True
  | item :: items => item.Proper ∧ ProperItems items

def ProperFields : List (String × Json) → Prop
  | [] => True
  | (_, value) :: fields => value.Proper ∧ ProperFields fields

end

mutual

/-- The fuel that a value needs. -/
def need : Json → ℕ
  | .array items => needItems items + 1
  | .object fields => needFields fields + 1
  | _ => 1

def needItems : List Json → ℕ
  | [] => 0
  | item :: items => item.need + needItems items + 1

def needFields : List (String × Json) → ℕ
  | [] => 0
  | (_, value) :: fields => value.need + needFields fields + 1

end

theorem foldl_putField (fields before : List (String × Json)) (h : ((before ++ fields).map Prod.fst).Nodup) :
    fields.foldl putField before = before ++ fields := by
  induction fields generalizing before with
  | nil => simp
  | cons field fields ih =>
    have hnew : (before.any fun p => p.1 = field.1) = false := by
      rw [List.any_eq_false]
      intro p hp heq
      rw [List.map_append, List.nodup_append] at h
      exact h.2.2 p.1 (List.mem_map_of_mem hp) field.1 (by simp) (of_decide_eq_true heq)
    rw [List.foldl_cons, putField, if_neg (by simp [hnew]), ih _ (by simpa using h)]
    simp

theorem skipBlanks_of_head {c : Char} (h : isBlank c = false) (cs : List Char) :
    skipBlanks (c :: cs) = c :: cs := by
  rw [skipBlanks, List.dropWhile_cons_of_neg (by simp [h])]

theorem numToText_head {q : ℚ} (hd : IsDouble (.fin q)) :
    ∃ c cs, (numToText (.fin q)).toList = c :: cs ∧ (c.isDigit = true ∨ c = '-') := by
  obtain ⟨whole, fraction, exponent, htext, hw, hwhole, hf⟩ := unsignedText_spec hd
  obtain ⟨c, cs, hhead, hdigit⟩ := decimalText_head fraction exponent hw hwhole
  rw [toList_numToText]
  by_cases hneg : q < 0
  · exact ⟨'-', unsignedText q, by rw [if_pos hneg]; rfl, .inr rfl⟩
  · exact ⟨c, cs, by rw [if_neg hneg, List.nil_append, htext, hhead], .inl hdigit⟩

theorem isBlank_of_number {c : Char} (hc : c.isDigit = true ∨ c = '-') : isBlank c = false := by
  rcases hc with hc | rfl
  · have := isDigit_bounds hc
    by_contra hblank
    simp only [isBlank, Bool.not_eq_false, Bool.or_eq_true, decide_eq_true_eq] at hblank
    rcases hblank with ((rfl | rfl) | rfl) | rfl <;> revert this <;> decide
  · rfl

/-- A value does not start with a blank or a bracket that closes. -/
theorem stringify_head (j : Json) (h : j.Proper) :
    ∃ c cs, j.stringify = c :: cs ∧ isBlank c = false ∧ c ≠ ']' := by
  cases j with
  | null => exact ⟨'n', _, rfl, rfl, by decide⟩
  | bool b => cases b
              · exact ⟨'f', _, rfl, rfl, by decide⟩
              · exact ⟨'t', _, rfl, rfl, by decide⟩
  | string s => exact ⟨'"', _, rfl, rfl, by decide⟩
  | array items => exact ⟨'[', _, rfl, rfl, by decide⟩
  | object fields => exact ⟨'\x7b', _, rfl, rfl, by decide⟩
  | number x =>
    rw [stringify]
    cases x with
    | fin q =>
      obtain ⟨c, cs, htext, hc⟩ := numToText_head h
      refine ⟨c, cs, htext, isBlank_of_number hc, ?_⟩
      rintro rfl
      revert hc
      decide
    | nan => exact ⟨'n', _, rfl, rfl, by decide⟩
    | posInf => exact ⟨'n', _, rfl, rfl, by decide⟩
    | negInf => exact ⟨'n', _, rfl, rfl, by decide⟩

theorem terminated_cons {c : Char} (h : isNumberChar c = false) (cs : List Char) : Terminated (c :: cs) := by
  intro d hd
  rw [List.head?_cons, Option.mem_some_iff] at hd
  rw [← hd, h]

theorem parseValue_number {q : ℚ} (hd : IsDouble (.fin q)) {rest : List Char} (hrest : Terminated rest) (fuel : ℕ) :
    parseValue (fuel + 1) ((numToText (.fin q)).toList ++ rest) = some (.number (.fin q), rest) := by
  obtain ⟨c, cs, htext, hc⟩ := numToText_head hd
  have hread := readNumber_text hd hrest
  rw [htext, List.cons_append] at hread ⊢
  rw [parseValue, skipBlanks_of_head (isBlank_of_number hc)]
  split
  · rename_i h
    cases h
  · rename_i h
    rw [(List.cons.inj h).1] at hc
    exact absurd hc (by decide)
  · rename_i h
    rw [(List.cons.inj h).1] at hc
    exact absurd hc (by decide)
  · rename_i h
    rw [(List.cons.inj h).1] at hc
    exact absurd hc (by decide)
  · rename_i h
    obtain ⟨rfl, rfl⟩ := List.cons.inj h
    rw [if_pos hc, hread]
    rfl

theorem map_writtenFields (fields : List (String × Json)) :
    (writtenFields fields).map Prod.fst = fields.map Prod.fst := by
  induction fields with
  | nil => rfl
  | cons field fields ih => rw [writtenFields, List.map_cons, List.map_cons, ih]

mutual

/-- **What was written is read**, with the fuel that it needs. -/
theorem parseValue_stringify : ∀ (j : Json) (fuel : ℕ) (rest : List Char), j.need ≤ fuel → j.Proper →
    Terminated rest → parseValue fuel (j.stringify ++ rest) = some (j.written, rest)
  | j, 0, rest, hfuel, _, _ => by cases j <;> simp [need] at hfuel
  | .null, fuel + 1, rest, _, _, _ => by simp [stringify, parseValue, skipBlanks_of_head, isBlank, readWord, written]
  | .bool true, fuel + 1, rest, _, _, _ => by
    simp [stringify, parseValue, skipBlanks_of_head, isBlank, readWord, written]
  | .bool false, fuel + 1, rest, _, _, _ => by
    simp [stringify, parseValue, skipBlanks_of_head, isBlank, readWord, written]
  | .number x, fuel + 1, rest, _, hproper, hrest => by
    cases x with
    | fin q => exact parseValue_number hproper hrest fuel
    | nan => simp [stringify, Number.isFinite, parseValue, skipBlanks_of_head, isBlank, readWord, written]
    | posInf => simp [stringify, Number.isFinite, parseValue, skipBlanks_of_head, isBlank, readWord, written]
    | negInf => simp [stringify, Number.isFinite, parseValue, skipBlanks_of_head, isBlank, readWord, written]
  | .string s, fuel + 1, rest, _, _, _ => by
    simp [stringify, quote, parseValue, skipBlanks_of_head, isBlank, readString_quote, written]
  | .array [], fuel + 1, rest, _, _, _ => by
    simp [stringify, stringifyItems, parseValue, skipBlanks_of_head, isBlank, written, writtenItems]
  | .array (item :: items), fuel + 1, rest, hfuel, hproper, _ => by
    have hread := parseItems_stringify (item :: items) fuel rest (by simp) (by simpa [need] using hfuel) hproper
    obtain ⟨c, cs, htext, hblank, hclose⟩ := stringify_head item hproper.1
    obtain ⟨cs', htext'⟩ : ∃ cs', stringifyItems (item :: items) = c :: cs' := by
      rw [stringifyItems, htext]
      exact ⟨_, rfl⟩
    rw [stringify, List.cons_append, List.cons_append, List.append_assoc, List.singleton_append, parseValue,
      skipBlanks_of_head rfl, htext', List.cons_append]
    rw [htext', List.cons_append] at hread
    simp only [skipBlanks_of_head hblank, hread]
    simp [hclose, written]
  | .object [], fuel + 1, rest, _, _, _ => by
    simp [stringify, stringifyFields, parseValue, skipBlanks_of_head, isBlank, written, writtenFields]
  | .object (field :: fields), fuel + 1, rest, hfuel, hproper, _ => by
    have hread := parseFields_stringify (field :: fields) fuel rest (by simp) (by simpa [need] using hfuel)
      hproper.2.2
    obtain ⟨cs, htext⟩ : ∃ cs, stringifyFields (field :: fields) = '"' :: cs := ⟨_, rfl⟩
    have hnames := foldl_putField (writtenFields (field :: fields)) [] (by
      rw [List.nil_append, map_writtenFields]
      exact hproper.1)
    have horder : propertyOrder (writtenFields (field :: fields)) = writtenFields (field :: fields) :=
      propertyOrder_of_pairwise (by rw [map_writtenFields]; exact hproper.2.1)
    rw [stringify, List.cons_append, List.cons_append, List.append_assoc, List.singleton_append, parseValue,
      skipBlanks_of_head rfl, htext, List.cons_append]
    rw [htext, List.cons_append] at hread
    have hblank : isBlank '"' = false := rfl
    simp only [skipBlanks_of_head hblank, hread]
    simp [written, hnames, horder]

theorem parseItems_stringify : ∀ (items : List Json) (fuel : ℕ) (rest : List Char), items ≠ [] →
    needItems items ≤ fuel → ProperItems items →
    parseItems fuel (stringifyItems items ++ ']' :: rest) = some (writtenItems items, rest)
  | [], _, _, hne, _, _ => absurd rfl hne
  | item :: items, 0, _, _, hfuel, _ => by simp [needItems] at hfuel
  | item :: items, fuel + 1, rest, _, hfuel, hproper => by
    rw [needItems] at hfuel
    rw [stringifyItems, List.append_assoc, parseItems, writtenItems]
    cases items with
    | nil =>
      have hitem := parseValue_stringify item fuel (']' :: rest) (by omega) hproper.1 (terminated_cons rfl _)
      simp [hitem, skipBlanks_of_head, isBlank, writtenItems]
    | cons next items =>
      have hitem := parseValue_stringify item fuel (',' :: (stringifyItems (next :: items) ++ ']' :: rest))
        (by omega) hproper.1 (terminated_cons rfl _)
      have hitems := parseItems_stringify (next :: items) fuel rest (by simp) (by omega) hproper.2
      simp [hitem, hitems, skipBlanks_of_head, isBlank]

theorem parseFields_stringify : ∀ (fields : List (String × Json)) (fuel : ℕ) (rest : List Char), fields ≠ [] →
    needFields fields ≤ fuel → ProperFields fields →
    parseFields fuel (stringifyFields fields ++ '\x7d' :: rest) = some (writtenFields fields, rest)
  | [], _, _, hne, _, _ => absurd rfl hne
  | (name, value) :: fields, 0, _, _, hfuel, _ => by simp [needFields] at hfuel
  | (name, value) :: fields, fuel + 1, rest, _, hfuel, hproper => by
    rw [needFields] at hfuel
    rw [stringifyFields, quote, writtenFields]
    cases fields with
    | nil =>
      have hvalue := parseValue_stringify value fuel ('\x7d' :: rest) (by omega) hproper.1 (terminated_cons rfl _)
      simp [parseFields, hvalue, skipBlanks_of_head, isBlank, readString_quote, writtenFields]
    | cons next fields =>
      have hvalue := parseValue_stringify value fuel (',' :: (stringifyFields (next :: fields) ++ '\x7d' :: rest))
        (by omega) hproper.1 (terminated_cons rfl _)
      have hfields := parseFields_stringify (next :: fields) fuel rest (by simp) (by omega) hproper.2
      simp [parseFields, hvalue, hfields, skipBlanks_of_head, isBlank, readString_quote]

end

mutual

theorem need_le : ∀ j : Json, j.Proper → j.need ≤ 2 * j.stringify.length
  | .null, _ | .bool true, _ | .bool false, _ => by simp [need, stringify]
  | .number x, h => by
    obtain ⟨c, cs, htext, -⟩ := stringify_head (.number x) h
    show 1 ≤ _
    rw [htext, List.length_cons]
    omega
  | .string s, _ => by
    simp only [need, stringify, quote, List.cons_append, List.length_cons]
    omega
  | .array items, h => by
    have := needItems_le items h
    simp only [need, stringify, List.cons_append, List.length_cons, List.length_append, List.length_nil]
    omega
  | .object fields, h => by
    have := needFields_le fields h.2.2
    simp only [need, stringify, List.cons_append, List.length_cons, List.length_append, List.length_nil]
    omega

theorem needItems_le : ∀ items : List Json, ProperItems items →
    needItems items ≤ 2 * (stringifyItems items).length + 1
  | [], _ => by simp [needItems]
  | item :: items, h => by
    have hitem := need_le item h.1
    have hitems := needItems_le items h.2
    cases items with
    | nil =>
      simp only [needItems, stringifyItems, List.length_append] at *
      omega
    | cons next items =>
      rw [needItems, stringifyItems, List.isEmpty_cons, if_neg Bool.false_ne_true, List.length_append,
        List.length_cons]
      omega

theorem needFields_le : ∀ fields : List (String × Json), ProperFields fields →
    needFields fields ≤ 2 * (stringifyFields fields).length + 1
  | [], _ => by simp [needFields]
  | (name, value) :: fields, h => by
    have hvalue := need_le value h.1
    have hfields := needFields_le fields h.2
    cases fields with
    | nil =>
      simp only [needFields, stringifyFields, List.length_append, List.length_cons] at *
      omega
    | cons next fields =>
      rw [needFields, stringifyFields, List.isEmpty_cons, if_neg Bool.false_ne_true, List.length_append,
        List.length_append, List.length_cons, List.length_cons]
      omega

end

/-- **What was written is read.** -/
theorem parse_stringify {j : Json} (h : j.Proper) : parse j.stringify = some j.written := by
  have hread := parseValue_stringify j (2 * j.stringify.length + 2) [] (by have := need_le j h; omega) h
    (by intro c hc; cases hc)
  rw [List.append_nil] at hread
  rw [parse, hread]
  rfl

/-! ## What is read -/

theorem field_writtenFields (fields : List (String × Json)) (name : String) :
    (Json.object (writtenFields fields)).field name = ((Json.object fields).field name).map written := by
  simp only [field, Option.map_map]
  induction fields with
  | nil => rfl
  | cons p fields ih =>
    rw [writtenFields, List.find?_cons, List.find?_cons]
    by_cases hname : p.1 = name
    · simp [hname]
    · simpa [hname] using ih

mutual

/-- What was read once is read again. -/
theorem written_written : ∀ j : Json, j.written.written = j.written
  | .null | .bool _ | .string _ => rfl
  | .number x => by cases x <;> rfl
  | .array items => by rw [written, written, writtenItems_writtenItems]
  | .object fields => by rw [written, written, writtenFields_writtenFields]

theorem writtenItems_writtenItems : ∀ items : List Json, writtenItems (writtenItems items) = writtenItems items
  | [] => rfl
  | item :: items => by rw [writtenItems, writtenItems, written_written item, writtenItems_writtenItems items]

theorem writtenFields_writtenFields : ∀ fields : List (String × Json),
    writtenFields (writtenFields fields) = writtenFields fields
  | [] => rfl
  | (name, value) :: fields => by
    rw [writtenFields, writtenFields, written_written value, writtenFields_writtenFields fields]

end

theorem properFields_iff (fields : List (String × Json)) : ProperFields fields ↔ ∀ p ∈ fields, p.2.Proper := by
  induction fields with
  | nil => simp [ProperFields]
  | cons field fields ih => simp [ProperFields, ih]

theorem Proper.field {j v : Json} {name : String} (h : j.Proper) (hfield : j.field name = some v) : v.Proper := by
  cases j with
  | object fields =>
    obtain ⟨p, hp, rfl⟩ := Option.map_eq_some_iff.mp hfield
    exact (properFields_iff fields).mp h.2.2 p (List.mem_of_find?_eq_some hp)
  | null | bool _ | number _ | string _ | array _ => cases hfield

/-- The names differ, and the values are proper. -/
def ProperEntries (fields : List (String × Json)) : Prop := (fields.map Prod.fst).Nodup ∧ ProperFields fields

theorem ProperEntries.putField {fields : List (String × Json)} {field : String × Json} (h : ProperEntries fields)
    (hvalue : field.2.Proper) : ProperEntries (putField fields field) := by
  obtain ⟨hnodup, hproper⟩ := h
  rw [properFields_iff] at hproper
  unfold Json.putField
  split_ifs with hany
  · have hnames : (fields.map fun p => if p.1 = field.1 then field else p).map Prod.fst = fields.map Prod.fst := by
      rw [List.map_map]
      refine List.map_congr_left fun p _ => ?_
      rw [Function.comp_apply]
      split_ifs with hp
      · exact hp.symm
      · rfl
    refine ⟨hnames ▸ hnodup, (properFields_iff _).mpr fun p hp => ?_⟩
    obtain ⟨q, hq, rfl⟩ := List.mem_map.mp hp
    split_ifs
    · exact hvalue
    · exact hproper q hq
  · refine ⟨?_, (properFields_iff _).mpr fun p hp => ?_⟩
    · rw [List.map_append, List.nodup_append_comm]
      refine List.nodup_cons.mpr ⟨fun hmem => hany ?_, hnodup⟩
      obtain ⟨p, hp, hname⟩ := List.mem_map.mp hmem
      exact List.any_eq_true.mpr ⟨p, hp, decide_eq_true hname⟩
    · rcases List.mem_append.mp hp with hp | hp
      · exact hproper p hp
      · rw [List.mem_singleton.mp hp]
        exact hvalue

theorem ProperEntries.foldl (fields : List (String × Json)) : ∀ before : List (String × Json),
    ProperEntries before → ProperFields fields → ProperEntries (fields.foldl Json.putField before) := by
  induction fields with
  | nil => exact fun before h _ => h
  | cons field fields ih =>
    intro before h hfields
    exact ih _ (h.putField hfields.1) hfields.2

/-- **Properties in their order** are those of a proper object. -/
theorem proper_propertyOrder {fields : List (String × Json)} (h : ProperEntries fields) :
    (Json.object (propertyOrder fields)).Proper := by
  have hperm := propertyOrder_perm fields
  refine ⟨(hperm.map Prod.fst).nodup_iff.mpr h.1, propertyOrder_pairwise fields, ?_⟩
  rw [properFields_iff]
  exact fun p hp => (properFields_iff fields).mp h.2 p (hperm.mem_iff.mp hp)

theorem proper_readNumber {cs : List Char} {p : Number × List Char} (h : readNumber cs = some p) :
    (Json.number p.1).Proper := by
  unfold readNumber at h
  simp only [Option.ite_none_right_eq_some, Option.some.injEq] at h
  rw [← h.2]
  exact isDouble_toNumber _

theorem proper_readWord {cs : List Char} {p : Json × List Char} (h : readWord cs = some p) : p.1.Proper := by
  unfold readWord at h
  split_ifs at h <;> cases h <;> trivial

theorem proper_parts (fuel : ℕ) :
    (∀ cs v rest, parseValue fuel cs = some (v, rest) → v.Proper) ∧
      (∀ cs items rest, parseItems fuel cs = some (items, rest) → ProperItems items) ∧
      ∀ cs fields rest, parseFields fuel cs = some (fields, rest) → ProperFields fields := by
  induction fuel with
  | zero => simp [parseValue, parseItems, parseFields]
  | succ fuel ih =>
    obtain ⟨ihvalue, ihitems, ihfields⟩ := ih
    refine ⟨fun cs v rest h => ?_, fun cs items rest h => ?_, fun cs fields rest h => ?_⟩
    · rw [parseValue] at h
      split at h
      · cases h
      · obtain ⟨_, -, hp⟩ := Option.map_eq_some_iff.mp h
        cases hp
        trivial
      · split at h
        · cases h
          trivial
        · obtain ⟨p, hitems, hp⟩ := Option.map_eq_some_iff.mp h
          cases hp
          exact ihitems _ _ _ hitems
      · split at h
        · cases h
          exact ⟨List.nodup_nil, List.Pairwise.nil, trivial⟩
        · obtain ⟨p, hfields, hp⟩ := Option.map_eq_some_iff.mp h
          cases hp
          exact proper_propertyOrder (.foldl _ [] ⟨List.nodup_nil, trivial⟩ (ihfields _ _ _ hfields))
      · split_ifs at h
        · obtain ⟨p, hnumber, hp⟩ := Option.map_eq_some_iff.mp h
          cases hp
          exact proper_readNumber hnumber
        · exact proper_readWord h
    · rw [parseItems] at h
      obtain ⟨⟨item, after⟩, hitem, h⟩ := Option.bind_eq_some_iff.mp h
      have hproper := ihvalue _ _ _ hitem
      simp only at h
      split at h
      · obtain ⟨p, hitems, hp⟩ := Option.map_eq_some_iff.mp h
        cases hp
        exact ⟨hproper, ihitems _ _ _ hitems⟩
      · cases h
        exact ⟨hproper, trivial⟩
      · cases h
    · rw [parseFields] at h
      split at h
      · obtain ⟨⟨name, after⟩, -, h⟩ := Option.bind_eq_some_iff.mp h
        simp only at h
        split at h
        · obtain ⟨⟨value, left⟩, hvalue, h⟩ := Option.bind_eq_some_iff.mp h
          have hproper := ihvalue _ _ _ hvalue
          simp only at h
          split at h
          · obtain ⟨p, hfields, hp⟩ := Option.map_eq_some_iff.mp h
            cases hp
            exact ⟨hproper, ihfields _ _ _ hfields⟩
          · cases h
            exact ⟨hproper, trivial⟩
          · cases h
        · cases h
      · cases h

/-- **What is read** has names that differ, and doubles. -/
theorem proper_of_parse {text : List Char} {j : Json} (h : parse text = some j) : j.Proper := by
  unfold parse at h
  split at h
  · rename_i value rest hvalue
    split_ifs at h
    cases h
    exact (proper_parts _).1 _ _ _ hvalue
  · cases h

end Json

end Js
