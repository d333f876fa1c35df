import StreamFi.Js.Quotient
import StreamFi.Js.Value

/-!
# Durations

`formatDuration` writes a number of seconds in its two leading units; `parseDuration` reads numbers with
units.

* `durationPieces`: how `/(\d+)\s*(d|h|m|s)/gi` cuts a text, into tokens and the characters between them;
* `DurationText`: the texts of tokens with blanks between them; **`durationText_iff`**: they are the texts
  in which no other character is left over;
* **`parseDuration_iff`**: when these texts, and no others, are accepted; `parseDuration_junk` is one that
  is no such text;
* **`parseDuration_formatDuration`**: the round trip, for the numbers up to `durationMax`;
  `formatDuration_after` is the next number.
-/

namespace StreamFi

open Js

/-! ## The code -/

def durationUnitSeconds : List (Char × ℕ) := [('d', 86400), ('h', 3600), ('m', 60), ('s', 1)]

/-- `DURATION_UNIT_SECONDS[unit.toLowerCase()]`, of what `(d|h|m|s)` matches in either case. -/
def unitSeconds (c : Char) : Option ℕ :=
  (durationUnitSeconds.find? fun p => c = p.1 ∨ c = p.1.toUpper).map Prod.snd

/-- What the pattern matches. -/
structure DurationToken where
  digits : List Char
  gap : List Char
  unit : Char
  digits_ne_nil : digits ≠ []
  allDigits : AllDigits digits
  isSpace_gap : ∀ c ∈ gap, isSpace c = true
  isUnit : (unitSeconds unit).isSome = true

namespace DurationToken

variable (t : DurationToken)

def text : List Char := t.digits ++ t.gap ++ [t.unit]

def seconds : ℕ := (unitSeconds t.unit).get t.isUnit

end DurationToken

/-- The match that starts here, if there is one, and what is behind it. -/
def tokenHere (cs : List Char) : Option (DurationToken × List Char) :=
  let afterDigits := cs.dropWhile Char.isDigit
  if hdigits : cs.takeWhile Char.isDigit ≠ [] then
    match afterDigits.dropWhile isSpace with
    | [] => none
    | c :: rest =>
      if hunit : (unitSeconds c).isSome then
        some ({
          digits := cs.takeWhile Char.isDigit
          gap := afterDigits.takeWhile isSpace
          unit := c
          digits_ne_nil := hdigits
          allDigits := fun _ h => List.mem_takeWhile_imp h
          isSpace_gap := fun _ h => List.mem_takeWhile_imp h
          isUnit := hunit }, rest)
      else none
  else none

theorem tokenHere_eq {cs rest : List Char} {t : DurationToken} (h : tokenHere cs = some (t, rest)) :
    cs = t.text ++ rest := by
  unfold tokenHere at h
  split_ifs at h with hdigits
  dsimp only at h
  split at h
  · cases h
  · rename_i c rest' hrest
    split_ifs at h with hunit
    cases h
    have hsplit := List.takeWhile_append_dropWhile (p := isSpace) (l := cs.dropWhile Char.isDigit)
    rw [hrest] at hsplit
    rw [DurationToken.text, List.append_assoc, List.append_assoc, List.singleton_append, hsplit,
      List.takeWhile_append_dropWhile]

theorem length_lt_of_tokenHere {cs rest : List Char} {t : DurationToken}
    (h : tokenHere cs = some (t, rest)) : rest.length < cs.length := by
  rw [tokenHere_eq h]
  simp only [DurationToken.text, List.length_append, List.length_singleton]
  omega

/-- The matches of the pattern, and the characters outside them. -/
def durationPieces : List Char → List (DurationToken ⊕ Char)
  | [] => []
  | c :: cs =>
    match _h : tokenHere (c :: cs) with
    | some (t, rest) => .inl t :: durationPieces rest
    | none => .inr c :: durationPieces cs
termination_by cs => cs.length
decreasing_by
  · exact length_lt_of_tokenHere _h
  · simp

/-- The tokens among the pieces. -/
def tokensOf (pieces : List (DurationToken ⊕ Char)) : List DurationToken := pieces.filterMap Sum.getLeft?

/-- `text.replace(/\s+/g, '').length`. -/
def bareLength (text : List Char) : ℕ := utf16Length (String.ofList (text.filter fun c => !isSpace c))

/-- `totalSeconds += value * DURATION_UNIT_SECONDS[unit]`. -/
def addDuration (totalSeconds : Number) (t : DurationToken) : Number :=
  totalSeconds.add ((digitsToNum t.digits).mul (.fin t.seconds))

def durationSum (tokens : List DurationToken) : Number := tokens.foldl addDuration (.fin 0)

def parseDuration (input : String) : Except Thrown Number :=
  let trimmed := trim input.toList
  if trimmed = [] then throwNew s!"Invalid duration string: \"{input}\""
  else
    let tokens := tokensOf (durationPieces trimmed)
    let matchedLength := (tokens.map fun t => t.text.length).sum
    let strippedLength := bareLength trimmed
    if tokens = [] ∨ matchedLength ≠ strippedLength then
      throwNew s!"Unparseable duration string: \"{input}\""
    else .ok (durationSum tokens)

/-- The two leading units, the second if there are any. -/
def leadingUnits (a : Number) (u : Char) (b : Number) (v : Char) : String :=
  if (Number.fin 0).lt b then s!"{numToText a}{u} {numToText b}{v}" else s!"{numToText a}{u}"

def formatDuration (seconds : Number) : Except Thrown String :=
  if seconds.isFinite = false ∨ seconds.lt (.fin 0) then
    throwNew s!"seconds must be a non-negative finite number, got {numToText seconds}"
  else
    let total := seconds.floor
    if total.lt (.fin 60) then .ok s!"{numToText total}s"
    else if total.lt (.fin 3600) then
      let minutes := (total.div (.fin 60)).floor
      let secs := total.rem (.fin 60)
      .ok (leadingUnits minutes 'm' secs 's')
    else if total.lt (.fin 86400) then
      let hours := (total.div (.fin 3600)).floor
      let minutes := ((total.rem (.fin 3600)).div (.fin 60)).floor
      .ok (leadingUnits hours 'h' minutes 'm')
    else
      let days := (total.div (.fin 86400)).floor
      let hours := ((total.rem (.fin 86400)).div (.fin 3600)).floor
      .ok (leadingUnits days 'd' hours 'h')

/-! ## The pieces of a text -/

theorem unitSeconds_isSome {c : Char} (h : (unitSeconds c).isSome = true) :
    c.isDigit = false ∧ isSpace c = false ∧ c.toNat < 65536 := by
  have hcases : c ∈ ['d', 'D', 'h', 'H', 'm', 'M', 's', 'S'] := by
    rw [unitSeconds, Option.isSome_map, List.find?_isSome] at h
    obtain ⟨p, hp, hc⟩ := h
    simp only [durationUnitSeconds, List.mem_cons, List.not_mem_nil, or_false] at hp
    rcases hp with rfl | rfl | rfl | rfl <;> rcases of_decide_eq_true hc with rfl | rfl <;> decide
  simp only [List.mem_cons, List.not_mem_nil, or_false] at hcases
  rcases hcases with rfl | rfl | rfl | rfl | rfl | rfl | rfl | rfl <;> decide

theorem not_isDigit_of_isSpace {c : Char} (h : isSpace c = true) : c.isDigit = false := by
  by_contra hdigit
  rw [not_isSpace_of_isDigit (by simpa using hdigit)] at h
  cases h

/-- Where a run of characters ends. -/
theorem takeWhile_run {p : Char → Bool} {run rest : List Char} (hrun : ∀ c ∈ run, p c = true)
    (hrest : ∀ c ∈ rest.head?, p c = false) :
    (run ++ rest).takeWhile p = run ∧ (run ++ rest).dropWhile p = rest := by
  rw [List.takeWhile_append_of_pos hrun, List.dropWhile_append_of_pos hrun]
  cases rest with
  | nil => simp
  | cons c rest =>
    have hc : ¬ p c = true := by simp [hrest c rfl]
    rw [List.takeWhile_cons_of_neg hc, List.dropWhile_cons_of_neg hc, List.append_nil]
    exact ⟨rfl, rfl⟩

/-- **A token is matched as it was written**, whatever follows. -/
theorem tokenHere_text (t : DurationToken) (rest : List Char) : tokenHere (t.text ++ rest) = some (t, rest) := by
  obtain ⟨hdigit, hspace, -⟩ := unitSeconds_isSome t.isUnit
  have htext : t.text ++ rest = t.digits ++ (t.gap ++ t.unit :: rest) := by simp [DurationToken.text]
  have hhead : ∀ c ∈ (t.gap ++ t.unit :: rest).head?, c.isDigit = false := by
    intro c hc
    cases hgap : t.gap with
    | nil =>
      rw [hgap] at hc
      cases hc
      exact hdigit
    | cons b gap =>
      rw [hgap] at hc
      cases hc
      exact not_isDigit_of_isSpace (t.isSpace_gap _ (hgap ▸ List.mem_cons_self))
  obtain ⟨htake, hdrop⟩ := takeWhile_run t.allDigits hhead
  have hstop : ∀ c ∈ (t.unit :: rest).head?, isSpace c = false := by
    rintro c ⟨⟩
    exact hspace
  obtain ⟨hblank, hunit⟩ := takeWhile_run t.isSpace_gap hstop
  rw [htext, tokenHere]
  simp only [htake, hdrop, hblank, hunit, ne_eq, t.digits_ne_nil, not_false_eq_true, dif_pos, t.isUnit]

theorem durationPieces_text (t : DurationToken) (rest : List Char) :
    durationPieces (t.text ++ rest) = .inl t :: durationPieces rest := by
  have hhere := tokenHere_text t rest
  cases hcs : t.text ++ rest with
  | nil => simp [DurationToken.text] at hcs
  | cons c cs =>
    rw [hcs] at hhere
    rw [durationPieces]
    split
    · rename_i t' rest' h
      cases h.symm.trans hhere
      rfl
    · rename_i h
      cases h.symm.trans hhere

theorem durationPieces_other {c : Char} {cs : List Char} (h : tokenHere (c :: cs) = none) :
    durationPieces (c :: cs) = .inr c :: durationPieces cs := by
  rw [durationPieces]
  split
  · rename_i h'
    cases h'.symm.trans h
  · rfl

theorem tokenHere_of_not_isDigit {c : Char} (cs : List Char) (h : c.isDigit = false) :
    tokenHere (c :: cs) = none := by
  rw [tokenHere]
  simp [h]

/-- The pieces of a text, one by one. -/
theorem durationPieces_induction {P : List Char → Prop} (nil : P [])
    (token : ∀ (t : DurationToken) rest, P rest → P (t.text ++ rest))
    (other : ∀ c cs, tokenHere (c :: cs) = none → P cs → P (c :: cs)) (cs : List Char) : P cs := by
  induction hn : cs.length using Nat.strong_induction_on generalizing cs with
  | _ n ih =>
    cases cs with
    | nil => exact nil
    | cons c cs =>
      cases hhere : tokenHere (c :: cs) with
      | none => exact other c cs hhere (ih cs.length (by simp [← hn]) cs rfl)
      | some found =>
        rw [tokenHere_eq hhere]
        exact token found.1 found.2 (ih _ (hn ▸ length_lt_of_tokenHere hhere) found.2 rfl)

/-! ## What is counted -/

/-- The blanks inside the tokens. -/
def durationGaps (cs : List Char) : ℕ := ((tokensOf (durationPieces cs)).map fun t => t.gap.length).sum

/-- The length of what stands outside the tokens, without blanks. -/
def durationStrays (cs : List Char) : ℕ := bareLength ((durationPieces cs).filterMap Sum.getRight?)

theorem bareLength_append (xs ys : List Char) : bareLength (xs ++ ys) = bareLength xs + bareLength ys := by
  simp [bareLength, utf16Length]

theorem bareLength_nil : bareLength [] = 0 := rfl

theorem bareLength_blank {cs : List Char} (h : ∀ c ∈ cs, isSpace c = true) : bareLength cs = 0 := by
  have hnone : cs.filter (fun c => !isSpace c) = [] := by
    rw [List.filter_eq_nil_iff]
    intro c hc
    simp [h c hc]
  rw [bareLength, hnone]
  rfl

theorem bareLength_digits {cs : List Char} (h : AllDigits cs) : bareLength cs = cs.length := by
  have hall : cs.filter (fun c => !isSpace c) = cs := by
    rw [List.filter_eq_self]
    intro c hc
    simp [not_isSpace_of_isDigit (h c hc)]
  have hunits : ∀ c ∈ cs, (if c.toNat < 65536 then 1 else 2) = 1 := by
    intro c hc
    have := isDigit_bounds (h c hc)
    exact if_pos (by omega)
  rw [bareLength, hall, utf16Length, String.toList_ofList, List.map_congr_left hunits, List.map_const',
    List.sum_replicate, smul_eq_mul, mul_one]

theorem bareLength_singleton (c : Char) : bareLength [c] = 0 ↔ isSpace c = true := by
  cases h : isSpace c with
  | true => exact iff_of_true (bareLength_blank (by simpa using h)) rfl
  | false =>
    refine iff_of_false ?_ (by simp)
    simp only [bareLength, utf16Length, List.filter_cons, h, Bool.not_false, if_true, List.filter_nil,
      String.toList_ofList, List.map_cons, List.map_nil, List.sum_singleton]
    split_ifs <;> simp

theorem DurationToken.bareLength_text (t : DurationToken) : bareLength t.text = t.digits.length + 1 := by
  obtain ⟨-, hspace, hlt⟩ := unitSeconds_isSome t.isUnit
  have hunit : bareLength [t.unit] = 1 := by
    simp [bareLength, utf16Length, hspace, hlt]
  rw [DurationToken.text, bareLength_append, bareLength_append, bareLength_digits t.allDigits,
    bareLength_blank t.isSpace_gap, hunit]

/-- **What the length check compares.** -/
theorem matched_add_strays (cs : List Char) :
    ((tokensOf (durationPieces cs)).map fun t => t.text.length).sum + durationStrays cs =
      bareLength cs + durationGaps cs := by
  induction cs using durationPieces_induction with
  | nil => simp [durationPieces, tokensOf, durationStrays, durationGaps, bareLength_nil]
  | token t rest ih =>
    simp only [tokensOf, durationStrays, durationGaps, durationPieces_text, bareLength_append,
      t.bareLength_text, List.filterMap_cons, Sum.getLeft?_inl, Sum.getRight?_inl, List.map_cons,
      List.sum_cons] at ih ⊢
    have hlen : t.text.length = t.digits.length + t.gap.length + 1 := by
      simp only [DurationToken.text, List.length_append, List.length_singleton]
    omega
  | other c cs h ih =>
    have hhead := bareLength_append [c] cs
    have hstray := bareLength_append [c] ((durationPieces cs).filterMap Sum.getRight?)
    rw [List.singleton_append] at hhead hstray
    simp only [tokensOf, durationStrays, durationGaps, durationPieces_other h, List.filterMap_cons,
      Sum.getLeft?_inr, Sum.getRight?_inr] at ih ⊢
    omega

/-! ## Texts of tokens -/

/-- The texts of tokens, with blanks between them. -/
inductive DurationText : List Char → List DurationToken → Prop
  | nil : DurationText [] []
  | blank {c : Char} {cs : List Char} {tokens : List DurationToken} (hc : isSpace c = true)
      (rest : DurationText cs tokens) : DurationText (c :: cs) tokens
  | token (t : DurationToken) {cs : List Char} {tokens : List DurationToken} (rest : DurationText cs tokens) :
      DurationText (t.text ++ cs) (t :: tokens)

/-- **They are the texts without strays**, and their tokens are the matches. -/
theorem durationText_iff {cs : List Char} {tokens : List DurationToken} :
    DurationText cs tokens ↔ durationStrays cs = 0 ∧ tokensOf (durationPieces cs) = tokens := by
  constructor
  · intro h
    induction h with
    | nil => simp [durationPieces, tokensOf, durationStrays, bareLength_nil]
    | @blank c cs tokens hc _ ih =>
      have hpieces := durationPieces_other (tokenHere_of_not_isDigit cs (not_isDigit_of_isSpace hc))
      have hstray := bareLength_append [c] ((durationPieces cs).filterMap Sum.getRight?)
      rw [List.singleton_append, (bareLength_singleton c).mpr hc] at hstray
      simp only [tokensOf, durationStrays, hpieces, List.filterMap_cons, Sum.getLeft?_inr,
        Sum.getRight?_inr] at ih ⊢
      exact ⟨by omega, ih.2⟩
    | token t _ ih =>
      simp only [tokensOf, durationStrays, durationPieces_text, List.filterMap_cons, Sum.getLeft?_inl,
        Sum.getRight?_inl] at ih ⊢
      exact ⟨ih.1, by rw [ih.2]⟩
  · rintro ⟨hstrays, rfl⟩
    induction cs using durationPieces_induction with
    | nil =>
      rw [durationPieces]
      exact .nil
    | token t rest ih =>
      rw [durationPieces_text]
      simp only [durationStrays, durationPieces_text, List.filterMap_cons, Sum.getRight?_inl] at hstrays ih
      exact .token t (ih hstrays)
    | other c cs h ih =>
      have hstray := bareLength_append [c] ((durationPieces cs).filterMap Sum.getRight?)
      rw [List.singleton_append] at hstray
      simp only [durationStrays, durationPieces_other h, List.filterMap_cons, Sum.getRight?_inr] at hstrays ih
      rw [durationPieces_other h]
      exact .blank ((bareLength_singleton c).mp (by omega)) (ih (by omega))

/-- The tokens of an input. -/
def durationTokens (input : String) : List DurationToken := tokensOf (durationPieces (trim input.toList))

/-- **What the parser accepts**: as much stands outside the tokens as there are blanks inside them. -/
theorem parseDuration_ok_iff {input : String} {value : Number} : parseDuration input = .ok value ↔
    durationTokens input ≠ [] ∧ durationStrays (trim input.toList) = durationGaps (trim input.toList) ∧
      value = durationSum (durationTokens input) := by
  have hcount := matched_add_strays (trim input.toList)
  rw [parseDuration, durationTokens]
  dsimp only
  split_ifs with hempty hfails
  · have hnone : tokensOf (durationPieces (trim input.toList)) = [] := by
      rw [hempty, durationPieces]
      rfl
    refine iff_of_false (by simp [throwNew]) ?_
    rintro ⟨hne, -⟩
    exact hne hnone
  · refine iff_of_false (by simp [throwNew]) ?_
    rintro ⟨hne, heq, -⟩
    rcases hfails with hnone | hlength
    · exact hne hnone
    · omega
  · rw [not_or, not_not] at hfails
    rw [Except.ok.injEq, eq_comm]
    exact ⟨fun h => ⟨hfails.1, by omega, h⟩, fun h => h.2.2⟩

/-! ### The sum -/

theorem DurationToken.seconds_pos (t : DurationToken) : 0 < t.seconds := by
  have hmem : t.seconds ∈ durationUnitSeconds.map Prod.snd := by
    have hsome : unitSeconds t.unit = some t.seconds := (Option.some_get t.isUnit).symm
    rw [unitSeconds, Option.map_eq_some_iff] at hsome
    obtain ⟨p, hp, hseconds⟩ := hsome
    exact hseconds ▸ List.mem_map_of_mem (List.mem_of_find?_eq_some hp)
  have hall : ∀ n ∈ durationUnitSeconds.map Prod.snd, 0 < n := by decide
  exact hall _ hmem

/-- The seconds that a token stands for. -/
def DurationToken.value (t : DurationToken) : ℕ := Nat.ofDigitChars 10 t.digits 0 * t.seconds

theorem DurationToken.number_value (t : DurationToken) (h : t.value ≤ 2 ^ 53) :
    (digitsToNum t.digits).mul (.fin t.seconds) = .fin t.value := by
  have hdigits : Nat.ofDigitChars 10 t.digits 0 ≤ 2 ^ 53 := (Nat.le_mul_of_pos_right _ t.seconds_pos).trans h
  have hnum : digitsToNum t.digits = .fin (Nat.ofDigitChars 10 t.digits 0) := by
    have := Number.ofRat_intCast (n := Nat.ofDigitChars 10 t.digits 0)
      (by rw [abs_of_nonneg (by positivity)]; exact_mod_cast hdigits)
    exact_mod_cast this
  rw [hnum, Number.mul_natCast h, DurationToken.value]

/-- **The sum is exact** up to `2 ^ 53`. -/
theorem durationSum_exact {tokens : List DurationToken} (h : (tokens.map DurationToken.value).sum ≤ 2 ^ 53) :
    durationSum tokens = .fin (tokens.map DurationToken.value).sum := by
  have hfold : ∀ total : ℕ, total + (tokens.map DurationToken.value).sum ≤ 2 ^ 53 →
      tokens.foldl addDuration (.fin total) = .fin (total + (tokens.map DurationToken.value).sum : ℕ) := by
    clear h
    induction tokens with
    | nil => simp
    | cons t tokens ih =>
      intro total h
      rw [List.map_cons, List.sum_cons] at h
      rw [List.foldl_cons, addDuration, t.number_value (by omega), Number.add_natCast (by omega),
        ih _ (by omega), List.map_cons, List.sum_cons, add_assoc]
  have := hfold 0 (by simpa using h)
  simpa [durationSum] using this

/-! ### What is parsed right -/

/-- **An input that is parsed right**: it is accepted if it is a text of tokens, and then its value is
their sum. -/
def ParsesDuration (input : String) : Prop :=
  ∀ value, parseDuration input = .ok value ↔
    ∃ tokens ≠ [], DurationText (trim input.toList) tokens ∧ value = durationSum tokens

/-- **The inputs that are parsed right.** -/
theorem parseDuration_iff (input : String) : ParsesDuration input ↔
    durationTokens input = [] ∨ durationGaps (trim input.toList) = 0 ∨
      (durationStrays (trim input.toList) ≠ 0 ∧
        durationStrays (trim input.toList) ≠ durationGaps (trim input.toList)) := by
  have hspec {value : Number} : (∃ tokens ≠ [], DurationText (trim input.toList) tokens ∧
      value = durationSum tokens) ↔ durationTokens input ≠ [] ∧ durationStrays (trim input.toList) = 0 ∧
        value = durationSum (durationTokens input) := by
    constructor
    · rintro ⟨tokens, hne, htext, rfl⟩
      obtain ⟨hstrays, rfl⟩ := durationText_iff.mp htext
      exact ⟨hne, hstrays, rfl⟩
    · rintro ⟨hne, hstrays, rfl⟩
      exact ⟨_, hne, durationText_iff.mpr ⟨hstrays, rfl⟩, rfl⟩
  unfold ParsesDuration
  constructor
  · intro h
    have hsum := h (durationSum (durationTokens input))
    rw [parseDuration_ok_iff, hspec] at hsum
    by_cases hne : durationTokens input = []
    · exact .inl hne
    · simp only [ne_eq, hne, not_false_eq_true, true_and, and_true] at hsum
      omega
  · intro h value
    rw [parseDuration_ok_iff, hspec]
    refine and_congr_right fun hne => and_congr_left fun _ => ?_
    have := h.resolve_left hne
    omega

/-- A number, a blank and a unit. -/
def spacedToken (unit : Char) (h : (unitSeconds unit).isSome = true) : DurationToken where
  digits := ['1']
  gap := [' ']
  unit := unit
  digits_ne_nil := by simp
  allDigits := by decide
  isSpace_gap := by
    intro c hc
    rw [List.mem_singleton.mp hc]
    decide
  isUnit := h

/-- A stray character is accepted for a blank inside a token, and a text with such a blank is not. -/
theorem parseDuration_junk :
    (parseDuration "1 dx" = .ok (.fin 86400) ∧ ¬ ParsesDuration "1 dx") ∧ ¬ ParsesDuration "1 h" := by
  have hpieces : durationPieces (trim "1 dx".toList) = [.inl (spacedToken 'd' rfl), .inr 'x'] := by
    have htext : trim "1 dx".toList = (spacedToken 'd' rfl).text ++ ['x'] := by decide
    rw [htext, durationPieces_text, durationPieces_other (tokenHere_of_not_isDigit [] rfl), durationPieces]
  have hpieces' : durationPieces (trim "1 h".toList) = [.inl (spacedToken 'h' rfl)] := by
    have htext : trim "1 h".toList = (spacedToken 'h' rfl).text ++ [] := by decide
    rw [htext, durationPieces_text, durationPieces]
  have hsum : durationSum [spacedToken 'd' rfl] = .fin 86400 := by
    rw [durationSum_exact (by decide)]
    rfl
  have haccepted : parseDuration "1 dx" = .ok (.fin 86400) := by
    rw [parseDuration_ok_iff, durationTokens, durationStrays, durationGaps, hpieces]
    exact ⟨by simp [tokensOf], by decide, hsum.symm⟩
  refine ⟨⟨haccepted, fun h => ?_⟩, fun h => ?_⟩
  · obtain ⟨tokens, -, htext, -⟩ := (h _).mp haccepted
    have hstrays := (durationText_iff.mp htext).1
    rw [durationStrays, hpieces] at hstrays
    revert hstrays
    decide
  · have htext : DurationText (trim "1 h".toList) [spacedToken 'h' rfl] := by
      rw [durationText_iff, durationStrays, hpieces']
      exact ⟨rfl, rfl⟩
    have hparsed := (h _).mpr ⟨_, by simp, htext, rfl⟩
    rw [parseDuration_ok_iff, durationStrays, durationGaps, hpieces'] at hparsed
    exact absurd hparsed.2.1 (by decide)

/-! ## Formatting whole numbers -/

/-- A number of one unit, and one of the next if there are any. -/
def twoUnits (a : ℕ) (u : Char) (b : ℕ) (v : Char) : String := if 0 < b then s!"{a}{u} {b}{v}" else s!"{a}{u}"

/-- The text for a whole number of seconds. -/
def writtenDuration (n : ℕ) : String :=
  if n < 60 then s!"{n}s"
  else if n < 3600 then twoUnits (n / 60) 'm' (n % 60) 's'
  else if n < 86400 then twoUnits (n / 3600) 'h' (n % 3600 / 60) 'm'
  else twoUnits (n / 86400) 'd' (n % 86400 / 3600) 'h'

/-- The smallest unit in the texts of that range. -/
def smallestUnit (n : ℕ) : ℕ := if n < 3600 then 1 else if n < 86400 then 60 else 3600

/-- The last number before the round trip fails. -/
def durationMax : ℕ := 144115188075860384

theorem numToText_eq_toString {n : ℕ} (hn : n ≤ 2 ^ 53) : numToText (.fin n) = toString n := by
  rw [numToText_natCast hn]
  rfl

theorem floor_natCast (n : ℕ) : (Number.fin n).floor = .fin n := by
  rw [Number.floor, Int.floor_natCast, Int.cast_natCast]

theorem floor_div_small {n m : ℕ} (hm : 0 < m) (hn : n < 2 ^ 53) :
    ((Number.fin n).div (.fin m)).floor = .fin (n / m : ℕ) :=
  Number.floor_div_natCast (k := 0) hm hn (one_dvd _) (one_dvd _)

/-- The last place of a number below `2 ^ 58`. -/
theorem exists_last_place {n : ℕ} (hd : Number.IsDouble (.fin n)) (hn : n < 2 ^ 58) :
    ∃ k ≤ 5, n < 2 ^ (53 + k) ∧ 2 ^ k ∣ n := by
  rcases Nat.lt_or_ge n (2 ^ 53) with hsmall | hlarge
  · exact ⟨0, by omega, hsmall, one_dvd _⟩
  · have hlow : 53 ≤ Nat.log 2 n := Nat.le_log_of_pow_le one_lt_two hlarge
    have hhigh : Nat.log 2 n < 58 := Nat.log_lt_of_lt_pow (by omega) hn
    refine ⟨Nat.log 2 n - 52, by omega, ?_, ?_⟩
    · have := Nat.lt_pow_succ_log_self one_lt_two n
      rwa [show 53 + (Nat.log 2 n - 52) = (Nat.log 2 n).succ by omega]
    · apply Number.two_pow_dvd_of_isDouble hd
      rw [show 52 + (Nat.log 2 n - 52) = Nat.log 2 n by omega]
      exact Nat.pow_log_le_self 2 (by omega)

theorem floor_div_day {n : ℕ} (hd : Number.IsDouble (.fin n)) (hn : n ≤ durationMax) :
    ((Number.fin n).div (.fin (86400 : ℕ))).floor = .fin (n / 86400 : ℕ) := by
  obtain ⟨k, hk, hlt, hdvd⟩ := exists_last_place hd (hn.trans_lt (by decide))
  have hday : 2 ^ k ∣ 86400 := (pow_dvd_pow 2 (hk.trans (by decide))).trans (by decide : 2 ^ 7 ∣ 86400)
  exact Number.floor_div_natCast (by decide) hlt hdvd hday

theorem lt_natCast (a b : ℕ) : ((Number.fin a).lt (.fin b) = true) ↔ a < b := by
  rw [Number.lt_fin, decide_eq_true_eq, Nat.cast_lt]

theorem leadingUnits_natCast {a b : ℕ} (ha : a ≤ 2 ^ 53) (hb : b ≤ 2 ^ 53) (u v : Char) :
    leadingUnits (.fin a) u (.fin b) v = twoUnits a u b v := by
  have h0 : (0 : ℚ) = (0 : ℕ) := by norm_num
  rw [leadingUnits, twoUnits, h0]
  simp only [lt_natCast, numToText_eq_toString ha, numToText_eq_toString hb]
  rfl

theorem not_rejected (n : ℕ) : ¬ ((Number.fin n).isFinite = false ∨ (Number.fin n).lt (.fin 0) = true) := by
  have h0 : (0 : ℚ) = (0 : ℕ) := by norm_num
  rw [h0, lt_natCast]
  rintro (h | h)
  · cases h
  · exact Nat.not_lt_zero _ h

/-- **What is written for a whole number.** -/
theorem formatDuration_natCast {n : ℕ} (hn : n ≤ durationMax) (hd : Number.IsDouble (.fin n)) :
    formatDuration (.fin n) = .ok (writtenDuration n) := by
  have h60 : (60 : ℚ) = (60 : ℕ) := by norm_num
  have h3600 : (3600 : ℚ) = (3600 : ℕ) := by norm_num
  have h86400 : (86400 : ℚ) = (86400 : ℕ) := by norm_num
  have hmax : n < 2 ^ 58 := hn.trans_lt (by decide)
  rw [formatDuration, if_neg (not_rejected n)]
  simp only [floor_natCast, h60, h3600, h86400, lt_natCast, Number.rem_natCast _ (by decide : 0 < 60),
    Number.rem_natCast _ (by decide : 0 < 3600), Number.rem_natCast _ (by decide : 0 < 86400), writtenDuration]
  split_ifs with hs hm hh
  · rw [numToText_eq_toString (by omega)]
    rfl
  · rw [floor_div_small (by decide) (by omega), leadingUnits_natCast (by omega) (by omega)]
  · rw [floor_div_small (by decide) (by omega), floor_div_small (by decide) (by omega),
      leadingUnits_natCast (by omega) (by omega)]
  · rw [floor_div_day hd hn, floor_div_small (by decide) (by omega),
      leadingUnits_natCast (by omega) (by omega)]

/-! ## The round trip -/

/-- A whole number with its unit. -/
def wholeToken (a : ℕ) (unit : Char) (h : (unitSeconds unit).isSome = true) : DurationToken where
  digits := Nat.toDigits 10 a
  gap := []
  unit := unit
  digits_ne_nil := Nat.toDigits_ne_nil
  allDigits := allDigits_toDigits a
  isSpace_gap := by simp
  isUnit := h

theorem parseDuration_of_text {input : String} {tokens : List DurationToken} (hne : tokens ≠ [])
    (hgap : ∀ t ∈ tokens, t.gap = []) (htrim : trim input.toList = input.toList)
    (h : DurationText input.toList tokens) : parseDuration input = .ok (durationSum tokens) := by
  obtain ⟨hstrays, rfl⟩ := durationText_iff.mp h
  rw [parseDuration_ok_iff, durationTokens, htrim]
  refine ⟨hne, ?_, rfl⟩
  rw [hstrays, durationGaps, List.map_congr_left (g := fun _ => 0) fun t ht => by rw [hgap t ht]; rfl]
  simp

/-- A text that starts with a digit and ends with a unit has no blanks around it. -/
theorem trim_toDigits (a : ℕ) {v : Char} (hv : (unitSeconds v).isSome = true) (mid : List Char) :
    trim (Nat.toDigits 10 a ++ mid ++ [v]) = Nat.toDigits 10 a ++ mid ++ [v] := by
  apply trim_of_ends
  · cases hdigits : Nat.toDigits 10 a with
    | nil => exact absurd hdigits Nat.toDigits_ne_nil
    | cons c cs =>
      rintro d ⟨⟩
      exact not_isSpace_of_isDigit (allDigits_toDigits a _ (hdigits ▸ List.mem_cons_self))
  · rw [List.getLast?_concat]
    rintro d ⟨⟩
    exact (unitSeconds_isSome hv).2.1

theorem toList_toString_char (c : Char) : (toString c).toList = [c] := String.toList_singleton c

theorem parseDuration_oneUnit (a : ℕ) {u : Char} (hu : (unitSeconds u).isSome = true) :
    parseDuration s!"{a}{u}" = .ok (durationSum [wholeToken a u hu]) := by
  have htext : s!"{a}{u}".toList = (wholeToken a u hu).text := by
    simp [wholeToken, DurationToken.text, toList_toString_char]
  apply parseDuration_of_text (by simp) (by simp [wholeToken])
  · rw [htext]
    exact trim_toDigits a hu []
  · rw [htext, ← List.append_nil (wholeToken a u hu).text]
    exact .token _ .nil

theorem parseDuration_twoUnits (a b : ℕ) {u v : Char} (hu : (unitSeconds u).isSome = true)
    (hv : (unitSeconds v).isSome = true) : parseDuration (twoUnits a u b v) =
      .ok (durationSum (if 0 < b then [wholeToken a u hu, wholeToken b v hv] else [wholeToken a u hu])) := by
  rw [twoUnits]
  split_ifs with hb
  · have hblank : (toString " ").toList = [' '] := rfl
    have htext : s!"{a}{u} {b}{v}".toList = (wholeToken a u hu).text ++ ' ' :: (wholeToken b v hv).text := by
      simp [wholeToken, DurationToken.text, toList_toString_char, hblank]
    apply parseDuration_of_text (by simp) (by simp [wholeToken])
    · rw [htext]
      have := trim_toDigits a hv (u :: ' ' :: Nat.toDigits 10 b)
      simpa [wholeToken, DurationToken.text] using this
    · rw [htext, ← List.append_nil (wholeToken b v hv).text]
      exact .token _ (.blank (by decide) (.token _ .nil))
  · exact parseDuration_oneUnit a hu

/-! ### The values -/

theorem isDouble_natCast {n : ℕ} (h : n ≤ 2 ^ 53) : Number.IsDouble (.fin n) := by
  have := Number.isDouble_intCast (n := n) (by rw [abs_of_nonneg (by positivity)]; exact_mod_cast h)
  exact_mod_cast this

theorem addDuration_wholeToken (total : ℕ) {a : ℕ} {u : Char} (hu : (unitSeconds u).isSome = true) {s : ℕ}
    (hs : unitSeconds u = some s) (ha : a ≤ 2 ^ 53) (hmul : Number.IsDouble (.fin (a * s : ℕ)))
    (hadd : Number.IsDouble (.fin (total + a * s : ℕ))) :
    addDuration (.fin total) (wholeToken a u hu) = .fin (total + a * s : ℕ) := by
  have hseconds : (wholeToken a u hu).seconds = s := Option.get_of_eq_some hu hs
  have hproduct : (Number.fin a).mul (.fin s) = .fin (a * s : ℕ) := by
    rw [Number.mul, ← Nat.cast_mul]
    exact hmul _ rfl
  rw [addDuration, hseconds, wholeToken, digitsToNum_toDigits ha, hproduct, Number.add, ← Nat.cast_add]
  exact hadd _ rfl

/-- The value of a number with a unit and of one of the next unit. -/
theorem durationSum_units {a b s r : ℕ} {u v : Char} (hu : (unitSeconds u).isSome = true)
    (hv : (unitSeconds v).isSome = true) (hs : unitSeconds u = some s) (hr : unitSeconds v = some r)
    (ha : a ≤ 2 ^ 53) (hb : b ≤ 2 ^ 53) (hfirst : Number.IsDouble (.fin (a * s : ℕ))) (hsecond : b * r ≤ 2 ^ 53)
    (hsum : Number.IsDouble (.fin (a * s + b * r : ℕ))) :
    durationSum (if 0 < b then [wholeToken a u hu, wholeToken b v hv] else [wholeToken a u hu]) =
      .fin (a * s + b * r : ℕ) := by
  have hzero : Number.fin 0 = .fin (0 : ℕ) := by norm_num
  have hone := addDuration_wholeToken 0 hu hs ha hfirst (by rwa [zero_add])
  rw [zero_add] at hone
  split_ifs with h
  · rw [durationSum, List.foldl_cons, List.foldl_cons, hzero, hone, List.foldl_nil]
    exact addDuration_wholeToken _ hv hr hb (isDouble_natCast hsecond) hsum
  · rw [durationSum, List.foldl_cons, hzero, hone, List.foldl_nil, Nat.eq_zero_of_not_pos h, zero_mul, add_zero]

/-- A large number that is cut off to hours is a double. -/
theorem isDouble_cut {n : ℕ} (hn : n ≤ durationMax) : Number.IsDouble (.fin (n / 3600 * 3600 : ℕ)) := by
  unfold durationMax at hn
  rcases le_or_gt (n / 3600 * 3600) (2 ^ 57) with h | h
  · have hcut : n / 3600 * 3600 = 225 * (n / 3600) * 2 ^ 4 := by omega
    rw [hcut]
    exact Number.isDouble_mul_two_pow (by omega) (by decide)
  · -- only one hour begins in this range
    have hcut : n / 3600 * 3600 = 4503599627370525 * 2 ^ 5 := by omega
    rw [hcut]
    exact Number.isDouble_mul_two_pow (by decide) (by decide)

theorem isDouble_days {n : ℕ} (hn : n ≤ durationMax) : Number.IsDouble (.fin (n / 86400 * 86400 : ℕ)) := by
  unfold durationMax at hn
  have hcut : n / 86400 * 86400 = 675 * (n / 86400) * 2 ^ 7 := by omega
  rw [hcut]
  exact Number.isDouble_mul_two_pow (by omega) (by decide)

theorem parseDuration_written {n : ℕ} (hn : n ≤ durationMax) :
    parseDuration (writtenDuration n) = .ok (.fin (n - n % smallestUnit n : ℕ)) := by
  have hmax : n < 2 ^ 58 := hn.trans_lt (by decide)
  unfold writtenDuration smallestUnit
  split_ifs with hs hm hh
  · have hsum := durationSum_units (a := n) (b := 0) (u := 's') (v := 's') (s := 1) (r := 1) rfl rfl rfl rfl
      (by omega) (by omega) (isDouble_natCast (by omega)) (by omega) (isDouble_natCast (by omega))
    rw [if_neg (lt_irrefl 0)] at hsum
    have hchar : toString "s" = toString 's' := by decide
    have hunit : (unitSeconds 's').isSome = true := rfl
    rw [hchar, parseDuration_oneUnit n hunit, hsum, show n * 1 + 0 * 1 = n - n % 1 by omega]
  · omega
  · omega
  · rw [parseDuration_twoUnits _ _ rfl rfl, durationSum_units (s := 60) (r := 1) rfl rfl rfl rfl (by omega) (by omega)
      (isDouble_natCast (by omega)) (by omega) (isDouble_natCast (by omega)),
      show n / 60 * 60 + n % 60 * 1 = n - n % 1 by omega]
  · rw [parseDuration_twoUnits _ _ rfl rfl, durationSum_units (s := 3600) (r := 60) rfl rfl rfl rfl (by omega)
      (by omega) (isDouble_natCast (by omega)) (by omega) (isDouble_natCast (by omega)),
      show n / 3600 * 3600 + n % 3600 / 60 * 60 = n - n % 60 by omega]
  · have hcut : n / 86400 * 86400 + n % 86400 / 3600 * 3600 = n / 3600 * 3600 := by omega
    rw [parseDuration_twoUnits _ _ rfl rfl, durationSum_units (s := 86400) (r := 3600) rfl rfl rfl rfl (by omega)
      (by omega) (isDouble_days hn) (by omega) (by rw [hcut]; exact isDouble_cut hn),
      show n / 86400 * 86400 + n % 86400 / 3600 * 3600 = n - n % 3600 by omega]

/-- What is cut off is not written. -/
theorem writtenDuration_cut (n : ℕ) : writtenDuration (n - n % smallestUnit n) = writtenDuration n := by
  unfold smallestUnit
  split_ifs with hm hh
  · rw [Nat.mod_one, Nat.sub_zero]
  · have h₁ : (n - n % 60) / 3600 = n / 3600 := by omega
    have h₂ : (n - n % 60) % 3600 / 60 = n % 3600 / 60 := by omega
    simp only [writtenDuration, h₁, h₂]
    split_ifs <;> first | rfl | omega
  · have h₁ : (n - n % 3600) / 86400 = n / 86400 := by omega
    have h₂ : (n - n % 3600) % 86400 / 3600 = n % 86400 / 3600 := by omega
    simp only [writtenDuration, h₁, h₂]
    split_ifs <;> first | rfl | omega

theorem isDouble_sub_mod {n : ℕ} (hn : n ≤ durationMax) (hd : Number.IsDouble (.fin n)) :
    Number.IsDouble (.fin (n - n % smallestUnit n : ℕ)) := by
  unfold smallestUnit
  split_ifs with hm hh
  · rwa [Nat.mod_one, Nat.sub_zero]
  · exact isDouble_natCast (by omega)
  · rw [show n - n % 3600 = n / 3600 * 3600 by omega]
    exact isDouble_cut hn

/-- **The round trip**, up to the smallest unit that is written. -/
theorem parseDuration_formatDuration {n : ℕ} (hn : n ≤ durationMax) (hd : Number.IsDouble (.fin n)) :
    ∃ text, formatDuration (.fin n) = .ok text ∧
      parseDuration text = .ok (.fin (n - n % smallestUnit n : ℕ)) ∧
      formatDuration (.fin (n - n % smallestUnit n : ℕ)) = .ok text ∧
      (n < 3600 → n - n % smallestUnit n = n) := by
  refine ⟨writtenDuration n, formatDuration_natCast hn hd, parseDuration_written hn, ?_, fun h => ?_⟩
  · rw [formatDuration_natCast ((Nat.sub_le _ _).trans hn) (isDouble_sub_mod hn hd), writtenDuration_cut]
  · rw [smallestUnit, if_pos h, Nat.mod_one, Nat.sub_zero]

theorem parseDuration_formatDuration_day : ∃ text, formatDuration (.fin (90061 : ℕ)) = .ok text ∧
    parseDuration text = .ok (.fin (90061 - 90061 % smallestUnit 90061 : ℕ)) ∧
    formatDuration (.fin (90061 - 90061 % smallestUnit 90061 : ℕ)) = .ok text ∧
    (90061 < 3600 → 90061 - 90061 % smallestUnit 90061 = 90061) :=
  parseDuration_formatDuration (by decide) (isDouble_natCast (by decide))

/-- What is parsed is a double. -/
theorem isDouble_parseDuration {input : String} {value : Number} (h : parseDuration input = .ok value) :
    Number.IsDouble value := by
  obtain ⟨-, -, rfl⟩ := parseDuration_ok_iff.mp h
  rcases List.eq_nil_or_concat (durationTokens input) with hnil | ⟨tokens, t, hlast⟩
  · rw [hnil, durationSum, List.foldl_nil]
    exact_mod_cast isDouble_natCast (n := 0) (by decide)
  · rw [hlast, durationSum, List.concat_eq_append, List.foldl_concat]
    exact Number.isDouble_add _ _

theorem exists_formatDuration (n : ℕ) : ∃ text, formatDuration (.fin n) = .ok text := by
  rw [formatDuration, if_neg (not_rejected n)]
  dsimp only
  split_ifs <;> exact ⟨_, rfl⟩

/-- The next number comes back as another: what is left of it is no double. -/
theorem formatDuration_after : Number.IsDouble (.fin (144115188075860416 : ℕ)) ∧
    ∃ text, formatDuration (.fin (144115188075860416 : ℕ)) = .ok text ∧
      parseDuration text ≠
        .ok (.fin (144115188075860416 - 144115188075860416 % smallestUnit 144115188075860416 : ℕ)) := by
  refine ⟨Number.isDouble_mul_two_pow (m := 4503599627370638) (k := 5) (by decide) (by decide), ?_⟩
  obtain ⟨text, htext⟩ := exists_formatDuration 144115188075860416
  refine ⟨text, htext, fun h => ?_⟩
  have hdvd := Number.two_pow_dvd_of_isDouble (k := 5) (isDouble_parseDuration h) (by decide)
  revert hdvd
  decide

end StreamFi
