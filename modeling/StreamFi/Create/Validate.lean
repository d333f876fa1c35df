import StreamFi.Amount
import StreamFi.Stellar

/-!
# Validating stream parameters

`validateStreamParameters` collects the texts of everything that is wrong with a configuration.

* `recipientErrors` … `stopTimeErrors`: the checks, in the order of the code;
* `computedStop`: the stop time that validation works out and checks;
* **`isValid_iff`**: a configuration is valid exactly when it is a `ValidParams`.
-/

namespace StreamFi

open Js

structure CreateStreamParams where
  recipient : String
  token : String
  depositAmount : String
  durationSeconds : Option Number := none
  ratePerSecond : Option String := none
  startTime : Option Number := none
  stopTime : Option Number := none
  endTime : Option Number := none
  sender : Option String := none
  clawbackEnabled : Option Bool := none

structure ValidationResult where
  isValid : Bool
  errors : List String
  error : Option String

/-- `!s || !s.trim()`. -/
def Blank (s : String) : Prop := trim s.toList = []

instance (s : String) : Decidable (Blank s) := inferInstanceAs (Decidable (_ = _))

variable {Tx : Type}

/-- `s.length === 56 && isValidAddress(s)`. -/
def IsAddress (sdk : Sdk Tx) (s : String) : Prop := utf16Length s = 56 ∧ isValidAddress sdk s = true

instance (sdk : Sdk Tx) (s : String) : Decidable (IsAddress sdk s) :=
  inferInstanceAs (Decidable (_ ∧ _))

/-! ## Checks -/

def recipientErrors (sdk : Sdk Tx) (recipient : String) : List String :=
  if Blank recipient then ["Invalid recipient address: must be a non-empty string"]
  else if ¬ IsAddress sdk recipient then
    ["Invalid recipient address: must be a valid 56-character Stellar address"]
  else []

def senderErrors (sdk : Sdk Tx) : Option String → List String
  | none => []
  | some sender =>
    if ¬ IsAddress sdk sender then
      ["Invalid sender address: must be a valid 56-character Stellar address"]
    else []

def tokenErrors (sdk : Sdk Tx) (token : String) : List String :=
  if Blank token then ["Invalid token address: must be a non-empty string"]
  else if token ≠ "native" ∧ token ≠ "USDC" then
    if ¬ IsAddress sdk token then
      ["Invalid token address: must be \"native\", \"USDC\", or a valid 56-character Stellar address"]
    else []
  else []

def depositErrors (depositAmount : String) : List String :=
  if Blank depositAmount then ["Invalid deposit amount: must be a non-empty string"]
  else match toStroops depositAmount 7 with
    | .ok stroops =>
      if stroops ≤ 0 then ["Invalid deposit amount: must be a positive number"] else []
    | .error _ => ["Invalid deposit amount: must be a positive number"]

def durationErrors : Option Number → List String
  | none => []
  | some d =>
    if d.le (.fin 0) then ["Invalid durationSeconds: must be a positive number"]
    else if d.lt (.fin minStreamDurationSeconds) then
      [s!"Invalid durationSeconds: must be at least {minStreamDurationSeconds} seconds (1 hour)"]
    else []

def rateErrors : Option String → List String
  | none => []
  | some ratePerSecond =>
    if Blank ratePerSecond then ["Invalid ratePerSecond: must be a non-empty string"]
    else match bigInt ratePerSecond with
      | some rate => if rate ≤ 0 then ["Invalid ratePerSecond: must be greater than 0"] else []
      | none => ["Invalid ratePerSecond: must be greater than 0"]

/-- `!durationSeconds && !ratePerSecond && rawStopTime === undefined && rawEndTime === undefined`. -/
def presenceErrors (p : CreateStreamParams) : List String :=
  if p.durationSeconds.filter Number.truthy = none ∧ truthyText p.ratePerSecond = none ∧
      p.stopTime = none ∧ p.endTime = none then
    ["Either durationSeconds or ratePerSecond must be provided"]
  else []

def startTimeErrors (now : ℕ) : Option Number → List String
  | none => []
  | some startTime =>
    if ¬ startTime.isInteger then ["Invalid startTime: must be an integer Unix timestamp"]
    else if startTime.lt (.fin now) then ["Invalid startTime: cannot be in the past"]
    else []

/-- `startTime ?? now`. -/
def startAt (now : ℕ) (p : CreateStreamParams) : Number := p.startTime.getD (.fin now)

/-- `rawStopTime ?? rawEndTime`. -/
def explicitStop (p : CreateStreamParams) : Option Number := p.stopTime.or p.endTime

/-- The stop time that is checked: the explicit one, else the start plus a positive duration. -/
def computedStop (now : ℕ) (p : CreateStreamParams) : Option Number :=
  (explicitStop p).or
    ((p.durationSeconds.filter fun d => Number.lt (.fin 0) d).map (startAt now p).add)

def stopTimeErrors (now : ℕ) (p : CreateStreamParams) : List String :=
  match computedStop now p with
  | none => []
  | some stopTime =>
    if ¬ stopTime.isInteger then ["Invalid stopTime: must be an integer Unix timestamp"]
    else if stopTime.le (startAt now p) then
      ["Invalid stopTime: stopTime must be greater than startTime"]
    else []

/-- `validateStreamParameters`, at the clock reading `now`. -/
def validateStreamParameters (sdk : Sdk Tx) (now : ℕ) (p : CreateStreamParams) : ValidationResult :=
  let errors := recipientErrors sdk p.recipient ++ senderErrors sdk p.sender ++
    tokenErrors sdk p.token ++ depositErrors p.depositAmount ++ durationErrors p.durationSeconds ++
    rateErrors p.ratePerSecond ++ presenceErrors p ++ startTimeErrors now p.startTime ++
    stopTimeErrors now p
  { isValid := errors = [], errors := errors, error := errors.head? }

/-! ## What valid parameters are -/

structure ValidParams (sdk : Sdk Tx) (now : ℕ) (p : CreateStreamParams) : Prop where
  recipient : ¬ Blank p.recipient ∧ IsAddress sdk p.recipient
  sender : ∀ s, p.sender = some s → IsAddress sdk s
  token : p.token = "native" ∨ p.token = "USDC" ∨ ¬ Blank p.token ∧ IsAddress sdk p.token
  deposit : AmountFormat p.depositAmount ∧ 0 < round (amountValue p.depositAmount * 10 ^ 7)
  duration : ∀ d, p.durationSeconds = some d →
    d.le (.fin 0) = false ∧ d.lt (.fin minStreamDurationSeconds) = false
  rate : ∀ r, p.ratePerSecond = some r → ¬ Blank r ∧ ∃ n, bigInt r = some n ∧ 0 < n
  presence : presenceErrors p = []
  start : ∀ x, p.startTime = some x → x.isInteger = true ∧ x.lt (.fin now) = false
  stop : ∀ x, computedStop now p = some x → x.isInteger = true ∧ x.le (startAt now p) = false

section Checks

variable {sdk : Sdk Tx} {now : ℕ} {p : CreateStreamParams}

theorem recipientErrors_eq_nil {a : String} :
    recipientErrors sdk a = [] ↔ ¬ Blank a ∧ IsAddress sdk a := by
  unfold recipientErrors
  split_ifs with hb ha
  · simp [hb]
  · simp [hb, ha]
  · simp [ha]

theorem senderErrors_eq_nil {sender : Option String} :
    senderErrors sdk sender = [] ↔ ∀ s, sender = some s → IsAddress sdk s := by
  cases sender with
  | none => simp [senderErrors]
  | some s =>
    by_cases hs : IsAddress sdk s
    · simp [senderErrors, hs]
    · simp [senderErrors, hs]

theorem tokenErrors_eq_nil {token : String} : tokenErrors sdk token = [] ↔
    token = "native" ∨ token = "USDC" ∨ ¬ Blank token ∧ IsAddress sdk token := by
  by_cases hn : token = "native"
  · subst hn
    rw [tokenErrors, if_neg (by decide), if_neg (by simp)]
    simp
  by_cases hu : token = "USDC"
  · subst hu
    rw [tokenErrors, if_neg (by decide), if_neg (by simp)]
    simp
  unfold tokenErrors
  rw [if_pos (show token ≠ "native" ∧ token ≠ "USDC" from ⟨hn, hu⟩)]
  split_ifs with hb ha
  · simp [hn, hu, hb]
  · simp [hb, ha]
  · simp [hn, hu, ha]

theorem not_blank_of_head {address : String} {c : Char} (hc : isSpace c = false)
    (h : address.toList.head? = some c) : ¬ Blank address := by
  intro hb
  cases hcs : address.toList with
  | nil =>
    rw [hcs] at h
    cases h
  | cons c' cs =>
    rw [hcs, List.head?_cons, Option.some.injEq] at h
    subst h
    rw [Blank, hcs, trim, List.dropWhile_cons_of_neg (by simp [hc]), List.reverse_eq_nil_iff,
      List.dropWhile_eq_nil_iff] at hb
    have := hb c' (by simp)
    rw [hc] at this
    cases this

/-- An amount starts with a digit or a point. -/
theorem not_blank_of_format {amount : String} (h : AmountFormat amount) : ¬ Blank amount := by
  obtain ⟨hw, -, -, hne⟩ := h
  cases hcs : amount.toList with
  | nil => exact absurd (String.toList_eq_nil_iff.mp hcs) hne
  | cons c cs =>
    have hc : isSpace c = false := by
      by_cases hdot : c = '.'
      · subst hdot
        decide
      · refine not_isSpace_of_isDigit (hw c ?_)
        rw [hcs, wholePart, List.takeWhile_cons_of_pos (by simpa using hdot)]
        exact List.mem_cons_self
    exact not_blank_of_head hc (by rw [hcs, List.head?_cons])

/-- For the stand-in. -/
theorem isAddress_of_shape {address : String} {c : Char} (h : addressShape c address = true)
    (hc : c = 'G' ∨ c = 'C') : ¬ Blank address ∧ IsAddress standIn address := by
  have hspace : isSpace c = false := by rcases hc with rfl | rfl <;> decide
  have hvalid := isValidAddress_of_shape h hc
  rw [addressShape, Bool.and_eq_true, decide_eq_true_eq, decide_eq_true_eq] at h
  exact ⟨not_blank_of_head hspace h.2, h.1, hvalid⟩

theorem depositErrors_eq_nil {amount : String} : depositErrors amount = [] ↔
    AmountFormat amount ∧ 0 < round (amountValue amount * 10 ^ 7) := by
  by_cases hf : AmountFormat amount
  · rw [depositErrors, if_neg (not_blank_of_format hf), toStroops_eq_round hf (by norm_num)]
    simp only
    split_ifs with h0
    · simp [h0]
    · simp [hf, not_le.mp h0]
  · obtain ⟨e, he⟩ := toStroops_eq_error hf 7
    unfold depositErrors
    split_ifs
    · simp [hf]
    · simp [he, hf]

theorem durationErrors_eq_nil {duration : Option Number} : durationErrors duration = [] ↔
    ∀ d, duration = some d →
      d.le (.fin 0) = false ∧ d.lt (.fin minStreamDurationSeconds) = false := by
  cases duration with
  | none => simp [durationErrors]
  | some d =>
    simp only [durationErrors]
    split_ifs with h0 hmin
    · simp [h0]
    · simp [hmin]
    · simp [h0, hmin]

theorem rateErrors_eq_nil {rate : Option String} : rateErrors rate = [] ↔
    ∀ r, rate = some r → ¬ Blank r ∧ ∃ n, bigInt r = some n ∧ 0 < n := by
  cases rate with
  | none => simp [rateErrors]
  | some r =>
    simp only [rateErrors]
    by_cases hb : Blank r
    · simp [hb]
    · rw [if_neg hb]
      cases hr : bigInt r with
      | none => simp [hr]
      | some n =>
        by_cases h0 : n ≤ 0
        · simp [hr, h0]
        · simp [hr, hb, h0, not_le.mp h0]

theorem startTimeErrors_eq_nil {start : Option Number} : startTimeErrors now start = [] ↔
    ∀ x, start = some x → x.isInteger = true ∧ x.lt (.fin now) = false := by
  cases start with
  | none => simp [startTimeErrors]
  | some x =>
    simp only [startTimeErrors]
    split_ifs with hi hlt
    · simp [hlt]
    · simp [hi, hlt]
    · simp [hi]

theorem stopTimeErrors_eq_nil : stopTimeErrors now p = [] ↔
    ∀ x, computedStop now p = some x → x.isInteger = true ∧ x.le (startAt now p) = false := by
  unfold stopTimeErrors
  cases computedStop now p with
  | none => simp
  | some x =>
    simp only
    split_ifs with hi hle
    · simp [hle]
    · simp [hi, hle]
    · simp [hi]

/-- **What validation accepts.** -/
theorem isValid_iff :
    (validateStreamParameters sdk now p).isValid = true ↔ ValidParams sdk now p := by
  rw [validateStreamParameters]
  simp only [decide_eq_true_eq, List.append_eq_nil_iff, recipientErrors_eq_nil, senderErrors_eq_nil,
    tokenErrors_eq_nil, depositErrors_eq_nil, durationErrors_eq_nil, rateErrors_eq_nil,
    startTimeErrors_eq_nil, stopTimeErrors_eq_nil]
  constructor
  · rintro ⟨⟨⟨⟨⟨⟨⟨⟨h₁, h₂⟩, h₃⟩, h₄⟩, h₅⟩, h₆⟩, h₇⟩, h₈⟩, h₉⟩
    exact ⟨h₁, h₂, h₃, h₄, h₅, h₆, h₇, h₈, h₉⟩
  · rintro ⟨h₁, h₂, h₃, h₄, h₅, h₆, h₇, h₈, h₉⟩
    exact ⟨⟨⟨⟨⟨⟨⟨⟨h₁, h₂⟩, h₃⟩, h₄⟩, h₅⟩, h₆⟩, h₇⟩, h₈⟩, h₉⟩

end Checks

end StreamFi
