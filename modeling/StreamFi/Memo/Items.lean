import StreamFi.Js.Reading
import StreamFi.Memo.Transparent
import StreamFi.Stream.Balance

/-!
# Analytics of single streams

Three modules evaluate a stream at a time, and remember the result under a key made of fields of the
item. They differ in the fields.

* `streamProgress`, `normalizeProgress`; `StreamBatchItem`;
* `Module48`, `Module49`: what can be withdrawn, and the progress;
* `Module44`: how long a stream can run;
* **`keys_determine`**: the keys of `Module49` and `Module44` determine what is computed, with
  **`memo_transparent`**;
* **`module48_transparent`**: when the key of `Module48` does.
-/

namespace StreamFi

open Js Run

/-! ## Progress -/

/-- `NaN` for a stream without an end that has started. -/
def streamProgress (stream : StreamInfo) (nowSec : Number) : Number :=
  if nowSec.lt stream.startTime then .fin 0
  else if stream.endTime = .fin 0 then .nan
  else if stream.endTime.le nowSec then .fin 1
  else (nowSec.sub stream.startTime).div (stream.endTime.sub stream.startTime)

def normalizeProgress (value : Number) : Number := if value = .nan then .fin (1 / 2) else value

/-! ## The modules -/

structure StreamBatchItem where
  id : String
  stream : StreamInfo
  timestamp : Option Number
  deriving DecidableEq

/-- An item with the clock readings of its call: `Math.floor(Date.now() / 1000)`, and the one of the
cache. -/
structure ItemReading where
  item : StreamBatchItem
  clock : Number
  now : Number
  deriving DecidableEq

/-- `item.timestamp ?? Math.floor(Date.now() / 1000)`. -/
def ItemReading.nowSec (a : ItemReading) : Number := a.item.timestamp.getD a.clock

/-- `flag ? 1 : 0`. -/
def bit (flag : Bool) : String := if flag then "1" else "0"

structure CachedResult where
  withdrawable : ℤ
  progress : Number
  computedAt : Number
  deriving DecidableEq

/-- What `Module48` and `Module49` compute. -/
def computeResult (stream : StreamInfo) (nowSec : Number) : Except Thrown CachedResult :=
  (withdrawableLocal stream nowSec).map fun withdrawable =>
    { withdrawable := withdrawable
      progress := normalizeProgress (streamProgress stream nowSec)
      computedAt := nowSec }

/-- The parts of the key behind the id. -/
def Module48.keyParts (item : StreamBatchItem) (nowSec : Number) : List String :=
  [toString item.stream.withdrawn, bit item.stream.paused, numToText nowSec]

def Module48.cacheKey (item : StreamBatchItem) (nowSec : Number) : String :=
  joined '_' item.id (keyParts item nowSec)

def Module49.keyParts (item : StreamBatchItem) (nowSec : Number) : List String :=
  [toString item.stream.withdrawn, bit item.stream.paused, bit item.stream.cancelled,
    numToText item.stream.pausedAt, toString item.stream.ratePerSecond,
    numToText item.stream.startTime, numToText item.stream.endTime, numToText nowSec]

def Module49.cacheKey (item : StreamBatchItem) (nowSec : Number) : String :=
  joined '_' item.id (keyParts item nowSec)

inductive LiquidityRiskLevel where
  | inactive
  | healthy
  | warning
  | critical
  deriving DecidableEq

/-- `runwaySecs` is `null` for a stream without an end. -/
structure StreamRiskAssessment where
  id : String
  runwaySecs : Option Number
  riskLevel : LiquidityRiskLevel
  computedAt : Number
  deriving DecidableEq

structure RiskThresholds where
  criticalThresholdSecs : Number
  warningThresholdSecs : Number

def Module44.keyParts (item : StreamBatchItem) (nowSec : Number) : List String :=
  [bit item.stream.paused, bit item.stream.cancelled, toString item.stream.ratePerSecond,
    numToText item.stream.endTime, numToText nowSec]

def Module44.cacheKey (item : StreamBatchItem) (nowSec : Number) : String :=
  joined '_' item.id (keyParts item nowSec)

def computeAssessment (t : RiskThresholds) (id : String) (stream : StreamInfo) (nowSec : Number) :
    StreamRiskAssessment :=
  if stream.cancelled || stream.paused || decide (stream.ratePerSecond ≤ 0) then
    { id := id, runwaySecs := some (.fin 0), riskLevel := .inactive, computedAt := nowSec }
  else if stream.endTime = .fin 0 then
    { id := id, runwaySecs := none, riskLevel := .healthy, computedAt := nowSec }
  else
    let runwaySecs := Number.max (.fin 0) (stream.endTime.sub nowSec)
    { id := id
      runwaySecs := some runwaySecs
      riskLevel :=
        if runwaySecs.le (.fin 0) then .inactive
        else if runwaySecs.lt t.criticalThresholdSecs then .critical
        else if runwaySecs.lt t.warningThresholdSecs then .warning
        else .healthy
      computedAt := nowSec }

/-- `new Module44(config)`; its defaults are one day and seven. -/
def Module44.new (criticalThresholdSecs warningThresholdSecs : Option Number) :
    Except Thrown RiskThresholds :=
  let critical := criticalThresholdSecs.getD (.fin 86400)
  let warning := warningThresholdSecs.getD (.fin 604800)
  if critical.lt (.fin 0) then throwNew "Module44: criticalThresholdSecs cannot be negative"
  else if warning.le critical then
    throwNew "Module44: warningThresholdSecs must be greater than criticalThresholdSecs"
  else .ok { criticalThresholdSecs := critical, warningThresholdSecs := warning }

/-- A call on one of the modules. The results of a batch are listed with their items as the loop
visits them; `Module49` returns them so, the others each at the position of its item. -/
inductive ItemCall where
  | single (a : ItemReading)
  | batch (items : List ItemReading)
  | clearCache

/-- The operation on the memo; `fuel` bounds the steps of the loops of a batch. -/
def ItemCall.toOp (fuel : ℕ) (batchChunkSize : Number) : ItemCall → MemoOp ItemReading
  | .single a => .ask a
  | .batch items => .batch (visits fuel batchChunkSize items.length) items
  | .clearCache => .clear

/-- `processSingleItem`, `processStreamBatch` and `clearCache`, or `assessSingleItem` and
`assessBatch`, for what a module asks for an item. -/
def performCall {R : Type} (question : ItemReading → Question Thrown R) (fuel : ℕ) (m : ResultMemo R)
    (call : ItemCall) :
    Option (Except Thrown (List (ItemReading × R × Bool))) × ResultMemo R :=
  m.perform question (call.toOp fuel m.batchChunkSize)

def Module48.question (a : ItemReading) : Question Thrown CachedResult where
  key := cacheKey a.item a.nowSec
  compute := computeResult a.item.stream a.nowSec
  now := a.now

def Module49.question (a : ItemReading) : Question Thrown CachedResult where
  key := cacheKey a.item a.nowSec
  compute := computeResult a.item.stream a.nowSec
  now := a.now

def Module44.question (t : RiskThresholds) (a : ItemReading) :
    Question Thrown StreamRiskAssessment where
  key := cacheKey a.item a.nowSec
  compute := .ok (computeAssessment t a.item.id a.item.stream a.nowSec)
  now := a.now

/-! ## Calls are operations -/

section Calls

variable {R : Type} {question : ItemReading → Question Thrown R} {fuel : ℕ} {m : ResultMemo R}

theorem batchChunkSize_askAll (as : List ItemReading) :
    (ResultMemo.askAll question m as).2.batchChunkSize = m.batchChunkSize := by
  induction as generalizing m with
  | nil => rfl
  | cons a as ih =>
    have hresult : (m.result (question a)).2.batchChunkSize = m.batchChunkSize := by
      unfold ResultMemo.result
      split
      · rfl
      · split <;> rfl
    rw [ResultMemo.askAll]
    cases h : m.result (question a) with
    | mk answer m' =>
      rw [h] at hresult
      cases answer with
      | error err => exact hresult
      | ok r => exact ih.trans hresult

theorem batchChunkSize_perform (op : MemoOp ItemReading) :
    (m.perform question op).2.batchChunkSize = m.batchChunkSize := by
  cases op with
  | ask a => exact batchChunkSize_askAll [a]
  | batch visited as =>
    cases visited with
    | none => rfl
    | some js => exact batchChunkSize_askAll _
  | clear => rfl

/-- **Calls are operations on the memo.** -/
theorem performAll_calls (calls : List ItemCall) :
    (performAll (performCall question fuel) m calls).1 =
      (performAll (ResultMemo.perform question) m
        (calls.map (ItemCall.toOp fuel m.batchChunkSize))).1 := by
  induction calls generalizing m with
  | nil => rfl
  | cons call calls ih =>
    rw [performAll, List.map_cons, performAll, ih, performCall, batchChunkSize_perform]

/-- The results of the calls on a new module, without `isCached`. -/
def answersOf (question : ItemReading → Question Thrown R) (fuel : ℕ) (cacheSize : Option Number)
    (enableOptimization : Bool) (batchChunkSize : Option Number) (calls : List ItemCall) :
    List (Option (Except Thrown (List (ItemReading × R)))) :=
  (performAll (performCall question fuel)
    (ResultMemo.new cacheSize enableOptimization batchChunkSize) calls).1.map results

/-- What is computed for the calls. -/
def recomputed (question : ItemReading → Question Thrown R) (fuel : ℕ)
    (batchChunkSize : Option Number) (calls : List ItemCall) :
    List (Option (Except Thrown (List (ItemReading × R)))) :=
  (calls.map (ItemCall.toOp fuel (batchChunkSize.getD (.fin 50)))).map (uncached question)

/-- **The rule for the modules**: with `enableOptimization`, `same` of any two items that are evaluated
without a `clearCache` between them. -/
theorem answersOf_eq {same : ItemReading → ItemReading → Prop}
    (hkey : ∀ a b, same b a → (question b).key = (question a).key →
      (question b).compute = (question a).compute)
    {cacheSize batchChunkSize : Option Number} {enableOptimization : Bool} {calls : List ItemCall}
    (h : enableOptimization = true → Consistent same []
      (calls.map (ItemCall.toOp fuel (batchChunkSize.getD (.fin 50))))) :
    answersOf question fuel cacheSize enableOptimization batchChunkSize calls =
      recomputed question fuel batchChunkSize calls := by
  unfold answersOf recomputed
  rw [performAll_calls]
  cases enableOptimization with
  | false => exact transparent_off rfl _
  | true => exact transparent hkey (h rfl) (remembers_new cacheSize true batchChunkSize)

end Calls

/-! ## Keys -/

/-- The numbers of a reading are doubles. -/
structure ItemReading.Doubles (a : ItemReading) : Prop where
  pausedAt : Number.IsDouble a.item.stream.pausedAt
  startTime : Number.IsDouble a.item.stream.startTime
  endTime : Number.IsDouble a.item.stream.endTime
  nowSec : Number.IsDouble a.nowSec

theorem bit_injective {b b' : Bool} (h : bit b = bit b') : b = b' := by
  revert b b'
  decide

/-- The separator is in no text of a number. -/
theorem not_numeralChar : ¬ NumeralChar '_' ∧ ¬ NumeralChar '|' ∧ ¬ NumeralChar ':' := by
  unfold NumeralChar TextChar
  decide

theorem free_numToText {x : Number} (hx : Number.IsDouble x) : '_' ∉ (numToText x).toList :=
  fun h => not_numeralChar.1 (numeralChar_numToText hx _ h)

theorem free_toString (n : ℤ) : '_' ∉ (toString n).toList :=
  fun h => not_numeralChar.1 (numeralChar_toString n _ h)

theorem free_bit (b : Bool) : '_' ∉ (bit b).toList := by
  revert b
  decide

section Keys

variable {a b : ItemReading}

/-- **The key of `Module49`** determines the item and its time. -/
theorem Module49.key_determines (ha : a.Doubles) (hb : b.Doubles)
    (h : cacheKey b.item b.nowSec = cacheKey a.item a.nowSec) :
    b.item.id = a.item.id ∧ b.item.stream = a.item.stream ∧ b.nowSec = a.nowSec := by
  have hfree {a : ItemReading} (ha : a.Doubles) :
      ∀ part ∈ keyParts a.item a.nowSec, '_' ∉ part.toList := by
    simp only [keyParts, List.forall_mem_cons, List.not_mem_nil, false_imp_iff, implies_true, and_true]
    exact ⟨free_toString _, free_bit _, free_bit _, free_numToText ha.pausedAt, free_toString _,
      free_numToText ha.startTime, free_numToText ha.endTime, free_numToText ha.nowSec⟩
  have hlen : (keyParts b.item b.nowSec).length = (keyParts a.item a.nowSec).length := rfl
  obtain ⟨hid, hparts⟩ := joined_injective hlen (hfree hb) (hfree ha) h
  simp only [keyParts, List.cons.injEq, and_true] at hparts
  obtain ⟨hwithdrawn, hpaused, hcancelled, hpausedAt, hrate, hstart, hend, hnow⟩ := hparts
  refine ⟨hid, ?_, numToText_injective hb.nowSec ha.nowSec hnow⟩
  rw [StreamInfo.mk.injEq]
  exact ⟨toString_injective hrate, numToText_injective hb.startTime ha.startTime hstart,
    numToText_injective hb.endTime ha.endTime hend, toString_injective hwithdrawn,
    bit_injective hpaused, numToText_injective hb.pausedAt ha.pausedAt hpausedAt,
    bit_injective hcancelled⟩

/-- **The key of `Module44`** determines what an assessment reads. -/
theorem Module44.key_determines (ha : a.Doubles) (hb : b.Doubles)
    (h : cacheKey b.item b.nowSec = cacheKey a.item a.nowSec) :
    b.item.id = a.item.id ∧ b.nowSec = a.nowSec ∧
      b.item.stream.paused = a.item.stream.paused ∧
      b.item.stream.cancelled = a.item.stream.cancelled ∧
      b.item.stream.ratePerSecond = a.item.stream.ratePerSecond ∧
      b.item.stream.endTime = a.item.stream.endTime := by
  have hfree {a : ItemReading} (ha : a.Doubles) :
      ∀ part ∈ keyParts a.item a.nowSec, '_' ∉ part.toList := by
    simp only [keyParts, List.forall_mem_cons, List.not_mem_nil, false_imp_iff, implies_true, and_true]
    exact ⟨free_bit _, free_bit _, free_toString _, free_numToText ha.endTime,
      free_numToText ha.nowSec⟩
  have hlen : (keyParts b.item b.nowSec).length = (keyParts a.item a.nowSec).length := rfl
  obtain ⟨hid, hparts⟩ := joined_injective hlen (hfree hb) (hfree ha) h
  simp only [keyParts, List.cons.injEq, and_true] at hparts
  obtain ⟨hpaused, hcancelled, hrate, hend, hnow⟩ := hparts
  exact ⟨hid, numToText_injective hb.nowSec ha.nowSec hnow, bit_injective hpaused,
    bit_injective hcancelled, toString_injective hrate,
    numToText_injective hb.endTime ha.endTime hend⟩

/-- The key of `Module48` leaves out five fields of the stream. -/
theorem Module48.key_determines (ha : a.Doubles) (hb : b.Doubles)
    (h : cacheKey b.item b.nowSec = cacheKey a.item a.nowSec) :
    b.item.id = a.item.id ∧ b.nowSec = a.nowSec ∧
      b.item.stream.withdrawn = a.item.stream.withdrawn ∧
      b.item.stream.paused = a.item.stream.paused := by
  have hfree {a : ItemReading} (ha : a.Doubles) :
      ∀ part ∈ keyParts a.item a.nowSec, '_' ∉ part.toList := by
    simp only [keyParts, List.forall_mem_cons, List.not_mem_nil, false_imp_iff, implies_true, and_true]
    exact ⟨free_toString _, free_bit _, free_numToText ha.nowSec⟩
  have hlen : (keyParts b.item b.nowSec).length = (keyParts a.item a.nowSec).length := rfl
  obtain ⟨hid, hparts⟩ := joined_injective hlen (hfree hb) (hfree ha) h
  simp only [keyParts, List.cons.injEq, and_true] at hparts
  obtain ⟨hwithdrawn, hpaused, hnow⟩ := hparts
  exact ⟨hid, numToText_injective hb.nowSec ha.nowSec hnow, toString_injective hwithdrawn,
    bit_injective hpaused⟩

end Keys

/-! ## Transparency -/

/-- The items of a call. -/
def ItemCall.readings : ItemCall → List ItemReading
  | .single a => [a]
  | .batch items => items
  | .clearCache => []

theorem ItemCall.asked_subset (call : ItemCall) (fuel : ℕ) (batchChunkSize : Number) :
    (call.toOp fuel batchChunkSize).asked ⊆ call.readings := by
  cases call with
  | single a => exact List.Subset.refl _
  | clearCache => exact List.Subset.refl _
  | batch items =>
    intro a ha
    rw [ItemCall.toOp] at ha
    cases hvisits : visits fuel batchChunkSize items.length with
    | none =>
      rw [hvisits] at ha
      cases ha
    | some js =>
      rw [hvisits] at ha
      obtain ⟨j, -, hj⟩ := List.mem_filterMap.mp ha
      exact List.mem_of_getElem? hj

/-- Every number of the calls is a double. -/
def DoubleCalls (calls : List ItemCall) : Prop := ∀ call ∈ calls, ∀ a ∈ call.readings, a.Doubles

theorem DoubleCalls.asked {calls : List ItemCall} (h : DoubleCalls calls) {fuel : ℕ}
    {batchChunkSize : Number} :
    ∀ op ∈ calls.map (ItemCall.toOp fuel batchChunkSize), ∀ a ∈ op.asked, a.Doubles := by
  intro op hop a ha
  obtain ⟨call, hcall, rfl⟩ := List.mem_map.mp hop
  exact h call hcall a (call.asked_subset fuel batchChunkSize ha)

section Transparency

variable (fuel : ℕ) (cacheSize : Option Number) (enableOptimization : Bool)
  (batchChunkSize : Option Number) {calls : List ItemCall}

/-- **Keys that determine what is computed**: `Module49` and `Module44` answer every sequence of calls
as if they computed each item anew. -/
theorem keys_transparent (t : RiskThresholds) (h : DoubleCalls calls) :
    answersOf Module49.question fuel cacheSize enableOptimization batchChunkSize calls =
        recomputed Module49.question fuel batchChunkSize calls ∧
      answersOf (Module44.question t) fuel cacheSize enableOptimization batchChunkSize calls =
        recomputed (Module44.question t) fuel batchChunkSize calls := by
  have hok := (consistent_true [] (calls.map (ItemCall.toOp fuel
    (batchChunkSize.getD (.fin 50))))).and_forall (fun a ha => nomatch ha) h.asked
  constructor
  · refine answersOf_eq (fun a b hsame hkey => ?_) fun _ => hok
    obtain ⟨-, hstream, hnow⟩ := Module49.key_determines hsame.2.1 hsame.1 hkey
    show computeResult b.item.stream b.nowSec = computeResult a.item.stream a.nowSec
    rw [hstream, hnow]
  · refine answersOf_eq (fun a b hsame hkey => ?_) fun _ => hok
    obtain ⟨hid, hnow, hpaused, hcancelled, hrate, hend⟩ :=
      Module44.key_determines hsame.2.1 hsame.1 hkey
    show Except.ok (computeAssessment t b.item.id b.item.stream b.nowSec) = _
    simp only [computeAssessment, hid, hnow, hpaused, hcancelled, hrate, hend]
    rfl

/-- Two items with the same id and time whose streams agree in `withdrawn` and `paused` have the same
stream: they agree in `cancelled`, `pausedAt`, `ratePerSecond`, `startTime` and `endTime` too. -/
def Module48.Agree (b a : ItemReading) : Prop :=
  b.item.id = a.item.id → b.nowSec = a.nowSec →
    b.item.stream.withdrawn = a.item.stream.withdrawn →
    b.item.stream.paused = a.item.stream.paused → b.item.stream = a.item.stream

instance (b a : ItemReading) : Decidable (Module48.Agree b a) := by
  unfold Module48.Agree
  infer_instance

/-- **When `Module48` is transparent.** -/
theorem module48_transparent (h : DoubleCalls calls)
    (hagree : enableOptimization = true → Consistent Module48.Agree []
      (calls.map (ItemCall.toOp fuel (batchChunkSize.getD (.fin 50))))) :
    answersOf Module48.question fuel cacheSize enableOptimization batchChunkSize calls =
      recomputed Module48.question fuel batchChunkSize calls := by
  refine answersOf_eq (fun a b hsame hkey => ?_) fun hon =>
    (hagree hon).and_forall (fun a ha => nomatch ha) h.asked
  obtain ⟨hid, hnow, hwithdrawn, hpaused⟩ := Module48.key_determines hsame.2.1 hsame.1 hkey
  have hstream := hsame.2.2 hid hnow hwithdrawn hpaused
  show computeResult b.item.stream b.nowSec = computeResult a.item.stream a.nowSec
  rw [hstream, hnow]

end Transparency

/-! A stream, the same stream at twice the rate, and after it was cancelled. -/

def tenPerSecond : StreamInfo where
  ratePerSecond := 10
  startTime := .fin 1000
  endTime := .fin 2000

def snapshotAt (id : String) (stream : StreamInfo) : ItemReading where
  item := { id := id, stream := stream, timestamp := some (.fin 1500) }
  clock := .fin 1700
  now := .fin 0

def steadyCalls : List ItemCall :=
  [.single (snapshotAt "a_1" tenPerSecond), .batch [snapshotAt "a_1" tenPerSecond], .clearCache]

theorem steadyCalls_doubles : DoubleCalls steadyCalls := by
  have hdouble : (snapshotAt "a_1" tenPerSecond).Doubles := by
    have hint (n : ℤ) (hn : |n| ≤ 2 ^ 53) : Number.IsDouble (.fin n) := Number.isDouble_intCast hn
    exact ⟨by exact_mod_cast hint 0 (by decide), by exact_mod_cast hint 1000 (by decide),
      by exact_mod_cast hint 2000 (by decide), by exact_mod_cast hint 1500 (by decide)⟩
  intro call hcall a ha
  simp only [steadyCalls, List.mem_cons, List.not_mem_nil, or_false] at hcall
  rcases hcall with rfl | rfl | rfl
  · rw [List.mem_singleton.mp ha]
    exact hdouble
  · rw [List.mem_singleton.mp ha]
    exact hdouble
  · cases ha

theorem keys_transparent_steady :
    answersOf Module49.question 9 none true none steadyCalls =
        recomputed Module49.question 9 none steadyCalls ∧
      answersOf (Module44.question ⟨.fin 86400, .fin 604800⟩) 9 none true none steadyCalls =
        recomputed (Module44.question ⟨.fin 86400, .fin 604800⟩) 9 none steadyCalls :=
  keys_transparent 9 none true none ⟨.fin 86400, .fin 604800⟩ steadyCalls_doubles

theorem module48_transparent_steady : answersOf Module48.question 9 none true none steadyCalls =
    recomputed Module48.question 9 none steadyCalls :=
  module48_transparent 9 none true none steadyCalls_doubles fun _ => by decide +kernel

/-- **A stale answer**: the key of `Module48` does not see that the stream was cancelled, or that its
rate has doubled. -/
theorem module48_answers_stale :
    answersOf Module48.question 9 none true none
      [.single (snapshotAt "a" tenPerSecond),
        .single (snapshotAt "a" { tenPerSecond with cancelled := true })] ≠
      recomputed Module48.question 9 none
        [.single (snapshotAt "a" tenPerSecond),
          .single (snapshotAt "a" { tenPerSecond with cancelled := true })] := by
  decide +kernel

end StreamFi
