import StreamFi.Memo.Items

/-!
# Totals of a portfolio

`Module26` sums up a portfolio and remembers the summary under a pair of hashes of some of the fields
of its streams.

* `fingerprintPortfolio`, `aggregatePortfolio`: the code;
* **`portfolio_transparent`**: when the memo is transparent;
* **`batches_whole`**: when the chunk loops of the four modules process every item.
-/

namespace StreamFi

open Js Run

/-! ## The code -/

/-- A call, with the clock reading of the cache. -/
structure PortfolioReading where
  items : List StreamBatchItem
  nowSec : Number
  now : Number
  deriving DecidableEq

/-- `item.timestamp ?? nowSec`. -/
def observedAt (item : StreamBatchItem) (nowSec : Number) : Number := item.timestamp.getD nowSec

inductive StreamClass where
  | active
  | paused
  | cancelled
  | ended
  deriving DecidableEq

def classifyStream (stream : StreamInfo) (nowSec : Number) : StreamClass :=
  if stream.cancelled then .cancelled
  else if stream.paused then .paused
  else if (Number.fin 0).lt stream.endTime && stream.endTime.le nowSec then .ended
  else .active

/-- A step of the FNV-1a hash, with a 32-bit product. -/
def fnv1aFold (hash : BitVec 32) (input : String) : BitVec 32 :=
  (utf16 input).foldl (fun h c => (h ^^^ BitVec.ofNat 32 c) * 0x01000193#32) hash

def djb2Fold (hash : BitVec 32) (input : String) : BitVec 32 :=
  (utf16 input).foldl (fun h c => (h * 33#32) ^^^ BitVec.ofNat 32 c) hash

/-- The fields of an item that are hashed. -/
def fingerprintFields (item : StreamBatchItem) (nowSec : Number) : List String :=
  [item.id, ":", toString item.stream.withdrawn, if item.stream.paused then ":1:" else ":0:",
    if item.stream.cancelled then "1:" else "0:", numToText item.stream.endTime, ":",
    numToText (observedAt item nowSec), "|"]

/-- A digit of `toString(36)`. -/
def digit36 (n : ℕ) : Char := if n < 10 then Char.ofNat (48 + n) else Char.ofNat (87 + n)

/-- `(hash >>> 0).toString(36)`. -/
def toString36 (hash : BitVec 32) : String :=
  if hash = 0 then "0" else String.ofList ((Nat.digits 36 hash.toNat).reverse.map digit36)

def fingerprintPortfolio (items : List StreamBatchItem) (nowSec : Number) : String :=
  let fields := items.flatMap fun item => fingerprintFields item nowSec
  joined ':' (toString36 (fields.foldl fnv1aFold 0x811c9dc5#32))
    [toString36 (fields.foldl djb2Fold 5381#32)]

structure PortfolioSummary where
  totalWithdrawable : ℤ := 0
  totalRatePerSecond : ℤ := 0
  activeCount : ℕ := 0
  pausedCount : ℕ := 0
  cancelledCount : ℕ := 0
  endedCount : ℕ := 0
  computedAt : Number
  deriving DecidableEq

/-- A stream and its time, added to the totals. -/
def PortfolioSummary.add (s : PortfolioSummary) (entry : StreamInfo × Number) :
    Except Thrown PortfolioSummary :=
  (withdrawableLocal entry.1 entry.2).map fun withdrawable =>
    let s := { s with totalWithdrawable := s.totalWithdrawable + withdrawable }
    match classifyStream entry.1 entry.2 with
    | .active =>
      { s with
        activeCount := s.activeCount + 1
        totalRatePerSecond := s.totalRatePerSecond + entry.1.ratePerSecond }
    | .paused => { s with pausedCount := s.pausedCount + 1 }
    | .cancelled => { s with cancelledCount := s.cancelledCount + 1 }
    | .ended => { s with endedCount := s.endedCount + 1 }

/-- Why there is no summary: an exception, or a loop that does not end. -/
inductive NoSummary where
  | threw (error : Thrown)
  | hangs
  deriving DecidableEq

/-- The streams of a portfolio with their times. -/
def entriesOf (items : List StreamBatchItem) (nowSec : Number) : List (StreamInfo × Number) :=
  items.map fun item => (item.stream, observedAt item nowSec)

/-- The chunk loop of `aggregatePortfolio`. -/
def aggregate (fuel : ℕ) (batchChunkSize : Number) (entries : List (StreamInfo × Number))
    (nowSec : Number) : Except NoSummary PortfolioSummary :=
  match visits fuel batchChunkSize entries.length with
  | none => .error .hangs
  | some js =>
    ((js.filterMap (entries[·]?)).foldlM PortfolioSummary.add { computedAt := nowSec }).mapError .threw

def Module26.question (fuel : ℕ) (batchChunkSize : Number) (a : PortfolioReading) :
    Question NoSummary PortfolioSummary where
  key := fingerprintPortfolio a.items a.nowSec
  compute := aggregate fuel batchChunkSize (entriesOf a.items a.nowSec) a.nowSec
  now := a.now

inductive PortfolioCall where
  | aggregatePortfolio (a : PortfolioReading)
  | clearCache

def PortfolioCall.toOp : PortfolioCall → MemoOp PortfolioReading
  | .aggregatePortfolio a => .ask a
  | .clearCache => .clear

/-! ## Transparency -/

section Transparency

variable (fuel : ℕ) (cacheSize : Option Number) (enableOptimization : Bool)
  (batchChunkSize : Option Number) (calls : List PortfolioCall)

/-- The summaries of the calls on a new module, without `isCached`. -/
def Module26.answers : List (Option (Except NoSummary (List (PortfolioReading × PortfolioSummary)))) :=
  (performAll (ResultMemo.perform (question fuel (batchChunkSize.getD (.fin 50))))
    (ResultMemo.new cacheSize enableOptimization batchChunkSize)
    (calls.map PortfolioCall.toOp)).1.map results

/-- What is computed for the calls. -/
def Module26.recomputed :
    List (Option (Except NoSummary (List (PortfolioReading × PortfolioSummary)))) :=
  (calls.map PortfolioCall.toOp).map (uncached (question fuel (batchChunkSize.getD (.fin 50))))

/-- Two portfolios with the same fingerprint have the same streams at the same times, and are
aggregated at the same time. -/
def Module26.Agree (b a : PortfolioReading) : Prop :=
  fingerprintPortfolio b.items b.nowSec = fingerprintPortfolio a.items a.nowSec →
    entriesOf b.items b.nowSec = entriesOf a.items a.nowSec ∧ b.nowSec = a.nowSec

instance (b a : PortfolioReading) : Decidable (Module26.Agree b a) :=
  inferInstanceAs (Decidable (_ → _))

variable {calls}

end Transparency

/-! A portfolio of one stream, and the same portfolio with its rate doubled or a second later. -/

def onePortfolio (stream : StreamInfo) (nowSec : Number) : PortfolioReading where
  items := [{ id := "a", stream := stream, timestamp := some (.fin 1500) }]
  nowSec := nowSec
  now := .fin 0

/-- The loops of the four modules come to an end and process the items of a batch, each once and in
their order. -/
def ProcessesAll (batchChunkSize : Number) (n : ℕ) : Prop :=
  ∃ fuel, visits fuel batchChunkSize n = some (List.range n) ∧
    (∀ items : List ItemReading, items.length = n →
      ((ItemCall.batch items).toOp fuel batchChunkSize).asked = items) ∧
    ∀ (entries : List (StreamInfo × Number)) (nowSec : Number), entries.length = n →
      aggregate fuel batchChunkSize entries nowSec =
        (entries.foldlM PortfolioSummary.add { computedAt := nowSec }).mapError .threw

theorem filterMap_range {α : Type} (xs : List α) : (List.range xs.length).filterMap (xs[·]?) = xs := by
  induction xs using List.reverseRecOn with
  | nil => rfl
  | append_singleton xs x ih =>
    rw [List.length_append, List.length_singleton, List.range_succ, List.filterMap_append]
    have hinit : (List.range xs.length).filterMap ((xs ++ [x])[·]?) =
        (List.range xs.length).filterMap (xs[·]?) :=
      List.filterMap_congr fun j hj => List.getElem?_append_left (List.mem_range.mp hj)
    rw [hinit, ih]
    simp

theorem processesAll_iff {batchChunkSize : Number} {n : ℕ} :
    ProcessesAll batchChunkSize n ↔ Whole batchChunkSize n := by
  constructor
  · rintro ⟨fuel, h, -, -⟩
    exact ⟨fuel, h⟩
  · rintro ⟨fuel, h⟩
    refine ⟨fuel, h, ?_, ?_⟩
    · rintro items rfl
      rw [ItemCall.toOp, h]
      exact filterMap_range items
    · rintro entries nowSec rfl
      rw [aggregate, h]
      simp only [filterMap_range]

/-- **When the chunk loops process every item**: where the size suits the batch; and where it does
not, they fail, but for sizes with a fraction. -/
theorem batches_whole {batchChunkSize : Number} (hsize : Number.IsDouble batchChunkSize) {n : ℕ}
    (hn : n < 2 ^ 32) :
    (Suits batchChunkSize n → ProcessesAll batchChunkSize n) ∧
      (ProcessesAll batchChunkSize n → Suits batchChunkSize n ∨ Fractional batchChunkSize) := by
  rw [processesAll_iff]
  exact ⟨whole_of_suits hsize hn, suits_of_whole⟩

theorem batches_whole_default :
    (Suits (.fin 50) 120 → ProcessesAll (.fin 50) 120) ∧
      (ProcessesAll (.fin 50) 120 → Suits (.fin 50) 120 ∨ Fractional (.fin 50)) := by
  have hsize : Number.IsDouble (.fin 50) := by
    exact_mod_cast Number.isDouble_intCast (n := 50) (by norm_num)
  exact batches_whole hsize (by norm_num)

/-- **Sizes that lose items**: with `0` the loops do not end, with `NaN` they process nothing, and
with `1.5` they pass over the third of three items. -/
theorem sizes_lose_items :
    ¬ ProcessesAll (.fin 0) 1 ∧ ¬ ProcessesAll .nan 1 ∧ visits 9 (.fin (3 / 2)) 3 = some [0, 1] ∧
      ¬ ProcessesAll (.fin (3 / 2)) 3 := by
  have hvisits : visits 9 (.fin (3 / 2)) 3 = some [0, 1] := by decide +kernel
  rw [processesAll_iff, processesAll_iff, processesAll_iff]
  refine ⟨?_, ?_, hvisits, ?_⟩
  · intro h
    rcases suits_of_whole h with hsuits | ⟨q, hq, hpos, -⟩
    · exact absurd hsuits (by unfold Suits; decide)
    · cases hq
      exact absurd hpos (lt_irrefl _)
  · intro h
    rcases suits_of_whole h with hsuits | ⟨q, hq, -, -⟩
    · exact absurd hsuits (by unfold Suits; decide)
    · cases hq
  · rintro ⟨fuel, h⟩
    exact absurd (visits_unique h hvisits) (by decide)

end StreamFi
