import StreamFi.Memo.Portfolio
import StreamFi.Stream.Status

/-!
# The classes of a portfolio

`Module26` counts the streams of a portfolio by a classification of its own.

* `CountsByStatus`: the counts are those of `streamStatus`;
* `classifyStream_eq_iff`: when the two classifications agree on a stream;
* **`countsByStatus_iff`**: when they agree on the counts.
-/

namespace StreamFi

open Js

/-! ## Counting by status -/

/-- The class that is meant by a status. -/
def StreamStatus.toClass : StreamStatus → StreamClass
  | .active => .active
  | .paused => .paused
  | .completed => .ended
  | .cancelled => .cancelled

/-- The status of a stream at its time. -/
def statusOf (entry : StreamInfo × Number) : StreamStatus := streamStatus entry.1 entry.2

def classOf (entry : StreamInfo × Number) : StreamClass := classifyStream entry.1 entry.2

/-- The four counts are those of the statuses and sum to the number of streams, and the rate is that
of the active ones. -/
structure PortfolioSummary.Counts (s : PortfolioSummary) (entries : List (StreamInfo × Number)) :
    Prop where
  active : s.activeCount = entries.countP fun entry => statusOf entry = .active
  paused : s.pausedCount = entries.countP fun entry => statusOf entry = .paused
  cancelled : s.cancelledCount = entries.countP fun entry => statusOf entry = .cancelled
  ended : s.endedCount = entries.countP fun entry => statusOf entry = .completed
  total : s.activeCount + s.pausedCount + s.cancelledCount + s.endedCount = entries.length
  rate : s.totalRatePerSecond =
    ((entries.filter fun entry => statusOf entry = .active).map fun entry => entry.1.ratePerSecond).sum

/-- An aggregation returns, and counts each stream in the class of its status. -/
def CountsByStatus (batchChunkSize : Number) (items : List StreamBatchItem) (nowSec : Number) : Prop :=
  ∃ fuel s, aggregate fuel batchChunkSize (entriesOf items nowSec) nowSec = .ok s ∧
    s.Counts (entriesOf items nowSec)

/-- The time that the stream is paid for is not a fraction of a second. -/
def PaysWholeSeconds (entry : StreamInfo × Number) : Prop :=
  let elapsed := (entry.1.effectiveNow entry.2).sub entry.1.startTime
  entry.1.cancelled = true ∨ elapsed.le (.fin 0) = true ∨ elapsed.isInteger = true

/-- Past an end other than `0`, and paused or with a negative end. -/
def Misclassified (entry : StreamInfo × Number) : Prop :=
  entry.1.cancelled = false ∧ entry.1.endTime ≠ .fin 0 ∧ entry.1.endTime.le entry.2 = true ∧
    (entry.1.paused = true ∨ entry.1.endTime.lt (.fin 0) = true)

instance (entry : StreamInfo × Number) : Decidable (PaysWholeSeconds entry) :=
  inferInstanceAs (Decidable (_ ∨ _ ∨ _))

instance (entry : StreamInfo × Number) : Decidable (Misclassified entry) :=
  inferInstanceAs (Decidable (_ ∧ _ ∧ _ ∧ _))

/-! ## The two classifications -/

/-- A number other than `0` is on one side of it. -/
theorem lt_zero_iff {x y : Number} (hle : x.le y = true) (hne : x ≠ .fin 0) :
    x.lt (.fin 0) = true ↔ (Number.fin 0).lt x = false := by
  cases x with
  | nan => cases hle
  | posInf | negInf => simp [Number.lt]
  | fin q =>
    have hq : q ≠ 0 := by
      rintro rfl
      exact hne rfl
    simp only [Number.lt_fin, decide_eq_true_eq, decide_eq_false_iff_not, not_lt]
    exact ⟨le_of_lt, fun h => lt_of_le_of_ne h hq⟩

theorem classOf_of_live {entry : StreamInfo × Number} (h : entry.1.cancelled = false) :
    classOf entry = if entry.1.paused then .paused
      else if (Number.fin 0).lt entry.1.endTime && entry.1.endTime.le entry.2 then .ended
      else .active := by
  simp [classOf, classifyStream, h]

theorem statusOf_of_live {entry : StreamInfo × Number} (h : entry.1.cancelled = false) :
    statusOf entry = if entry.1.endTime ≠ .fin 0 && entry.1.endTime.le entry.2 then .completed
      else if entry.1.paused then .paused else .active := by
  simp [statusOf, streamStatus, h]

/-- **A misclassified stream** is completed, and not counted as ended. -/
theorem classOf_of_misclassified {entry : StreamInfo × Number} (h : Misclassified entry) :
    statusOf entry = .completed ∧ classOf entry ≠ .ended := by
  obtain ⟨hlive, hne, hle, hcase⟩ := h
  rw [statusOf_of_live hlive, classOf_of_live hlive]
  refine ⟨by simp [hne, hle], ?_⟩
  cases hpaused : entry.1.paused with
  | true => simp
  | false =>
    have hneg : entry.1.endTime.lt (.fin 0) = true := by simpa [hpaused] using hcase
    simp [(lt_zero_iff hle hne).mp hneg]

theorem classOf_of_not_misclassified {entry : StreamInfo × Number} (h : ¬ Misclassified entry) :
    classOf entry = (statusOf entry).toClass := by
  cases hlive : entry.1.cancelled with
  | true => simp [classOf, statusOf, classifyStream, streamStatus, hlive, StreamStatus.toClass]
  | false =>
    rw [statusOf_of_live hlive, classOf_of_live hlive]
    by_cases hended : entry.1.endTime ≠ .fin 0 ∧ entry.1.endTime.le entry.2 = true
    · obtain ⟨hne, hle⟩ := hended
      have hno : entry.1.paused = false ∧ ¬ entry.1.endTime.lt (.fin 0) = true := by
        rw [Misclassified] at h
        simpa [hlive, hne, hle] using h
      rw [lt_zero_iff hle hne] at hno
      simp [hne, hle, hno.1, Bool.eq_true_of_not_eq_false hno.2, StreamStatus.toClass]
    · have hstatus : (entry.1.endTime ≠ .fin 0 && entry.1.endTime.le entry.2) = false := by
        simpa using hended
      have hclass : ((Number.fin 0).lt entry.1.endTime && entry.1.endTime.le entry.2) = false := by
        by_contra hpos
        rw [Bool.not_eq_false, Bool.and_eq_true] at hpos
        refine hended ⟨?_, hpos.2⟩
        intro hzero
        rw [hzero] at hpos
        exact absurd hpos.1 (by decide)
      rw [hstatus, hclass]
      cases entry.1.paused <;> rfl

/-- **When the classifications agree** on a stream. -/
theorem classifyStream_eq_iff {entry : StreamInfo × Number} :
    classOf entry = (statusOf entry).toClass ↔ ¬ Misclassified entry := by
  refine ⟨fun heq h => ?_, classOf_of_not_misclassified⟩
  obtain ⟨hcompleted, hclass⟩ := classOf_of_misclassified h
  rw [hcompleted] at heq
  exact hclass heq

/-! ## The totals -/

/-- What a list of streams adds to the counts and to the rate. -/
structure PortfolioSummary.Adds (s s' : PortfolioSummary) (entries : List (StreamInfo × Number)) :
    Prop where
  active : s'.activeCount = s.activeCount + entries.countP fun entry => classOf entry = .active
  paused : s'.pausedCount = s.pausedCount + entries.countP fun entry => classOf entry = .paused
  cancelled :
    s'.cancelledCount = s.cancelledCount + entries.countP fun entry => classOf entry = .cancelled
  ended : s'.endedCount = s.endedCount + entries.countP fun entry => classOf entry = .ended
  rate : s'.totalRatePerSecond = s.totalRatePerSecond +
    ((entries.filter fun entry => classOf entry = .active).map fun entry => entry.1.ratePerSecond).sum

theorem adds_add {s s' : PortfolioSummary} {entry : StreamInfo × Number} (h : s.add entry = .ok s') :
    s.Adds s' [entry] := by
  obtain ⟨withdrawable, -, rfl⟩ := map_ok_iff.mp h
  cases hclass : classifyStream entry.1 entry.2 <;> constructor <;> simp [classOf, hclass]

theorem PortfolioSummary.Adds.append {s t s' : PortfolioSummary}
    {xs ys : List (StreamInfo × Number)} (h : s.Adds t xs) (h' : t.Adds s' ys) :
    s.Adds s' (xs ++ ys) := by
  constructor
  · rw [h'.active, h.active, List.countP_append, Nat.add_assoc]
  · rw [h'.paused, h.paused, List.countP_append, Nat.add_assoc]
  · rw [h'.cancelled, h.cancelled, List.countP_append, Nat.add_assoc]
  · rw [h'.ended, h.ended, List.countP_append, Nat.add_assoc]
  · rw [h'.rate, h.rate, List.filter_append, List.map_append, List.sum_append, add_assoc]

/-- **What the loop adds up.** -/
theorem adds_foldlM {entries : List (StreamInfo × Number)} {s s' : PortfolioSummary}
    (h : entries.foldlM PortfolioSummary.add s = .ok s') : s.Adds s' entries := by
  induction entries generalizing s with
  | nil =>
    cases h
    constructor <;> simp
  | cons entry entries ih =>
    rw [List.foldlM_cons] at h
    obtain ⟨t, ht, h⟩ := seq_ok_iff.mp h
    exact (adds_add ht).append (ih h)

theorem withdrawableLocal_returns_iff {entry : StreamInfo × Number} :
    (∃ withdrawable, withdrawableLocal entry.1 entry.2 = .ok withdrawable) ↔ PaysWholeSeconds entry := by
  unfold PaysWholeSeconds
  cases hlive : entry.1.cancelled with
  | true => simp [withdrawableLocal, availableAt, hlive]
  | false =>
    simp only [withdrawableLocal, availableAt_eq hlive, map_ok_iff, StreamInfo.accrued_iff,
      Bool.false_eq_true, false_or]
    constructor
    · rintro ⟨_, streamed, ⟨-, hlt | hle⟩ | ⟨seconds, -, -, -, hseconds⟩, -⟩
      · exact .inl (Number.sub_le_zero_of_lt hlt)
      · exact .inl hle
      · rw [hseconds]
        exact .inr (Number.isInteger_intCast seconds)
    · intro h
      by_cases hle : ((entry.1.effectiveNow entry.2).sub entry.1.startTime).le (.fin 0) = true
      · exact ⟨_, none, .inl ⟨rfl, .inr hle⟩, rfl⟩
      · obtain ⟨seconds, hseconds⟩ := Number.isInteger_iff.mp (h.resolve_left hle)
        refine ⟨_, some (entry.1.ratePerSecond * seconds), .inr ⟨seconds, rfl, ?_, ?_, hseconds⟩, rfl⟩
        · rw [hseconds] at hle
          simpa using hle
        · by_contra hlt
          exact hle (Number.sub_le_zero_of_lt (by simpa using hlt))

theorem foldlM_add_returns_iff {entries : List (StreamInfo × Number)} {s : PortfolioSummary} :
    (∃ s', entries.foldlM PortfolioSummary.add s = .ok s') ↔ ∀ entry ∈ entries, PaysWholeSeconds entry := by
  induction entries generalizing s with
  | nil => simp [pure, Except.pure]
  | cons entry entries ih =>
    rw [List.forall_mem_cons, List.foldlM_cons, ← withdrawableLocal_returns_iff]
    constructor
    · rintro ⟨s', h⟩
      obtain ⟨t, ht, h⟩ := seq_ok_iff.mp h
      obtain ⟨withdrawable, hw, -⟩ := map_ok_iff.mp ht
      exact ⟨⟨withdrawable, hw⟩, ih.mp ⟨s', h⟩⟩
    · rintro ⟨⟨withdrawable, hw⟩, hrest⟩
      obtain ⟨t, ht⟩ : ∃ t, s.add entry = .ok t := by
        rw [PortfolioSummary.add, hw]
        exact ⟨_, rfl⟩
      obtain ⟨s', hs'⟩ := (ih (s := t)).mpr hrest
      exact ⟨s', seq_ok_iff.mpr ⟨t, ht, hs'⟩⟩

/-! ## The counts -/

section Counts

variable {entries : List (StreamInfo × Number)} {s : PortfolioSummary} {nowSec : Number}

/-- Every stream is in one of the four classes. -/
theorem count_classes (entries : List (StreamInfo × Number)) :
    entries.countP (fun entry => classOf entry = .active) +
      entries.countP (fun entry => classOf entry = .paused) +
      entries.countP (fun entry => classOf entry = .cancelled) +
      entries.countP (fun entry => classOf entry = .ended) = entries.length := by
  induction entries with
  | nil => rfl
  | cons entry entries ih =>
    simp only [List.countP_cons, List.length_cons]
    cases classOf entry <;> (simp; omega)

/-- Two conditions, of which one implies the other, hold equally often where they agree. -/
theorem countP_eq_countP_iff {α : Type} {p q : α → Bool} (h : ∀ x, p x = true → q x = true)
    {xs : List α} : xs.countP p = xs.countP q ↔ ∀ x ∈ xs, q x = true → p x = true := by
  induction xs with
  | nil => simp
  | cons x xs ih =>
    have hle : xs.countP p ≤ xs.countP q := List.countP_mono_left fun x _ => h x
    rw [List.forall_mem_cons, ← ih, List.countP_cons, List.countP_cons]
    have hx := h x
    cases hp : p x <;> cases hq : q x <;> simp_all
    omega

theorem ended_iff_completed :
    (entries.countP fun entry => classOf entry = .ended) =
        (entries.countP fun entry => statusOf entry = .completed) ↔
      ∀ entry ∈ entries, ¬ Misclassified entry := by
  have hcompleted (entry : StreamInfo × Number) (h : classOf entry = .ended) :
      statusOf entry = .completed := by
    by_cases hmis : Misclassified entry
    · exact (classOf_of_misclassified hmis).1
    · rw [classOf_of_not_misclassified hmis] at h
      cases hstatus : statusOf entry <;> simp_all [StreamStatus.toClass]
  rw [countP_eq_countP_iff fun entry h => by simpa using hcompleted entry (by simpa using h)]
  constructor
  · intro h entry hmem hmis
    obtain ⟨hstatus, hclass⟩ := classOf_of_misclassified hmis
    exact hclass (by simpa using h entry hmem (by simpa using hstatus))
  · intro h entry hmem hstatus
    have heq := classOf_of_not_misclassified (h entry hmem)
    rw [of_decide_eq_true hstatus] at heq
    exact decide_eq_true heq

/-- Where no stream is misclassified, its class is active exactly if its status is, and so on. -/
theorem countP_classOf (h : ∀ entry ∈ entries, ¬ Misclassified entry) (status : StreamStatus) :
    (entries.countP fun entry => classOf entry = status.toClass) =
      entries.countP fun entry => statusOf entry = status := by
  apply List.countP_congr
  intro entry hmem
  rw [classOf_of_not_misclassified (h entry hmem)]
  cases statusOf entry <;> cases status <;> simp [StreamStatus.toClass]

theorem counts_of_adds (hadds : PortfolioSummary.Adds { computedAt := nowSec } s entries)
    (h : ∀ entry ∈ entries, ¬ Misclassified entry) : s.Counts entries := by
  obtain ⟨hactive, hpaused, hcancelled, hended, hrate⟩ := hadds
  simp only [zero_add] at hactive hpaused hcancelled hended hrate
  refine ⟨?_, ?_, ?_, ?_, ?_, ?_⟩
  · rw [hactive]
    exact countP_classOf h .active
  · rw [hpaused]
    exact countP_classOf h .paused
  · rw [hcancelled]
    exact countP_classOf h .cancelled
  · rw [hended]
    exact countP_classOf h .completed
  · rw [hactive, hpaused, hcancelled, hended, count_classes]
  · have hfilter : (entries.filter fun entry => classOf entry = .active) =
        entries.filter fun entry => statusOf entry = .active := by
      apply List.filter_congr
      intro entry hmem
      rw [classOf_of_not_misclassified (h entry hmem)]
      cases statusOf entry <;> rfl
    rw [hrate, hfilter]

end Counts

/-! ## The aggregation -/

section Aggregate

variable {batchChunkSize : Number} {nowSec : Number}

theorem aggregate_ok_iff {fuel : ℕ} {entries : List (StreamInfo × Number)} {s : PortfolioSummary} :
    aggregate fuel batchChunkSize entries nowSec = .ok s ↔
      ∃ js, visits fuel batchChunkSize entries.length = some js ∧
        (js.filterMap (entries[·]?)).foldlM PortfolioSummary.add { computedAt := nowSec } = .ok s := by
  rw [aggregate]
  cases visits fuel batchChunkSize entries.length with
  | none => simp
  | some js =>
    simp only [Option.some.injEq, exists_eq_left']
    cases (js.filterMap (entries[·]?)).foldlM PortfolioSummary.add { computedAt := nowSec } <;>
      simp [Except.mapError]

theorem length_filterMap_getElem {α : Type} {xs : List α} {js : List ℕ} (h : ∀ j ∈ js, j < xs.length) :
    (js.filterMap (xs[·]?)).length = js.length := by
  induction js with
  | nil => rfl
  | cons j js ih =>
    rw [List.forall_mem_cons] at h
    rw [List.filterMap_cons, List.getElem?_eq_getElem h.1]
    simp [ih h.2]

/-- **When a portfolio is counted by status**: all streams are processed, none is paid for a
fraction of a second, and none is misclassified. For chunks of a whole positive size all are
processed. -/
theorem countsByStatus_iff (batchChunkSize : Number) (items : List StreamBatchItem)
    (nowSec : Number) :
    (CountsByStatus batchChunkSize items nowSec ↔ Whole batchChunkSize items.length ∧
      ∀ entry ∈ entriesOf items nowSec, PaysWholeSeconds entry ∧ ¬ Misclassified entry) ∧
    ∀ size : ℕ, batchChunkSize = .fin size → 0 < size → size ≤ 2 ^ 53 → items.length < 2 ^ 32 →
      (CountsByStatus batchChunkSize items nowSec ↔
        ∀ entry ∈ entriesOf items nowSec, PaysWholeSeconds entry ∧ ¬ Misclassified entry) := by
  have hlen : (entriesOf items nowSec).length = items.length := List.length_map ..
  have hiff : CountsByStatus batchChunkSize items nowSec ↔ Whole batchChunkSize items.length ∧
      ∀ entry ∈ entriesOf items nowSec, PaysWholeSeconds entry ∧ ¬ Misclassified entry := by
    constructor
    · rintro ⟨fuel, s, hs, hcounts⟩
      obtain ⟨js, hjs, hfold⟩ := aggregate_ok_iff.mp hs
      have hadds := adds_foldlM hfold
      -- the counts sum to the number of streams that were processed
      have hall : js.length = (entriesOf items nowSec).length := by
        rw [← length_filterMap_getElem (visits_sorted hjs).2, ← count_classes, ← hcounts.total,
          hadds.active, hadds.paused, hadds.cancelled, hadds.ended]
        simp only [zero_add]
      obtain rfl := visits_eq_range hjs hall
      rw [filterMap_range] at hfold hadds
      refine ⟨⟨fuel, hlen ▸ hjs⟩, ?_⟩
      have hreturns := foldlM_add_returns_iff.mp ⟨s, hfold⟩
      have hended := hadds.ended
      rw [hcounts.ended, Nat.zero_add, eq_comm, ended_iff_completed] at hended
      intro entry hmem
      exact ⟨hreturns entry hmem, hended entry hmem⟩
    · rintro ⟨hwhole, h⟩
      obtain ⟨fuel, hfuel, -, haggregate⟩ := processesAll_iff.mpr hwhole
      obtain ⟨s, hs⟩ := (foldlM_add_returns_iff (s := { computedAt := nowSec })).mpr
        fun entry hmem => (h entry hmem).1
      refine ⟨fuel, s, ?_, counts_of_adds (adds_foldlM hs) fun entry hmem => (h entry hmem).2⟩
      rw [haggregate _ nowSec hlen, hs]
      rfl
  refine ⟨hiff, ?_⟩
  rintro size rfl hpos hsize hn
  have hdouble : Number.IsDouble (.fin size) := by
    have habs : |(size : ℤ)| ≤ 2 ^ 53 := by
      rw [abs_of_nonneg (by positivity)]
      exact_mod_cast hsize
    exact_mod_cast Number.isDouble_intCast habs
  have hwhole : Whole (.fin size) items.length := by
    refine whole_of_suits hdouble hn (.inr ⟨?_, .inl ?_⟩)
    · have : (1 : ℚ) ≤ size := by exact_mod_cast hpos
      simpa using this
    · exact_mod_cast Number.isInteger_intCast size
  rw [hiff, and_iff_right hwhole]

end Aggregate

theorem countsByStatus_ten : CountsByStatus (.fin 50)
    [{ id := "a", stream := tenPerSecond, timestamp := none },
      { id := "b", stream := { tenPerSecond with cancelled := true }, timestamp := some (.fin 3000) }]
    (.fin 1500) :=
  ((countsByStatus_iff (.fin 50) _ (.fin 1500)).2 50 (by norm_num) (by norm_num) (by norm_num)
    (by decide)).mpr (by decide +kernel)

/-- A stream that was paused before its end, which has passed. -/
def pausedTen : StreamInfo := { tenPerSecond with paused := true, pausedAt := .fin 1200 }

/-- It is counted as paused, while its status is completed. -/
theorem counts_paused :
    aggregate 9 (.fin 50) (entriesOf [{ id := "a", stream := pausedTen, timestamp := none }] (.fin 2500))
        (.fin 2500) =
      .ok { computedAt := .fin 2500, totalWithdrawable := 2000, pausedCount := 1 } ∧
    streamStatus pausedTen (.fin 2500) = .completed ∧
    ¬ CountsByStatus (.fin 50) [{ id := "a", stream := pausedTen, timestamp := none }] (.fin 2500) := by
  have hagg : aggregate 9 (.fin 50)
      (entriesOf [{ id := "a", stream := pausedTen, timestamp := none }] (.fin 2500)) (.fin 2500) =
      .ok { computedAt := .fin 2500, totalWithdrawable := 2000, pausedCount := 1 } := by
    decide +kernel
  refine ⟨hagg, by decide, ?_⟩
  rintro ⟨fuel, s, hs, hcounts⟩
  obtain ⟨js, hjs, hfold⟩ := aggregate_ok_iff.mp hs
  obtain ⟨js', hjs', hfold'⟩ := aggregate_ok_iff.mp hagg
  rw [visits_unique hjs hjs', hfold'] at hfold
  cases hfold
  have hended := hcounts.ended
  have hone : (entriesOf [{ id := "a", stream := pausedTen, timestamp := none }] (.fin 2500)).countP
      (fun entry => statusOf entry = .completed) = 1 := by decide
  rw [hone] at hended
  cases hended

end StreamFi
