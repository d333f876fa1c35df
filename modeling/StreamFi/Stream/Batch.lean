import StreamFi.Amount
import StreamFi.Js.Rounding
import StreamFi.Memo.Chunks
import StreamFi.Pool.Bounded
import StreamFi.Sorted.Window

/-!
# Reading many streams

`ConduitClient.getStreamsBatch` reads every id once, in chunks that follow one another; the reads of a
chunk share a pool of workers, and a read that fails is reported beside the results.

* `distinct`: the ids by value, with **`distinct_spec`**;
* `BatchGetStreamsOptions.size`, **`next_index`**: the chunk size, and where the next chunk begins;
* `StreamsBatch.step`: the loop over the chunks, between its awaits;
* `Progress`: the invariant; **`batch_reads`**: what every run reads and returns.
-/

namespace StreamFi

open Js Run Sorted

/-! ## Ids -/

/-- `BigInt(id)`. -/
def StreamId.value : StreamId → Except Thrown ℤ
  | .bigint n => .ok n
  | .text s => bigIntOf s

/-- `[...new Set(values)]`. -/
def distinct (values : List ℤ) : List ℤ :=
  values.foldl (fun set n => if n ∈ set then set else set ++ [n]) []

theorem distinct_concat (values : List ℤ) (n : ℤ) : distinct (values ++ [n]) =
    if n ∈ distinct values then distinct values else distinct values ++ [n] :=
  List.foldl_concat ..

/-- **Each value once, where it came first.** -/
theorem distinct_spec (values : List ℤ) : (distinct values).Nodup ∧
    (∀ n, n ∈ distinct values ↔ n ∈ values) ∧
    (distinct values).Pairwise fun m n => values.idxOf m < values.idxOf n := by
  induction values using List.reverseRecOn with
  | nil => simp [distinct]
  | append_singleton values n ih =>
    obtain ⟨hnodup, hmem, horder⟩ := ih
    have hidx {m : ℤ} (hm : m ∈ distinct values) : (values ++ [n]).idxOf m = values.idxOf m :=
      List.idxOf_append_of_mem ((hmem m).mp hm)
    have horder' : (distinct values).Pairwise fun m k =>
        (values ++ [n]).idxOf m < (values ++ [n]).idxOf k := by
      refine horder.imp_of_mem ?_
      intro m k hm hk hlt
      rwa [hidx hm, hidx hk]
    rw [distinct_concat]
    split_ifs with h
    · refine ⟨hnodup, fun m => ?_, horder'⟩
      rw [hmem, List.mem_append, List.mem_singleton]
      constructor
      · exact .inl
      · rintro (hm | rfl)
        · exact hm
        · exact (hmem m).mp h
    · have hnew : n ∉ values := fun hn => h ((hmem n).mpr hn)
      refine ⟨?_, fun m => ?_, ?_⟩
      · rw [List.nodup_append]
        refine ⟨hnodup, List.nodup_singleton n, ?_⟩
        intro m hm k hk heq
        rw [List.mem_singleton.mp hk] at heq
        exact h (heq ▸ hm)
      · rw [List.mem_append, List.mem_append, hmem]
      · rw [List.pairwise_append]
        refine ⟨horder', List.pairwise_singleton _ n, ?_⟩
        intro m hm k hk
        rw [List.mem_singleton.mp hk, hidx hm, List.idxOf_append_of_notMem hnew]
        exact Nat.lt_add_right _ (List.idxOf_lt_length_iff.mpr ((hmem m).mp hm))

/-! ## Options -/

structure BatchGetStreamsOptions where
  chunkSize : Option Number := none
  chunkDelayMs : Option Number := none
  maxConcurrency : Option Number := none

namespace BatchGetStreamsOptions

/-- `Math.max(1, Math.floor(options.chunkSize ?? 20) || 20)`. -/
def size (options : BatchGetStreamsOptions) : Number :=
  let floor := (options.chunkSize.getD (.fin 20)).floor
  Number.max (.fin 1) (if floor.truthy then floor else .fin 20)

/-- `Math.max(0, options.chunkDelayMs ?? 0)`. -/
def delay (options : BatchGetStreamsOptions) : Number :=
  Number.max (.fin 0) (options.chunkDelayMs.getD (.fin 0))

/-- `Math.max(1, options.maxConcurrency ?? DEFAULT_LIST_CONCURRENCY)`. -/
def concurrency (options : BatchGetStreamsOptions) : Number :=
  Number.max (.fin 1) (options.maxConcurrency.getD defaultListConcurrency)

variable (options : BatchGetStreamsOptions)

/-- **A chunk has at least one id**, and may take in all of them. -/
theorem size_cases : options.size = .posInf ∨ ∃ c : ℕ, 0 < c ∧ options.size = .fin c := by
  unfold size
  cases options.chunkSize.getD (.fin 20) with
  | posInf => exact .inl rfl
  | nan => exact .inr ⟨20, by norm_num, by simp [Number.floor, Number.truthy, Number.max]⟩
  | negInf => exact .inr ⟨1, one_pos, by simp [Number.floor, Number.truthy, Number.max, Number.le]⟩
  | fin q =>
    by_cases hzero : ⌊q⌋ = 0
    · exact .inr ⟨20, by norm_num, by simp [Number.floor, Number.truthy, Number.max, hzero]⟩
    · have htruthy : (Number.fin (⌊q⌋ : ℤ)).truthy = true := by simp [Number.truthy, hzero]
      refine .inr ⟨(max 1 ⌊q⌋).toNat, by omega, ?_⟩
      simp only [Number.floor, htruthy, if_true, ThrottledPool.max_one_intCast]

/-- **Where the next chunk begins**: behind this one, or behind the list. -/
theorem next_index {p len : ℕ} (hp : p < len) (hlen : len < 2 ^ 32) :
    ∃ q, p < q ∧ q ≤ len ∧ ((Number.fin p).add options.size).relIndex len = q ∧
      AtIndex ((Number.fin p).add options.size) q len := by
  rcases options.size_cases with hsize | ⟨c, hc, hsize⟩
  · rw [hsize]
    exact ⟨len, hp, le_rfl, rfl, .inr ⟨rfl, rfl⟩⟩
  · rw [hsize]
    exact ⟨min (p + c) len, by omega, Nat.min_le_right _ _, Number.relIndex_add p c hlen, atIndex_add p c hlen⟩

end BatchGetStreamsOptions

/-! ## The code -/

/-- What the callback of `getStreamInfos` makes of a read. -/
inductive InfoOutcome (I : Type) where
  | ok (id : ℤ) (info : I)
  | failed (id : ℤ) (error : String)
  deriving DecidableEq

namespace InfoOutcome

variable {I : Type}

def of (id : ℤ) : Except Thrown I → InfoOutcome I
  | .ok info => .ok id info
  | .error err => .failed id err.text

def id : InfoOutcome I → ℤ
  | .ok id _ | .failed id _ => id

def info : InfoOutcome I → Option I
  | .ok _ info => some info
  | .failed _ _ => none

def failure : InfoOutcome I → Option (ℤ × String)
  | .ok _ _ => none
  | .failed id error => some (id, error)

@[simp] theorem id_of (n : ℤ) (r : Except Thrown I) : (of n r).id = n := by
  cases r <;> rfl

end InfoOutcome

/-- Where the loop is suspended: between two chunks, or with the reads of a chunk. -/
inductive BatchPhase (I : Type) where
  | pausing
  | reading (chunk : List ℤ) (pool : ThrottledPool (InfoOutcome I))
  | returned
  deriving DecidableEq

/-- A call of `getStreamsBatch`. -/
structure StreamsBatch (I : Type) where
  unique : List ℤ
  i : Number := .fin 0
  results : List I := []
  failures : List (ℤ × String) := []
  phase : BatchPhase I := .returned
  deriving DecidableEq

/-- `wake` is the end of a pause, `collect` that of the reads of a chunk. A worker goes on at `run`, and
at `settle`, when its read has come to an end. -/
inductive BatchEvent (I : Type) where
  | wake
  | run (w : ℕ)
  | settle (w : ℕ) (r : Except Thrown I)
  | collect

namespace StreamsBatch

variable {I : Type}

/-- The reads of the chunk at `i`. -/
def read (options : BatchGetStreamsOptions) (s : StreamsBatch I) : StreamsBatch I :=
  let chunk := slice s.unique (s.i.relIndex s.unique.length)
    ((s.i.add options.size).relIndex s.unique.length)
  { s with phase := .reading chunk (.init chunk.length options.concurrency none 0) }

/-- The head of the loop. -/
def head (options : BatchGetStreamsOptions) (s : StreamsBatch I) : StreamsBatch I :=
  if s.i.lt (.fin s.unique.length) then
    if (Number.fin 0).lt s.i ∧ (Number.fin 0).lt options.delay then { s with phase := .pausing }
    else s.read options
  else { s with phase := .returned }

def start (options : BatchGetStreamsOptions) (streamIds : List StreamId) :
    Except Thrown (StreamsBatch I) := do
  let values ← streamIds.mapM StreamId.value
  return head options { unique := distinct values }

/-- The results of a chunk. -/
def collect (options : BatchGetStreamsOptions) (s : StreamsBatch I)
    (outcomes : List (InfoOutcome I)) : StreamsBatch I :=
  head options { s with
    i := s.i.add options.size
    results := s.results ++ outcomes.filterMap InfoOutcome.info
    failures := s.failures ++ outcomes.filterMap InfoOutcome.failure }

def step (options : BatchGetStreamsOptions) (s : StreamsBatch I) :
    BatchEvent I → Option (StreamsBatch I)
  | .wake => match s.phase with
    | .pausing => some (s.read options)
    | _ => none
  | .run w => match s.phase with
    | .reading chunk pool =>
      (pool.step chunk.length (.run w pool.clock)).map fun pool => { s with phase := .reading chunk pool }
    | _ => none
  | .settle w r => match s.phase with
    | .reading chunk pool => match pool.workers[w]? with
      | some (.calling j) => do
        let id ← chunk[j]?
        let pool ← pool.step chunk.length (.settle w pool.clock (.ok (.of id r)))
        return { s with phase := .reading chunk pool }
      | _ => none
    | _ => none
  | .collect => match s.phase with
    | .reading _ pool =>
      if ∀ p ∈ pool.workers, p = .done then some (s.collect options pool.results.reduceOption) else none
    | _ => none

/-- The reads in flight. -/
def inFlight (s : StreamsBatch I) : ℕ :=
  match s.phase with
  | .reading _ pool => pool.workers.countP ThrottledWorker.inCall
  | _ => 0

/-! ## The invariant -/

/-- The read of an id that has come to this outcome. -/
def Read (options : BatchGetStreamsOptions) (s₀ : StreamsBatch I) (log : List (BatchEvent I))
    (out : InfoOutcome I) : Prop :=
  SomeStep (step options) (fun s e => ∃ w r chunk pool j id, e = .settle w r ∧
    s.phase = .reading chunk pool ∧ pool.workers[w]? = some (.calling j) ∧ chunk[j]? = some id ∧
    out = .of id r) s₀ log

/-- A chunk and its pool, where `read` holds for the outcomes of reads. -/
structure Reading (options : BatchGetStreamsOptions) (read : InfoOutcome I → Prop) (chunk : List ℤ)
    (pool : ThrottledPool (InfoOutcome I)) : Prop where
  shared : pool.Shared chunk.length (workerCount options.concurrency chunk.length)
  bucket : pool.bucket = none
  rejection : pool.rejection = none
  plain : ∀ p ∈ pool.workers, p.work ≤ 1
  results : ∀ (j : ℕ) out, pool.results[j]? = some (some out) → read out ∧ chunk[j]? = some out.id

/-- Where the loop is, `n` steps after its start, with the chunk from `p` on. -/
def Stage (options : BatchGetStreamsOptions) (read : InfoOutcome I → Prop) (n p : ℕ)
    (s : StreamsBatch I) : Prop :=
  match s.phase with
  | .pausing => s.i = .fin p ∧ p < s.unique.length ∧
      n + 4 * (s.unique.length - p) ≤ 4 * s.unique.length
  | .reading chunk pool => s.i = .fin p ∧ p < s.unique.length ∧ ∃ q, p < q ∧ q ≤ s.unique.length ∧
      AtIndex (s.i.add options.size) q s.unique.length ∧ chunk = slice s.unique p q ∧
      Reading options read chunk pool ∧
      n + pool.work chunk.length + 1 + 4 * (s.unique.length - q) ≤ 4 * s.unique.length
  | .returned => p = s.unique.length ∧ n ≤ 4 * s.unique.length

/-- What holds between two steps: the chunks before `p` are read and reported. -/
structure Progress (options : BatchGetStreamsOptions) (s₀ : StreamsBatch I) (log : List (BatchEvent I))
    (s : StreamsBatch I) (p : ℕ) (outcomes : List (InfoOutcome I)) : Prop where
  unique : s.unique = s₀.unique
  ids : outcomes.map InfoOutcome.id = s.unique.take p
  reads : ∀ out ∈ outcomes, Read options s₀ log out
  results : s.results = outcomes.filterMap InfoOutcome.info
  failures : s.failures = outcomes.filterMap InfoOutcome.failure
  stage : Stage options (Read options s₀ log) log.length p s

variable {options : BatchGetStreamsOptions} {read : InfoOutcome I → Prop} {n p : ℕ}
  {s s' s₀ : StreamsBatch I} {chunk : List ℤ} {pool pool' : ThrottledPool (InfoOutcome I)}
  {log : List (BatchEvent I)} {e : BatchEvent I}

theorem reading_init (options : BatchGetStreamsOptions) (read : InfoOutcome I → Prop)
    (chunk : List ℤ) :
    Reading options read chunk (.init chunk.length options.concurrency none 0) where
  shared := ThrottledPool.shared_init _ _ _ _
  bucket := rfl
  rejection := rfl
  plain p hp := by rw [List.eq_of_mem_replicate hp, ThrottledWorker.work]
  results j out hout := by cases List.eq_of_mem_replicate (List.mem_of_getElem? hout)

theorem workerCount_le (concurrency : Number) (n : ℕ) : workerCount concurrency n ≤ n := by
  by_cases h : concurrency = .posInf
  · subst h
    exact (ThrottledPool.workerCount_posInf n).le
  · rw [ThrottledPool.workerCount_eq_min h]
    exact Nat.min_le_right _ _

/-- **A chunk is begun.** -/
theorem stage_read (hi : s.i = .fin p) (hp : p < s.unique.length) (hlen : s.unique.length < 2 ^ 32)
    (hn : n + 4 * (s.unique.length - p) ≤ 4 * s.unique.length + 1) :
    Stage options read n p (s.read options) := by
  obtain ⟨q, hpq, hq, hindex, hnext⟩ := options.next_index hp hlen
  rw [← hi] at hindex hnext
  have hfirst : s.i.relIndex s.unique.length = p := by
    rw [hi, Number.relIndex_natCast]
    exact Nat.min_eq_left hp.le
  have hlength : (slice s.unique p q).length = q - p := by
    have := length_slice s.unique p (q - p)
    rw [Nat.add_sub_cancel' hpq.le] at this
    omega
  refine ⟨hi, hp, q, hpq, hq, hnext, by rw [hfirst, hindex]; rfl, reading_init options read _, ?_⟩
  show n + _ + 1 + 4 * (s.unique.length - q) ≤ 4 * s.unique.length
  simp only [hfirst, hindex]
  have hwork : (ThrottledPool.init (slice s.unique p q).length options.concurrency none 0 :
      ThrottledPool (InfoOutcome I)).work (slice s.unique p q).length ≤ 2 * (q - p) := by
    have hcount := workerCount_le options.concurrency (q - p)
    simp only [ThrottledPool.work, ThrottledPool.init, List.map_replicate, List.sum_replicate,
      ThrottledWorker.work, hlength, smul_eq_mul, mul_one, Nat.sub_zero]
    omega
  omega

/-- The head of the loop pauses, begins the next chunk or returns. -/
theorem stage_head (h : AtIndex s.i p s.unique.length) (hlen : s.unique.length < 2 ^ 32)
    (hn : n + 4 * (s.unique.length - p) ≤ 4 * s.unique.length) :
    Stage options read n p (s.head options) := by
  unfold head
  rcases h with ⟨hi, hp⟩ | ⟨hout, hp⟩
  · have hin : s.i.lt (.fin s.unique.length) = true := by
      rw [hi, Number.lt_fin, decide_eq_true_eq]
      exact_mod_cast hp
    rw [if_pos hin]
    split_ifs
    · exact ⟨hi, hp, hn⟩
    · exact stage_read hi hp hlen (by omega)
  · rw [hout, if_neg Bool.false_ne_true]
    exact ⟨hp, (Nat.le_add_right _ _).trans hn⟩

/-! ## Steps -/

theorem Reading.mono {read' : InfoOutcome I → Prop} (h : Reading options read chunk pool)
    (hread : ∀ out, read out → read' out) : Reading options read' chunk pool :=
  { h with results := fun j out hout => (h.results j out hout).imp_left (hread out) }

/-- A step of the pool, where an answer is the outcome of a read. -/
theorem Reading.step (h : Reading options read chunk pool) {e : ThrottledEvent (InfoOutcome I)}
    (he : ∀ w now err, e ≠ .settle w now (.error err))
    (hout : ∀ (w j : ℕ) now out, e = .settle w now (.ok out) → pool.workers[w]? = some (.calling j) →
      read out ∧ chunk[j]? = some out.id)
    (hs : pool.step chunk.length e = some pool') :
    Reading options read chunk pool' ∧ pool'.work chunk.length < pool.work chunk.length := by
  obtain ⟨hbucket, hwork⟩ := ThrottledPool.work_step h.bucket hs
  refine ⟨⟨h.shared.step hs, hbucket, ?_, ThrottledPool.work_le_one_step h.bucket h.plain hs, ?_⟩, hwork⟩
  · rcases ThrottledPool.step_cases hs with heq | ⟨w, now, j, v, -, -, -, heq⟩ | ⟨w, now, err, heq, -⟩
    · rw [heq.rejection, h.rejection]
    · rw [heq, h.rejection]
    · exact absurd heq (he w now err)
  · intro j out hj
    rcases ThrottledPool.step_cases hs with heq | ⟨w, now, i, v, hev, hw, heq, -⟩ | ⟨w, now, err, heq, -⟩
    · rw [heq.results] at hj
      exact h.results j out hj
    · rw [heq] at hj
      have hlt : j < pool.results.length := by simpa using lt_of_entry hj
      by_cases hji : j = i
      · subst hji
        rw [List.getElem?_set_self hlt] at hj
        cases hj
        exact hout w j now out hev hw
      · rw [List.getElem?_set_ne (Ne.symm hji)] at hj
        exact h.results j out hj
    · exact absurd heq (he w now err)

theorem reduceOption_spec {l : List (Option (InfoOutcome I))} {ids : List ℤ}
    (h : List.Forall₂ (fun r id => ∃ out, r = some out ∧ read out ∧ out.id = id) l ids) :
    l.reduceOption.map InfoOutcome.id = ids ∧ ∀ out ∈ l.reduceOption, read out := by
  induction h with
  | nil => exact ⟨rfl, by simp⟩
  | cons hhead _ ih =>
    obtain ⟨out, rfl, hread, rfl⟩ := hhead
    rw [List.reduceOption_cons_of_some, List.map_cons, ih.1, List.forall_mem_cons]
    exact ⟨rfl, hread, ih.2⟩

/-- The results of a pool that is through are the outcomes of the chunk. -/
theorem Reading.outcomes (h : Reading options read chunk pool)
    (hdone : ∀ p ∈ pool.workers, p = .done) :
    pool.results.reduceOption.map InfoOutcome.id = chunk ∧
      ∀ out ∈ pool.results.reduceOption, read out := by
  have hk : chunk.length = 0 ∨ 0 < workerCount options.concurrency chunk.length :=
    chunk.length.eq_zero_or_pos.imp_right (ThrottledPool.workerCount_pos options.concurrency)
  have hall : List.Forall₂ (fun r id => ∃ out, r = some out ∧ read out ∧ out.id = id)
      pool.results chunk := by
    rw [List.forall₂_iff_get]
    refine ⟨h.shared.length, ?_⟩
    intro j hj hj'
    obtain ⟨out, hout⟩ := h.shared.result_of_done hk hdone hj'
    obtain ⟨hread, hid⟩ := h.results j out hout
    exact ⟨out, (List.getElem?_eq_some_iff.mp hout).2, hread, (List.getElem?_eq_some_iff.mp hid).2.symm⟩
  exact reduceOption_spec hall

theorem slice_next {l : List ℤ} {p q : ℕ} (hpq : p ≤ q) : l.take p ++ slice l p q = l.take q := by
  rw [slice, List.drop_take]
  conv_rhs => rw [← Nat.add_sub_cancel' hpq, List.take_add]

/-- The pool of a chunk goes on. -/
theorem Progress.pool_step {outcomes : List (InfoOutcome I)}
    (h : Progress options s₀ log s p outcomes) (hrun : run (step options) s₀ log = some s)
    (hphase : s.phase = .reading chunk pool) {ev : ThrottledEvent (InfoOutcome I)}
    (hpool : pool.step chunk.length ev = some pool')
    (hev : ∀ w now err, ev ≠ .settle w now (.error err))
    (hout : ∀ (w j : ℕ) now out, ev = .settle w now (.ok out) → pool.workers[w]? = some (.calling j) →
      Read options s₀ (log ++ [e]) out ∧ chunk[j]? = some out.id) :
    Progress options s₀ (log ++ [e]) { s with phase := .reading chunk pool' } p outcomes := by
  have hread (out : InfoOutcome I) (hout : Read options s₀ log out) :
      Read options s₀ (log ++ [e]) out := (someStep_concat_iff hrun).mpr (.inl hout)
  have hstage := h.stage
  simp only [Stage, hphase] at hstage
  obtain ⟨hi, hp, q, hpq, hq, hnext, hchunk, hreading, hn⟩ := hstage
  obtain ⟨hreading', hwork⟩ := (hreading.mono hread).step hev hout hpool
  refine ⟨h.unique, h.ids, fun out hout => hread out (h.reads out hout), h.results, h.failures, ?_⟩
  refine ⟨hi, hp, q, hpq, hq, hnext, hchunk, hreading', ?_⟩
  show (log ++ [e]).length + _ + 1 + 4 * (s.unique.length - q) ≤ 4 * s.unique.length
  rw [List.length_append, List.length_singleton]
  omega

theorem collect_kept (options : BatchGetStreamsOptions) (s : StreamsBatch I)
    (outcomes : List (InfoOutcome I)) :
    (s.collect options outcomes).unique = s.unique ∧
      (s.collect options outcomes).results = s.results ++ outcomes.filterMap InfoOutcome.info ∧
      (s.collect options outcomes).failures = s.failures ++ outcomes.filterMap InfoOutcome.failure := by
  unfold collect head
  split_ifs <;> exact ⟨rfl, rfl, rfl⟩

/-- A chunk that is done joins what was read before. -/
theorem Progress.collect_step {outcomes : List (InfoOutcome I)}
    (h : Progress options s₀ log s p outcomes) (hrun : run (step options) s₀ log = some s)
    (hlen : s.unique.length < 2 ^ 32) (hphase : s.phase = .reading chunk pool)
    (hdone : ∀ p ∈ pool.workers, p = .done) :
    ∃ q outcomes', Progress options s₀ (log ++ [e]) (s.collect options pool.results.reduceOption) q outcomes' := by
  have hread (out : InfoOutcome I) (hout : Read options s₀ log out) :
      Read options s₀ (log ++ [e]) out := (someStep_concat_iff hrun).mpr (.inl hout)
  have hstage := h.stage
  simp only [Stage, hphase] at hstage
  obtain ⟨hi, hp, q, hpq, hq, hnext, hchunk, hreading, hn⟩ := hstage
  obtain ⟨hids, hall⟩ := hreading.outcomes hdone
  obtain ⟨hunique, hresults, hfailures⟩ := collect_kept options s pool.results.reduceOption
  refine ⟨q, outcomes ++ pool.results.reduceOption, hunique.trans h.unique, ?_, ?_, ?_, ?_, ?_⟩
  · rw [List.map_append, h.ids, hids, hchunk, slice_next hpq.le, hunique]
  · intro out hmem
    rcases List.mem_append.mp hmem with hmem | hmem
    · exact hread out (h.reads out hmem)
    · exact hread out (hall out hmem)
  · rw [hresults, h.results, List.filterMap_append]
  · rw [hfailures, h.failures, List.filterMap_append]
  · refine stage_head hnext hlen ?_
    show (log ++ [e]).length + 4 * (s.unique.length - q) ≤ 4 * s.unique.length
    rw [List.length_append, List.length_singleton]
    omega

/-- After a pause the next chunk is read. -/
theorem Progress.wake_step {outcomes : List (InfoOutcome I)}
    (h : Progress options s₀ log s p outcomes) (hrun : run (step options) s₀ log = some s)
    (hlen : s.unique.length < 2 ^ 32) (hphase : s.phase = .pausing) :
    Progress options s₀ (log ++ [e]) (s.read options) p outcomes := by
  have hstage := h.stage
  simp only [Stage, hphase] at hstage
  obtain ⟨hi, hp, hn⟩ := hstage
  refine ⟨h.unique, h.ids, fun out hout => (someStep_concat_iff hrun).mpr (.inl (h.reads out hout)), h.results,
    h.failures, stage_read hi hp hlen ?_⟩
  rw [List.length_append, List.length_singleton]
  omega

/-- **Every step** keeps the invariant. -/
theorem Progress.step {outcomes : List (InfoOutcome I)} (h : Progress options s₀ log s p outcomes)
    (hrun : run (step options) s₀ log = some s) (hlen : s₀.unique.length < 2 ^ 32)
    (hs : s.step options e = some s') :
    ∃ p' outcomes', Progress options s₀ (log ++ [e]) s' p' outcomes' := by
  have hlen' : s.unique.length < 2 ^ 32 := h.unique.symm ▸ hlen
  cases e with
  | wake =>
    simp only [StreamsBatch.step] at hs
    split at hs
    · next hphase =>
      cases hs
      exact ⟨p, outcomes, h.wake_step hrun hlen' hphase⟩
    · cases hs
  | run w =>
    simp only [StreamsBatch.step] at hs
    split at hs
    · next chunk pool hphase =>
      obtain ⟨pool', hpool, rfl⟩ := Option.map_eq_some_iff.mp hs
      exact ⟨p, outcomes, h.pool_step hrun hphase hpool (by simp) (by simp)⟩
    · cases hs
  | settle w r =>
    simp only [StreamsBatch.step] at hs
    split at hs
    · next chunk pool hphase =>
      split at hs
      · next j hw =>
        obtain ⟨id, hid, hs⟩ := Option.bind_eq_some_iff.mp hs
        obtain ⟨pool', hpool, hs⟩ := Option.bind_eq_some_iff.mp hs
        cases hs
        refine ⟨p, outcomes, h.pool_step hrun hphase hpool (by simp) ?_⟩
        rintro w' j' now out hev hw'
        cases hev
        cases hw.symm.trans hw'
        rw [InfoOutcome.id_of]
        exact ⟨(someStep_concat_iff hrun).mpr
          (.inr ⟨w, r, chunk, pool, j, id, rfl, hphase, hw, hid, rfl⟩), hid⟩
      · cases hs
    · cases hs
  | collect =>
    simp only [StreamsBatch.step] at hs
    split at hs
    · next chunk pool hphase =>
      obtain ⟨hdone, hs⟩ := Option.ite_none_right_eq_some.mp hs
      cases hs
      exact h.collect_step hrun hlen' hphase hdone
    · cases hs

/-! ## Runs -/

theorem progress_of_run {streamIds : List StreamId} {values : List ℤ}
    (hvalues : streamIds.mapM StreamId.value = .ok values) (hlen : values.length < 2 ^ 32)
    (options : BatchGetStreamsOptions) :
    ∃ s₀ : StreamsBatch I, start options streamIds = .ok s₀ ∧ s₀.unique = distinct values ∧
      ∀ log s, run (step options) s₀ log = some s → ∃ p outcomes, Progress options s₀ log s p outcomes := by
  have hle : (distinct values).length ≤ values.length := by
    obtain ⟨hnodup, hmem, -⟩ := distinct_spec values
    exact (hnodup.subperm fun n hn => (hmem n).mp hn).length_le
  have hunique : (head options { unique := distinct values } : StreamsBatch I).unique =
      distinct values := by
    unfold head
    split_ifs <;> rfl
  refine ⟨head options { unique := distinct values }, ?_, hunique, ?_⟩
  · rw [start, hvalues]
    rfl
  · intro log s h
    have hempty : AtIndex (.fin 0) 0 (distinct values).length := by
      rcases Nat.eq_zero_or_pos (distinct values).length with hzero | hpos
      · exact .inr ⟨by rw [hzero]; rfl, hzero.symm⟩
      · exact .inl ⟨by rw [Nat.cast_zero], hpos⟩
    have hboth := run_induction (P := fun s log => run (step options)
        (head options { unique := distinct values } : StreamsBatch I) log = some s ∧
      ∃ p outcomes, Progress options (head options { unique := distinct values }) log s p outcomes)
      ⟨rfl, 0, [], rfl, by simp, by simp, ?_, ?_, stage_head hempty (hle.trans_lt hlen) (by simp)⟩ ?_ h
    · exact hboth.2
    · unfold head
      split_ifs <;> rfl
    · unfold head
      split_ifs <;> rfl
    · rintro s l e s' ⟨hl, p, outcomes, hs⟩ he
      exact ⟨run_concat_iff.mpr ⟨s, hl, he⟩, hs.step hl (by rw [hunique]; exact hle.trans_lt hlen) he⟩

/-- What `maxConcurrency` allows, where `NaN` allows one. -/
def maxReads (options : BatchGetStreamsOptions) : Number :=
  if options.concurrency = .nan then .fin 1 else options.concurrency

theorem one_le_concurrency (options : BatchGetStreamsOptions) :
    options.concurrency = .nan ∨ (Number.fin 1).le options.concurrency = true := by
  unfold BatchGetStreamsOptions.concurrency
  cases options.maxConcurrency.getD defaultListConcurrency with
  | nan => exact .inl rfl
  | posInf | negInf => exact .inr rfl
  | fin q =>
    by_cases hq : (1 : ℚ) ≤ q
    · exact .inr (by simp [Number.max, hq])
    · exact .inr (by simp [Number.max, hq])

theorem le_maxReads (options : BatchGetStreamsOptions) {k n : ℕ}
    (h : k ≤ workerCount options.concurrency n) : (Number.fin k).le (maxReads options) = true := by
  unfold maxReads
  have hone := one_le_concurrency options
  cases hc : options.concurrency with
  | posInf => rfl
  | negInf =>
    rw [hc] at hone
    rcases hone with hone | hone <;> cases hone
  | nan =>
    rw [hc, ThrottledPool.workerCount_eq_min (by simp)] at h
    have hk : k ≤ 1 := h.trans (Nat.min_le_left _ _)
    rw [if_pos rfl, Number.le_fin, decide_eq_true_eq]
    exact_mod_cast hk
  | fin q =>
    rw [hc] at hone
    have hq : (1 : ℚ) ≤ q := by simpa using hone
    have hfloor : (1 : ℤ) ≤ ⌊q⌋ := Int.le_floor.mpr (by exact_mod_cast hq)
    have hbound : ThrottledPool.documentedBound (.fin q) = ⌊q⌋.toNat := by
      show (Number.max (.fin 1) (.fin (if 0 ≤ q then ⌊q⌋ else ⌈q⌉ : ℤ))).toNat = _
      rw [if_pos (zero_le_one.trans hq), ThrottledPool.max_one_intCast, Number.toNat_natCast,
        max_eq_right hfloor]
    rw [hc, ThrottledPool.workerCount_eq_min (by simp), hbound] at h
    have hk : (k : ℤ) ≤ ⌊q⌋ := by omega
    rw [if_neg (by simp), Number.le_fin, decide_eq_true_eq]
    exact_mod_cast Int.le_floor.mp hk

/-- What is to be seen of a call in a run, for the ids in the order of their first occurrence. There are
at most `maxReads` reads in flight; the call ends; no chunk is begun before all earlier ids are read; and
at the end each id has one outcome, which is reported in its place. -/
structure ReadsAll (options : BatchGetStreamsOptions) (ids : List ℤ) (s₀ : StreamsBatch I)
    (log : List (BatchEvent I)) (s : StreamsBatch I) : Prop where
  bounded : (Number.fin s.inFlight).le (maxReads options) = true
  ends : log.length ≤ 4 * ids.length
  returns : (∀ e, s.step options e = none) → s.phase = .returned
  sequential : ∀ chunk pool, s.phase = .reading chunk pool → ∃ p, chunk <+: ids.drop p ∧
    ∀ id ∈ ids.take p, ∃ out, Read options s₀ log out ∧ out.id = id
  complete : s.phase = .returned → ∃ outcomes : List (InfoOutcome I),
    outcomes.map InfoOutcome.id = ids ∧ (∀ out ∈ outcomes, Read options s₀ log out) ∧
      s.results = outcomes.filterMap InfoOutcome.info ∧
      s.failures = outcomes.filterMap InfoOutcome.failure

/-- A chunk is read on until it is through. -/
theorem Reading.goes_on (h : Reading options read chunk pool) (hphase : s.phase = .reading chunk pool) :
    ∃ e, s.step options e ≠ none := by
  by_contra hstuck
  push Not at hstuck
  have hcollect := hstuck .collect
  simp only [StreamsBatch.step, hphase, ite_eq_right_iff, reduceCtorEq, imp_false, not_forall] at hcollect
  obtain ⟨p, hp, hne⟩ := hcollect
  obtain ⟨w, hw⟩ := List.mem_iff_getElem?.mp hp
  have hplain := h.plain p hp
  cases p with
  | done => exact hne rfl
  | sleeping i delay | granted i call => exact absurd hplain (Nat.not_succ_le_self 1)
  | failed err => exact h.shared.failed err hp h.rejection
  | free =>
    have hrun := hstuck (.run w)
    simp [StreamsBatch.step, hphase, ThrottledPool.step, ThrottledEvent.now,
      ThrottledPool.perform, hw] at hrun
  | calling j =>
    have hj := (h.shared.items _ hp j rfl).trans_le h.shared.index
    have hsettle := hstuck (.settle w (.error abortError))
    simp [StreamsBatch.step, hphase, ThrottledPool.step, ThrottledEvent.now,
      ThrottledPool.perform, hw, List.getElem?_eq_getElem hj] at hsettle

theorem Progress.readsAll {outcomes : List (InfoOutcome I)} (h : Progress options s₀ log s p outcomes) :
    ReadsAll options s₀.unique s₀ log s := by
  have hstage := h.stage
  rw [← h.unique]
  cases hphase : s.phase with
  | pausing =>
    simp only [Stage, hphase] at hstage
    refine ⟨?_, by omega, ?_, by simp [hphase], by simp [hphase]⟩
    · rw [inFlight, hphase]
      exact le_maxReads options (n := 0) (Nat.zero_le _)
    · intro hstuck
      have hwake := hstuck .wake
      simp [StreamsBatch.step, hphase] at hwake
  | reading chunk pool =>
    simp only [Stage, hphase] at hstage
    obtain ⟨hi, hp, q, hpq, hq, hnext, hchunk, hreading, hn⟩ := hstage
    refine ⟨?_, by omega, ?_, ?_, by simp [hphase]⟩
    · rw [inFlight, hphase]
      exact le_maxReads options hreading.shared.inFlight_le
    · intro hstuck
      obtain ⟨e, he⟩ := hreading.goes_on hphase
      exact absurd (hstuck e) he
    · rintro chunk' pool' hphase'
      cases hphase.symm.trans hphase'
      refine ⟨p, ?_, ?_⟩
      · rw [hchunk, slice, List.drop_take]
        exact List.take_prefix _ _
      · intro id hid
        rw [← h.ids] at hid
        obtain ⟨out, hout, rfl⟩ := List.mem_map.mp hid
        exact ⟨out, h.reads out hout, rfl⟩
  | returned =>
    simp only [Stage, hphase] at hstage
    refine ⟨?_, hstage.2, fun _ => hphase, by simp [hphase], ?_⟩
    · rw [inFlight, hphase]
      exact le_maxReads options (n := 0) (Nat.zero_le _)
    · intro _
      have hids := h.ids
      rw [hstage.1, List.take_length] at hids
      exact ⟨outcomes, hids, h.reads, h.results, h.failures⟩

/-- **Every id is read once**, whatever the chunk size, the concurrency, the order in which reads end
and what they come to. -/
theorem getStreamsBatch_reads {streamIds : List StreamId} {values : List ℤ}
    (hvalues : streamIds.mapM StreamId.value = .ok values) (hlen : values.length < 2 ^ 32)
    (options : BatchGetStreamsOptions) :
    ((distinct values).Nodup ∧ (∀ n, n ∈ distinct values ↔ n ∈ values) ∧
        (distinct values).Pairwise fun m n => values.idxOf m < values.idxOf n) ∧
      ∃ s₀ : StreamsBatch I, start options streamIds = .ok s₀ ∧
        ∀ log s, run (step options) s₀ log = some s → ReadsAll options (distinct values) s₀ log s := by
  refine ⟨distinct_spec values, ?_⟩
  obtain ⟨s₀, hstart, hunique, hruns⟩ := progress_of_run (I := I) hvalues hlen options
  refine ⟨s₀, hstart, ?_⟩
  intro log s h
  obtain ⟨p, outcomes, hs⟩ := hruns log s h
  rw [← hunique]
  exact hs.readsAll

/-- An id that is given twice, and one that is not there. -/
theorem getStreamsBatch_reads_two :
    let options : BatchGetStreamsOptions := { chunkSize := some .posInf }
    ∃ s₀ s : StreamsBatch ℕ, start options [.bigint 7, .text "7", .bigint 8] = .ok s₀ ∧
      run (step options) s₀ [.run 0, .run 1,
        .settle 1 (.error (errorOf "Error" "not found")), .settle 0 (.ok 70), .collect] = some s ∧
      s.results = [70] ∧ s.failures = [(8, "not found")] ∧ s.phase = .returned ∧
      ∃ outcomes : List (InfoOutcome ℕ), outcomes.map InfoOutcome.id = [7, 8] ∧
        s.results = outcomes.filterMap InfoOutcome.info := by
  intro options
  obtain ⟨-, s₀, hstart, hall⟩ := getStreamsBatch_reads (I := ℕ)
    (rfl : [.bigint 7, .text "7", .bigint 8].mapM StreamId.value = .ok [7, 7, 8]) (by decide) options
  have hend : ((start options [.bigint 7, .text "7", .bigint 8]).toOption.bind fun s₀ =>
      run (step options) s₀ [.run 0, .run 1,
        .settle 1 (.error (errorOf "Error" "not found")), .settle 0 (.ok 70), .collect]).any (fun s =>
      s.results = [70] ∧ s.failures = [(8, "not found")] ∧ s.phase = .returned) = true := by decide
  rw [hstart] at hend
  obtain ⟨s, hs, hend⟩ := (Option.any_eq_true _ _).mp hend
  obtain ⟨hresults, hfailures, hphase⟩ := of_decide_eq_true hend
  obtain ⟨outcomes, hids, -, hinfos, -⟩ := (hall _ s hs).complete hphase
  exact ⟨s₀, s, hstart, hs, hresults, hfailures, hphase, outcomes, hids, hinfos⟩

end StreamsBatch

end StreamFi
