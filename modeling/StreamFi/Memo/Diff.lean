import StreamFi.Memo.Items

/-!
# Differences of snapshots

`Module36` compares two snapshots of a stream, and remembers the difference under a key made of some
of their fields.

* `diffSnapshots`, `statusKey`: the code;
* **`diff_transparent`**: when the memo is transparent.
-/

namespace StreamFi

open Js Run

/-! ## The code -/

structure StreamSnapshot where
  id : ℤ
  stream : StreamInfo
  observedAt : Number
  deriving DecidableEq

/-- A pair of snapshots, with the clock reading of the cache. -/
structure SnapshotPair where
  previous : StreamSnapshot
  current : StreamSnapshot
  now : Number
  deriving DecidableEq

structure StreamDiff where
  streamId : String
  withdrawableDelta : ℤ
  progressDelta : Number
  statusChanged : Bool
  previousWithdrawable : ℤ
  currentWithdrawable : ℤ
  previousProgress : Number
  currentProgress : Number
  computedAt : Number
  deriving DecidableEq

def statusKey (stream : StreamInfo) : String :=
  joined ':' (bit stream.paused) [bit stream.cancelled, numToText stream.endTime]

/-- The parts of the key behind the id. -/
def Module36.keyParts (pair : SnapshotPair) : List String :=
  [numToText pair.previous.observedAt, numToText pair.current.observedAt,
    toString pair.previous.stream.withdrawn, toString pair.current.stream.withdrawn,
    statusKey pair.previous.stream, statusKey pair.current.stream]

def Module36.cacheKey (pair : SnapshotPair) : String :=
  joined '|' (toString pair.current.id) (keyParts pair)

def computeDiff (previous current : StreamSnapshot) : Except Thrown StreamDiff := do
  let previousWithdrawable ← withdrawableLocal previous.stream previous.observedAt
  let currentWithdrawable ← withdrawableLocal current.stream current.observedAt
  let previousProgress := normalizeProgress (streamProgress previous.stream previous.observedAt)
  let currentProgress := normalizeProgress (streamProgress current.stream current.observedAt)
  return {
    streamId := toString current.id
    withdrawableDelta := currentWithdrawable - previousWithdrawable
    progressDelta := currentProgress.sub previousProgress
    statusChanged := statusKey previous.stream ≠ statusKey current.stream
    previousWithdrawable := previousWithdrawable
    currentWithdrawable := currentWithdrawable
    previousProgress := previousProgress
    currentProgress := currentProgress
    computedAt := current.observedAt }

def Module36.question (pair : SnapshotPair) : Question Thrown StreamDiff where
  key := cacheKey pair
  compute := computeDiff pair.previous pair.current
  now := pair.now

inductive DiffCall where
  | diffSnapshots (pair : SnapshotPair)
  | diffBatch (pairs : List SnapshotPair)
  | clearCache

/-- `diffBatch` visits every pair. -/
def DiffCall.toOp : DiffCall → MemoOp SnapshotPair
  | .diffSnapshots pair => .ask pair
  | .diffBatch pairs => .batch (some (List.range pairs.length)) pairs
  | .clearCache => .clear

def DiffCall.pairs : DiffCall → List SnapshotPair
  | .diffSnapshots pair => [pair]
  | .diffBatch pairs => pairs
  | .clearCache => []

/-! ## Transparency -/

/-- The numbers of a pair are doubles. -/
structure SnapshotPair.Doubles (pair : SnapshotPair) : Prop where
  previousAt : Number.IsDouble pair.previous.observedAt
  currentAt : Number.IsDouble pair.current.observedAt
  previousEnd : Number.IsDouble pair.previous.stream.endTime
  currentEnd : Number.IsDouble pair.current.stream.endTime

/-- What the keys of two pairs have in common. -/
structure Module36.SameKey (b a : SnapshotPair) : Prop where
  id : b.current.id = a.current.id
  previousAt : b.previous.observedAt = a.previous.observedAt
  currentAt : b.current.observedAt = a.current.observedAt
  previousWithdrawn : b.previous.stream.withdrawn = a.previous.stream.withdrawn
  currentWithdrawn : b.current.stream.withdrawn = a.current.stream.withdrawn
  previousPaused : b.previous.stream.paused = a.previous.stream.paused
  currentPaused : b.current.stream.paused = a.current.stream.paused
  previousCancelled : b.previous.stream.cancelled = a.previous.stream.cancelled
  currentCancelled : b.current.stream.cancelled = a.current.stream.cancelled
  previousEnd : b.previous.stream.endTime = a.previous.stream.endTime
  currentEnd : b.current.stream.endTime = a.current.stream.endTime

/-- Two pairs that have the fields of the key in common have the same streams: they agree in
`ratePerSecond`, `startTime` and `pausedAt` too. -/
def Module36.Agree (b a : SnapshotPair) : Prop :=
  SameKey b a → b.previous.stream = a.previous.stream ∧ b.current.stream = a.current.stream

theorem statusKey_injective {s s' : StreamInfo} (hs : Number.IsDouble s.endTime)
    (hs' : Number.IsDouble s'.endTime) (h : statusKey s = statusKey s') :
    s.paused = s'.paused ∧ s.cancelled = s'.cancelled ∧ s.endTime = s'.endTime := by
  have hfree {s : StreamInfo} (hs : Number.IsDouble s.endTime) :
      ∀ part ∈ [bit s.cancelled, numToText s.endTime], ':' ∉ part.toList := by
    have hbit (b : Bool) : ':' ∉ (bit b).toList := by
      revert b
      decide
    simp only [List.forall_mem_cons, List.not_mem_nil, false_imp_iff, implies_true, and_true]
    exact ⟨hbit _, fun hmem => not_numeralChar.2.2 (numeralChar_numToText hs _ hmem)⟩
  have hlen : [bit s.cancelled, numToText s.endTime].length =
      [bit s'.cancelled, numToText s'.endTime].length := rfl
  obtain ⟨hpaused, hparts⟩ := joined_injective hlen (hfree hs) (hfree hs') h
  simp only [List.cons.injEq, and_true] at hparts
  exact ⟨bit_injective hpaused, bit_injective hparts.1, numToText_injective hs hs' hparts.2⟩

theorem Module36.key_determines {a b : SnapshotPair} (ha : a.Doubles) (hb : b.Doubles)
    (h : cacheKey b = cacheKey a) : SameKey b a := by
  have hnum {x : Number} (hx : Number.IsDouble x) : '|' ∉ (numToText x).toList :=
    fun hmem => not_numeralChar.2.1 (numeralChar_numToText hx _ hmem)
  have hint (n : ℤ) : '|' ∉ (toString n).toList :=
    fun hmem => not_numeralChar.2.1 (numeralChar_toString n _ hmem)
  have hbit (b : Bool) : '|' ∉ (bit b).toList := by
    revert b
    decide
  have hstatus {s : StreamInfo} (hs : Number.IsDouble s.endTime) : '|' ∉ (statusKey s).toList := by
    rw [statusKey, joined, String.toList_ofList]
    simp only [List.foldl_cons, List.foldl_nil, List.mem_append, List.mem_cons, not_or]
    exact ⟨⟨hbit _, by decide, hbit _⟩, by decide, hnum hs⟩
  have hfree {a : SnapshotPair} (ha : a.Doubles) : ∀ part ∈ keyParts a, '|' ∉ part.toList := by
    simp only [keyParts, List.forall_mem_cons, List.not_mem_nil, false_imp_iff, implies_true, and_true]
    exact ⟨hnum ha.previousAt, hnum ha.currentAt, hint _, hint _, hstatus ha.previousEnd,
      hstatus ha.currentEnd⟩
  have hlen : (keyParts b).length = (keyParts a).length := rfl
  obtain ⟨hid, hparts⟩ := joined_injective hlen (hfree hb) (hfree ha) h
  simp only [keyParts, List.cons.injEq, and_true] at hparts
  obtain ⟨hprevAt, hcurAt, hprevWithdrawn, hcurWithdrawn, hprevStatus, hcurStatus⟩ := hparts
  obtain ⟨hpaused, hcancelled, hend⟩ := statusKey_injective hb.previousEnd ha.previousEnd hprevStatus
  obtain ⟨hpaused', hcancelled', hend'⟩ := statusKey_injective hb.currentEnd ha.currentEnd hcurStatus
  exact {
    id := toString_injective hid
    previousAt := numToText_injective hb.previousAt ha.previousAt hprevAt
    currentAt := numToText_injective hb.currentAt ha.currentAt hcurAt
    previousWithdrawn := toString_injective hprevWithdrawn
    currentWithdrawn := toString_injective hcurWithdrawn
    previousPaused := hpaused
    currentPaused := hpaused'
    previousCancelled := hcancelled
    currentCancelled := hcancelled'
    previousEnd := hend
    currentEnd := hend' }

section Transparency

variable (cacheSize : Option Number) (enableOptimization : Bool) (calls : List DiffCall)

/-- The diffs of the calls on a new module, without `isCached`. -/
def Module36.answers : List (Option (Except Thrown (List (SnapshotPair × StreamDiff)))) :=
  (performAll (ResultMemo.perform question)
    (ResultMemo.new cacheSize enableOptimization none) (calls.map DiffCall.toOp)).1.map results

/-- What is computed for the calls. -/
def Module36.recomputed : List (Option (Except Thrown (List (SnapshotPair × StreamDiff)))) :=
  (calls.map DiffCall.toOp).map (uncached question)

variable {calls}

/-- **When `Module36` is transparent.** -/
theorem diff_transparent (h : ∀ call ∈ calls, ∀ pair ∈ call.pairs, pair.Doubles)
    (hagree : enableOptimization = true →
      Consistent Module36.Agree [] (calls.map DiffCall.toOp)) :
    Module36.answers cacheSize enableOptimization calls = Module36.recomputed calls := by
  unfold Module36.answers Module36.recomputed
  cases enableOptimization with
  | false => exact transparent_off rfl _
  | true =>
    have hasked : ∀ op ∈ calls.map DiffCall.toOp, ∀ a ∈ op.asked, a.Doubles := by
      intro op hop a ha
      obtain ⟨call, hcall, rfl⟩ := List.mem_map.mp hop
      apply h call hcall a
      cases call with
      | diffSnapshots pair => exact ha
      | clearCache => exact ha
      | diffBatch pairs =>
        obtain ⟨j, -, hj⟩ := List.mem_filterMap.mp ha
        exact List.mem_of_getElem? hj
    refine transparent (fun a b hsame hkey => ?_)
      ((hagree rfl).and_forall (fun a ha => nomatch ha) hasked) (remembers_new cacheSize true none)
    have hcommon := Module36.key_determines hsame.2.1 hsame.1 hkey
    obtain ⟨hprevious, hcurrent⟩ := hsame.2.2 hcommon
    show computeDiff b.previous b.current = computeDiff a.previous a.current
    simp only [computeDiff, hprevious, hcurrent, hcommon.id, hcommon.previousAt, hcommon.currentAt]

end Transparency

/-! Two snapshots of a stream, and the same two at another rate. -/

def twoSnapshots (stream : StreamInfo) : SnapshotPair where
  previous := { id := 7, stream := stream, observedAt := .fin 1200 }
  current := { id := 7, stream := stream, observedAt := .fin 1500 }
  now := .fin 0

theorem diff_transparent_two :
    Module36.answers none true
        [.diffSnapshots (twoSnapshots tenPerSecond), .diffBatch [twoSnapshots tenPerSecond]] =
      Module36.recomputed
        [.diffSnapshots (twoSnapshots tenPerSecond), .diffBatch [twoSnapshots tenPerSecond]] := by
  have hint (n : ℤ) (hn : |n| ≤ 2 ^ 53) : Number.IsDouble (.fin n) := Number.isDouble_intCast hn
  have hdouble : (twoSnapshots tenPerSecond).Doubles :=
    ⟨by exact_mod_cast hint 1200 (by decide), by exact_mod_cast hint 1500 (by decide),
      by exact_mod_cast hint 2000 (by decide), by exact_mod_cast hint 2000 (by decide)⟩
  have hsame : Module36.Agree (twoSnapshots tenPerSecond) (twoSnapshots tenPerSecond) :=
    fun _ => ⟨rfl, rfl⟩
  refine diff_transparent none true ?_ fun _ => ?_
  · intro call hcall pair hpair
    simp only [List.mem_cons, List.not_mem_nil, or_false] at hcall
    rcases hcall with rfl | rfl
    · rw [List.mem_singleton.mp hpair]
      exact hdouble
    · rw [List.mem_singleton.mp hpair]
      exact hdouble
  · simp [Consistent, MemoOp.asked, DiffCall.toOp, hsame]

/-- **A stale difference**: the key does not see that the rate has doubled. -/
theorem diff_answers_stale :
    Module36.answers none true [.diffSnapshots (twoSnapshots tenPerSecond),
        .diffSnapshots (twoSnapshots { tenPerSecond with ratePerSecond := 20 })] ≠
      Module36.recomputed [.diffSnapshots (twoSnapshots tenPerSecond),
        .diffSnapshots (twoSnapshots { tenPerSecond with ratePerSecond := 20 })] := by
  decide +kernel

end StreamFi
