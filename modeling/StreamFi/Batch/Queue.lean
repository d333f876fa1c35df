import StreamFi.Batch.Execute
import StreamFi.Run.Pool
import StreamFi.Run.Table

/-!
# The batch queue

`executeAsync` queues an entry, and calls `processQueue` unless one is marked as running.
`processQueue` takes the entries in turn, and awaits the build of each chunk. In `onProgress`, after
a chunk, the caller may abort, queue another entry or clean up.

* `Batcher.step`: calls, aborts, answers, callbacks and cleanups, in any order;
* `Batcher.drain`: the loop up to its next await; `Sound.drain`: what it keeps;
* **`queue_orderly`**: every entry is resolved, queued or in process, one is in process at a time, and
  they are taken in order.
-/

namespace StreamFi

open Js Run Sorted

/-! ## The machine -/

/-- An entry of the queue. A signal is named by a number; `unreadable` is what is thrown as the
payload is validated or turned into text (by a cyclic value, or one without a string form). -/
structure QueueEntry where
  ops : List BatchOperation
  signal : Option ℕ := none
  context : Option BatchTransactionContext := none
  onProgress : Bool := false
  unreadable : Option Thrown := none
  result : Option BatchResult := none

/-- Where a call of `processQueue` is suspended: at the build of a chunk, or in `onProgress`. -/
inductive ProcessPoint where
  | building
  | reporting
  | ended
  deriving DecidableEq

/-- A call of `processQueue`, with the chunks built of its entry. -/
structure Processor where
  entry : ℕ
  chunk : ℕ := 0
  allBuilt : List BuiltBatchTransaction := []
  point : ProcessPoint

/-- A `ConduitBatcher`; `taken` are the entries that were taken from the queue, in that order. -/
structure Batcher where
  batchQueue : List ℕ := []
  processingBatch : Bool := false
  isDestroyed : Bool := false
  aborted : ℕ → Bool := fun _ => false
  entries : List QueueEntry := []
  processors : List Processor := []
  taken : List ℕ := []

/-- `built` is the answer to the build of a chunk, `progressed` the return of `onProgress`. -/
inductive BatcherEvent (Tx : Type) where
  | executeAsync (entry : QueueEntry)
  | abort (signal : ℕ)
  | built (processor : ℕ) (answers : BuildAnswers Tx)
  | progressed (processor : ℕ)
  | cleanup
  | destroy
  | reset

/-- How an entry starts. -/
inductive EntryStart where
  | resolved (r : BatchResult)
  | building
  | threw (err : Thrown)

variable {Tx : Type}

/-- The checks of `processQueue` before its first build. -/
def QueueEntry.check (sdk : Sdk Tx) (entry : QueueEntry) : EntryStart :=
  let validationErrors := validatePayload sdk (entry.ops.map fun op => .object op.fields)
  if validationErrors ≠ [] then .resolved (toFailure validationErrors)
  else if entry.ops = [] then
    .resolved { success := true, operations := 0, xdr := "", xdrs := [],
                transactions := some [], prepared := some true }
  else match entry.context with
    | none => .resolved (toFailure [missingContextError])
    | some context =>
      let contextErrors := validateContext sdk context
      if contextErrors ≠ [] then .resolved (toFailure contextErrors) else .building

def QueueEntry.start (sdk : Sdk Tx) (entry : QueueEntry) (cancelled : Bool) : EntryStart :=
  if cancelled then .resolved (toFailure ["Operation aborted"])
  else match entry.unreadable with
    | some err => .threw err
    | none => entry.check sdk

namespace Batcher

/-- A settled promise keeps its result. -/
def resolve (s : Batcher) (e : ℕ) (r : BatchResult) : Batcher :=
  let settle (entry : QueueEntry) : QueueEntry := { entry with result := entry.result <|> some r }
  { s with entries := s.entries.modify e settle }

/-- `cancelled`: the listener has run, or the signal was aborted before. -/
def cancelled (s : Batcher) (entry : QueueEntry) : Bool :=
  match entry.signal with
  | some signal => s.aborted signal
  | none => false

def setProcessor (s : Batcher) (p : ℕ) (processor : Processor) : Batcher :=
  { s with processors := s.processors.set p processor }

/-- The end of `processQueue`. -/
def finish (s : Batcher) (p : ℕ) : Batcher :=
  { s.setProcessor p { entry := 0, point := .ended } with processingBatch := false }

/-- The loop of `processQueue`, up to its next await. -/
def drain (sdk : Sdk Tx) (p : ℕ) : List ℕ → Batcher → Batcher
  | [], s => finish { s with batchQueue := [] } p
  | e :: queue, s => match s.entries[e]? with
    | none => drain sdk p queue s
    | some entry =>
      let s := { s with batchQueue := queue, taken := s.taken ++ [e] }
      match entry.start sdk (s.cancelled entry) with
      | .resolved r => drain sdk p queue (s.resolve e r)
      | .building => s.setProcessor p { entry := e, point := .building }
      -- the call rejects, and `processingBatch` stays set
      | .threw _ => s.setProcessor p { entry := e, point := .ended }

def processQueue (sdk : Sdk Tx) (s : Batcher) (p : ℕ) : Batcher :=
  if s.isDestroyed then s.finish p else drain sdk p s.batchQueue s

/-- The call, which changes nothing when it throws. -/
def executeAsync (sdk : Sdk Tx) (s : Batcher) (entry : QueueEntry) : Batcher :=
  if s.isDestroyed then s
  else
    let entry : QueueEntry := { entry with result := none }
    let s := { s with
      entries := s.entries ++ [entry]
      batchQueue := s.batchQueue ++ [s.entries.length] }
    if s.processingBatch then s
    else
      let processor : Processor := { entry := 0, point := .ended }
      let s := { s with processors := s.processors ++ [processor], processingBatch := true }
      s.processQueue sdk (s.processors.length - 1)

/-- The head of the chunk loop, and what comes after it. -/
def nextChunk (sdk : Sdk Tx) (s : Batcher) (p : ℕ) (processor : Processor) (entry : QueueEntry) :
    Batcher :=
  let totalChunks := chunkCount entry.ops.length
  if processor.chunk < totalChunks then
    if s.cancelled entry then
      (s.resolve processor.entry (toFailure ["Operation aborted"])).processQueue sdk p
    else s.setProcessor p { processor with point := .building }
  else if s.cancelled entry then s.processQueue sdk p
  else
    (s.resolve processor.entry (toBatchResult processor.allBuilt totalChunks)).processQueue sdk p

def built (sdk : Sdk Tx) (s : Batcher) (p : ℕ) (answers : BuildAnswers Tx) : Option Batcher := do
  let processor ← s.processors[p]?
  let entry ← s.entries[processor.entry]?
  let context ← entry.context
  -- nothing goes on while a callback runs
  if processor.point ≠ .building ∨ s.processors.any (·.point = .reporting) then none
  else
    let chunkStart := processor.chunk * defaultMaxBatchSize
    let chunk :=
      slice (entry.ops.map (sanitize sdk)) chunkStart (chunkStart + defaultMaxBatchSize)
    match buildBatchTransactions sdk chunk context answers with
    | .error err => some ((s.resolve processor.entry (toFailure [err.text])).processQueue sdk p)
    | .ok built =>
      if s.cancelled entry then
        some ((s.resolve processor.entry (toFailure ["Operation aborted"])).processQueue sdk p)
      else
        let processor := { processor with
          chunk := processor.chunk + 1
          allBuilt := processor.allBuilt ++ built }
        if entry.onProgress then some (s.setProcessor p { processor with point := .reporting })
        else some (s.nextChunk sdk p processor entry)

def progressed (sdk : Sdk Tx) (s : Batcher) (p : ℕ) : Option Batcher := do
  let processor ← s.processors[p]?
  let entry ← s.entries[processor.entry]?
  if processor.point = .reporting then some (s.nextChunk sdk p processor entry) else none

def cleanup (s : Batcher) : Batcher :=
  s.batchQueue.foldl (fun s e => s.resolve e (toFailure ["ConduitBatcher cleaned up"]))
    { s with processingBatch := false, batchQueue := [] }

def step (sdk : Sdk Tx) (s : Batcher) : BatcherEvent Tx → Option Batcher
  | .executeAsync entry => some (s.executeAsync sdk entry)
  | .abort signal => some { s with aborted := Function.update s.aborted signal true }
  | .built p answers => s.built sdk p answers
  | .progressed p => s.progressed sdk p
  | .cleanup => some s.cleanup
  | .destroy => some (cleanup { s with isDestroyed := true })
  | .reset => some (cleanup { s with isDestroyed := false })

/-! ## What every step keeps -/

def Resolved (s : Batcher) (e : ℕ) : Prop :=
  ∃ entry, s.entries[e]? = some entry ∧ entry.result.isSome = true

/-- The call is suspended at this entry. -/
def Processes (s : Batcher) (p e : ℕ) : Prop :=
  ∃ processor, s.processors[p]? = some processor ∧ processor.point ≠ .ended ∧ processor.entry = e

def Running (s : Batcher) (p : ℕ) : Prop := ∃ e, s.Processes p e

/-- No payload is unreadable; no entry is queued while a call runs that `cleanup` has unmarked; and
no signal is aborted when the last `onProgress` returns. -/
structure Undisturbed (s : Batcher) (e : BatcherEvent Tx) : Prop where
  readable : ∀ entry, e = .executeAsync entry → s.isDestroyed = false → entry.unreadable = none
  free : ∀ entry, e = .executeAsync entry → s.isDestroyed = false → s.processingBatch = false →
    ∀ p, ¬ s.Running p
  last : ∀ p processor entry, e = .progressed p → s.processors[p]? = some processor →
    s.entries[processor.entry]? = some entry → chunkCount entry.ops.length ≤ processor.chunk →
      s.cancelled entry = false

/-- An entry that can be built. -/
def Buildable (s : Batcher) (e : ℕ) : Prop :=
  ∃ entry context, s.entries[e]? = some entry ∧ entry.context = some context

/-- Everything but the processors, with `queue` still to be taken. -/
structure Queued (s : Batcher) (queue : List ℕ) : Prop where
  order : (s.taken ++ queue).Pairwise (· < ·)
  known : ∀ e ∈ s.taken ++ queue, e < s.entries.length
  readable : ∀ entry ∈ s.entries, entry.unreadable = none

structure Sound (s : Batcher) : Prop where
  queued : s.Queued s.batchQueue
  one : ∀ p q, s.Running p → s.Running q → p = q
  settled : ∀ e < s.entries.length, s.Resolved e ∨ e ∈ s.batchQueue ∨ ∃ p, s.Processes p e
  buildable : ∀ p e, s.Processes p e → s.Buildable e
  busy : s.processingBatch = true ∨ s.batchQueue ≠ [] → ∃ p, s.Running p
  destroyed : s.isDestroyed = true → s.batchQueue = []

/-- A call of `processQueue` at the head of its loop. -/
structure AtHead (s : Batcher) (p : ℕ) (queue : List ℕ) : Prop where
  queued : s.Queued queue
  slot : p < s.processors.length
  alone : ∀ q, q ≠ p → ¬ s.Running q
  settled : ∀ e < s.entries.length, s.Resolved e ∨ e ∈ queue

section Entries

variable {s : Batcher} {e : ℕ} {r : BatchResult} {queue : List ℕ}

theorem resolve_entries (s : Batcher) (e : ℕ) (r : BatchResult) (i : ℕ) :
    (s.resolve e r).entries[i]? = (s.entries[i]?).map fun entry =>
      if e = i then { entry with result := entry.result <|> some r } else entry := by
  rw [resolve, List.getElem?_modify]
  split_ifs <;> simp

@[simp] theorem resolve_length : (s.resolve e r).entries.length = s.entries.length :=
  List.length_modify ..

theorem resolved_resolve (he : e < s.entries.length) : (s.resolve e r).Resolved e := by
  refine ⟨_, by rw [resolve_entries, List.getElem?_eq_getElem he]; rfl, ?_⟩
  simp only [if_pos]
  cases s.entries[e].result <;> rfl

theorem Resolved.resolve {i : ℕ} (h : s.Resolved i) : (s.resolve e r).Resolved i := by
  obtain ⟨entry, hi, hr⟩ := h
  refine ⟨_, by rw [resolve_entries, hi]; rfl, ?_⟩
  split_ifs
  · obtain ⟨r', hr'⟩ := Option.isSome_iff_exists.mp hr
    simp [hr']
  · exact hr

theorem Queued.resolve (h : s.Queued queue) : (s.resolve e r).Queued queue := by
  refine ⟨h.order, fun i hi => by rw [resolve_length]; exact h.known i hi, ?_⟩
  intro entry hentry
  obtain ⟨i, hi⟩ := List.mem_iff_getElem?.mp hentry
  rw [resolve_entries] at hi
  obtain ⟨entry', hi', rfl⟩ := Option.map_eq_some_iff.mp hi
  have := h.readable entry' (List.mem_of_getElem? hi')
  split_ifs <;> exact this

theorem Buildable.resolve {i : ℕ} (h : s.Buildable i) : (s.resolve e r).Buildable i := by
  obtain ⟨entry, context, hi, hc⟩ := h
  refine ⟨_, context, by rw [resolve_entries, hi]; rfl, ?_⟩
  split_ifs <;> exact hc

theorem AtHead.resolve {p : ℕ} (h : s.AtHead p queue) : (s.resolve e r).AtHead p queue :=
  ⟨h.queued.resolve, h.slot, h.alone, fun i hi =>
    (h.settled i (by rwa [resolve_length] at hi)).imp_left Resolved.resolve⟩

end Entries

section Loop

variable {sdk : Sdk Tx} {s : Batcher} {p : ℕ} {queue : List ℕ}

theorem running_setProcessor {processor : Processor} {q : ℕ} (hp : p < s.processors.length) :
    (s.setProcessor p processor).Running q ↔
      q = p ∧ processor.point ≠ .ended ∨ q ≠ p ∧ s.Running q := by
  constructor
  · rintro ⟨e, processor', hq, hpoint, he⟩
    rcases (put_iff hp).mp hq with ⟨rfl, rfl⟩ | ⟨hne, hq⟩
    · exact .inl ⟨rfl, hpoint⟩
    · exact .inr ⟨hne, e, processor', hq, hpoint, he⟩
  · rintro (⟨rfl, hpoint⟩ | ⟨hne, e, processor', hq, hpoint, he⟩)
    · exact ⟨_, processor, (put_iff hp).mpr (.inl ⟨rfl, rfl⟩), hpoint, rfl⟩
    · exact ⟨e, processor', (put_iff hp).mpr (.inr ⟨hne, hq⟩), hpoint, he⟩

/-- A call that alone was running, and now is at this entry. -/
theorem sound_at {processor : Processor} (hq : s.Queued s.batchQueue)
    (hslot : p < s.processors.length) (halone : ∀ q, q ≠ p → ¬ s.Running q)
    (hpoint : processor.point ≠ .ended) (hbuildable : s.Buildable processor.entry)
    (hsettled : ∀ e < s.entries.length, s.Resolved e ∨ e ∈ s.batchQueue ∨ e = processor.entry)
    (hdestroyed : s.isDestroyed = true → s.batchQueue = []) :
    (s.setProcessor p processor).Sound := by
  have hp : (s.setProcessor p processor).Processes p processor.entry :=
    ⟨processor, (put_iff hslot).mpr (.inl ⟨rfl, rfl⟩), hpoint, rfl⟩
  have honly : ∀ q, (s.setProcessor p processor).Running q → q = p := by
    intro q hrun
    rcases (running_setProcessor hslot).mp hrun with ⟨hq, -⟩ | ⟨hne, hrun⟩
    · exact hq
    · exact absurd hrun (halone q hne)
  refine ⟨⟨hq.order, hq.known, hq.readable⟩, fun q q' h h' => (honly q h).trans (honly q' h').symm,
    ?_, ?_, fun _ => ⟨p, _, hp⟩, hdestroyed⟩
  · intro e he
    rcases hsettled e he with h | h | rfl
    · exact .inl h
    · exact .inr (.inl h)
    · exact .inr (.inr ⟨p, hp⟩)
  · rintro q e ⟨processor', hq, hpoint', rfl⟩
    obtain rfl := honly q ⟨_, processor', hq, hpoint', rfl⟩
    rcases (put_iff hslot).mp hq with ⟨-, rfl⟩ | ⟨hne, -⟩
    · exact hbuildable
    · exact absurd rfl hne

/-- The end of a call that alone was running. -/
theorem AtHead.finish (h : s.AtHead p []) (hs : s.batchQueue = []) : (s.finish p).Sound := by
  have hnone : ∀ q, ¬ (s.finish p).Running q := by
    intro q hrun
    rcases (running_setProcessor h.slot).mp hrun with ⟨-, hp⟩ | ⟨hne, hrun⟩
    · exact hp rfl
    · exact h.alone q hne hrun
  have hq : s.Queued s.batchQueue := by
    rw [hs]
    exact h.queued
  refine ⟨⟨hq.order, hq.known, hq.readable⟩, fun q _ hrun => absurd hrun (hnone q), ?_,
    fun q e hrun => absurd ⟨e, hrun⟩ (hnone q), ?_, fun _ => hs⟩
  · intro e he
    exact .inl ((h.settled e he).resolve_right (by simp))
  · rintro (hp | hp)
    · cases hp
    · exact absurd hs hp

theorem check_cases (sdk : Sdk Tx) (entry : QueueEntry) :
    (∃ r, entry.check sdk = .resolved r) ∨
      entry.check sdk = .building ∧ ∃ context, entry.context = some context := by
  unfold QueueEntry.check
  simp only
  split_ifs
  · exact .inl ⟨_, rfl⟩
  · exact .inl ⟨_, rfl⟩
  · cases entry.context with
    | none => exact .inl ⟨_, rfl⟩
    | some context =>
      simp only
      split_ifs
      · exact .inl ⟨_, rfl⟩
      · exact .inr ⟨rfl, context, rfl⟩

/-- A readable entry is resolved at once, or can be built. -/
theorem start_cases (sdk : Sdk Tx) {entry : QueueEntry} (hr : entry.unreadable = none)
    (cancelled : Bool) :
    (∃ r, entry.start sdk cancelled = .resolved r) ∨
      entry.start sdk cancelled = .building ∧ ∃ context, entry.context = some context := by
  unfold QueueEntry.start
  rw [hr]
  split_ifs
  · exact .inl ⟨_, rfl⟩
  · exact check_cases sdk entry

/-- **The loop**, by induction on the queue. -/
theorem AtHead.drain (h : s.AtHead p queue) (hd : s.isDestroyed = false) :
    (Batcher.drain sdk p queue s).Sound := by
  induction queue generalizing s with
  | nil =>
    have hhead : AtHead { s with batchQueue := [] } p [] :=
      ⟨⟨h.queued.order, h.queued.known, h.queued.readable⟩, h.slot, h.alone, h.settled⟩
    exact hhead.finish rfl
  | cons e queue ih =>
    obtain ⟨entry, he⟩ : ∃ entry, s.entries[e]? = some entry :=
      ⟨_, List.getElem?_eq_getElem (h.queued.known e (by simp))⟩
    rw [Batcher.drain, he]
    have hqueued : Queued { s with batchQueue := queue, taken := s.taken ++ [e] } queue := by
      refine ⟨?_, ?_, h.queued.readable⟩
      · simpa using h.queued.order
      · simpa using h.queued.known
    have hreadable := h.queued.readable entry (List.mem_of_getElem? he)
    simp only
    rcases start_cases sdk hreadable
      (cancelled { s with batchQueue := queue, taken := s.taken ++ [e] } entry) with
      ⟨r, hr⟩ | ⟨hb, context, hc⟩
    · rw [hr]
      refine ih ⟨hqueued.resolve, h.slot, h.alone, ?_⟩ hd
      intro i hi
      rw [resolve_length] at hi
      rcases h.settled i hi with hr | hmem
      · exact .inl (Resolved.resolve hr)
      · rcases List.mem_cons.mp hmem with rfl | hmem
        · exact .inl (resolved_resolve hi)
        · exact .inr hmem
    · rw [hb]
      refine sound_at hqueued h.slot h.alone (by simp) ⟨entry, context, he, hc⟩ ?_ ?_
      · intro i hi
        rcases h.settled i hi with hr | hmem
        · exact .inl hr
        · exact .inr ((List.mem_cons.mp hmem).symm)
      · intro hdest
        exact absurd (hd.symm.trans hdest) (by simp)

theorem AtHead.processQueue (h : s.AtHead p s.batchQueue)
    (hd : s.isDestroyed = true → s.batchQueue = []) : (s.processQueue sdk p).Sound := by
  unfold Batcher.processQueue
  split_ifs with hdest
  · have hnil := hd hdest
    rw [hnil] at h
    exact h.finish hnil
  · exact h.drain (by simpa using hdest)

end Loop

section Step

variable {sdk : Sdk Tx} {s s' : Batcher} {p : ℕ} {processor processor' : Processor}
  {entry : QueueEntry} {e : BatcherEvent Tx}

theorem Sound.alone (h : s.Sound) (hp : s.Running p) : ∀ q, q ≠ p → ¬ s.Running q :=
  fun q hne hq => hne (h.one q p hq hp)

/-- Once its entry is resolved, the running call may go to the head of its loop. -/
theorem Sound.head (h : s.Sound) (hp : s.processors[p]? = some processor)
    (hpoint : processor.point ≠ .ended) (r : BatchResult) :
    (s.resolve processor.entry r).AtHead p (s.resolve processor.entry r).batchQueue := by
  have hrun : s.Running p := ⟨_, processor, hp, hpoint, rfl⟩
  refine ⟨h.queued.resolve, lt_of_entry hp, h.alone hrun, ?_⟩
  intro i hi
  rw [resolve_length] at hi
  rcases h.settled i hi with hr | hmem | ⟨q, hq⟩
  · exact .inl hr.resolve
  · exact .inr hmem
  · obtain rfl := h.one q p ⟨i, hq⟩ hrun
    obtain ⟨processor', hp', -, rfl⟩ := hq
    cases hp.symm.trans hp'
    exact .inl (resolved_resolve hi)

theorem Sound.processQueue (h : s.Sound) (hp : s.processors[p]? = some processor)
    (hpoint : processor.point ≠ .ended) (r : BatchResult) :
    ((s.resolve processor.entry r).processQueue sdk p).Sound :=
  (h.head hp hpoint r).processQueue h.destroyed

/-- The running call may stay at its entry. -/
theorem Sound.setProcessor (h : s.Sound) (hp : s.processors[p]? = some processor)
    (hpoint : processor.point ≠ .ended) (hentry : processor'.entry = processor.entry)
    (hpoint' : processor'.point ≠ .ended) : (s.setProcessor p processor').Sound := by
  have hrun : s.Running p := ⟨_, processor, hp, hpoint, rfl⟩
  refine sound_at h.queued (lt_of_entry hp) (h.alone hrun) hpoint' ?_ ?_ h.destroyed
  · rw [hentry]
    exact h.buildable p processor.entry ⟨processor, hp, hpoint, rfl⟩
  · intro i hi
    refine (h.settled i hi).imp_right fun hi => hi.imp_right fun ⟨q, hq⟩ => ?_
    obtain rfl := h.one q p ⟨i, hq⟩ hrun
    obtain ⟨processor'', hp', -, rfl⟩ := hq
    cases hp.symm.trans hp'
    exact hentry.symm

theorem Sound.nextChunk (h : s.Sound) (hp : s.processors[p]? = some processor)
    (hpoint : processor.point ≠ .ended) (hentry : processor'.entry = processor.entry)
    (hlast : chunkCount entry.ops.length ≤ processor'.chunk → s.cancelled entry = false) :
    (s.nextChunk sdk p processor' entry).Sound := by
  unfold Batcher.nextChunk
  simp only [hentry]
  split_ifs with hmore hc hc
  · exact h.processQueue hp hpoint _
  · exact h.setProcessor hp hpoint rfl (by simp)
  · rw [hlast (not_lt.mp hmore)] at hc
    cases hc
  · exact h.processQueue hp hpoint _

theorem Sound.built (h : s.Sound) {answers : BuildAnswers Tx}
    (hs : s.built sdk p answers = some s') : s'.Sound := by
  simp only [Batcher.built, Option.bind_eq_bind, Option.bind_eq_some_iff] at hs
  obtain ⟨processor, hp, entry, he, context, hc, hs⟩ := hs
  split at hs
  · cases hs
  rename_i hbusy
  have hpoint : processor.point ≠ .ended := by
    intro hp
    simp [hp] at hbusy
  split at hs
  · cases hs
    exact h.processQueue hp hpoint _
  · by_cases hcancel : s.cancelled entry = true
    · rw [if_pos hcancel] at hs
      cases hs
      exact h.processQueue hp hpoint _
    rw [if_neg hcancel] at hs
    split at hs
    · cases hs
      exact h.setProcessor hp hpoint rfl (by simp)
    · cases hs
      exact h.nextChunk hp hpoint rfl fun _ => by simpa using hcancel

theorem Sound.progressed (h : s.Sound) (hok : s.Undisturbed (.progressed p : BatcherEvent Tx))
    (hs : s.progressed sdk p = some s') : s'.Sound := by
  simp only [Batcher.progressed, Option.bind_eq_bind, Option.bind_eq_some_iff] at hs
  obtain ⟨processor, hp, entry, he, hs⟩ := hs
  split_ifs at hs with hpoint
  cases hs
  exact h.nextChunk hp (by simp [hpoint]) rfl (hok.last p processor entry rfl hp he)

/-- A new entry, after all others. -/
theorem Queued.push {queue : List ℕ} (h : s.Queued queue) (entry : QueueEntry)
    (hr : entry.unreadable = none) :
    Queued { s with entries := s.entries ++ [entry], batchQueue := queue ++ [s.entries.length] }
      (queue ++ [s.entries.length]) := by
  refine ⟨?_, ?_, ?_⟩
  · rw [← List.append_assoc, List.pairwise_append]
    exact ⟨h.order, by simp, fun i hi j hj => by
      rw [List.mem_singleton.mp hj]
      exact h.known i hi⟩
  · intro i hi
    rw [← List.append_assoc] at hi
    rw [List.length_append, List.length_singleton]
    rcases List.mem_append.mp hi with hi | hi
    · have := h.known i hi
      omega
    · rw [List.mem_singleton.mp hi]
      omega
  · intro entry' hmem
    rcases List.mem_append.mp hmem with hmem | hmem
    · exact h.readable entry' hmem
    · rw [List.mem_singleton.mp hmem]
      exact hr

theorem Resolved.push {i : ℕ} (h : s.Resolved i) (hs : s'.entries = s.entries ++ [entry]) :
    s'.Resolved i := by
  obtain ⟨entry', hi, hr⟩ := h
  exact ⟨entry', by rw [hs]; exact add_iff.mpr (.inl hi), hr⟩

theorem Sound.executeAsync (h : s.Sound)
    (hok : s.Undisturbed (.executeAsync entry : BatcherEvent Tx)) :
    (s.executeAsync sdk entry).Sound := by
  unfold Batcher.executeAsync
  by_cases hdest : s.isDestroyed = true
  · rw [if_pos hdest]
    exact h
  rw [if_neg hdest]
  have hlive : s.isDestroyed = false := by simpa using hdest
  have hpush := h.queued.push { entry with result := none } (hok.readable entry rfl hlive)
  have hnew : ∀ i < (s.entries ++ [{ entry with result := none }]).length,
      i < s.entries.length ∨ i = s.entries.length := by
    intro i hi
    rw [List.length_append, List.length_singleton] at hi
    omega
  simp only
  by_cases hbusy : s.processingBatch = true
  · rw [if_pos hbusy]
    refine ⟨hpush, h.one, ?_, ?_, fun _ => h.busy (.inl hbusy), fun hd => absurd hd hdest⟩
    · intro i hi
      rcases hnew i hi with hi | rfl
      · rcases h.settled i hi with hr | hmem | hp
        · exact .inl (hr.push rfl)
        · exact .inr (.inl (List.mem_append_left _ hmem))
        · exact .inr (.inr hp)
      · exact .inr (.inl (by simp))
    · intro p i hp
      obtain ⟨entry', context, hi, hc⟩ := h.buildable p i hp
      exact ⟨entry', context, add_iff.mpr (.inl hi), hc⟩
  · rw [if_neg hbusy]
    have hfree := hok.free entry rfl hlive (by simpa using hbusy)
    refine AtHead.processQueue ⟨⟨hpush.order, hpush.known, hpush.readable⟩, by simp, ?_, ?_⟩
      fun hd => absurd hd hdest
    · rintro q hne ⟨i, processor, hq, hpoint, hi⟩
      rcases add_iff.mp hq with hq | ⟨-, rfl⟩
      · exact hfree q ⟨i, processor, hq, hpoint, hi⟩
      · exact hpoint rfl
    · intro i hi
      rcases hnew i hi with hi | rfl
      · rcases h.settled i hi with hr | hmem | ⟨p, hp⟩
        · exact .inl (hr.push rfl)
        · exact .inr (List.mem_append_left _ hmem)
        · exact absurd ⟨i, hp⟩ (hfree p)
      · exact .inr (by simp)

/-- Only entries were resolved. -/
structure Settles (s s' : Batcher) : Prop where
  rest : s' = { s with entries := s'.entries }
  length_eq : s'.entries.length = s.entries.length
  resolved : ∀ i, s.Resolved i → s'.Resolved i
  queued : ∀ queue, s.Queued queue → s'.Queued queue
  buildable : ∀ i, s.Buildable i → s'.Buildable i

theorem settles_resolveAll (r : BatchResult) (es : List ℕ) (s : Batcher) :
    s.Settles (es.foldl (fun s e => s.resolve e r) s) := by
  induction es generalizing s with
  | nil => exact ⟨rfl, rfl, fun _ h => h, fun _ h => h, fun _ h => h⟩
  | cons e es ih =>
    have h := ih (s.resolve e r)
    exact ⟨h.rest, h.length_eq.trans resolve_length, fun i hi => h.resolved i hi.resolve,
      fun queue hq => h.queued queue hq.resolve, fun i hi => h.buildable i hi.resolve⟩

theorem resolved_resolveAll {r : BatchResult} {es : List ℕ} {i : ℕ} (hi : i ∈ es)
    (hlt : i < s.entries.length) : (es.foldl (fun s e => s.resolve e r) s).Resolved i := by
  induction es generalizing s with
  | nil => cases hi
  | cons e es ih =>
    rcases List.mem_cons.mp hi with rfl | hi
    · exact (settles_resolveAll r es _).resolved i (resolved_resolve hlt)
    · exact ih hi (by rwa [resolve_length])

theorem Sound.cleanup (h : s.Sound) (destroyed : Bool) :
    (Batcher.cleanup { s with isDestroyed := destroyed }).Sound := by
  have hs := settles_resolveAll (toFailure ["ConduitBatcher cleaned up"]) s.batchQueue
    { s with isDestroyed := destroyed, processingBatch := false, batchQueue := [] }
  change Settles _ (Batcher.cleanup { s with isDestroyed := destroyed }) at hs
  have hall : ∀ e ∈ s.batchQueue, e < s.entries.length →
      (Batcher.cleanup { s with isDestroyed := destroyed }).Resolved e :=
    fun e hmem hlt => resolved_resolveAll hmem hlt
  generalize Batcher.cleanup { s with isDestroyed := destroyed } = s' at hs hall
  have hqueue : s'.batchQueue = [] := by rw [hs.rest]
  have hprocesses : ∀ p e, s'.Processes p e ↔ s.Processes p e := by
    intro p e
    rw [hs.rest]
    rfl
  have hrunning : ∀ p, s'.Running p ↔ s.Running p := fun p => exists_congr (hprocesses p)
  refine ⟨?_, ?_, ?_, ?_, ?_, fun _ => hqueue⟩
  · rw [hqueue]
    refine hs.queued [] ⟨?_, ?_, h.queued.readable⟩
    · rw [List.append_nil]
      exact (List.pairwise_append.mp h.queued.order).1
    · rw [List.append_nil]
      exact fun e he => h.queued.known e (List.mem_append_left _ he)
  · intro p q hp hq
    exact h.one p q ((hrunning p).mp hp) ((hrunning q).mp hq)
  · intro e he
    rw [hs.length_eq] at he
    rcases h.settled e he with hr | hmem | ⟨p, hp⟩
    · exact .inl (hs.resolved e hr)
    · exact .inl (hall e hmem he)
    · exact .inr (.inr ⟨p, (hprocesses p e).mpr hp⟩)
  · intro p e hp
    exact hs.buildable e (h.buildable p e ((hprocesses p e).mp hp))
  · rintro (hb | hq)
    · rw [hs.rest] at hb
      cases hb
    · exact absurd hqueue hq

theorem Sound.step (h : s.Sound) (hok : s.Undisturbed e) (hs : s.step sdk e = some s') :
    s'.Sound := by
  cases e with
  | executeAsync entry =>
    cases hs
    exact h.executeAsync hok
  | abort signal =>
    cases hs
    exact ⟨⟨h.queued.order, h.queued.known, h.queued.readable⟩, h.one, h.settled, h.buildable,
      h.busy, h.destroyed⟩
  | built p answers => exact h.built hs
  | progressed p => exact h.progressed hok hs
  | cleanup =>
    cases hs
    exact h.cleanup s.isDestroyed
  | destroy =>
    cases hs
    exact h.cleanup true
  | reset =>
    cases hs
    exact h.cleanup false

theorem sound_empty : ({} : Batcher).Sound where
  queued := ⟨by simp, fun e he => (by cases he), fun entry he => by cases he⟩
  one p q := by
    rintro ⟨e, processor, hp, -⟩
    simp at hp
  settled e he := absurd he (Nat.not_lt_zero e)
  buildable p e := by
    rintro ⟨processor, hp, -⟩
    simp at hp
  busy := by
    rintro (h | h)
    · cases h
    · exact absurd rfl h
  destroyed _ := rfl

/-- Every entry is resolved, queued or in process (`settled`); one is in process at a time (`one`);
entries are taken in the order of their calls (`fifo`), and none waits with nobody to take it
(`served`). -/
structure Orderly (s : Batcher) : Prop where
  settled : ∀ e < s.entries.length, s.Resolved e ∨ e ∈ s.batchQueue ∨ ∃ p, s.Processes p e
  one : ∀ p q, s.Running p → s.Running q → p = q
  fifo : (s.taken ++ s.batchQueue).Pairwise (· < ·)
  served : s.batchQueue ≠ [] → ∃ p, s.Running p

/-- **The queue is orderly** in every undisturbed run. -/
theorem queue_orderly {log : List (BatcherEvent Tx)}
    (hok : EachStep (Batcher.step sdk) Undisturbed {} log)
    (h : run (Batcher.step sdk) {} log = some s) : s.Orderly := by
  have hsound : s.Sound := run_induction_of (P := fun s _ => s.Sound) sound_empty
    (fun _ _ _ _ hP hok hs => hP.step hok hs) hok h
  exact ⟨hsound.settled, hsound.one, hsound.queued.order, fun hq => hsound.busy (.inr hq)⟩

end Step

def withdrawalEntry (signal : Option ℕ) (onProgress : Bool) : QueueEntry where
  ops := withdrawals 1
  signal := signal
  context := some offlineContext
  onProgress := onProgress

def checkUndisturbed (s : Batcher) : BatcherEvent Tx → Bool
  | .executeAsync entry =>
    entry.unreadable.isNone && (s.processingBatch || s.processors.all (·.point = .ended))
  | .progressed p => s.processors[p]?.all fun processor =>
    s.entries[processor.entry]?.all fun entry =>
      processor.chunk < chunkCount entry.ops.length || !s.cancelled entry
  | _ => true

theorem undisturbed_of_check {s : Batcher} {e : BatcherEvent Tx}
    (h : checkUndisturbed s e = true) : s.Undisturbed e := by
  constructor
  · rintro entry rfl -
    rw [checkUndisturbed, Bool.and_eq_true, Option.isNone_iff_eq_none] at h
    exact h.1
  · rintro entry rfl - hflag p ⟨i, processor, hp, hpoint, -⟩
    rw [checkUndisturbed, Bool.and_eq_true, hflag, Bool.false_or, List.all_eq_true] at h
    exact hpoint (of_decide_eq_true (h.2 processor (List.mem_of_getElem? hp)))
  · rintro p processor entry rfl hp he hle
    rw [checkUndisturbed, hp, Option.all_some, he, Option.all_some, Bool.or_eq_true,
      decide_eq_true_iff] at h
    simpa using h.resolve_left (not_lt.mpr hle)

/-- The first entry is built, the second aborted in the queue, the third in process at a cleanup and
the fourth in the queue. -/
def queuedRun : List (BatcherEvent ℕ) :=
  [.executeAsync (withdrawalEntry none true), .executeAsync (withdrawalEntry (some 1) false),
    .built 0 offlineAnswers, .abort 1, .progressed 0, .executeAsync (withdrawalEntry none false),
    .executeAsync (withdrawalEntry none false), .cleanup, .built 1 offlineAnswers]

theorem queue_orderly_run : ∃ s, run (step standIn) {} queuedRun = some s ∧ s.Orderly := by
  obtain ⟨s, hs⟩ := Option.isSome_iff_exists.mp (by decide :
    (run (step standIn) {} queuedRun).isSome = true)
  exact ⟨s, hs, queue_orderly
    (.of_allSteps (fun _ _ => undisturbed_of_check) (by decide)) hs⟩

/-- The signal is aborted in the last `onProgress`. -/
def abortInProgress : List (BatcherEvent ℕ) :=
  [.executeAsync (withdrawalEntry (some 0) true), .built 0 offlineAnswers, .abort 0, .progressed 0]

theorem entry_left_pending : ¬ ∀ log s, run (step standIn) {} log = some s → s.Orderly := by
  intro h
  obtain ⟨s, hs, hrun⟩ := Option.map_eq_some_iff.mp (by decide :
    (run (step standIn) {} abortInProgress).map (fun s =>
      (s.entries.map (·.result.isSome), s.batchQueue, s.processors.map (·.point))) =
        some ([false], [], [.ended]))
  obtain ⟨hentries, hqueue, hprocessors⟩ := by simpa only [Prod.mk.injEq] using hrun
  obtain ⟨entry, he, hr⟩ : ∃ entry, s.entries = [entry] ∧ entry.result.isSome = false := by
    simpa using List.map_eq_singleton_iff.mp hentries
  rcases (h abortInProgress s hs).settled 0 (by simp [he]) with ⟨entry', he', hr'⟩ | hmem | ⟨p, hp⟩
  · rw [he] at he'
    cases he'
    rw [hr] at hr'
    cases hr'
  · rw [hqueue] at hmem
    cases hmem
  · obtain ⟨processor, hp, hpoint, -⟩ := hp
    have := List.mem_map_of_mem (f := Processor.point) (List.mem_of_getElem? hp)
    rw [hprocessors, List.mem_singleton] at this
    exact hpoint this

end Batcher

end StreamFi
