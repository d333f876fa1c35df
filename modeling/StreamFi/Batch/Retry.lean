import StreamFi.Batch.Submit

/-!
# Retrying a batch

`BatchPartiallySubmittedError` carries the outcomes of a batch that stopped, and
`getFailedOperations` picks from the original list what is to be submitted again.

* `getFailedOperations_eq`: it returns the operations whose outcome is `FAILED` or `ERROR`;
* **`getFailedOperations_partition_iff`**: those are all the unconfirmed ones exactly when the batch
  stopped at its last transaction, and not by an abort before it was sent.
-/

namespace StreamFi

open Js Run

variable {Tx : Type}

/-- What is to be retried, by the code's filter. -/
def Retried (o : BatchTxOutcome) : Bool := o.status = .failed || o.status = .error

def BatchPartiallySubmittedError.skippedIndices (err : BatchPartiallySubmittedError) : List ℕ :=
  (err.result.outcomes.filter (·.status = .skipped)).map (·.index)

def BatchPartiallySubmittedError.message (err : BatchPartiallySubmittedError) : String :=
  if err.result.firstFailureIndex ≠ -1 then
    s!"Batch submission failed at transaction {err.result.firstFailureIndex}. " ++
      s!"{err.skippedIndices.length} transaction(s) skipped."
  else
    s!"Batch partially submitted: {err.result.failureCount} of {err.result.outcomes.length} " ++
      "transaction(s) failed. Call getFailedOperations(originalOperations) to get the failed " ++
      "subset for retry."

def BatchPartiallySubmittedError.getFailedOperations {T : Type} (err : BatchPartiallySubmittedError)
    (originalOperations : List T) : Except Thrown (List T) :=
  let failedIndices := (err.result.outcomes.filter Retried).map (·.index)
  (err.builtTransactions.filter fun tx => tx.index ∈ failedIndices).mapM fun tx =>
    match originalOperations[tx.index]? with
    | some op => .ok op
    | none => .error (errorOf "RangeError"
        (s!"getFailedOperations: no operation at index {tx.index}. " ++
          "Make sure originalOperations is the same array passed to buildBatchTransactions."))

/-! ## What is returned -/

theorem mapM_filter_zip {α β γ : Type} {l : List (α × β × γ)} {p : α → Bool} {q : γ → Bool}
    {f : α → Except Thrown β} (h : ∀ t ∈ l, p t.1 = q t.2.2 ∧ f t.1 = .ok t.2.1) :
    ((l.map Prod.fst).filter p).mapM f =
      .ok (((l.map Prod.snd).filter fun t => q t.2).map Prod.fst) := by
  induction l with
  | nil => rfl
  | cons t l ih =>
    obtain ⟨hp, hf⟩ := h t List.mem_cons_self
    have hl := ih fun t ht => h t (List.mem_cons_of_mem _ ht)
    rw [List.map_cons, List.map_cons, List.filter_cons, List.filter_cons, hp]
    split_ifs
    · rw [List.mapM_cons, hf, hl]
      rfl
    · exact hl

/-- Positions, indices and operations agree. -/
structure Positioned {T : Type} (err : BatchPartiallySubmittedError) (ops : List T) : Prop where
  built : err.builtTransactions.length = ops.length
  outcomes : err.result.outcomes.length = ops.length
  builtIndex : ∀ (i : ℕ) t, err.builtTransactions[i]? = some t → t.index = i
  outcomeIndex : ∀ (i : ℕ) o, err.result.outcomes[i]? = some o → o.index = i

theorem Positioned.mem_failed {T : Type} {err : BatchPartiallySubmittedError} {ops : List T}
    (h : Positioned err ops) {i : ℕ} {o : BatchTxOutcome} (ho : err.result.outcomes[i]? = some o) :
    i ∈ (err.result.outcomes.filter Retried).map (·.index) ↔ Retried o = true := by
  rw [List.mem_map]
  constructor
  · rintro ⟨o', ho', rfl⟩
    obtain ⟨hmem, hr⟩ := List.mem_filter.mp ho'
    obtain ⟨j, hj⟩ := List.getElem?_of_mem hmem
    rw [h.outcomeIndex j o' hj, hj] at ho
    cases ho
    exact hr
  · intro hr
    exact ⟨o, List.mem_filter.mpr ⟨List.mem_of_getElem? ho, hr⟩, h.outcomeIndex i o ho⟩

/-- The operations returned are those with a `FAILED` or `ERROR` outcome, in order. -/
theorem getFailedOperations_eq {T : Type} {err : BatchPartiallySubmittedError} {ops : List T}
    (h : Positioned err ops) : err.getFailedOperations ops =
      .ok (((ops.zip err.result.outcomes).filter fun p => Retried p.2).map Prod.fst) := by
  have hlen : (ops.zip err.result.outcomes).length = err.builtTransactions.length := by
    rw [List.length_zip, h.outcomes, h.built, min_self]
  have hzip := mapM_filter_zip (l := err.builtTransactions.zip (ops.zip err.result.outcomes))
    (p := fun tx => tx.index ∈ (err.result.outcomes.filter Retried).map (·.index)) (q := Retried)
    (f := fun tx => match ops[tx.index]? with
      | some op => .ok op
      | none => .error (errorOf "RangeError"
          (s!"getFailedOperations: no operation at index {tx.index}. " ++
            "Make sure originalOperations is the same array passed to buildBatchTransactions.")))
    (by
      rintro ⟨t, op, o⟩ ht
      obtain ⟨i, hi⟩ := List.getElem?_of_mem ht
      obtain ⟨ht, hi⟩ := List.getElem?_zip_eq_some.mp hi
      obtain ⟨hop, ho⟩ := List.getElem?_zip_eq_some.mp hi
      simp only at ht hop ho ⊢
      rw [h.builtIndex i t ht, hop]
      exact ⟨Bool.decide_congr (h.mem_failed ho) |>.trans (by simp), rfl⟩)
  rw [List.map_fst_zip hlen.ge, List.map_snd_zip hlen.le] at hzip
  exact hzip

/-- The operations returned are those that were not confirmed, each once and in order. -/
def RetryCompletes {T : Type} (err : BatchPartiallySubmittedError) (ops : List T) : Prop :=
  err.getFailedOperations ops =
    .ok (((ops.zip err.result.outcomes).filter fun p => p.2.status ≠ .success).map Prod.fst)

/-- Nothing is lost exactly when nothing was skipped. -/
theorem retryCompletes_iff {T : Type} {err : BatchPartiallySubmittedError} {ops : List T}
    (h : Positioned err ops) :
    RetryCompletes err ops ↔ ∀ o ∈ err.result.outcomes, o.status ≠ .skipped := by
  have hsub : (fun p : T × BatchTxOutcome => Retried p.2) =
      fun p => Retried p.2 && decide (p.2.status ≠ .success) := by
    funext ⟨op, o⟩
    cases hs : o.status <;> simp [Retried, hs]
  have hmem : ∀ o ∈ err.result.outcomes, ∃ op, (op, o) ∈ ops.zip err.result.outcomes := by
    intro o ho
    obtain ⟨i, hi⟩ := List.getElem?_of_mem ho
    have hi' : i < ops.length := h.outcomes ▸ (List.getElem?_eq_some_iff.mp hi).1
    exact ⟨ops[i], List.mem_of_getElem? (i := i)
      (List.getElem?_zip_eq_some.mpr ⟨List.getElem?_eq_getElem hi', hi⟩)⟩
  unfold RetryCompletes
  rw [getFailedOperations_eq h, hsub, ← List.filter_filter]
  constructor
  · intro heq o ho hs
    have hlen := congrArg List.length (Except.ok.inj heq)
    rw [List.length_map, List.length_map] at hlen
    have hall := List.filter_eq_self.mp (List.filter_sublist.eq_of_length hlen)
    obtain ⟨op, hop⟩ := hmem o ho
    have := hall (op, o) (List.mem_filter.mpr ⟨hop, by simp [hs]⟩)
    simp [Retried, hs] at this
  · intro hall
    refine congrArg (fun l => Except.ok (List.map Prod.fst l)) (List.filter_eq_self.mpr ?_)
    rintro ⟨op, o⟩ hp
    obtain ⟨hmem, hs⟩ := List.mem_filter.mp hp
    have hsk := hall o (List.of_mem_zip hmem).2
    cases hst : o.status <;> simp_all [Retried]

/-! ## After a run -/

section Run

variable {sdk : Sdk Tx} {options : BatchSubmitOptions} {answers : SubmitAnswers}
  {built : List BuiltBatchTransaction} {rpcUrl : String} {err : BatchPartiallySubmittedError}

/-- What holds in a dry run after the first `n` transactions. -/
structure DryMarked (transactions : List BuiltBatchTransaction) (n : ℕ) (st : SubmitState) :
    Prop where
  aligned : st.outcomes.map outcomeKey = (transactions.take n).map builtKey
  statuses : ∀ o ∈ st.outcomes, o.status = .success ∨ o.status = .skipped
  stopped : st.firstFailureIndex ≠ -1 → ∃ o ∈ st.outcomes, o.status = .skipped

theorem DryMarked.step {n : ℕ} {st : SubmitState} {t : BuiltBatchTransaction}
    (hd : options.dryRun = true) (h : DryMarked built n st) (hn : built[n]? = some t) :
    DryMarked built (n + 1) (submitStep sdk options answers st (t, n)) := by
  have hkey : ∀ o : BatchTxOutcome, outcomeKey o = builtKey t →
      (st.outcomes ++ [o]).map outcomeKey = (built.take (n + 1)).map builtKey := fun o ho => by
    rw [List.take_add_one, hn, List.map_append, List.map_append, h.aligned]
    simp [ho]
  have hstatus : ∀ o : BatchTxOutcome, o.status = .success ∨ o.status = .skipped →
      ∀ p ∈ st.outcomes ++ [o], p.status = .success ∨ p.status = .skipped := fun o ho p hp => by
    rcases List.mem_append.mp hp with hp | hp
    · exact h.statuses p hp
    · rwa [List.mem_singleton.mp hp]
  unfold submitStep
  by_cases hf : st.firstFailureIndex = -1
  · rw [if_neg (not_not.mpr hf), submitOne]
    by_cases ha : answers.aborted n = true
    · rw [if_pos ha]
      exact ⟨hkey _ rfl, hstatus _ (.inr rfl), fun _ => ⟨_, List.mem_append_right _ (List.mem_singleton_self _), rfl⟩⟩
    · rw [if_neg ha, if_pos hd]
      exact ⟨hkey _ rfl, hstatus _ (.inl rfl), fun hg => absurd rfl hg⟩
  · rw [if_pos hf]
    exact ⟨hkey _ rfl, hstatus _ (.inr rfl), fun _ => ⟨_, List.mem_append_right _ (List.mem_singleton_self _), rfl⟩⟩

theorem submitAll_dryMarked (hd : options.dryRun = true) (n : ℕ) (hn : n ≤ built.length) :
    DryMarked built n
      ((built.zipIdx.take n).foldl (submitStep sdk options answers) ⟨[], -1, []⟩) := by
  induction n with
  | zero => exact ⟨rfl, by simp, by simp⟩
  | succ n ih =>
    have hget : built[n]? = some built[n] := List.getElem?_eq_getElem hn
    have hzip : built.zipIdx[n]? = some (built[n], n) := by
      rw [List.getElem?_zipIdx, hget]
      simp
    rw [List.take_add_one, hzip, Option.toList_some, List.foldl_append]
    exact (ih (by omega)).step hd hget

/-- What the thrown error carries. -/
theorem submitBatch_partially
    (h : submitBatch sdk built rpcUrl options answers = .error (.partially err)) :
    err.builtTransactions = built ∧
      err.result = toSubmitResult (submitAll sdk options answers built) ∧
      (submitAll sdk options answers built).firstFailureIndex ≠ -1 := by
  unfold submitBatch at h
  by_cases hr : rpcUrl = ""
  · rw [if_pos hr] at h
    cases h
  rw [if_neg hr] at h
  simp only at h
  split_ifs at h with ht
  cases h
  refine ⟨rfl, rfl, ?_⟩
  simpa [toSubmitResult] using ht.2

theorem positioned_of_aligned {T : Type} {ops : List T} {outcomes : List BatchTxOutcome}
    (hb : err.builtTransactions = built) (ho : err.result.outcomes = outcomes)
    (hlen : built.length = ops.length) (hindex : ∀ (i : ℕ) t, built[i]? = some t → t.index = i)
    (ha : outcomes.map outcomeKey = built.map builtKey) : Positioned err ops where
  built := hb ▸ hlen
  outcomes := by
    have := congrArg List.length ha
    rw [List.length_map, List.length_map] at this
    rw [ho, this, hlen]
  builtIndex := hb ▸ hindex
  outcomeIndex i o h := by
    rw [ho] at h
    have hi := congrArg (fun l => l[i]?) ha
    simp only [List.getElem?_map, h, Option.map_some] at hi
    cases ht : built[i]? with
    | none => rw [ht] at hi; cases hi
    | some t =>
      rw [ht] at hi
      have := congrArg Prod.fst (Option.some.inj hi)
      exact this.trans (hindex i t ht)

/-- The batch stopped at its last transaction, which was not held back by an abort. -/
def StoppedAtLast (sdk : Sdk Tx) (options : BatchSubmitOptions) (answers : SubmitAnswers)
    (built : List BuiltBatchTransaction) : Prop :=
  options.dryRun = false ∧
    (∀ (i : ℕ) t, built[i]? = some t → i + 1 < built.length →
      Confirms sdk options answers i t.xdr) ∧
    answers.aborted (built.length - 1) = false

/-- A prefix of confirmed transactions is a prefix of `SUCCESS`. -/
theorem Submitted.success_of_confirms {st : SubmitState} {n : ℕ}
    (h : Submitted sdk options answers built n st) (hn : n ≤ built.length) {k : ℕ}
    (hc : ∀ (i : ℕ) t, built[i]? = some t → i < k → Confirms sdk options answers i t.xdr) :
    ∀ i < k, ∀ o, st.outcomes[i]? = some o → o.status = .success := by
  intro i
  induction i using Nat.strong_induction_on with
  | _ i ih =>
    intro hi o ho
    have hib : i < built.length := by
      have := (List.getElem?_eq_some_iff.mp ho).1
      rw [h.length hn] at this
      omega
    have ht := List.getElem?_eq_getElem hib
    exact ((h.verdict i _ o ht ho fun j hj => ih j hj (by omega)).1).mpr (hc i _ ht hi)

theorem not_skipped_iff (hd : options.dryRun = false)
    (hf : (submitAll sdk options answers built).firstFailureIndex ≠ -1) :
    (∀ o ∈ (submitAll sdk options answers built).outcomes, o.status ≠ .skipped) ↔
      StoppedAtLast sdk options answers built := by
  have h : Submitted sdk options answers built built.length _ := submitAll_submitted hd
  have hlen := h.length le_rfl
  obtain ⟨before, o, after, ho, hb, hs, -, ha⟩ := h.shape.not_going hf
  have hlen' : before.length + (after.length + 1) = built.length := by
    rw [← hlen, ho, List.length_append, List.length_cons]
  have hk : (submitAll sdk options answers built).outcomes[before.length]? = some o := by simp [ho]
  have hpre : ∀ j < before.length, ∀ p,
      (submitAll sdk options answers built).outcomes[j]? = some p → p.status = .success := by
    intro j hj p hp
    rw [ho, List.getElem?_append_left hj] at hp
    exact hb p (List.mem_of_getElem? hp)
  constructor
  · intro hall
    have hnil : after = [] := by
      rw [List.eq_nil_iff_forall_not_mem]
      exact fun p hp => hall p (by simp [ho, hp]) (ha p hp)
    rw [hnil, List.length_nil] at hlen'
    refine ⟨hd, fun i t ht hi => ?_, ?_⟩
    · have hi' : i < (submitAll sdk options answers built).outcomes.length := by omega
      have hget := List.getElem?_eq_getElem hi'
      exact ((h.verdict i t _ ht hget fun j hj => hpre j (by omega)).1).mp
        (hpre i (by omega) _ hget)
    · have hlast : built.length - 1 = before.length := by omega
      have ht := List.getElem?_eq_getElem (l := built) (i := before.length) (by omega)
      have hv := (h.verdict _ _ o ht hk hpre).2
      rw [hlast, ← Bool.not_eq_true, ← hv]
      exact hall o (by simp [ho])
  · rintro ⟨-, hc, habort⟩ p hp hsk
    have hsucc := h.success_of_confirms le_rfl (k := built.length - 1)
      fun i t ht hi => hc i t ht (by omega)
    -- so the first failure is at the last position, and nothing follows it
    have hlast : before.length = built.length - 1 := by
      by_contra hne
      exact hs (hsucc _ (by omega) o hk)
    have hnil : after = [] := List.length_eq_zero_iff.mp (by omega)
    have ht := List.getElem?_eq_getElem (l := built) (i := before.length) (by omega)
    have hv := (h.verdict _ _ o ht hk hpre).2
    rw [ho, hnil] at hp
    rcases List.mem_append.mp hp with hp | hp
    · rw [hb p hp] at hsk
      cases hsk
    · rw [List.mem_singleton.mp hp] at hsk
      have := hv.mp hsk
      rw [hlast, habort] at this
      cases this

/-- **What is returned for a retry** is everything that was not confirmed exactly when the batch
stopped at its last transaction, and not by an abort before it was sent. -/
theorem getFailedOperations_partition_iff (hl : sdk.Lawful) {context : BatchTransactionContext}
    {buildAnswers : BuildAnswers Tx} {s : ℤ} {ops : List BuildableOperation}
    (hs : SequenceBase context buildAnswers s)
    (hb : buildBatchTransactions sdk ops context buildAnswers = .ok built)
    (h : submitBatch sdk built rpcUrl options answers = .error (.partially err)) :
    RetryCompletes err ops ↔ StoppedAtLast sdk options answers built := by
  have hnum := buildBatchTransactions_numbered hl hs hb
  obtain ⟨hbt, hres, hf⟩ := submitBatch_partially h
  have hout : err.result.outcomes = (submitAll sdk options answers built).outcomes := by
    rw [hres]
    rfl
  have hindex : ∀ (i : ℕ) t, built[i]? = some t → t.index = i := by
    intro i t ht
    have hi : i < ops.length := hnum.length ▸ (List.getElem?_eq_some_iff.mp ht).1
    exact (hnum.entry i _ t (List.getElem?_eq_getElem hi) ht).1
  cases hd : options.dryRun with
  | false =>
    have ha := (submitAll_submitted hd : Submitted sdk options answers built _ _).aligned
    rw [List.take_length] at ha
    rw [retryCompletes_iff (positioned_of_aligned hbt hout hnum.length hindex ha), hout]
    exact not_skipped_iff hd hf
  | true =>
    have hm : DryMarked built built.length
        ((built.zipIdx.take built.length).foldl (submitStep sdk options answers) ⟨[], -1, []⟩) :=
      submitAll_dryMarked hd built.length le_rfl
    rw [List.take_of_length_le (by simp)] at hm
    have ha := hm.aligned
    rw [List.take_length] at ha
    rw [retryCompletes_iff (positioned_of_aligned hbt hout hnum.length hindex ha), hout]
    obtain ⟨o, ho, hsk⟩ := hm.stopped hf
    refine iff_of_false (fun hall => hall o ho hsk) fun hstop => ?_
    rw [hstop.1] at hd
    cases hd

end Run

/-- Everything is accepted, and the transaction at position `n` fails on chain. -/
def failAt (n : ℕ) : SubmitAnswers where
  aborted _ := false
  sign _ xdr := .ok xdr
  sendTransaction _ := .ok { isError := false, errorResult := none, hash := "hash" }
  abortedPolling _ _ := false
  getTransaction i _ := .ok (if i = n then .failed else .success)

/-- The error of a batch of two that fails at position `n`. -/
def failureAt (n : ℕ) : BatchPartiallySubmittedError where
  result := toSubmitResult (submitAll standIn { throwOnError := true } (failAt n) twoBuilt)
  builtTransactions := twoBuilt

theorem getFailedOperations_partition_two : RetryCompletes (failureAt 1) twoOperations ↔
    StoppedAtLast standIn { throwOnError := true } (failAt 1) twoBuilt := by
  have h : submitBatch standIn twoBuilt "http://rpc" { throwOnError := true } (failAt 1) =
      .error (.partially (failureAt 1)) := rfl
  exact getFailedOperations_partition_iff standIn_lawful sequenceBase_offline build_two h

/-- When the first of two fails, the second is lost. -/
theorem getFailedOperations_loses :
    buildBatchTransactions standIn twoOperations offlineContext offlineAnswers = .ok twoBuilt ∧
      submitBatch standIn twoBuilt "http://rpc" { throwOnError := true } (failAt 0) =
        .error (.partially (failureAt 0)) ∧
      ¬ RetryCompletes (failureAt 0) twoOperations := by
  refine ⟨build_two, rfl, fun h => ?_⟩
  have := congrArg (fun r => r.toOption.map List.length) h
  revert this
  decide

end StreamFi
