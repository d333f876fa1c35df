import StreamFi.Create.Truth

/-!
# The order of a batch's sends

The transactions of a batch sit on consecutive sequence numbers, but their chains run at once.

* `SendsInOrder`: no transaction is sent before the one with the sequence number below is confirmed;
* `early_send`: with two transactions, one interleaving breaks the order;
* **`sendsInOrder_iff`**: every interleaving keeps it exactly when there is at most one.
-/

namespace StreamFi

open Js Run

variable {Tx : Type}

/-- The transaction on sequence number `n` is confirmed before the one on `n + 1` is sent, which is
when its signature arrives. -/
def SendsInOrder (sdk : Sdk Tx) (built : List BuiltBatchTransaction)
    (log : List (ℕ × ChainEvent Tx)) : Prop :=
  ∀ (j k : ℕ) tj tk n, built[j]? = some tj → built[k]? = some tk →
    OnAccountSequence sdk tk.xdr n → OnAccountSequence sdk tj.xdr (n + 1) →
    ∀ before tx after, log = before ++ (j, .signed (.ok tx)) :: after →
      ∃ returnValue, (k, .ledger (.success returnValue)) ∈ before

/-- The transactions of a build, none if it failed. -/
def builtList : Except Thrown (List BuiltBatchTransaction) → List BuiltBatchTransaction
  | .ok built => built
  | .error _ => []

theorem onAccountSequence_unique {sdk : Sdk Tx} {xdr : String} {m n : ℤ}
    (hm : OnAccountSequence sdk xdr m) (hn : OnAccountSequence sdk xdr n) : m = n := by
  obtain ⟨tx, htx, hm⟩ := hm ""
  obtain ⟨tx', htx', hn⟩ := hn ""
  cases htx.symm.trans htx'
  omega

/-- One transaction is in order with itself. -/
theorem sendsInOrder_of_length_le_one {sdk : Sdk Tx} {built : List BuiltBatchTransaction}
    (h : built.length ≤ 1) (log : List (ℕ × ChainEvent Tx)) : SendsInOrder sdk built log := by
  intro j k tj tk n hj hk hn hn' before tx after _
  have hj0 := (List.getElem?_eq_some_iff.mp hj).1
  have hk0 := (List.getElem?_eq_some_iff.mp hk).1
  obtain rfl : j = k := by omega
  cases hj.symm.trans hk
  have := onAccountSequence_unique hn hn'
  omega

section Batch

variable {sdk : Sdk Tx} {config : StreamsConfig} {answers : BatchCreateAnswers Tx} {sender : String}
  {configs : List CreateStreamParams} {built : List BuiltBatchTransaction}

/-- **The second signature may come first**, and then the second transaction goes out first. -/
theorem early_send (hl : sdk.Lawful) (h : builtTxs sdk config answers sender configs = .ok built)
    (h2 : 2 ≤ built.length) : ∃ log chains,
      run (poolStep (Chain.step config.maxAttempts))
        (startChains sdk config (builtTxs sdk config answers sender configs)) log = some chains ∧
      ¬ SendsInOrder sdk built log := by
  obtain ⟨s, hs⟩ := builtTxs_numbered hl h
  have hseq : ∀ i : ℕ, i < 2 → ∃ t, built[i]? = some t ∧ OnAccountSequence sdk t.xdr (s + i) := by
    intro i hi
    have ht := List.getElem?_eq_getElem (show i < built.length by omega)
    have hop := List.getElem?_eq_getElem (hs.length ▸ (show i < built.length by omega))
    exact ⟨_, ht, (hs.entry i _ _ hop ht).2.2⟩
  obtain ⟨t₀, ht₀, hs₀⟩ := hseq 0 (by omega)
  obtain ⟨t₁, ht₁, hs₁⟩ := hseq 1 (by omega)
  obtain ⟨tx, -, -⟩ := hs₁ config.passphrase
  refine ⟨[(1, .signed (.ok tx))], (List.replicate built.length { phase := .signing }).set 1
    { phase := .sending, sent := true }, ?_, ?_⟩
  · rw [h, startChains_eq hl h, run_singleton, poolStep_iff]
    refine ⟨{ phase := .signing }, _, ?_, rfl, rfl⟩
    rw [List.getElem?_replicate, if_pos (by omega)]
  · intro horder
    obtain ⟨returnValue, hmem⟩ := horder 1 0 t₁ t₀ s ht₁ ht₀ (by simpa using hs₀)
      (by simpa using hs₁) [] tx [] rfl
    cases hmem

/-- **Every interleaving sends in order** exactly when at most one transaction is built. -/
theorem sendsInOrder_iff (hl : sdk.Lawful) (config : StreamsConfig)
    (answers : BatchCreateAnswers Tx) (sender : String) (configs : List CreateStreamParams) :
    (∀ log chains, run (poolStep (Chain.step config.maxAttempts))
        (startChains sdk config (builtTxs sdk config answers sender configs)) log = some chains →
      SendsInOrder sdk (builtList (builtTxs sdk config answers sender configs)) log) ↔
    (validEntries (assembledArgs sdk answers sender configs)).length ≤ 1 ∨
      ∃ err, builtTxs sdk config answers sender configs = .error err := by
  cases hb : builtTxs sdk config answers sender configs with
  | error err =>
    refine iff_of_true ?_ (.inr ⟨err, rfl⟩)
    intro log chains _
    exact sendsInOrder_of_length_le_one (by simp [builtList]) log
  | ok built =>
    have hlen := builtTxs_length hl hb
    rw [← hlen, builtList]
    constructor
    · intro hall
      by_contra hno
      have h2 : 2 ≤ built.length := by
        have := (not_or.mp hno).1
        omega
      obtain ⟨log, chains, hrun, hbad⟩ := early_send hl hb h2
      rw [hb] at hrun
      exact hbad (hall log chains hrun)
    · rintro (h1 | ⟨err, herr⟩)
      · intro log chains _
        exact sendsInOrder_of_length_le_one h1 log
      · cases herr

end Batch

theorem sendsInOrder_one :
    SendsInOrder standIn (builtList (builtTxs standIn testnetConfig batchAnswers
        steadyAnswers.sender [monthStream nativeContract]))
      ((confirmedLog lookupFails).map fun e => (0, e)) := by
  obtain ⟨v, hv, -⟩ := assembled_month
  have hone : (validEntries (assembledArgs standIn batchAnswers steadyAnswers.sender
      [monthStream nativeContract])).length ≤ 1 := by
    rw [hv]
    exact le_rfl
  exact (sendsInOrder_iff standIn_lawful testnetConfig batchAnswers steadyAnswers.sender
    [monthStream nativeContract]).mpr (.inl hone) _ _ (batchRun_confirmed lookupFails).ran

/-- Two streams, on the sequence numbers 101 and 102: the second may be sent first. -/
theorem not_sendsInOrder_two :
    ¬ ∀ log chains, run (poolStep (Chain.step 30))
        (startChains standIn testnetConfig (builtTxs standIn testnetConfig batchAnswers
          steadyAnswers.sender [monthStream nativeContract, monthStream nativeContract])) log =
            some chains →
      SendsInOrder standIn (builtList (builtTxs standIn testnetConfig batchAnswers
        steadyAnswers.sender [monthStream nativeContract, monthStream nativeContract])) log := by
  intro hall
  obtain ⟨v, -, hv⟩ := assembled_month
  obtain ⟨built, hbuilt, hlen⟩ := build_creations [(0, v), (1, v)] (.inr rfl)
  have hb : builtTxs standIn testnetConfig batchAnswers steadyAnswers.sender
      [monthStream nativeContract, monthStream nativeContract] = .ok built := by
    rw [builtTxs, hv]
    exact (if_neg (by simp [validEntries])).trans hbuilt
  obtain ⟨log, chains, hrun, hbad⟩ := early_send standIn_lawful hb hlen.ge
  rw [hb] at hrun hall
  exact hbad (hall log chains hrun)

end StreamFi
