import StreamFi.Memo.Chunks
import StreamFi.Memo.Lru

/-!
# Remembered results

A module answers each question from its cache when it has an answer to a question with the same key,
and computes and stores the answer otherwise.

* `ResultMemo`, `ResultMemo.result`, `ResultMemo.askAll`, `ResultMemo.perform`: the code;
* `Consistent`: a question has the same answer as the earlier ones with its key, since the cache was
  last cleared;
* **`transparent`**: then every sequence of questions is answered as without the cache.
-/

namespace StreamFi

open Js Run Run.Lru

/-- A module that remembers results. -/
structure ResultMemo (R : Type) where
  cache : LruMemoCache String R
  enableOptimization : Bool
  batchChunkSize : Number

/-- What a question comes to: its key, what is computed for it, and the clock at the look-up. -/
structure Question (ε R : Type) where
  key : String
  compute : Except ε R
  now : Number

inductive MemoOp (α : Type) where
  | ask (a : α)
  /-- A batch, with the positions that its loop visits. -/
  | batch (visited : Option (List ℕ)) (as : List α)
  | clear

section Code

variable {α ε R : Type}

/-- The constructors' cache: `new LruMemoCache(config.cacheSize ?? 1000)`. -/
def ResultMemo.new (cacheSize : Option Number) (enableOptimization : Bool) (batchChunkSize : Option Number) :
    ResultMemo R where
  cache :=
    { store := Map.empty, expiresAt := Map.empty, maxSize := cacheSize.getD (.fin 1000)
      defaultTtlMs := none }
  enableOptimization := enableOptimization
  batchChunkSize := batchChunkSize.getD (.fin 50)

namespace ResultMemo

variable (m : ResultMemo R)

def lookUp (key : String) (now : Number) : Option R × LruMemoCache String R :=
  if m.enableOptimization then m.cache.get key now else (none, m.cache)

/-- A look-up, and on a miss the computation and a `set` without a deadline; with `isCached`. -/
def result (q : Question ε R) : Except ε (R × Bool) × ResultMemo R :=
  match m.lookUp q.key q.now with
  | (some r, cache) => (.ok (r, true), { m with cache := cache })
  | (none, cache) => match q.compute with
    | .error err => (.error err, { m with cache := cache })
    | .ok r => (.ok (r, false),
        { m with cache := if m.enableOptimization then cache.insert q.key (some r) none else cache })

variable (question : α → Question ε R)

/-- One question after the other, up to the first that throws. -/
def askAll : ResultMemo R → List α → Except ε (List (α × R × Bool)) × ResultMemo R
  | m, [] => (.ok [], m)
  | m, a :: as => match m.result (question a) with
    | (.error err, m') => (.error err, m')
    | (.ok r, m') => ((askAll m' as).1.map fun rs => (a, r) :: rs, (askAll m' as).2)

def clearCache : ResultMemo R := { m with cache := m.cache.clear }

/-- An operation; none is the answer of a batch whose loop does not end. -/
def perform (m : ResultMemo R) : MemoOp α → Option (Except ε (List (α × R × Bool))) × ResultMemo R
  | .ask a => (some (askAll question m [a]).1, (askAll question m [a]).2)
  | .batch none _ => (none, m)
  | .batch (some js) as =>
    (some (askAll question m (js.filterMap (as[·]?))).1,
      (askAll question m (js.filterMap (as[·]?))).2)
  | .clear => (some (.ok []), m.clearCache)

end ResultMemo

/-- Results without `isCached`. -/
def results : Option (Except ε (List (α × R × Bool))) → Option (Except ε (List (α × R))) :=
  Option.map fun answer => answer.map fun rs => rs.map fun r => (r.1, r.2.1)

end Code

/-! ## Transparency -/

section Transparent

variable {α ε R : Type} (question : α → Question ε R)

/-- The questions that an operation asks. -/
def MemoOp.asked : MemoOp α → List α
  | .ask a => [a]
  | .batch none _ => []
  | .batch (some js) as => js.filterMap (as[·]?)
  | .clear => []

/-- `same` holds of every two questions that are asked without a `clear` between them. -/
def Consistent (same : α → α → Prop) : List α → List (MemoOp α) → Prop
  | _, [] => True
  | _, .clear :: ops => Consistent same [] ops
  | seen, op :: ops =>
    (∀ a ∈ op.asked, ∀ b ∈ seen ++ op.asked, same b a) ∧ Consistent same (seen ++ op.asked) ops

instance Consistent.decidable {same : α → α → Prop} [∀ b a, Decidable (same b a)] :
    ∀ (seen : List α) (ops : List (MemoOp α)), Decidable (Consistent same seen ops)
  | _, [] => .isTrue trivial
  | _, .clear :: ops => Consistent.decidable [] ops
  | seen, .ask a :: ops => @instDecidableAnd _ _ inferInstance (Consistent.decidable (seen ++ [a]) ops)
  | seen, .batch visited as :: ops =>
    @instDecidableAnd _ _ inferInstance
      (Consistent.decidable (seen ++ (MemoOp.batch visited as).asked) ops)

theorem consistent_true (seen : List α) (ops : List (MemoOp α)) :
    Consistent (fun _ _ => True) seen ops := by
  induction ops generalizing seen with
  | nil => trivial
  | cons op ops ih =>
    cases op with
    | ask a => exact ⟨fun _ _ _ _ => trivial, ih _⟩
    | batch visited as => exact ⟨fun _ _ _ _ => trivial, ih _⟩
    | clear => exact ih []

/-- What holds of every question holds of every two. -/
theorem Consistent.and_forall {same : α → α → Prop} {P : α → Prop} {seen : List α}
    {ops : List (MemoOp α)} (h : Consistent same seen ops) (hseen : ∀ a ∈ seen, P a)
    (hP : ∀ op ∈ ops, ∀ a ∈ op.asked, P a) :
    Consistent (fun b a => P b ∧ P a ∧ same b a) seen ops := by
  induction ops generalizing seen with
  | nil => trivial
  | cons op ops ih =>
    have hrest : ∀ op' ∈ ops, ∀ a ∈ op'.asked, P a := fun op' h' => hP op' (List.mem_cons_of_mem _ h')
    have hop := hP op List.mem_cons_self
    have hboth : ∀ a ∈ seen ++ op.asked, P a :=
      fun a ha => (List.mem_append.mp ha).elim (hseen a) (hop a)
    have hnext (h : (∀ a ∈ op.asked, ∀ b ∈ seen ++ op.asked, same b a) ∧
        Consistent same (seen ++ op.asked) ops) :
        (∀ a ∈ op.asked, ∀ b ∈ seen ++ op.asked, P b ∧ P a ∧ same b a) ∧
          Consistent (fun b a => P b ∧ P a ∧ same b a) (seen ++ op.asked) ops :=
      ⟨fun a ha b hb => ⟨hboth b hb, hop a ha, h.1 a ha b hb⟩, ih h.2 hboth hrest⟩
    cases op with
    | ask a => exact hnext h
    | batch visited as => exact hnext h
    | clear =>
      have hclear : Consistent same [] ops := h
      exact ih hclear (fun a ha => nomatch ha) hrest

/-- What is stored was computed for a question that has been asked. -/
def Remembers (m : ResultMemo R) (seen : List α) : Prop :=
  ∃ l, Holds m.cache l ∧ ∀ e ∈ l, ∃ b ∈ seen, (question b).key = e.key ∧
    (question b).compute = .ok e.value

variable {question} {m : ResultMemo R} {seen : List α}

theorem remembers_new (cacheSize : Option Number) (enableOptimization : Bool)
    (batchChunkSize : Option Number) : Remembers question
      (ResultMemo.new cacheSize enableOptimization batchChunkSize) ([] : List α) :=
  ⟨[], Holds.clear (ResultMemo.new cacheSize enableOptimization batchChunkSize : ResultMemo R).cache,
    fun _ he => nomatch he⟩

theorem Remembers.mono {seen' : List α} (h : Remembers question m seen) (hsub : seen ⊆ seen') :
    Remembers question m seen' := by
  obtain ⟨l, hholds, hmem⟩ := h
  refine ⟨l, hholds, fun e he => ?_⟩
  obtain ⟨b, hb, hkey, hcompute⟩ := hmem e he
  exact ⟨b, hsub hb, hkey, hcompute⟩

theorem Remembers.lookUp (h : Remembers question m seen) (key : String) (now : Number) :
    Remembers question { m with cache := (m.lookUp key now).2 } seen ∧
      ∀ r, (m.lookUp key now).1 = some r →
        ∃ b ∈ seen, (question b).key = key ∧ (question b).compute = .ok r := by
  unfold ResultMemo.lookUp
  obtain ⟨l, hholds, hmem⟩ := h
  split_ifs
  · obtain ⟨hvalue, hholds'⟩ := hholds.get key now
    refine ⟨⟨_, hholds', fun e he => hmem e (getItem_subset he)⟩, ?_⟩
    intro r hr
    rw [hvalue] at hr
    obtain ⟨e, he, rfl, rfl, -⟩ := getItem_fst hr
    exact hmem e he
  · refine ⟨⟨l, hholds, hmem⟩, ?_⟩
    intro r hr
    cases hr

/-- **One question** is answered as without the cache. -/
theorem Remembers.result (h : Remembers question m seen) {a : α} (ha : a ∈ seen)
    (hsame : ∀ b ∈ seen, (question b).key = (question a).key →
      (question b).compute = (question a).compute) :
    (m.result (question a)).1.map Prod.fst = (question a).compute ∧
      Remembers question (m.result (question a)).2 seen := by
  obtain ⟨hnext, hhit⟩ := h.lookUp (question a).key (question a).now
  unfold ResultMemo.result
  cases hlook : m.lookUp (question a).key (question a).now with
  | mk found cache =>
    rw [hlook] at hnext hhit
    cases found with
    | some r =>
      obtain ⟨b, hb, hkey, hcompute⟩ := hhit r rfl
      refine ⟨?_, hnext⟩
      rw [← hsame b hb hkey, hcompute]
      rfl
    | none =>
      cases hcompute : (question a).compute with
      | error err => exact ⟨rfl, hnext⟩
      | ok r =>
        refine ⟨rfl, ?_⟩
        obtain ⟨l, hholds, hmem⟩ := hnext
        simp only
        split_ifs
        · refine ⟨_, hholds.insert ⟨(question a).key, r, none⟩, fun e he => ?_⟩
          rcases List.mem_append.mp (putItem_subset he) with he | he
          · exact hmem e he
          · rw [List.mem_singleton.mp he]
            exact ⟨a, ha, rfl, hcompute⟩
        · exact ⟨l, hholds, hmem⟩

/-- What is computed for the questions, up to the first that throws. -/
def computeAll (question : α → Question ε R) : List α → Except ε (List (α × R))
  | [] => .ok []
  | a :: as => match (question a).compute with
    | .error err => .error err
    | .ok r => (computeAll question as).map fun rs => (a, r) :: rs

/-- **Questions in a row.** -/
theorem Remembers.askAll (h : Remembers question m seen) {as : List α} (has : as ⊆ seen)
    (hsame : ∀ a ∈ as, ∀ b ∈ seen, (question b).key = (question a).key →
      (question b).compute = (question a).compute) :
    ((ResultMemo.askAll question m as).1.map fun rs => rs.map fun r => (r.1, r.2.1)) =
        computeAll question as ∧
      Remembers question (ResultMemo.askAll question m as).2 seen := by
  induction as generalizing m with
  | nil => exact ⟨rfl, h⟩
  | cons a as ih =>
    obtain ⟨hanswer, hnext⟩ := h.result (has List.mem_cons_self) (hsame a List.mem_cons_self)
    rw [ResultMemo.askAll, computeAll, ← hanswer]
    cases hresult : m.result (question a) with
    | mk answer m' =>
      rw [hresult] at hnext
      cases answer with
      | error err => exact ⟨rfl, hnext⟩
      | ok r =>
        obtain ⟨hrest, hlast⟩ := ih hnext (fun x hx => has (List.mem_cons_of_mem _ hx))
          fun x hx => hsame x (List.mem_cons_of_mem _ hx)
        refine ⟨?_, hlast⟩
        simp only [Except.map]
        rw [← hrest]
        cases (ResultMemo.askAll question m' as).1 <;> rfl

/-- What is computed for an operation. -/
def uncached (question : α → Question ε R) : MemoOp α → Option (Except ε (List (α × R)))
  | .batch none _ => none
  | op => some (computeAll question op.asked)

/-- **A memo is transparent** where questions with the same key have the same answer. -/
theorem transparent {same : α → α → Prop}
    (hkey : ∀ a b, same b a → (question b).key = (question a).key →
      (question b).compute = (question a).compute)
    {ops : List (MemoOp α)} (hok : Consistent same seen ops) (h : Remembers question m seen) :
    (performAll (ResultMemo.perform question) m ops).1.map results = ops.map (uncached question) := by
  induction ops generalizing m seen with
  | nil => rfl
  | cons op ops ih =>
    -- an operation that asks questions, and then the others
    have hask {asked : List α} (hasked : op.asked = asked)
        (hperform : ResultMemo.perform question m op =
          (some (ResultMemo.askAll question m asked).1, (ResultMemo.askAll question m asked).2))
        (huncached : uncached question op = some (computeAll question asked))
        (hok : (∀ a ∈ op.asked, ∀ b ∈ seen ++ op.asked, same b a) ∧
          Consistent same (seen ++ op.asked) ops) :
        (performAll (ResultMemo.perform question) m (op :: ops)).1.map results =
          (op :: ops).map (uncached question) := by
      rw [hasked] at hok
      obtain ⟨hanswer, hnext⟩ := (h.mono (List.subset_append_left seen asked)).askAll
        (List.subset_append_right seen asked) fun a ha b hb => hkey a b (hok.1 a ha b hb)
      rw [performAll, List.map_cons, List.map_cons, huncached, hperform, ← hanswer, ih hok.2 hnext]
      rfl
    cases op with
    | ask a => exact hask rfl rfl rfl hok
    | batch visited as =>
      cases visited with
      | none =>
        have hrest : Consistent same seen ops := by
          have := hok.2
          rwa [MemoOp.asked, List.append_nil] at this
        rw [performAll, List.map_cons, List.map_cons, ResultMemo.perform, ih hrest h]
        rfl
      | some js => exact hask rfl rfl rfl hok
    | clear =>
      rw [performAll, List.map_cons, List.map_cons, ResultMemo.perform,
        ih (show Consistent same [] ops from hok) ⟨[], Holds.clear _, fun _ he => absurd he List.not_mem_nil⟩]
      rfl

/-! ## Without the cache -/

theorem result_off (hoff : m.enableOptimization = false) (q : Question ε R) :
    (m.result q).1.map Prod.fst = q.compute ∧ (m.result q).2.enableOptimization = false := by
  unfold ResultMemo.result ResultMemo.lookUp
  rw [hoff]
  cases q.compute <;> exact ⟨rfl, rfl⟩

theorem askAll_off (hoff : m.enableOptimization = false) (as : List α) :
    ((ResultMemo.askAll question m as).1.map fun rs => rs.map fun r => (r.1, r.2.1)) =
        computeAll question as ∧
      (ResultMemo.askAll question m as).2.enableOptimization = false := by
  induction as generalizing m with
  | nil => exact ⟨rfl, hoff⟩
  | cons a as ih =>
    obtain ⟨hanswer, hnext⟩ := result_off hoff (question a)
    rw [ResultMemo.askAll, computeAll, ← hanswer]
    cases hresult : m.result (question a) with
    | mk answer m' =>
      rw [hresult] at hnext
      cases answer with
      | error err => exact ⟨rfl, hnext⟩
      | ok r =>
        obtain ⟨hrest, hlast⟩ := ih hnext
        refine ⟨?_, hlast⟩
        simp only [Except.map]
        rw [← hrest]
        cases (ResultMemo.askAll question m' as).1 <;> rfl

/-- **Without `enableOptimization`** everything is computed. -/
theorem transparent_off (hoff : m.enableOptimization = false) (ops : List (MemoOp α)) :
    (performAll (ResultMemo.perform question) m ops).1.map results = ops.map (uncached question) := by
  induction ops generalizing m with
  | nil => rfl
  | cons op ops ih =>
    have hstep : results (ResultMemo.perform question m op).1 = uncached question op ∧
        (ResultMemo.perform question m op).2.enableOptimization = false := by
      cases op with
      | ask a => exact ⟨congrArg some (askAll_off hoff [a]).1, (askAll_off hoff [a]).2⟩
      | batch visited as =>
        cases visited with
        | none => exact ⟨rfl, hoff⟩
        | some js => exact ⟨congrArg some (askAll_off hoff _).1, (askAll_off hoff _).2⟩
      | clear => exact ⟨rfl, hoff⟩
    rw [performAll, List.map_cons, List.map_cons, hstep.1, ih hstep.2]

end Transparent

end StreamFi
