import StreamFi.Js.Value
import StreamFi.Run.Pool
import StreamFi.Run.Table

/-!
# Coalescing calls

`coalesceAsync` and `coalesceInFlight` let the callers that ask for one key share one fetch. A
promise is named by its position among the fetches ever started.

* `Flights`: the map, with the fetches behind it; `share`, `evict`, `react`, `expire`: the code;
* `Coalescing.step`: calls, settlements, continuations and timers, in any order;
* `Flights.Sound`: what every operation keeps; `ServedBy`: whose outcome a caller gets;
* **`coalesce_single_flight`**: one fetch per key, shared by its callers, never evicted by an older
  one.
-/

namespace StreamFi

open Js Run

/-! ## The map -/

/-- The helper that stored a promise. -/
inductive Helper where
  | coalesceAsync (windowMs : Option Number)
  | coalesceInFlight

/-- A call of `fn`, with what became of its promise. `handled` when the reaction of `promise.then`
has run, `timer` while its eviction is scheduled. -/
structure Fetch (K V : Type) where
  key : K
  helper : Helper
  outcome : Option (Except Thrown V) := none
  handled : Bool := false
  timer : Bool := false

/-- A `Map<K, Promise<V>>` and every promise that was ever in it. -/
structure Flights (K V : Type) where
  cache : K → Option ℕ := fun _ => none
  fetches : List (Fetch K V) := []

/-- What the reaction of a settled promise does about its entry. -/
inductive Reaction where
  | keep
  | setTimer
  | evict

def reaction {V : Type} : Helper → Except Thrown V → Reaction
  | .coalesceAsync (some windowMs), .ok _ =>
    if !windowMs.isFinite || windowMs.le (.fin 0) then .keep else .setTimer
  | .coalesceAsync none, .ok _ => .keep
  | .coalesceAsync _, .error _ => .evict
  | .coalesceInFlight, _ => .evict

namespace Flights

variable {K V : Type} [DecidableEq K]

/-- `const promise = fn(); cache.set(key, promise)`. -/
def start (s : Flights K V) (key : K) (helper : Helper) : Flights K V where
  cache := Function.update s.cache key (some s.fetches.length)
  fetches := s.fetches ++ [{ key := key, helper := helper }]

/-- The promise that both helpers return: the cached one, else that of a new fetch. -/
def share (s : Flights K V) (key : K) (helper : Helper) : Flights K V × ℕ :=
  match s.cache key with
  | some cached => (s, cached)
  | none => (s.start key helper, s.fetches.length)

def coalesceAsync (s : Flights K V) (key : K) (windowMs : Option Number) : Flights K V × ℕ :=
  s.share key (.coalesceAsync windowMs)

def coalesceInFlight (s : Flights K V) (key : K) : Flights K V × ℕ := s.share key .coalesceInFlight

def callHelper (s : Flights K V) (key : K) : Helper → Flights K V × ℕ
  | .coalesceAsync windowMs => s.coalesceAsync key windowMs
  | .coalesceInFlight => s.coalesceInFlight key

/-- `cache.delete(key)`. -/
def delete (s : Flights K V) (key : K) : Flights K V :=
  { s with cache := Function.update s.cache key none }

/-- `if (cache.get(key) === promise) cache.delete(key)`. -/
def evict (s : Flights K V) (key : K) (promise : ℕ) : Flights K V :=
  if s.cache key = some promise then s.delete key else s

def put (s : Flights K V) (promise : ℕ) (f : Fetch K V) : Flights K V :=
  { s with fetches := s.fetches.set promise f }

/-- The promise of `fn` settles. -/
def settle (s : Flights K V) (promise : ℕ) (r : Except Thrown V) : Option (Flights K V) := do
  let f ← s.fetches[promise]?
  if f.outcome.isSome then none else some (s.put promise { f with outcome := some r })

/-- The reaction of `promise.then` runs. -/
def react (s : Flights K V) (promise : ℕ) : Option (Flights K V) := do
  let f ← s.fetches[promise]?
  let r ← f.outcome
  if f.handled then none
  else match reaction f.helper r with
    | .keep => some (s.put promise { f with handled := true })
    | .setTimer => some (s.put promise { f with handled := true, timer := true })
    | .evict => some ((s.put promise { f with handled := true }).evict f.key promise)

/-- The timer of the window fires. -/
def expire (s : Flights K V) (promise : ℕ) : Option (Flights K V) := do
  let f ← s.fetches[promise]?
  if f.timer then some ((s.put promise { f with timer := false }).evict f.key promise) else none

/-! ## What the operations do -/

section Operations

variable {s s' : Flights K V} {key k : K} {helper : Helper} {p q : ℕ} {f : Fetch K V}

theorem share_cases (s : Flights K V) (key : K) (helper : Helper) :
    (∃ p, s.cache key = some p ∧ s.share key helper = (s, p)) ∨
      s.cache key = none ∧ s.share key helper = (s.start key helper, s.fetches.length) := by
  unfold share
  cases h : s.cache key with
  | some p => exact .inl ⟨p, rfl, rfl⟩
  | none => exact .inr ⟨rfl, rfl⟩

/-- What a caller is given is the entry of its key from then on. -/
theorem share_cache (s : Flights K V) (key : K) (helper : Helper) :
    (s.share key helper).1.cache key = some (s.share key helper).2 := by
  rcases s.share_cases key helper with ⟨p, hp, heq⟩ | ⟨-, heq⟩
  · rw [heq]
    exact hp
  · rw [heq]
    simp [start]

theorem callHelper_eq (s : Flights K V) (key : K) (helper : Helper) :
    s.callHelper key helper = s.share key helper := by
  cases helper <;> rfl

theorem start_cache_iff : (s.start key helper).cache k = some q ↔
    k = key ∧ q = s.fetches.length ∨ k ≠ key ∧ s.cache k = some q := by
  rcases eq_or_ne k key with rfl | hk
  · simp [start, eq_comm]
  · simp [start, hk]

@[simp] theorem start_fetches :
    (s.start key helper).fetches = s.fetches ++ [{ key := key, helper := helper }] := rfl

theorem delete_cache_iff : (s.delete key).cache k = some q ↔ k ≠ key ∧ s.cache k = some q := by
  rcases eq_or_ne k key with rfl | hk
  · simp [delete]
  · simp [delete, hk]

@[simp] theorem delete_fetches : (s.delete key).fetches = s.fetches := rfl

/-- **Only the given promise is evicted.** -/
theorem evict_cache_iff :
    (s.evict key p).cache k = some q ↔ s.cache k = some q ∧ ¬ (k = key ∧ q = p) := by
  unfold evict
  split_ifs with h
  · rw [delete_cache_iff]
    grind
  · grind

@[simp] theorem evict_fetches : (s.evict key p).fetches = s.fetches := by
  unfold evict
  split_ifs <;> rfl

omit [DecidableEq K] in
@[simp] theorem put_cache : (s.put p f).cache = s.cache := rfl

omit [DecidableEq K] in
@[simp] theorem put_fetches : (s.put p f).fetches = s.fetches.set p f := rfl

omit [DecidableEq K] in
theorem settle_iff {r : Except Thrown V} : s.settle p r = some s' ↔
    ∃ f, s.fetches[p]? = some f ∧ f.outcome = none ∧ s' = s.put p { f with outcome := some r } := by
  simp only [settle, Option.bind_eq_bind, Option.bind_eq_some_iff]
  constructor
  · rintro ⟨f, hf, h⟩
    split_ifs at h with ho
    cases h
    exact ⟨f, hf, by simpa using ho, rfl⟩
  · rintro ⟨f, hf, ho, rfl⟩
    exact ⟨f, hf, by simp [ho]⟩

/-- What the reaction changes: it is handled, and may set the timer or evict its own promise. -/
theorem react_cases (h : s.react p = some s') : ∃ f r t, s.fetches[p]? = some f ∧
    f.outcome = some r ∧ f.handled = false ∧
    ((reaction f.helper r ≠ .evict ∧ s' = s.put p { f with handled := true, timer := t }) ∨
      s' = (s.put p { f with handled := true, timer := t }).evict f.key p) := by
  simp only [react, Option.bind_eq_bind, Option.bind_eq_some_iff] at h
  obtain ⟨f, hf, r, hr, h⟩ := h
  split_ifs at h with hh
  cases hreact : reaction f.helper r with
  | keep =>
    rw [hreact] at h
    cases h
    exact ⟨f, r, f.timer, hf, hr, by simpa using hh, .inl ⟨by simp [hreact], rfl⟩⟩
  | setTimer =>
    rw [hreact] at h
    cases h
    exact ⟨f, r, true, hf, hr, by simpa using hh, .inl ⟨by simp [hreact], rfl⟩⟩
  | evict =>
    rw [hreact] at h
    cases h
    exact ⟨f, r, f.timer, hf, hr, by simpa using hh, .inr rfl⟩

theorem expire_cases (h : s.expire p = some s') : ∃ f, s.fetches[p]? = some f ∧ f.timer = true ∧
    s' = (s.put p { f with timer := false }).evict f.key p := by
  simp only [expire, Option.bind_eq_bind, Option.bind_eq_some_iff] at h
  obtain ⟨f, hf, h⟩ := h
  split_ifs at h with ht
  cases h
  exact ⟨f, hf, ht, rfl⟩

theorem reaction_error (helper : Helper) (err : Thrown) :
    reaction (V := V) helper (.error err) = .evict := by
  cases helper with
  | coalesceAsync w => cases w <;> rfl
  | coalesceInFlight => rfl

end Operations

/-! ## What the operations keep -/

/-- A running fetch is the entry of its key, and a rejection that was handled is no entry. -/
structure Sound (s : Flights K V) : Prop where
  stored : ∀ key p, s.cache key = some p → ∃ f, s.fetches[p]? = some f ∧ f.key = key
  running : ∀ (p : ℕ) f, s.fetches[p]? = some f → f.outcome = none → s.cache f.key = some p
  rejected : ∀ (p : ℕ) f err, s.fetches[p]? = some f → f.outcome = some (.error err) →
    f.handled = true → s.cache f.key ≠ some p
  touched : ∀ (p : ℕ) f, s.fetches[p]? = some f → f.handled = true ∨ f.timer = true →
    f.outcome ≠ none

section Sound

variable {s s' : Flights K V} {key : K} {p : ℕ}

omit [DecidableEq K] in
theorem sound_empty : Sound ({} : Flights K V) where
  stored key p h := by cases h
  running p f h := by simp at h
  rejected p f err h := by simp at h
  touched p f h := by simp at h

theorem start_sound (h : s.Sound) (hnone : s.cache key = none) (helper : Helper) :
    (s.start key helper).Sound := by
  refine ⟨?_, ?_, ?_, ?_⟩
  · intro k p hp
    rcases start_cache_iff.mp hp with ⟨rfl, rfl⟩ | ⟨hk, hp⟩
    · exact ⟨_, add_iff.mpr (.inr ⟨rfl, rfl⟩), rfl⟩
    · obtain ⟨f, hf, hfk⟩ := h.stored k p hp
      exact ⟨f, add_iff.mpr (.inl hf), hfk⟩
  · intro p f hf ho
    rcases add_iff.mp hf with hf | ⟨rfl, rfl⟩
    · have hc := h.running p f hf ho
      refine start_cache_iff.mpr (.inr ⟨?_, hc⟩)
      rintro rfl
      rw [hc] at hnone
      cases hnone
    · exact start_cache_iff.mpr (.inl ⟨rfl, rfl⟩)
  · intro p f err hf ho hh hc
    rcases add_iff.mp hf with hf | ⟨rfl, rfl⟩
    · rcases start_cache_iff.mp hc with ⟨-, rfl⟩ | ⟨-, hc⟩
      · have := lt_of_entry hf
        omega
      · exact h.rejected p f err hf ho hh hc
    · cases ho
  · intro p f hf ht
    rcases add_iff.mp hf with hf | ⟨rfl, rfl⟩
    · exact h.touched p f hf ht
    · simp at ht

/-- A settled promise may be evicted. -/
theorem evict_sound (h : s.Sound) (hset : ∀ f, s.fetches[p]? = some f → f.outcome ≠ none) :
    (s.evict key p).Sound := by
  refine ⟨?_, ?_, ?_, ?_⟩
  · intro k q hq
    rw [evict_fetches]
    exact h.stored k q (evict_cache_iff.mp hq).1
  · intro q f hf ho
    rw [evict_fetches] at hf
    refine evict_cache_iff.mpr ⟨h.running q f hf ho, ?_⟩
    rintro ⟨-, rfl⟩
    exact hset f hf ho
  · intro q f err hf ho hh hc
    rw [evict_fetches] at hf
    exact h.rejected q f err hf ho hh (evict_cache_iff.mp hc).1
  · intro q f hf ht
    rw [evict_fetches] at hf
    exact h.touched q f hf ht

omit [DecidableEq K] in
/-- A change to a fetch that keeps its key, and does not set it running again. -/
theorem put_sound (h : s.Sound) {f g : Fetch K V} (hf : s.fetches[p]? = some f)
    (hkey : g.key = f.key) (hrun : g.outcome = none → f.outcome = none)
    (hrej : ∀ err, g.outcome = some (.error err) → g.handled = true → s.cache f.key ≠ some p)
    (htouched : g.handled = true ∨ g.timer = true → g.outcome ≠ none) : (s.put p g).Sound := by
  have hlt := lt_of_entry hf
  refine ⟨?_, ?_, ?_, ?_⟩
  · intro k q hq
    obtain ⟨f', hf', hk⟩ := h.stored k q hq
    rcases eq_or_ne q p with rfl | hne
    · cases hf'.symm.trans hf
      exact ⟨g, (put_iff hlt).mpr (.inl ⟨rfl, rfl⟩), hkey.trans hk⟩
    · exact ⟨f', (put_iff hlt).mpr (.inr ⟨hne, hf'⟩), hk⟩
  · intro q f' hf' ho
    rcases (put_iff hlt).mp hf' with ⟨rfl, rfl⟩ | ⟨-, hf'⟩
    · rw [hkey]
      exact h.running _ f hf (hrun ho)
    · exact h.running q f' hf' ho
  · intro q f' err hf' ho hh
    rcases (put_iff hlt).mp hf' with ⟨rfl, rfl⟩ | ⟨-, hf'⟩
    · rw [hkey]
      exact hrej err ho hh
    · exact h.rejected q f' err hf' ho hh
  · intro q f' hf' ht
    rcases (put_iff hlt).mp hf' with ⟨rfl, rfl⟩ | ⟨-, hf'⟩
    · exact htouched ht
    · exact h.touched q f' hf' ht

theorem put_evict (s : Flights K V) (key : K) (p : ℕ) (f : Fetch K V) :
    (s.put p f).evict key p = (s.evict key p).put p f := by
  unfold evict
  rw [put_cache]
  split_ifs <;> rfl

theorem share_sound (h : s.Sound) (key : K) (helper : Helper) : (s.share key helper).1.Sound := by
  rcases s.share_cases key helper with ⟨p, -, heq⟩ | ⟨hnone, heq⟩
  · rw [heq]
    exact h
  · rw [heq]
    exact start_sound h hnone helper

omit [DecidableEq K] in
theorem settle_sound (h : s.Sound) {r : Except Thrown V} (hs : s.settle p r = some s') :
    s'.Sound := by
  obtain ⟨f, hf, ho, rfl⟩ := settle_iff.mp hs
  refine put_sound h hf rfl (fun _ => ho) ?_ (by simp)
  intro _ _ hh
  exact absurd ho (h.touched p f hf (.inl hh))

theorem react_sound (h : s.Sound) (hs : s.react p = some s') : s'.Sound := by
  obtain ⟨f, r, t, hf, hr, -, ⟨hreact, rfl⟩ | rfl⟩ := react_cases hs
  · refine put_sound h hf rfl (by simp [hr]) ?_ (by simp [hr])
    intro err herr
    rw [hr, Option.some.injEq] at herr
    rw [herr, reaction_error] at hreact
    exact absurd rfl hreact
  · rw [put_evict]
    have hset : ∀ g, s.fetches[p]? = some g → g.outcome ≠ none := by
      intro g hg
      cases hf.symm.trans hg
      simp [hr]
    refine put_sound (f := f) (evict_sound h hset) (by rwa [evict_fetches]) rfl (by simp [hr]) ?_
      (by simp [hr])
    intro _ _ _ hc
    exact (evict_cache_iff.mp hc).2 ⟨rfl, rfl⟩

theorem expire_sound (h : s.Sound) (hs : s.expire p = some s') : s'.Sound := by
  obtain ⟨f, hf, ht, rfl⟩ := expire_cases hs
  have hset := h.touched p f hf (.inr ht)
  rw [put_evict]
  refine put_sound (f := f) (evict_sound h ?_) (by rwa [evict_fetches]) rfl (by simp) ?_
    (fun _ => hset)
  · intro g hg
    cases hf.symm.trans hg
    exact hset
  · intro _ _ _ hc
    exact (evict_cache_iff.mp hc).2 ⟨rfl, rfl⟩

end Sound

/-! ## Running fetches -/

def Running (s : Flights K V) (p : ℕ) : Prop := ∃ f, s.fetches[p]? = some f ∧ f.outcome = none

instance (s : Flights K V) (p : ℕ) : Decidable (s.Running p) :=
  decidable_of_iff ((s.fetches[p]?.any fun f => f.outcome.isNone) = true) <| by
    simp [Running, Option.any_eq_true]

def Settled (s : Flights K V) (p : ℕ) (r : Except Thrown V) : Prop :=
  ∃ f, s.fetches[p]? = some f ∧ f.outcome = some r

/-- Every fetch has settled. -/
def Quiet (s : Flights K V) : Prop := ∀ f ∈ s.fetches, f.outcome.isSome = true

instance (s : Flights K V) : Decidable s.Quiet := inferInstanceAs (Decidable (∀ f ∈ _, _))

section Running

variable {s s' : Flights K V} {key : K} {p q : ℕ}

omit [DecidableEq K] in
theorem Quiet.not_running (h : s.Quiet) : ¬ s.Running q := by
  rintro ⟨f, hf, ho⟩
  have := h f (List.mem_of_getElem? hf)
  simp [ho] at this

omit [DecidableEq K] in
theorem Running.lt (h : s.Running p) : p < s.fetches.length := by
  obtain ⟨f, hf, -⟩ := h
  exact lt_of_entry hf

omit [DecidableEq K] in
theorem Settled.unique {r r' : Except Thrown V} (h : s.Settled p r) (h' : s.Settled p r') :
    r = r' := by
  obtain ⟨f, hf, ho⟩ := h
  obtain ⟨f', hf', ho'⟩ := h'
  cases hf.symm.trans hf'
  exact Option.some.inj (ho.symm.trans ho')

omit [DecidableEq K] in
theorem Settled.not_running {r : Except Thrown V} (h : s.Settled p r) : ¬ s.Running p := by
  rintro ⟨f', hf', ho'⟩
  obtain ⟨f, hf, ho⟩ := h
  cases hf.symm.trans hf'
  cases ho.symm.trans ho'

omit [DecidableEq K] in
theorem settle_running {r : Except Thrown V} (hs : s.settle p r = some s') : s.Running p := by
  obtain ⟨f, hf, ho, -⟩ := settle_iff.mp hs
  exact ⟨f, hf, ho⟩

theorem running_of_start {helper : Helper} (h : (s.start key helper).Running p) :
    s.Running p ∨ p = s.fetches.length := by
  obtain ⟨f, hf, ho⟩ := h
  rcases add_iff.mp hf with hf | ⟨rfl, -⟩
  · exact .inl ⟨f, hf, ho⟩
  · exact .inr rfl

omit [DecidableEq K] in
theorem running_of_put {f g : Fetch K V} (hf : s.fetches[p]? = some f)
    (hrun : g.outcome = none → f.outcome = none) (h : (s.put p g).Running q) : s.Running q := by
  obtain ⟨f', hf', ho⟩ := h
  rcases (put_iff (lt_of_entry hf)).mp hf' with ⟨rfl, rfl⟩ | ⟨-, hf'⟩
  · exact ⟨f, hf, hrun ho⟩
  · exact ⟨f', hf', ho⟩

omit [DecidableEq K] in
theorem settled_of_put {f g : Fetch K V} {r : Except Thrown V} (hf : s.fetches[p]? = some f)
    (h : (s.put p g).Settled q r) : q = p ∧ g.outcome = some r ∨ s.Settled q r := by
  obtain ⟨f', hf', ho⟩ := h
  rcases (put_iff (lt_of_entry hf)).mp hf' with ⟨rfl, rfl⟩ | ⟨-, hf'⟩
  · exact .inl ⟨rfl, ho⟩
  · exact .inr ⟨f', hf', ho⟩

theorem settled_of_share {k : K} {helper : Helper} {r : Except Thrown V}
    (h : (s.share k helper).1.Settled q r) : s.Settled q r := by
  rcases s.share_cases k helper with ⟨p, -, heq⟩ | ⟨-, heq⟩
  · rwa [heq] at h
  · rw [heq] at h
    obtain ⟨f, hf, ho⟩ := h
    rcases add_iff.mp hf with hf | ⟨-, rfl⟩
    · exact ⟨f, hf, ho⟩
    · cases ho

omit [DecidableEq K] in
theorem settled_of_settle {r r' : Except Thrown V} (hs : s.settle p r = some s')
    (h : s'.Settled q r') : q = p ∧ r' = r ∨ s.Settled q r' := by
  obtain ⟨f, hf, -, rfl⟩ := settle_iff.mp hs
  exact (settled_of_put hf h).imp_left fun ⟨hq, ho⟩ => ⟨hq, (Option.some.inj ho).symm⟩

omit [DecidableEq K] in
theorem settle_settled {r : Except Thrown V} (hs : s.settle p r = some s') : s'.Settled p r := by
  obtain ⟨f, hf, -, rfl⟩ := settle_iff.mp hs
  exact ⟨_, (put_iff (lt_of_entry hf)).mpr (.inl ⟨rfl, rfl⟩), rfl⟩

theorem settled_of_react {r : Except Thrown V} (hs : s.react p = some s') (h : s'.Settled q r) :
    s.Settled q r := by
  obtain ⟨f, r', t, hf, -, -, ⟨-, rfl⟩ | rfl⟩ := react_cases hs
  · rcases settled_of_put hf h with ⟨rfl, ho⟩ | h
    · exact ⟨f, hf, ho⟩
    · exact h
  · have h : (s.put p { f with handled := true, timer := t }).Settled q r := by
      simpa only [Settled, evict_fetches] using h
    rcases settled_of_put hf h with ⟨rfl, ho⟩ | h
    · exact ⟨f, hf, ho⟩
    · exact h

/-- When nothing runs, any entry may be removed. -/
theorem delete_sound (h : s.Sound) (hquiet : s.Quiet) : (s.delete key).Sound := by
  refine ⟨?_, ?_, ?_, fun q f hf => h.touched q f hf⟩
  · intro k q hq
    exact h.stored k q (delete_cache_iff.mp hq).2
  · intro q f hf ho
    exact absurd ⟨f, hf, ho⟩ hquiet.not_running
  · intro q f err hf ho hh hc
    exact h.rejected q f err hf ho hh (delete_cache_iff.mp hc).2

end Running

/-! ## What a promise keeps -/

/-- Every fetch keeps its key, and its outcome once it has one. -/
def Keeps (s s' : Flights K V) : Prop :=
  ∀ (p : ℕ) f, s.fetches[p]? = some f → ∃ f', s'.fetches[p]? = some f' ∧ f'.key = f.key ∧
    ∀ r, f.outcome = some r → f'.outcome = some r

section Keeps

variable {s s' : Flights K V} {p : ℕ}

omit [DecidableEq K] in
theorem Keeps.refl (s : Flights K V) : s.Keeps s := fun _ f hf => ⟨f, hf, rfl, fun _ h => h⟩

omit [DecidableEq K] in
theorem keeps_put {f g : Fetch K V} (hf : s.fetches[p]? = some f)
    (hs : s'.fetches = s.fetches.set p g) (hkey : g.key = f.key)
    (ho : ∀ r, f.outcome = some r → g.outcome = some r) : s.Keeps s' := by
  intro q f' hf'
  rw [hs]
  rcases eq_or_ne q p with rfl | hne
  · cases hf'.symm.trans hf
    exact ⟨g, (put_iff (lt_of_entry hf)).mpr (.inl ⟨rfl, rfl⟩), hkey, ho⟩
  · exact ⟨f', (put_iff (lt_of_entry hf)).mpr (.inr ⟨hne, hf'⟩), rfl, fun _ h => h⟩

theorem share_keeps (s : Flights K V) (key : K) (helper : Helper) :
    s.Keeps (s.share key helper).1 := by
  rcases s.share_cases key helper with ⟨p, -, heq⟩ | ⟨-, heq⟩
  · rw [heq]
    exact .refl s
  · rw [heq]
    exact fun p f hf => ⟨f, add_iff.mpr (.inl hf), rfl, fun _ h => h⟩

omit [DecidableEq K] in
theorem settle_keeps {r : Except Thrown V} (h : s.settle p r = some s') : s.Keeps s' := by
  obtain ⟨f, hf, ho, rfl⟩ := settle_iff.mp h
  exact keeps_put hf put_fetches rfl (by simp [ho])

theorem react_keeps (h : s.react p = some s') : s.Keeps s' := by
  obtain ⟨f, r, t, hf, -, -, ⟨-, rfl⟩ | rfl⟩ := react_cases h
  · exact keeps_put hf put_fetches rfl fun _ h => h
  · exact keeps_put hf (evict_fetches.trans put_fetches) rfl fun _ h => h

theorem expire_keeps (h : s.expire p = some s') : s.Keeps s' := by
  obtain ⟨f, hf, -, rfl⟩ := expire_cases h
  exact keeps_put hf (evict_fetches.trans put_fetches) rfl fun _ h => h

omit [DecidableEq K] in
theorem Keeps.settled (h : s.Keeps s') {r : Except Thrown V} (hp : s.Settled p r) :
    s'.Settled p r := by
  obtain ⟨f, hf, ho⟩ := hp
  obtain ⟨f', hf', -, ho'⟩ := h p f hf
  exact ⟨f', hf', ho' r ho⟩

omit [DecidableEq K] in
theorem Keeps.length_le (h : s.Keeps s') : s.fetches.length ≤ s'.fetches.length := by
  by_contra hlt
  obtain ⟨f, hf⟩ : ∃ f, s.fetches[s'.fetches.length]? = some f :=
    ⟨_, List.getElem?_eq_getElem (not_le.mp hlt)⟩
  obtain ⟨f', hf', -⟩ := h _ f hf
  exact lt_irrefl _ (lt_of_entry hf')

/-- Nothing is started, and nothing stored that was not. -/
structure Shrinks (s s' : Flights K V) : Prop where
  keeps : s.Keeps s'
  length_eq : s'.fetches.length = s.fetches.length
  running : ∀ q, s'.Running q → s.Running q
  cache : ∀ k q, s'.cache k = some q → s.cache k = some q

omit [DecidableEq K] in
theorem Shrinks.refl (s : Flights K V) : s.Shrinks s :=
  ⟨.refl s, rfl, fun _ h => h, fun _ _ h => h⟩

theorem delete_shrinks (s : Flights K V) (key : K) : s.Shrinks (s.delete key) :=
  ⟨fun _ f hf => ⟨f, hf, rfl, fun _ h => h⟩, rfl, fun _ h => h,
    fun _ _ h => (delete_cache_iff.mp h).2⟩

omit [DecidableEq K] in
theorem settle_shrinks {r : Except Thrown V} (h : s.settle p r = some s') : s.Shrinks s' := by
  refine ⟨settle_keeps h, ?_, ?_, ?_⟩ <;> obtain ⟨f, hf, ho, rfl⟩ := settle_iff.mp h
  · exact List.length_set
  · exact fun q hq => running_of_put hf (fun _ => ho) hq
  · exact fun _ _ hq => hq

theorem react_shrinks (h : s.react p = some s') : s.Shrinks s' := by
  refine ⟨react_keeps h, ?_, ?_, ?_⟩ <;>
    obtain ⟨f, r, t, hf, hr, -, ⟨-, rfl⟩ | rfl⟩ := react_cases h
  · exact List.length_set
  · rw [evict_fetches]
    exact List.length_set
  · exact fun q hq => running_of_put (g := { f with handled := true, timer := t }) hf id hq
  · intro q hq
    refine running_of_put (g := { f with handled := true, timer := t }) hf id ?_
    simpa only [Running, evict_fetches] using hq
  · exact fun _ _ hq => hq
  · exact fun _ _ hq => (evict_cache_iff.mp hq).1

omit [DecidableEq K] in
theorem Shrinks.keyed (h : s.Shrinks s') {k : K}
    (hk : ∀ (p : ℕ) f, s.fetches[p]? = some f → f.key = k) :
    ∀ (p : ℕ) f, s'.fetches[p]? = some f → f.key = k := by
  intro p f' hf'
  have hlt := lt_of_entry hf'
  rw [h.length_eq] at hlt
  obtain ⟨f'', hf'', hkey, -⟩ := h.keeps p _ (List.getElem?_eq_getElem hlt)
  cases hf'.symm.trans hf''
  exact hkey.trans (hk p _ (List.getElem?_eq_getElem hlt))

theorem share_keyed {k : K} (hk : ∀ (p : ℕ) f, s.fetches[p]? = some f → f.key = k)
    (helper : Helper) : ∀ (p : ℕ) f, (s.share k helper).1.fetches[p]? = some f → f.key = k := by
  rcases s.share_cases k helper with ⟨q, -, heq⟩ | ⟨-, heq⟩
  · rw [heq]
    exact hk
  · rw [heq]
    intro p f hf
    rcases add_iff.mp hf with hf | ⟨-, rfl⟩
    · exact hk p f hf
    · rfl

end Keeps

end Flights

/-! ## Calls in any order -/

/-- A caller: the promise it was given, none when `fn` threw, and what it received. -/
structure Caller (V : Type) where
  promise : Option ℕ
  received : Option (Except Thrown V) := none

structure Coalescing (K V : Type) where
  flights : Flights K V := {}
  callers : List (Caller V) := []

/-- `fn` is called when there is no entry, and may throw before it has a promise. -/
inductive CoalesceEvent (K V : Type) where
  | call (helper : Helper) (key : K) (fn : Except Thrown Unit)
  | settle (promise : ℕ) (r : Except Thrown V)
  | react (promise : ℕ)
  | expire (promise : ℕ)
  | resume (caller : ℕ)

namespace Coalescing

variable {K V : Type} [DecidableEq K]

def call (s : Coalescing K V) (helper : Helper) (key : K) (fn : Except Thrown Unit) :
    Coalescing K V :=
  match s.flights.cache key, fn with
  | none, .error err =>
    { s with callers := s.callers ++ [{ promise := none, received := some (.error err) }] }
  | _, _ =>
    let (flights, promise) := s.flights.callHelper key helper
    { flights := flights, callers := s.callers ++ [{ promise := some promise }] }

/-- The caller goes on, once its promise has settled. -/
def resume (s : Coalescing K V) (c : ℕ) : Option (Coalescing K V) := do
  let caller ← s.callers[c]?
  let promise ← caller.promise
  let f ← s.flights.fetches[promise]?
  let r ← f.outcome
  if caller.received.isSome then none
  else some { s with callers := s.callers.set c { caller with received := some r } }

def step (s : Coalescing K V) : CoalesceEvent K V → Option (Coalescing K V)
  | .call helper key fn => some (s.call helper key fn)
  | .settle promise r => (s.flights.settle promise r).map fun flights => { s with flights := flights }
  | .react promise => (s.flights.react promise).map fun flights => { s with flights := flights }
  | .expire promise => (s.flights.expire promise).map fun flights => { s with flights := flights }
  | .resume c => s.resume c

variable {s s' : Coalescing K V} {e : CoalesceEvent K V} {c p : ℕ}

theorem call_cases (s : Coalescing K V) (helper : Helper) (key : K) (fn : Except Thrown Unit) :
    (∃ err, s.flights.cache key = none ∧ fn = .error err ∧ s.call helper key fn =
        { s with callers := s.callers ++ [{ promise := none, received := some (.error err) }] }) ∨
      s.call helper key fn =
        { flights := (s.flights.share key helper).1,
          callers := s.callers ++ [{ promise := some (s.flights.share key helper).2 }] } := by
  cases hc : s.flights.cache key with
  | none =>
    cases fn with
    | error err => exact .inl ⟨err, rfl, rfl, by simp [call, hc]⟩
    | ok _ => exact .inr (by simp only [call, hc, Flights.callHelper_eq])
  | some p => exact .inr (by simp only [call, hc, Flights.callHelper_eq])

/-- What one step can do. -/
theorem step_cases (h : s.step e = some s') :
    (∃ helper key fn, e = .call helper key fn ∧ s' = s.call helper key fn) ∨
      (∃ flights, s' = { s with flights := flights } ∧ s.flights.Keeps flights ∧
        (s.flights.Sound → flights.Sound)) ∨
      ∃ c caller p f r, e = .resume c ∧ s.callers[c]? = some caller ∧ caller.promise = some p ∧
        s.flights.fetches[p]? = some f ∧ f.outcome = some r ∧
        s' = { s with callers := s.callers.set c { caller with received := some r } } := by
  cases e with
  | call helper key fn =>
    cases h
    exact .inl ⟨helper, key, fn, rfl, rfl⟩
  | settle promise r =>
    obtain ⟨flights, hf, rfl⟩ := Option.map_eq_some_iff.mp h
    exact .inr (.inl ⟨flights, rfl, Flights.settle_keeps hf, (Flights.settle_sound · hf)⟩)
  | react promise =>
    obtain ⟨flights, hf, rfl⟩ := Option.map_eq_some_iff.mp h
    exact .inr (.inl ⟨flights, rfl, Flights.react_keeps hf, (Flights.react_sound · hf)⟩)
  | expire promise =>
    obtain ⟨flights, hf, rfl⟩ := Option.map_eq_some_iff.mp h
    exact .inr (.inl ⟨flights, rfl, Flights.expire_keeps hf, (Flights.expire_sound · hf)⟩)
  | resume c =>
    simp only [step, resume, Option.bind_eq_bind, Option.bind_eq_some_iff] at h
    obtain ⟨caller, hc, p, hp, f, hf, r, hr, h⟩ := h
    split_ifs at h
    cases h
    exact .inr (.inr ⟨c, caller, p, f, r, rfl, hc, hp, hf, hr, rfl⟩)

theorem step_sound (h : s.flights.Sound) (hs : s.step e = some s') : s'.flights.Sound := by
  obtain ⟨helper, key, fn, -, rfl⟩ | ⟨flights, rfl, -, hk⟩ | ⟨c, caller, p, f, r, -, -, -, -, -, rfl⟩ :=
    step_cases hs
  · rcases s.call_cases helper key fn with ⟨err, -, -, heq⟩ | heq
    · rw [heq]
      exact h
    · rw [heq]
      exact Flights.share_sound h key helper
  · exact hk h
  · exact h

theorem run_sound {log : List (CoalesceEvent K V)} (h : run step {} log = some s) :
    s.flights.Sound :=
  run_induction (P := fun s _ => s.flights.Sound) Flights.sound_empty
    (fun _ _ _ _ hP hs => step_sound hP hs) h

/-- The caller was given this promise, and receives nothing but its outcome. -/
def ServedBy (s : Coalescing K V) (c p : ℕ) : Prop :=
  ∃ caller f, s.callers[c]? = some caller ∧ caller.promise = some p ∧
    s.flights.fetches[p]? = some f ∧ ∀ r, caller.received = some r → f.outcome = some r

omit [DecidableEq K] in
/-- What keeps the promises keeps who is served by them. -/
theorem ServedBy.keeps (h : s.ServedBy c p) {flights : Flights K V}
    (hk : s.flights.Keeps flights) (hflights : s'.flights = flights)
    (hcallers : ∀ caller, s.callers[c]? = some caller → s'.callers[c]? = some caller) :
    s'.ServedBy c p := by
  obtain ⟨caller, f, hc, hp, hf, hr⟩ := h
  obtain ⟨f', hf', -, ho⟩ := hk p f hf
  exact ⟨caller, f', hcallers caller hc, hp, by rwa [hflights], fun r h => ho r (hr r h)⟩

theorem ServedBy.step (h : s.ServedBy c p) (hs : s.step e = some s') : s'.ServedBy c p := by
  obtain ⟨helper, key, fn, -, rfl⟩ | ⟨flights, rfl, hk, -⟩ |
    ⟨c', caller', p', f', r, -, hc', hp', hf', hr', rfl⟩ := step_cases hs
  · rcases s.call_cases helper key fn with ⟨err, -, -, heq⟩ | heq
    · rw [heq]
      exact h.keeps (.refl _) rfl fun caller hc => add_iff.mpr (.inl hc)
    · rw [heq]
      exact h.keeps (Flights.share_keeps _ _ _) rfl fun caller hc => add_iff.mpr (.inl hc)
  · exact h.keeps hk rfl fun caller hc => hc
  · rcases eq_or_ne c c' with rfl | hne
    · obtain ⟨caller, f, hc, hp, hf, -⟩ := h
      cases hc.symm.trans hc'
      cases hp.symm.trans hp'
      cases hf.symm.trans hf'
      refine ⟨_, f', (put_iff (lt_of_entry hc)).mpr (.inl ⟨rfl, rfl⟩), hp, hf, ?_⟩
      intro r' h
      cases h
      exact hr'
    · exact h.keeps (.refl _) rfl fun caller hc =>
        (put_iff (lt_of_entry hc')).mpr (.inr ⟨hne, hc⟩)

theorem ServedBy.run {log : List (CoalesceEvent K V)} (h : s.ServedBy c p)
    (hs : run Coalescing.step s log = some s') : s'.ServedBy c p :=
  run_induction (P := fun s _ => s.ServedBy c p) h (fun _ _ _ _ hP hs => hP.step hs) hs

/-! ## One fetch per key -/

/-- What holds at any time: at most one fetch runs per key (`one`); who calls while it runs is
served by it (`shared`) and gets its outcome once there is one (`delivered`); a rejection that was
handled is not given out (`fresh`); an eviction leaves every other promise in the map (`evicts`). -/
structure SingleFlight (s : Coalescing K V) : Prop where
  one : ∀ (p q : ℕ) f g, s.flights.fetches[p]? = some f → s.flights.fetches[q]? = some g →
    f.outcome = none → g.outcome = none → f.key = g.key → p = q
  shared : ∀ (p : ℕ) f helper fn s₁ log s₂, s.flights.fetches[p]? = some f → f.outcome = none →
    s.step (.call helper f.key fn) = some s₁ → run step s₁ log = some s₂ →
    s₂.ServedBy s.callers.length p
  delivered : ∀ (c p : ℕ) caller f r, s.callers[c]? = some caller → caller.promise = some p →
    caller.received = none → s.flights.fetches[p]? = some f → f.outcome = some r →
    ∃ s₁, s.step (.resume c) = some s₁ ∧ s₁.callers[c]? = some { caller with received := some r }
  fresh : ∀ (p : ℕ) f err helper fn s₁ caller, s.flights.fetches[p]? = some f →
    f.outcome = some (.error err) → f.handled = true →
    s.step (.call helper f.key fn) = some s₁ → s₁.callers[s.callers.length]? = some caller →
    caller.promise ≠ some p
  evicts : ∀ (p : ℕ) s₁, s.step (.react p) = some s₁ ∨ s.step (.expire p) = some s₁ →
    ∀ key q, q ≠ p → s.flights.cache key = some q → s₁.flights.cache key = some q

/-- A call that finds an entry is given it. -/
theorem call_of_entry {helper : Helper} {key : K} {fn : Except Thrown Unit}
    (hc : s.flights.cache key = some p) :
    s.call helper key fn = { s with callers := s.callers ++ [{ promise := some p }] } := by
  rcases s.call_cases helper key fn with ⟨err, hnone, -⟩ | heq
  · rw [hc] at hnone
    cases hnone
  · rw [heq, Flights.share, hc]

/-- What a call is given is an entry, or new. -/
theorem call_promise {helper : Helper} {key : K} {fn : Except Thrown Unit} {caller : Caller V}
    (hc : (s.call helper key fn).callers[s.callers.length]? = some caller)
    (hp : caller.promise = some p) :
    s.flights.cache key = some p ∨ p = s.flights.fetches.length := by
  rcases s.call_cases helper key fn with ⟨err, -, -, heq⟩ | heq
  · rw [heq] at hc
    rcases add_iff.mp hc with hc | ⟨-, rfl⟩
    · exact absurd (lt_of_entry hc) (lt_irrefl _)
    · cases hp
  · rw [heq] at hc
    rcases add_iff.mp hc with hc | ⟨-, rfl⟩
    · exact absurd (lt_of_entry hc) (lt_irrefl _)
    · cases hp
      rcases s.flights.share_cases key helper with ⟨q, hq, hs⟩ | ⟨-, hs⟩
      · rw [hs]
        exact .inl hq
      · rw [hs]
        exact .inr rfl

theorem evicts_only {s₁ : Coalescing K V} (h : s.step (.react p) = some s₁ ∨
    s.step (.expire p) = some s₁) {key : K} {q : ℕ} (hne : q ≠ p)
    (hq : s.flights.cache key = some q) : s₁.flights.cache key = some q := by
  have hevict : ∀ k, (s.flights.evict k p).cache key = some q := fun k =>
    Flights.evict_cache_iff.mpr ⟨hq, fun h => hne h.2⟩
  rcases h with h | h
  · obtain ⟨flights, hf, rfl⟩ := Option.map_eq_some_iff.mp h
    obtain ⟨f, r, t, -, -, -, ⟨-, rfl⟩ | rfl⟩ := Flights.react_cases hf
    · exact hq
    · rw [Flights.put_evict]
      exact hevict f.key
  · obtain ⟨flights, hf, rfl⟩ := Option.map_eq_some_iff.mp h
    obtain ⟨f, -, -, rfl⟩ := Flights.expire_cases hf
    rw [Flights.put_evict]
    exact hevict f.key

/-- **One fetch per key**, in any order of calls, settlements, continuations and timers. -/
theorem coalesce_single_flight {log : List (CoalesceEvent K V)} (h : run step {} log = some s) :
    s.SingleFlight := by
  have hs := run_sound h
  refine ⟨?_, ?_, ?_, ?_, fun p s₁ h key q => evicts_only h⟩
  · intro p q f g hf hg hfo hgo hkey
    have hp := hs.running p f hf hfo
    rw [hkey, hs.running q g hg hgo] at hp
    exact (Option.some.inj hp).symm
  · intro p f helper fn s₁ log s₂ hf ho h₁ h₂
    refine ServedBy.run ?_ h₂
    cases h₁
    rw [call_of_entry (hs.running p f hf ho)]
    exact ⟨_, f, add_iff.mpr (.inr ⟨rfl, rfl⟩), rfl, hf, by simp⟩
  · intro c p caller f r hc hp hr hf ho
    refine ⟨{ s with callers := s.callers.set c { caller with received := some r } }, ?_,
      (put_iff (lt_of_entry hc)).mpr (.inl ⟨rfl, rfl⟩)⟩
    simp [step, resume, hc, hp, hf, ho, hr]
  · intro p f err helper fn s₁ caller hf ho hh h₁ hc hp
    cases h₁
    rcases call_promise hc hp with hp | hp
    · exact hs.rejected p f err hf ho hh hp
    · have := lt_of_entry hf
      omega

/-- Two callers share a fetch that fails; a third, after its rejection was handled, starts another. -/
def retryLog : List (CoalesceEvent ℕ ℕ) :=
  [.call (.coalesceAsync none) 7 (.ok ()), .call .coalesceInFlight 7 (.ok ()),
    .settle 0 (throwNew "fetch failed"), .react 0, .resume 0, .resume 1,
    .call (.coalesceAsync (some (.fin 500))) 7 (.ok ()), .settle 1 (.ok 3), .react 1, .expire 1]

theorem coalesce_single_flight_retry :
    ∃ s : Coalescing ℕ ℕ, run step {} retryLog = some s ∧ s.SingleFlight := by
  obtain ⟨s, hs⟩ := Option.isSome_iff_exists.mp (rfl : (run step {} retryLog).isSome = true)
  exact ⟨s, hs, coalesce_single_flight hs⟩

end Coalescing

end StreamFi
