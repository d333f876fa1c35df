import StreamFi.Run.Pool
import StreamFi.Run.Table
import StreamFi.Stellar

/-!
# Stream addresses

`FactoryModule.streamAddress` keeps the address of a stream for good and a not-found answer for some
time. Lookups are not shared: several of one id may be under way. `streamAddresses` runs a lookup for
each of its ids, a few at a time.

* `AddressCache.step`: lookups, batches, answers and clears, in any order;
* `AddressCache.Kept`: what every step keeps when no not-found answer lands on a found address;
* **`found_address_kept`**: a found address is served until a clear.
-/

namespace StreamFi

open Js Run

/-! ## Ids -/

/-- `bigint | string`. -/
inductive StreamId where
  | bigint (n : ℤ)
  | text (s : String)

/-- `BigInt(streamId).toString()`. -/
def StreamId.key : StreamId → Except Thrown String
  | .bigint n => .ok (toString n)
  | .text s => match bigInt s with
    | some n => .ok (toString n)
    | none => .error (errorOf "SyntaxError" s!"Cannot convert {s} to a BigInt")

/-- A key is its own key. -/
theorem StreamId.key_text {id : StreamId} {key : String} (h : id.key = .ok key) :
    (StreamId.text key).key = .ok key := by
  obtain ⟨n, rfl⟩ : ∃ n : ℤ, key = toString n := by
    cases id with
    | bigint n =>
      cases h
      exact ⟨n, rfl⟩
    | text s =>
      simp only [StreamId.key] at h
      split at h
      · cases h
        exact ⟨_, rfl⟩
      · cases h
  simp only [StreamId.key, bigInt_toString]

/-! ## The machine -/

inductive LookupPhase where
  | waiting (key : String)
  | returned (addr : Option String)
  | threw (err : Thrown)

/-- A lookup; `expects` when its id had been found, with no clear since, as it started. -/
structure AddressLookup where
  id : StreamId
  expects : Bool
  phase : LookupPhase

/-- A `streamAddresses` call, with the lookups its workers have started so far, in the order of the
keys; `expects` holds for the keys found before the call, with no clear since. -/
structure AddressBatch where
  keys : List String
  workers : ℕ
  lookups : List ℕ := []
  expects : String → Bool

/-- The address side of a `FactoryModule`; `found` holds for the keys that a lookup has found since
the last clear. -/
structure AddressCache where
  addressCache : String → Option (Option String) := fun _ => none
  negativeCacheExpiry : String → Option Number := fun _ => none
  cacheHits : ℕ := 0
  cacheMisses : ℕ := 0
  lookups : List AddressLookup := []
  batches : List AddressBatch := []
  found : String → Bool := fun _ => false

/-- An answer is what the caller's address, the transaction and the simulation come to; `take` is a
worker that goes on to its next id. `now` is what `Date.now()` reads. -/
inductive AddressEvent where
  | streamAddress (id : StreamId) (aborted : Bool) (now : Number)
  | answer (lookup : ℕ) (r : Except Thrown ScVal) (now : Number)
  | streamAddresses (ids : List StreamId) (aborted : Bool) (maxConcurrency : Option Number)
  | take (batch : ℕ) (aborted : Bool) (now : Number)
  | clearAddressCache

/-- `NEGATIVE_ADDRESS_CACHE_TTL_MS`. -/
def negativeAddressCacheTtlMs : Number := .fin 30000

/-- `DEFAULT_LIST_CONCURRENCY`. -/
def defaultListConcurrency : Number := .fin 8

/-- The workers of `mapWithConcurrency`. -/
def workerCount (concurrency : Number) (len : ℕ) : ℕ :=
  let n := if concurrency.trunc.truthy then concurrency.trunc else .fin 1
  (Number.min (Number.max (.fin 1) n) (.fin len)).toNat

/-- What a simulation found. -/
def resolvedAddress (val : ScVal) : Option String :=
  if val.switchName = "scvVoid" then none else (addressFromScVal val).toOption

/-- The keys of a batch, each once. -/
def dedupKeys : List String → List StreamId → Except Thrown (List String)
  | keys, [] => .ok keys
  | keys, id :: ids => do
    let key ← id.key
    dedupKeys (if key ∈ keys then keys else keys ++ [key]) ids

namespace AddressCache

def addLookup (s : AddressCache) (id : StreamId) (expects : Bool) (phase : LookupPhase) :
    AddressCache :=
  { s with lookups := s.lookups ++ [{ id := id, expects := expects, phase := phase }] }

/-- The lookup, up to its first await. -/
def streamAddress (s : AddressCache) (id : StreamId) (aborted : Bool) (now : Number) :
    AddressCache :=
  match id.key with
  | .error err => s.addLookup id false (.threw err)
  | .ok key =>
    let expects := s.found key
    if aborted then s.addLookup id expects (.threw abortError)
    else match s.addressCache key with
      | some (some addr) =>
        let s := { s with cacheHits := s.cacheHits + 1, found := Function.update s.found key true }
        s.addLookup id expects (.returned (some addr))
      | some none =>
        let s := { s with cacheHits := s.cacheHits + 1 }
        if now.lt ((s.negativeCacheExpiry key).getD (.fin 0)) then
          s.addLookup id expects (.returned none)
        else
          let s := { s with
            addressCache := Function.update s.addressCache key none
            negativeCacheExpiry := Function.update s.negativeCacheExpiry key none
            cacheMisses := s.cacheMisses + 1 }
          s.addLookup id expects (.waiting key)
      | none =>
        let s := { s with cacheMisses := s.cacheMisses + 1 }
        s.addLookup id expects (.waiting key)

def setPhase (s : AddressCache) (l : ℕ) (lookup : AddressLookup) (phase : LookupPhase) :
    AddressCache :=
  { s with lookups := s.lookups.set l { lookup with phase := phase } }

/-- `_cacheNegative`. -/
def cacheNegative (negativeCacheTtlMs : Number) (s : AddressCache) (key : String) (now : Number) :
    AddressCache :=
  { s with
    addressCache := Function.update s.addressCache key (some none)
    negativeCacheExpiry :=
      Function.update s.negativeCacheExpiry key (some (now.add negativeCacheTtlMs)) }

def cacheFound (s : AddressCache) (key addr : String) : AddressCache :=
  { s with
    addressCache := Function.update s.addressCache key (some (some addr))
    found := Function.update s.found key true }

/-- The rest of a lookup. -/
def answer (negativeCacheTtlMs : Number) (s : AddressCache) (l : ℕ) (r : Except Thrown ScVal)
    (now : Number) : Option AddressCache := do
  let lookup ← s.lookups[l]?
  match lookup.phase, r with
  | .waiting _, .error err => some (s.setPhase l lookup (.threw err))
  | .waiting key, .ok val => match resolvedAddress val with
    | some addr => some ((s.cacheFound key addr).setPhase l lookup (.returned (some addr)))
    | none =>
      some ((s.cacheNegative negativeCacheTtlMs key now).setPhase l lookup (.returned none))
  | _, _ => none

/-- The call, which changes nothing when it throws. -/
def streamAddresses (s : AddressCache) (ids : List StreamId) (aborted : Bool)
    (maxConcurrency : Option Number) : AddressCache :=
  if aborted then s
  else match dedupKeys [] ids with
    | .error _ => s
    | .ok keys =>
      let workers := workerCount (maxConcurrency.getD defaultListConcurrency) keys.length
      { s with batches := s.batches ++ [{ keys := keys, workers := workers, expects := s.found }] }

/-- What a lookup has returned. -/
def addressOf (s : AddressCache) (l : ℕ) : Option (Option String) :=
  match s.lookups[l]?.map AddressLookup.phase with
  | some (.returned addr) => some addr
  | _ => none

/-- The workers that are not free: those of a lookup without a result. -/
def busy (s : AddressCache) (batch : AddressBatch) : ℕ :=
  batch.lookups.countP fun l => (s.addressOf l).isNone

def take (s : AddressCache) (b : ℕ) (aborted : Bool) (now : Number) : Option AddressCache := do
  let batch ← s.batches[b]?
  let key ← batch.keys[batch.lookups.length]?
  if s.busy batch < batch.workers then
    let batch := { batch with lookups := batch.lookups ++ [s.lookups.length] }
    some { s.streamAddress (.text key) aborted now with batches := s.batches.set b batch }
  else none

/-- The map that `streamAddresses` returns, once every lookup has a result. -/
def out (s : AddressCache) (batch : AddressBatch) : Option (List (String × Option String)) :=
  if batch.lookups.length = batch.keys.length ∧ ∀ l ∈ batch.lookups, (s.addressOf l).isSome then
    some ((batch.keys.zip batch.lookups).map fun (key, l) => (key, (s.addressOf l).join))
  else none

def clearAddressCache (s : AddressCache) : AddressCache :=
  { s with
    addressCache := fun _ => none
    negativeCacheExpiry := fun _ => none
    found := fun _ => false
    batches := s.batches.map fun batch => { batch with expects := fun _ => false } }

def step (negativeCacheTtlMs : Number) (s : AddressCache) : AddressEvent → Option AddressCache
  | .streamAddress id aborted now => some (s.streamAddress id aborted now)
  | .answer l r now => s.answer negativeCacheTtlMs l r now
  | .streamAddresses ids aborted maxConcurrency => some (s.streamAddresses ids aborted maxConcurrency)
  | .take b aborted now => s.take b aborted now
  | .clearAddressCache => some s.clearAddressCache

/-- A not-found answer never lands while an address of its id is cached. -/
def QuietAnswer (s : AddressCache) (e : AddressEvent) : Prop :=
  ∀ l val now lookup key addr, e = .answer l (.ok val) now → s.lookups[l]? = some lookup →
    lookup.phase = .waiting key → s.addressCache key = some (some addr) → resolvedAddress val ≠ none

end AddressCache

/-! ## What every step keeps -/

/-- A lookup of a found id has an address, or threw. -/
def AddressLookup.Served (lookup : AddressLookup) : Prop :=
  lookup.expects = true →
    (∃ addr, lookup.phase = .returned (some addr)) ∨ ∃ err, lookup.phase = .threw err

namespace AddressCache

/-- A found address is cached. -/
def Cached (s : AddressCache) : Prop :=
  ∀ key, s.found key = true → ∃ addr, s.addressCache key = some (some addr)

/-- What a batch expects was found, and the lookups it has started for that expect it too. -/
structure Serves (s : AddressCache) (batch : AddressBatch) : Prop where
  keyed : ∀ key ∈ batch.keys, (StreamId.text key).key = .ok key
  expects : ∀ key, batch.expects key = true → s.found key = true
  lookups : ∀ (i l : ℕ) key, batch.keys[i]? = some key → batch.lookups[i]? = some l →
    ∃ lookup, s.lookups[l]? = some lookup ∧ (batch.expects key = true → lookup.expects = true)

structure Kept (s : AddressCache) : Prop where
  cached : s.Cached
  lookups : ∀ lookup ∈ s.lookups, lookup.Served
  batches : ∀ batch ∈ s.batches, s.Serves batch

/-- What starting a lookup does. -/
structure Starts (s s' : AddressCache) (id : StreamId) : Prop where
  cached : s'.Cached
  found : ∀ key, s.found key = true → s'.found key = true
  batches : s'.batches = s.batches
  lookup : ∃ lookup, s'.lookups = s.lookups ++ [lookup] ∧ lookup.Served ∧
    ∀ key, id.key = .ok key → lookup.expects = s.found key

section Kept

variable {s s' : AddressCache} {id : StreamId} {key : String} {e : AddressEvent} {ttlMs : Number}

theorem Serves.mono {batch : AddressBatch} (h : s.Serves batch)
    (hfound : ∀ key, s.found key = true → s'.found key = true)
    (hlookups : ∀ (l : ℕ) lookup, s.lookups[l]? = some lookup →
      ∃ lookup', s'.lookups[l]? = some lookup' ∧ lookup'.expects = lookup.expects) :
    s'.Serves batch := by
  refine ⟨h.keyed, fun key hk => hfound key (h.expects key hk), ?_⟩
  intro i l key hi hl
  obtain ⟨lookup, hlookup, hexpects⟩ := h.lookups i l key hi hl
  obtain ⟨lookup', hlookup', heq⟩ := hlookups l lookup hlookup
  exact ⟨lookup', hlookup', fun hk => heq.trans (hexpects hk)⟩

theorem cached_found (h : s.Cached) (addr : String) : (s.cacheFound key addr).Cached := by
  intro k hk
  rcases eq_or_ne k key with rfl | hne
  · exact ⟨addr, by simp [cacheFound]⟩
  · simp only [cacheFound, Function.update_of_ne hne] at hk ⊢
    exact h k hk

theorem not_found_of (h : s.Cached) (hno : ∀ addr, s.addressCache key ≠ some (some addr)) :
    s.found key = false := by
  rw [Bool.eq_false_iff]
  intro hk
  obtain ⟨addr, haddr⟩ := h key hk
  exact hno addr haddr

theorem cached_drop (h : s.Cached) (hkey : s.found key = false) (v : Option (Option String)) :
    ∀ k, s.found k = true → ∃ addr, Function.update s.addressCache key v k = some (some addr) := by
  intro k hk
  have hne : k ≠ key := by
    rintro rfl
    rw [hkey] at hk
    cases hk
  rw [Function.update_of_ne hne]
  exact h k hk

theorem starts_addLookup {s₁ : AddressCache} {expects : Bool} {phase : LookupPhase}
    (hcached : s₁.Cached) (hfound : ∀ key, s.found key = true → s₁.found key = true)
    (hbatches : s₁.batches = s.batches) (hlookups : s₁.lookups = s.lookups)
    (hserved : expects = true → (∃ addr, phase = .returned (some addr)) ∨ ∃ err, phase = .threw err)
    (hexpects : ∀ key, id.key = .ok key → expects = s.found key) :
    s.Starts (s₁.addLookup id expects phase) id := by
  refine ⟨hcached, hfound, hbatches, { id := id, expects := expects, phase := phase }, ?_, hserved,
    hexpects⟩
  rw [addLookup, hlookups]

/-- **One lookup**: it serves a found address, and keeps what was found. -/
theorem streamAddress_starts (h : s.Cached) (id : StreamId) (aborted : Bool) (now : Number) :
    s.Starts (s.streamAddress id aborted now) id := by
  unfold streamAddress
  cases hid : id.key with
  | error err =>
    exact starts_addLookup h (fun _ hk => hk) rfl rfl (fun hf => by cases hf)
      fun key hk => by rw [hid] at hk; cases hk
  | ok key =>
    have hexpects : ∀ k, id.key = .ok k → s.found key = s.found k := by
      intro k hk
      rw [hid] at hk
      cases hk
      rfl
    simp only
    by_cases ha : aborted = true
    · rw [if_pos ha]
      exact starts_addLookup h (fun _ hk => hk) rfl rfl (fun _ => .inr ⟨_, rfl⟩) hexpects
    rw [if_neg ha]
    cases hc : s.addressCache key with
    | none =>
      have hnot : s.found key = false := not_found_of h (by simp [hc])
      refine starts_addLookup h (fun _ hk => hk) rfl rfl ?_ hexpects
      rw [hnot]
      exact fun hf => by cases hf
    | some cached =>
      cases cached with
      | none =>
        have hnot : s.found key = false := not_found_of h (by simp [hc])
        simp only
        split_ifs
        · refine starts_addLookup h (fun _ hk => hk) rfl rfl ?_ hexpects
          rw [hnot]
          exact fun hf => by cases hf
        · refine starts_addLookup (cached_drop h hnot none) (fun _ hk => hk) rfl rfl ?_ hexpects
          rw [hnot]
          exact fun hf => by cases hf
      | some addr =>
        refine starts_addLookup ?_ ?_ rfl rfl (fun _ => .inl ⟨addr, rfl⟩) hexpects
        · intro k hk
          rcases eq_or_ne k key with rfl | hne
          · exact ⟨addr, hc⟩
          · exact h k (by simpa [Function.update_of_ne hne] using hk)
        · intro k hk
          rcases eq_or_ne k key with rfl | hne
          · simp
          · simpa [Function.update_of_ne hne] using hk

theorem Starts.served (h : s.Starts s' id) {batch : AddressBatch} (hb : s.Serves batch) :
    s'.Serves batch := by
  obtain ⟨lookup, heq, -⟩ := h.lookup
  refine hb.mono h.found fun l lookup' hl => ⟨lookup', ?_, rfl⟩
  rw [heq]
  exact add_iff.mpr (.inl hl)

theorem Kept.streamAddress (h : s.Kept) (id : StreamId) (aborted : Bool) (now : Number) :
    (s.streamAddress id aborted now).Kept := by
  have hs := streamAddress_starts h.cached id aborted now
  obtain ⟨lookup, heq, hserved, -⟩ := hs.lookup
  refine ⟨hs.cached, ?_, ?_⟩
  · intro l hl
    rw [heq] at hl
    rcases List.mem_append.mp hl with hl | hl
    · exact h.lookups l hl
    · rw [List.mem_singleton.mp hl]
      exact hserved
  · rw [hs.batches]
    exact fun batch hb => hs.served (h.batches batch hb)

theorem dedupKeys_keyed {ids : List StreamId} {keys keys' : List String}
    (h : dedupKeys keys ids = .ok keys')
    (hk : ∀ key ∈ keys, (StreamId.text key).key = .ok key) :
    ∀ key ∈ keys', (StreamId.text key).key = .ok key := by
  induction ids generalizing keys with
  | nil =>
    cases h
    exact hk
  | cons id ids ih =>
    obtain ⟨key, hkey, h⟩ := seq_ok_iff.mp h
    refine ih h ?_
    split_ifs
    · exact hk
    · intro k hmem
      rcases List.mem_append.mp hmem with hmem | hmem
      · exact hk k hmem
      · rw [List.mem_singleton.mp hmem]
        exact StreamId.key_text hkey

theorem Kept.streamAddresses (h : s.Kept) (ids : List StreamId) (aborted : Bool)
    (maxConcurrency : Option Number) : (s.streamAddresses ids aborted maxConcurrency).Kept := by
  unfold AddressCache.streamAddresses
  split_ifs
  · exact h
  cases hkeys : dedupKeys [] ids with
  | error err => exact h
  | ok keys =>
    refine ⟨h.cached, h.lookups, ?_⟩
    intro batch hb
    rcases List.mem_append.mp hb with hb | hb
    · exact (h.batches batch hb).mono (fun _ hk => hk) fun _ lookup hl => ⟨lookup, hl, rfl⟩
    · rw [List.mem_singleton.mp hb]
      exact ⟨dedupKeys_keyed hkeys (by simp), fun _ hk => hk, fun i l key _ hl => by simp at hl⟩

theorem Kept.take (h : s.Kept) {b : ℕ} {aborted : Bool} {now : Number}
    (hs : s.take b aborted now = some s') : s'.Kept := by
  simp only [AddressCache.take, Option.bind_eq_bind, Option.bind_eq_some_iff] at hs
  obtain ⟨batch, hb, key, hkey, hs⟩ := hs
  split_ifs at hs
  cases hs
  have hstart := streamAddress_starts h.cached (.text key) aborted now
  have hkept := h.streamAddress (.text key) aborted now
  obtain ⟨lookup, heq, -, hexpects⟩ := hstart.lookup
  have hbatch := h.batches batch (List.mem_of_getElem? hb)
  refine ⟨hkept.cached, hkept.lookups, ?_⟩
  intro batch' hb'
  rcases List.mem_or_eq_of_mem_set hb' with hb' | rfl
  · exact (hstart.served (h.batches batch' hb')).mono (fun _ hk => hk)
      fun _ lookup' hl => ⟨lookup', hl, rfl⟩
  · refine ⟨hbatch.keyed, fun k hk => hstart.found k (hbatch.expects k hk), ?_⟩
    intro i l k hi hl
    rcases add_iff.mp hl with hl | ⟨rfl, rfl⟩
    · exact (hstart.served hbatch).lookups i l k hi hl
    · obtain rfl : key = k := Option.some.inj (hkey.symm.trans hi)
      refine ⟨lookup, by rw [heq]; exact add_iff.mpr (.inr ⟨rfl, rfl⟩), fun hk => ?_⟩
      rw [hexpects key (hbatch.keyed key (List.mem_of_getElem? hi))]
      exact hbatch.expects key hk

/-- A lookup that still waits was not of a found id. -/
theorem not_expects {lookup : AddressLookup} (h : lookup.Served)
    (hp : lookup.phase = .waiting key) : lookup.expects = false := by
  rw [Bool.eq_false_iff]
  intro he
  rcases h he with ⟨addr, heq⟩ | ⟨err, heq⟩
  · rw [hp] at heq
    cases heq
  · rw [hp] at heq
    cases heq

theorem Kept.setPhase (h : s.Kept) {s₁ : AddressCache} (hcached : s₁.Cached)
    (hfound : ∀ key, s.found key = true → s₁.found key = true) (hbatches : s₁.batches = s.batches)
    (hlookups : s₁.lookups = s.lookups) {l : ℕ} {lookup : AddressLookup}
    (hl : s.lookups[l]? = some lookup) (hp : lookup.phase = .waiting key) (phase : LookupPhase) :
    (s₁.setPhase l lookup phase).Kept := by
  have hserved := h.lookups lookup (List.mem_of_getElem? hl)
  refine ⟨hcached, ?_, ?_⟩
  · intro lookup' hlookup'
    rw [AddressCache.setPhase, hlookups] at hlookup'
    rcases List.mem_or_eq_of_mem_set hlookup' with hmem | rfl
    · exact h.lookups lookup' hmem
    · intro he
      rw [not_expects hserved hp] at he
      cases he
  · intro batch hb
    rw [AddressCache.setPhase, hbatches] at hb
    refine (h.batches batch hb).mono hfound fun l' lookup' hl' => ?_
    rw [AddressCache.setPhase, hlookups]
    exact kept_put hl rfl hl'

theorem Kept.answer (h : s.Kept) {l : ℕ} {r : Except Thrown ScVal} {now : Number}
    (hok : s.QuietAnswer (.answer l r now)) (hs : s.answer ttlMs l r now = some s') : s'.Kept := by
  simp only [AddressCache.answer, Option.bind_eq_bind, Option.bind_eq_some_iff] at hs
  obtain ⟨lookup, hl, hs⟩ := hs
  split at hs
  · cases hs
    exact h.setPhase h.cached (fun _ hk => hk) rfl rfl hl ‹_› _
  · rename_i key val hp
    cases hval : resolvedAddress val with
    | some addr =>
      rw [hval] at hs
      cases hs
      refine h.setPhase (cached_found h.cached addr) ?_ rfl rfl hl hp _
      intro k hk
      rcases eq_or_ne k key with rfl | hne
      · simp [cacheFound]
      · simpa [cacheFound, Function.update_of_ne hne] using hk
    | none =>
      rw [hval] at hs
      cases hs
      have hnot : s.found key = false := not_found_of h.cached fun addr hc =>
        hok l val now lookup key addr rfl hl hp hc hval
      have hcached : (s.cacheNegative ttlMs key now).Cached := cached_drop h.cached hnot (some none)
      exact h.setPhase hcached (fun _ hk => hk) rfl rfl hl hp _
  · cases hs

theorem Kept.clearAddressCache (h : s.Kept) : s.clearAddressCache.Kept := by
  refine ⟨fun key hk => (by cases hk), h.lookups, ?_⟩
  intro batch hb
  obtain ⟨batch', hb', rfl⟩ := List.mem_map.mp hb
  have hbatch := h.batches batch' hb'
  refine ⟨hbatch.keyed, fun key hk => (by cases hk), ?_⟩
  intro i l key hi hl
  obtain ⟨lookup, hlookup, -⟩ := hbatch.lookups i l key hi hl
  exact ⟨lookup, hlookup, fun hk => by cases hk⟩

theorem Kept.step (h : s.Kept) (hok : s.QuietAnswer e) (hs : s.step ttlMs e = some s') :
    s'.Kept := by
  cases e with
  | streamAddress id aborted now =>
    cases hs
    exact h.streamAddress id aborted now
  | answer l r now => exact h.answer hok hs
  | streamAddresses ids aborted maxConcurrency =>
    cases hs
    exact h.streamAddresses ids aborted maxConcurrency
  | take b aborted now => exact h.take hs
  | clearAddressCache =>
    cases hs
    exact h.clearAddressCache

theorem kept_empty : ({} : AddressCache).Kept where
  cached key hk := by cases hk
  lookups lookup hl := by cases hl
  batches batch hb := by cases hb

/-- A found address is cached; no lookup of a found id returns `null`, nor does a batch for it. -/
structure FoundKept (s : AddressCache) : Prop where
  cached : s.Cached
  lookups : ∀ lookup ∈ s.lookups, lookup.expects = true → lookup.phase ≠ .returned none
  batches : ∀ batch ∈ s.batches, ∀ m, s.out batch = some m → ∀ key, batch.expects key = true →
    (key, none) ∉ m

theorem Serves.out_ne {batch : AddressBatch} (h : s.Serves batch)
    (hserved : ∀ lookup ∈ s.lookups, lookup.Served) {m : List (String × Option String)}
    (hm : s.out batch = some m) (hkey : batch.expects key = true) : (key, none) ∉ m := by
  intro hmem
  unfold out at hm
  split_ifs at hm with hall
  cases hm
  obtain ⟨⟨k, l⟩, hzip, heq⟩ := List.mem_map.mp hmem
  obtain ⟨rfl, hnone⟩ := Prod.mk.inj heq
  obtain ⟨i, hi⟩ := List.mem_iff_getElem?.mp hzip
  obtain ⟨hk, hl⟩ := List.getElem?_zip_eq_some.mp hi
  obtain ⟨lookup, hlookup, hexpects⟩ := h.lookups i l k hk hl
  have hsome := hall.2 l (List.mem_of_getElem? hl)
  rw [addressOf, hlookup] at hnone hsome
  rcases hserved lookup (List.mem_of_getElem? hlookup) (hexpects hkey) with ⟨addr, hp⟩ | ⟨err, hp⟩
  · simp [hp] at hnone
  · simp [hp] at hsome

/-- **A found address is kept** until a clear, in the runs where no not-found answer lands on it. -/
theorem found_address_kept {log : List AddressEvent}
    (hok : EachStep (AddressCache.step ttlMs) QuietAnswer {} log)
    (h : run (AddressCache.step ttlMs) {} log = some s) : s.FoundKept := by
  have hkept : s.Kept := run_induction_of (P := fun s _ => s.Kept) kept_empty
    (fun _ _ _ _ hP hok hs => hP.step hok hs) hok h
  refine ⟨hkept.cached, fun lookup hl he hp => ?_, fun batch hb m hm key hkey =>
    (hkept.batches batch hb).out_ne hkept.lookups hm hkey⟩
  rcases hkept.lookups lookup hl he with ⟨addr, heq⟩ | ⟨err, heq⟩
  · rw [hp] at heq
    cases heq
  · rw [hp] at heq
    cases heq

end Kept

def checkAnswer (s : AddressCache) : AddressEvent → Bool
  | .answer l (.ok val) _ => (resolvedAddress val).isSome || s.lookups[l]?.all fun lookup =>
    match lookup.phase with
    | .waiting key => (s.addressCache key).join.isNone
    | _ => true
  | _ => true

/-- A lookup that finds, a batch over its id and one that is not found, and a lookup after that. -/
def foundThenBatch : List AddressEvent :=
  [.streamAddress (.bigint 7) false (.fin 0), .answer 0 (.ok (.address "STREAM")) (.fin 1),
    .streamAddresses [.text "7", .bigint 9, .bigint 7] false none, .take 0 false (.fin 2),
    .take 0 false (.fin 2), .answer 2 (.ok .void) (.fin 5), .streamAddress (.text "7") false (.fin 6)]

theorem found_address_kept_batch : ∃ s,
    run (step negativeAddressCacheTtlMs) {} foundThenBatch = some s ∧ s.FoundKept := by
  obtain ⟨s, hs⟩ := Option.isSome_iff_exists.mp (by decide :
    (run (step negativeAddressCacheTtlMs) {} foundThenBatch).isSome = true)
  have hcheck : ∀ s e, checkAnswer s e = true → s.QuietAnswer e := by
    rintro s e h l val now lookup key addr rfl hl hp hc hval
    rw [checkAnswer, hl, hval, Option.all_some, hp] at h
    simp [hc] at h
  exact ⟨s, hs, found_address_kept (.of_allSteps hcheck (by decide)) hs⟩

/-- Two lookups of one id; the slower answer is older. A third lookup returns `null`. -/
def slowNotFound : List AddressEvent :=
  [.streamAddress (.bigint 7) false (.fin 0), .streamAddress (.bigint 7) false (.fin 0),
    .answer 1 (.ok (.address "STREAM")) (.fin 1), .answer 0 (.ok .void) (.fin 2),
    .streamAddress (.text "7") false (.fin 3)]

/-- The lookup came back with nothing. -/
def isMissing : LookupPhase → Bool
  | .returned none => true
  | _ => false

theorem found_address_lost : ¬ ∀ log s,
    run (step negativeAddressCacheTtlMs) {} log = some s → s.FoundKept := by
  intro h
  obtain ⟨s, hs, hrun⟩ := Option.map_eq_some_iff.mp (by decide +kernel :
    (run (step negativeAddressCacheTtlMs) {} slowNotFound).map (fun s =>
      s.lookups[2]?.map fun l => (l.expects, isMissing l.phase)) = some (some (true, true)))
  obtain ⟨lookup, hl, heq⟩ := Option.map_eq_some_iff.mp hrun
  obtain ⟨he, hp⟩ := Prod.mk.inj heq
  refine (h slowNotFound s hs).lookups lookup (List.mem_of_getElem? hl) he ?_
  unfold isMissing at hp
  split at hp
  · assumption
  · cases hp

end AddressCache

end StreamFi
