import StreamFi.Js.Json
import StreamFi.Js.Map
import StreamFi.Js.Rounding
import StreamFi.Run.Answers
import StreamFi.Run.Lru

/-!
# The memo cache

A cache of results that drops the least recently used one when it is full, and those whose deadline
is past. It keeps the values in one map and the deadlines in another; the order of the first is the
order of use.

* `LruMemoCache`, `get`, `insert`, `set`, `clear`, `hydrate`: the code;
* `Holds`: the two maps hold a list of items, with **`Holds.get`** and **`Holds.insert`**;
* `Reference`: the cache that it is meant to be;
* **`cache_refines`**: every sequence of operations gets the answers of the reference;
* **`hydratesAtomically_iff`**: a `hydrate` that throws leaves the cache alone exactly when nothing
  but skipped elements stands before the one it refuses.
-/

namespace StreamFi

open Js Run Run.Lru

/-! ## The code -/

structure LruMemoCache (K V : Type) where
  store : Map K (Option V)
  /-- Deadlines, for entries stored with one. -/
  expiresAt : Map K Number
  maxSize : Number
  defaultTtlMs : Option Number

def ttlError : Thrown := errorOf "RangeError" "LruMemoCache ttlMs must be a positive finite number"

/-- `!Number.isFinite(ttlMs) || ttlMs <= 0`. -/
def badTtl (ttlMs : Number) : Bool := !ttlMs.isFinite || ttlMs.le (.fin 0)

/-- What a snapshot has as a key. -/
inductive Key where
  | string (s : String)
  | number (x : Number)
  deriving DecidableEq

namespace LruMemoCache

variable {K V : Type}

def new (maxEntries : Number) (ttlMs : Option Number) : Except Thrown (LruMemoCache K V) :=
  if ttlMs.any badTtl then .error ttlError
  else .ok { store := Map.empty, expiresAt := Map.empty, maxSize := maxEntries, defaultTtlMs := ttlMs }

def size (c : LruMemoCache K V) : ℕ := c.store.size

/-- The metrics, which start again, are left out. -/
def clear (c : LruMemoCache K V) : LruMemoCache K V :=
  { c with store := Map.empty, expiresAt := Map.empty }

variable [DecidableEq K] (c : LruMemoCache K V)

def isExpired (k : K) (now : Number) : Bool := (c.expiresAt.get k).any fun expiry => expiry.le now

def remove (k : K) : LruMemoCache K V :=
  { c with store := c.store.delete k, expiresAt := c.expiresAt.delete k }

/-- A value that is `undefined` does not count as one. -/
def get (k : K) (now : Number) : Option V × LruMemoCache K V :=
  if c.isExpired k now then (none, c.remove k)
  else match (c.store.get k).join with
    | none => (none, c)
    | some value => (some value, { c with store := (c.store.delete k).set k (some value) })

/-- Room for the key: its old entry goes, or the first one of a full cache. -/
def makeRoom (k : K) : LruMemoCache K V :=
  if c.store.has k then c.remove k
  else if c.maxSize.le (.fin c.store.size) then
    match c.store.entries.head? with
    | none => c
    | some oldest => c.remove oldest.1
  else c

def insert (k : K) (value : Option V) (expiresAt : Option Number) : LruMemoCache K V :=
  { c.makeRoom k with
    store := (c.makeRoom k).store.set k value
    expiresAt := match expiresAt with
      | none => (c.makeRoom k).expiresAt
      | some expiry => (c.makeRoom k).expiresAt.set k expiry }

def set (k : K) (value : Option V) (ttlMs : Option Number) (now : Number) :
    Except Thrown (LruMemoCache K V) :=
  match ttlMs.or c.defaultTtlMs with
  | none => .ok (c.insert k value none)
  | some ttlMs => if badTtl ttlMs then .error ttlError else .ok (c.insert k value (some (now.add ttlMs)))

end LruMemoCache

/-! ## Snapshots -/

section Snapshot

variable {K V σ : Type}

/-- `assertSerializableKey`. -/
def serializableKey (key : Json) : Except Thrown Key :=
  match key with
  | .string s => .ok (.string s)
  | .number x => .ok (.number x)
  | key => .error (errorOf "TypeError"
      s!"LruMemoCache can only serialize string/number keys, got {key.typeName}")

/-- What becomes of an element of a snapshot's list. -/
inductive Reading (K V : Type) where
  | skipped
  | refused (error : Thrown)
  | entry (key : K) (value : Option V) (expiresAt : Option Number)

variable (asKey : Key → K) (asValue : Json → V)

def readEntry (now : Number) (raw : Json) : Reading K V :=
  match raw.field "key" with
  | none => .skipped
  | some key => match serializableKey key with
    | .error error => .refused error
    | .ok key =>
      let expiresAt := match raw.field "expiresAt" with
        | some (.number x) => some x
        | _ => none
      if expiresAt.any fun expiry => expiry.le now then .skipped
      else .entry (asKey key) ((raw.field "value").map asValue) expiresAt

/-- `JSON.parse` and the checks of the envelope; a text that is no JSON has no document. -/
def snapshotEntries : Option Json → Except Thrown (List Json)
  | none => .error (errorOf "SyntaxError" "LruMemoCache.hydrate: input is not valid JSON")
  | some payload =>
    if payload.typeName ≠ "object" then
      .error (errorOf "TypeError" "LruMemoCache.hydrate: expected an object")
    else match payload with
      | .null => .error (errorOf "TypeError" "LruMemoCache.hydrate: expected an object")
      | payload => match payload.field "version", payload.field "entries" with
        | some (.number (.fin 1)), some (.array entries) => .ok entries
        | some (.number (.fin 1)), _ =>
          .error (errorOf "TypeError" "LruMemoCache.hydrate: entries must be an array")
        | version, _ =>
          let text := (version.map Json.text).getD "undefined"
          .error (errorOf "TypeError" s!"LruMemoCache.hydrate: unsupported snapshot version {text}")

/-- The loop of `hydrate`: what was inserted stays when a later element is refused. -/
def replay (insert : σ → K → Option V → Option Number → σ) :
    List (Reading K V) → σ → ℕ → σ × Except Thrown ℕ
  | [], s, restored => (s, .ok restored)
  | .skipped :: readings, s, restored => replay insert readings s restored
  | .refused error :: _, s, _ => (s, .error error)
  | .entry key value expiresAt :: readings, s, restored =>
    replay insert readings (insert s key value expiresAt) (restored + 1)

/-- `hydrate`, into a cache with this `insert`. -/
def hydrateWith (insert : σ → K → Option V → Option Number → σ) (s : σ) (json : Option Json)
    (now : Number) : σ × Except Thrown ℕ :=
  match snapshotEntries json with
  | .error error => (s, .error error)
  | .ok entries => replay insert (entries.map (readEntry asKey asValue now)) s 0

def LruMemoCache.hydrate [DecidableEq K] (c : LruMemoCache K V) (json : Option Json)
    (now : Number) : LruMemoCache K V × Except Thrown ℕ :=
  hydrateWith asKey asValue LruMemoCache.insert c json now

end Snapshot

/-! ## Two maps hold a list of items -/

/-- `Date.now() >= expiry`. -/
def past (now : Number) (expiry : Number) : Bool := expiry.le now

/-- `size >= maxSize`. -/
def atCapacity (maxSize : Number) (n : ℕ) : Bool := maxSize.le (.fin n)

section Holds

variable {K V : Type}

/-- The items, the least recently used first. -/
structure Holds [DecidableEq K] (c : LruMemoCache K V) (l : List (Item K V Number)) : Prop where
  store : c.store.entries = l.map fun e => (e.key, some e.value)
  deadline : ∀ e ∈ l, c.expiresAt.get e.key = e.deadline
  expiring : ∀ k, c.expiresAt.has k = true → c.store.has k = true

namespace Holds

variable [DecidableEq K] {c : LruMemoCache K V} {l : List (Item K V Number)} {k : K} {now : Number}

theorem keys_nodup (h : Holds c l) : (l.map Item.key).Nodup := by
  have hkeys := c.store.nodup
  rw [h.store, List.map_map] at hkeys
  exact hkeys

theorem size_eq (h : Holds c l) : c.size = l.length := by
  rw [LruMemoCache.size, Map.size, h.store, List.length_map]

theorem store_get (h : Holds c l) (k : K) :
    c.store.get k = (find l k).map fun e => some e.value := by
  rw [Map.get, h.store, List.find?_map, Option.map_map]
  rfl

theorem store_has (h : Holds c l) : c.store.has k = (find l k).isSome := by
  rw [← Map.get_isSome, h.store_get, Option.isSome_map]

theorem expiresAt_get (h : Holds c l) (k : K) :
    c.expiresAt.get k = (find l k).bind Item.deadline := by
  cases hfind : find l k with
  | none =>
    rw [Option.bind_none, Map.get_eq_none_iff, ← Bool.not_eq_true]
    intro hhas
    have := h.expiring k hhas
    rw [h.store_has, hfind] at this
    cases this
  | some e =>
    obtain ⟨he, rfl⟩ := find_eq_some hfind
    exact h.deadline e he

theorem clear (c : LruMemoCache K V) : Holds c.clear [] where
  store := rfl
  deadline _ he := nomatch he
  expiring _ hk := nomatch hk

theorem remove (h : Holds c l) (k : K) : Holds (c.remove k) (forget l k) where
  store := by
    show c.store.entries.filter _ = _
    rw [h.store, List.filter_map]
    rfl
  deadline e he := by
    obtain ⟨hel, hne⟩ := mem_forget.mp he
    show (c.expiresAt.delete k).get e.key = _
    rw [Map.get_delete, if_neg hne]
    exact h.deadline e hel
  expiring k' hk' := by
    obtain ⟨hexp, hne⟩ := Map.has_delete_iff.mp hk'
    exact Map.has_delete_iff.mpr ⟨h.expiring k' hexp, hne⟩

/-- **`get`** looks an item up. -/
theorem get (h : Holds c l) (k : K) (now : Number) :
    (c.get k now).1 = (getItem (past now) l k).1 ∧
      Holds (c.get k now).2 (getItem (past now) l k).2 := by
  unfold LruMemoCache.get getItem LruMemoCache.isExpired
  rw [h.expiresAt_get]
  cases hfind : find l k with
  | none =>
    have hget : c.store.get k = none := by rw [h.store_get, hfind, Option.map_none]
    simp only [Option.bind_none, Option.any_none, Bool.false_eq_true, if_false, hget, Option.join_none]
    exact ⟨trivial, h⟩
  | some e =>
    obtain ⟨he, rfl⟩ := find_eq_some hfind
    have hget : c.store.get e.key = some (some e.value) := by
      rw [h.store_get, hfind, Option.map_some]
    simp only [Option.bind_some, hget, Option.join_some]
    by_cases hpast : e.deadline.any (past now) = true
    · have hexpired : e.deadline.any (fun expiry => expiry.le now) = true := hpast
      rw [if_pos hexpired, if_pos hpast]
      exact ⟨rfl, h.remove e.key⟩
    · have hexpired : ¬ e.deadline.any (fun expiry => expiry.le now) = true := hpast
      rw [if_neg hexpired, if_neg hpast]
      refine ⟨rfl, ?_, ?_, ?_⟩
      · show ((c.store.delete e.key).set e.key (some e.value)).entries = _
        rw [Map.set_new Map.has_delete_self, List.map_append]
        exact congrArg (· ++ [(e.key, some e.value)]) (h.remove e.key).store
      · intro e' he'
        rcases List.mem_append.mp he' with he' | he'
        · exact h.deadline e' (mem_forget.mp he').1
        · rw [List.mem_singleton.mp he']
          exact h.deadline e he
      · intro k' hk'
        apply Map.has_set_iff.mpr
        by_cases hk : k' = e.key
        · exact .inl hk
        · exact .inr (Map.has_delete_iff.mpr ⟨h.expiring k' hk', hk⟩)

/-- The list without what makes room. -/
theorem makeRoom (h : Holds c l) (k : K) :
    ∃ l', Holds (c.makeRoom k) l' ∧ find l' k = none ∧ ∀ e : Item K V Number, e.key = k →
      putItem (atCapacity c.maxSize) l e = l' ++ [e] := by
  unfold LruMemoCache.makeRoom
  rw [h.store_has]
  cases hfind : find l k with
  | some e' =>
    refine ⟨forget l k, h.remove k, ?_, ?_⟩
    · rw [find_eq_none_iff]
      exact fun e he => (mem_forget.mp he).2
    · rintro e rfl
      exact putItem_found (by rw [hfind]; rfl)
  | none =>
    have hput {l' : List (Item K V Number)} (hl' : (if atCapacity c.maxSize l.length then l.tail else l) = l')
        (e : Item K V Number) (he : e.key = k) : putItem (atCapacity c.maxSize) l e = l' ++ [e] := by
      subst he
      rw [putItem_new hfind, hl']
    have hsize : c.store.size = l.length := h.size_eq
    rw [if_neg (by simp), hsize]
    by_cases hfull : atCapacity c.maxSize l.length = true
    · have hle : c.maxSize.le (.fin l.length) = true := hfull
      rw [if_pos hle]
      rw [if_pos hfull] at hput
      cases l with
      | nil =>
        have hhead : c.store.entries.head? = none := by rw [h.store]; rfl
        rw [hhead]
        exact ⟨[], h, rfl, hput rfl⟩
      | cons e₀ l =>
        have hhead : c.store.entries.head? = some (e₀.key, some e₀.value) := by rw [h.store]; rfl
        have hnodup := (List.nodup_cons.mp h.keys_nodup).1
        have hforget : forget (e₀ :: l) e₀.key = l := by
          rw [forget, List.filter_cons_of_neg (by simp)]
          apply forget_eq_self
          rw [find_eq_none_iff]
          intro e he hk
          exact hnodup (List.mem_map.mpr ⟨e, he, hk⟩)
        have hremove := h.remove e₀.key
        rw [hforget] at hremove
        rw [hhead]
        refine ⟨l, hremove, ?_, hput rfl⟩
        rw [find_eq_none_iff] at hfind ⊢
        exact fun e he => hfind e (List.mem_cons_of_mem _ he)
    · have hle : ¬ c.maxSize.le (.fin l.length) = true := hfull
      rw [if_neg hle]
      rw [if_neg hfull] at hput
      exact ⟨l, h, hfind, hput rfl⟩

/-- **`insert`** puts an item. -/
theorem insert (h : Holds c l) (e : Item K V Number) :
    Holds (c.insert e.key (some e.value) e.deadline) (putItem (atCapacity c.maxSize) l e) := by
  obtain ⟨l', hroom, hnew, hput⟩ := h.makeRoom e.key
  have hhas : (c.makeRoom e.key).store.has e.key = false := by rw [hroom.store_has, hnew]; rfl
  have hnone : (c.makeRoom e.key).expiresAt.get e.key = none := by
    rw [hroom.expiresAt_get, hnew, Option.bind_none]
  have hdeadline (k' : K) : (c.insert e.key (some e.value) e.deadline).expiresAt.get k' =
      if k' = e.key then e.deadline else (c.makeRoom e.key).expiresAt.get k' := by
    unfold LruMemoCache.insert
    cases e.deadline with
    | none =>
      split_ifs with hk
      · rw [hk, hnone]
      · rfl
    | some expiry => exact Map.get_set
  rw [hput e rfl]
  refine ⟨?_, ?_, ?_⟩
  · show ((c.makeRoom e.key).store.set e.key (some e.value)).entries = _
    rw [Map.set_new hhas, List.map_append, hroom.store]
    rfl
  · intro e' he'
    rw [hdeadline]
    rcases List.mem_append.mp he' with he' | he'
    · rw [if_neg (find_eq_none_iff.mp hnew e' he')]
      exact hroom.deadline e' he'
    · rw [List.mem_singleton.mp he', if_pos rfl]
  · intro k' hk'
    apply Map.has_set_iff.mpr
    by_cases hk : k' = e.key
    · exact .inl hk
    · rw [← Map.get_isSome, hdeadline, if_neg hk, Map.get_isSome] at hk'
      exact .inr (hroom.expiring k' hk')

end Holds

end Holds

/-! ## The reference -/

/-- An element with a value is not read as one without. -/
theorem readEntry_ne_none {K V : Type} {asKey : Key → K} {asValue : Json → V} {now : Number}
    {raw : Json} (h : (raw.field "key").isSome = true → (raw.field "value").isSome = true) {k : K}
    {deadline : Option Number} : readEntry asKey asValue now raw ≠ .entry k none deadline := by
  intro hread
  unfold readEntry at hread
  cases hkey : raw.field "key" with
  | none =>
    rw [hkey] at hread
    cases hread
  | some key =>
    obtain ⟨value, hvalue⟩ := Option.isSome_iff_exists.mp (h (by rw [hkey]; rfl))
    rw [hkey, hvalue] at hread
    simp only at hread
    split at hread
    · cases hread
    · split_ifs at hread
      injection hread with _ hnone
      cases hnone

section Reference

variable {K V : Type}

inductive CacheOp (K V : Type) where
  | get (k : K) (now : Number)
  | set (k : K) (value : V) (ttlMs : Option Number) (now : Number)
  | clear
  | hydrate (json : Option Json) (now : Number)

inductive CacheAnswer (V : Type) where
  | value (v : Option V)
  | done
  | restored (n : ℕ)
  | threw (error : Thrown)

def CacheAnswer.ofHydrate : Except Thrown ℕ → CacheAnswer V
  | .ok n => .restored n
  | .error error => .threw error

/-- Where a snapshot has a key it has a value. -/
def CacheOp.Defined : CacheOp K V → Prop
  | .hydrate json _ => ∀ entries, snapshotEntries json = .ok entries →
      ∀ raw ∈ entries, (raw.field "key").isSome = true → (raw.field "value").isSome = true
  | _ => True

variable [DecidableEq K] (asKey : Key → K) (asValue : Json → V)

def LruMemoCache.perform (c : LruMemoCache K V) : CacheOp K V → CacheAnswer V × LruMemoCache K V
  | .get k now => (.value (c.get k now).1, (c.get k now).2)
  | .set k value ttlMs now => match c.set k (some value) ttlMs now with
    | .ok c' => (.done, c')
    | .error error => (.threw error, c)
  | .clear => (.done, c.clear)
  | .hydrate json now =>
    (.ofHydrate (c.hydrate asKey asValue json now).2, (c.hydrate asKey asValue json now).1)

/-- A cache of at most `maxSize` entries with deadlines, the least recently used one of which makes
room for a new one. -/
noncomputable def Reference.perform (maxSize : Number) (ttl : Option Number)
    (r : Cache K V Number) : CacheOp K V → CacheAnswer V × Cache K V Number
  | .get k now => (.value (r.get (past now) k).1, (r.get (past now) k).2)
  | .set k value ttlMs now => match ttlMs.or ttl with
    | none => (.done, r.put (atCapacity maxSize) k value none)
    | some ttlMs =>
      if badTtl ttlMs then (.threw ttlError, r)
      else (.done, r.put (atCapacity maxSize) k value (some (now.add ttlMs)))
  | .clear => (.done, Cache.empty)
  | .hydrate json now =>
    let put (r : Cache K V Number) k value deadline :=
      value.elim r fun v => r.put (atCapacity maxSize) k v deadline
    (.ofHydrate (hydrateWith asKey asValue put r json now).2,
      (hydrateWith asKey asValue put r json now).1)

/-- The cache holds what the reference does. -/
structure Refines (maxSize : Number) (ttl : Option Number) (c : LruMemoCache K V)
    (r : Cache K V Number) : Prop where
  maxSize_eq : c.maxSize = maxSize
  ttl_eq : c.defaultTtlMs = ttl
  listed : ∃ l, Holds c l ∧ Listed l r ∧ ∀ m < l.length, atCapacity maxSize m = false

namespace LruMemoCache

variable (c : LruMemoCache K V) (k : K) (value : Option V) (expiresAt : Option Number) (now : Number)

theorem get_config : (c.get k now).2.maxSize = c.maxSize ∧
    (c.get k now).2.defaultTtlMs = c.defaultTtlMs := by
  unfold get
  split_ifs
  · exact ⟨rfl, rfl⟩
  · split <;> exact ⟨rfl, rfl⟩

theorem makeRoom_config :
    (c.makeRoom k).maxSize = c.maxSize ∧ (c.makeRoom k).defaultTtlMs = c.defaultTtlMs := by
  unfold makeRoom
  split_ifs
  · exact ⟨rfl, rfl⟩
  · split <;> exact ⟨rfl, rfl⟩
  · exact ⟨rfl, rfl⟩

theorem insert_config : (c.insert k value expiresAt).maxSize = c.maxSize ∧
    (c.insert k value expiresAt).defaultTtlMs = c.defaultTtlMs := c.makeRoom_config k

end LruMemoCache

namespace Refines

variable {maxSize : Number} {ttl : Option Number} {c : LruMemoCache K V} {r : Cache K V Number}

theorem clear (h : Refines maxSize ttl c r) : Refines maxSize ttl c.clear Cache.empty :=
  ⟨h.maxSize_eq, h.ttl_eq, [], Holds.clear c, Listed.empty, fun _ hm => nomatch hm⟩

theorem get (h : Refines maxSize ttl c r) (k : K) (now : Number) :
    (c.get k now).1 = (r.get (past now) k).1 ∧
      Refines maxSize ttl (c.get k now).2 (r.get (past now) k).2 := by
  obtain ⟨l, hholds, hlisted, hfits⟩ := h.listed
  obtain ⟨hcode, hholds'⟩ := hholds.get k now
  obtain ⟨href, hlisted'⟩ := hlisted.get (past now) k
  refine ⟨hcode.trans href, (c.get_config k now).1.trans h.maxSize_eq,
    (c.get_config k now).2.trans h.ttl_eq, _, hholds', hlisted', ?_⟩
  intro m hm
  exact hfits m (hm.trans_le length_getItem_le)

/-- A value that is stored fits in. -/
theorem insert (h : Refines maxSize ttl c r) (hmax : atCapacity maxSize 0 = false) (k : K) (v : V)
    (deadline : Option Number) : Refines maxSize ttl (c.insert k (some v) deadline)
      (r.put (atCapacity maxSize) k v deadline) := by
  obtain ⟨l, hholds, hlisted, hfits⟩ := h.listed
  have hholds' := hholds.insert ⟨k, v, deadline⟩
  rw [h.maxSize_eq] at hholds'
  refine ⟨(c.insert_config k _ deadline).1.trans h.maxSize_eq,
    (c.insert_config k _ deadline).2.trans h.ttl_eq, _, hholds',
    hlisted.put (atCapacity maxSize) ⟨k, v, deadline⟩, ?_⟩
  intro m hm
  rcases Nat.eq_zero_or_pos m with rfl | hpos
  · exact hmax
  · exact fits_putItem (fun m _ hm => hfits m hm) m hpos hm

/-- **Replaying a snapshot**, in both. -/
theorem replay {readings : List (Reading K V)}
    (hdef : ∀ k deadline, .entry k none deadline ∉ readings)
    (hmax : atCapacity maxSize 0 = false) (h : Refines maxSize ttl c r) (restored : ℕ) :
    (StreamFi.replay LruMemoCache.insert readings c restored).2 =
        (StreamFi.replay (fun (r : Cache K V Number) k value deadline =>
          value.elim r fun v => r.put (atCapacity maxSize) k v deadline) readings r restored).2 ∧
      Refines maxSize ttl (StreamFi.replay LruMemoCache.insert readings c restored).1
        (StreamFi.replay (fun (r : Cache K V Number) k value deadline =>
          value.elim r fun v => r.put (atCapacity maxSize) k v deadline) readings r restored).1 := by
  induction readings generalizing c r restored with
  | nil => exact ⟨rfl, h⟩
  | cons reading readings ih =>
    have hrest : ∀ k deadline, .entry k none deadline ∉ readings :=
      fun k deadline hmem => hdef k deadline (List.mem_cons_of_mem _ hmem)
    cases reading with
    | skipped => exact ih hrest h restored
    | refused error => exact ⟨rfl, h⟩
    | entry k value deadline =>
      cases value with
      | none => exact absurd List.mem_cons_self (hdef k deadline)
      | some v => exact ih hrest (h.insert hmax k v deadline) (restored + 1)

/-- **One operation** gets the answer of the reference. -/
theorem perform (hmax : atCapacity maxSize 0 = false) (h : Refines maxSize ttl c r)
    (op : CacheOp K V) (hdef : op.Defined) :
    (c.perform asKey asValue op).1 = (Reference.perform asKey asValue maxSize ttl r op).1 ∧
      Refines maxSize ttl (c.perform asKey asValue op).2
        (Reference.perform asKey asValue maxSize ttl r op).2 := by
  cases op with
  | get k now =>
    obtain ⟨hvalue, hnext⟩ := h.get k now
    exact ⟨congrArg CacheAnswer.value hvalue, hnext⟩
  | clear => exact ⟨rfl, h.clear⟩
  | set k value ttlMs now =>
    simp only [LruMemoCache.perform, Reference.perform, LruMemoCache.set, h.ttl_eq]
    cases ttlMs.or ttl with
    | none => exact ⟨rfl, h.insert hmax k value none⟩
    | some t =>
      by_cases hbad : badTtl t = true
      · simp only [hbad, if_true]
        exact ⟨trivial, h⟩
      · simp only [if_neg hbad]
        exact ⟨trivial, h.insert hmax k value _⟩
  | hydrate json now =>
    simp only [LruMemoCache.perform, Reference.perform, LruMemoCache.hydrate, hydrateWith]
    cases hjson : snapshotEntries json with
    | error error => exact ⟨rfl, h⟩
    | ok entries =>
      have hreadings : ∀ k deadline,
          .entry k none deadline ∉ entries.map (readEntry asKey asValue now) := by
        intro k deadline hmem
        obtain ⟨raw, hraw, hread⟩ := List.mem_map.mp hmem
        exact readEntry_ne_none (hdef entries hjson raw hraw) hread
      obtain ⟨hanswer, hnext⟩ := replay hreadings hmax h 0
      exact ⟨congrArg CacheAnswer.ofHydrate hanswer, hnext⟩

/-- The size of a cache that has never been overfull. -/
theorem size_le (hmax : (Number.fin 1).le maxSize = true) (h : Refines maxSize ttl c r) :
    (Number.fin c.size).le maxSize.ceil = true := by
  obtain ⟨l, hholds, -, hfits⟩ := h.listed
  rw [hholds.size_eq]
  cases maxSize with
  | nan | negInf => cases hmax
  | posInf => rfl
  | fin q =>
    have hq : (1 : ℚ) ≤ q := by simpa using hmax
    have hlt : ∀ m < l.length, (m : ℚ) < q := by
      intro m hm
      simpa [atCapacity] using hfits m hm
    simp only [Number.ceil, Number.le_fin, decide_eq_true_eq]
    cases hlen : l.length with
    | zero =>
      have : (0 : ℚ) ≤ ⌈q⌉ := (zero_le_one.trans hq).trans (Int.le_ceil q)
      exact_mod_cast this
    | succ n =>
      have : (n : ℤ) < ⌈q⌉ := Int.lt_ceil.mpr (by exact_mod_cast hlt n (by omega))
      exact_mod_cast this

end Refines

/-- **The cache is the reference**: every operation is answered alike, and the cache holds what the
reference holds, at most `maxEntries` entries (rounded up), with deadlines for stored keys only. -/
theorem cache_refines {maxEntries : Number} {ttlMs : Option Number} {c : LruMemoCache K V}
    (hnew : LruMemoCache.new maxEntries ttlMs = .ok c) (hmax : (Number.fin 1).le maxEntries = true)
    {ops : List (CacheOp K V)} (hdef : ∀ op ∈ ops, op.Defined) :
    let run := performAll (LruMemoCache.perform asKey asValue) c ops
    let reference := performAll (Reference.perform asKey asValue maxEntries ttlMs) Cache.empty ops
    run.1 = reference.1 ∧ (∀ k, run.2.store.has k = true ↔ k ∈ reference.2.stored) ∧
      (Number.fin run.2.size).le maxEntries.ceil = true ∧
      ∀ k, run.2.expiresAt.has k = true → run.2.store.has k = true := by
  intro run reference
  have hzero : atCapacity maxEntries 0 = false := by
    cases maxEntries with
    | fin q =>
      have hq : (1 : ℚ) ≤ q := by simpa using hmax
      simp only [atCapacity, Number.le_fin, decide_eq_false_iff_not, not_le, Nat.cast_zero]
      exact zero_lt_one.trans_le hq
    | nan | negInf => cases hmax
    | posInf => rfl
  have hstart : Refines maxEntries ttlMs c Cache.empty := by
    unfold LruMemoCache.new at hnew
    split_ifs at hnew
    cases hnew
    refine ⟨rfl, rfl, [], Holds.clear ⟨Map.empty, Map.empty, maxEntries, ttlMs⟩, Listed.empty, ?_⟩
    rintro _ ⟨⟩
  obtain ⟨hanswers, hlast⟩ := performAll_simulates (R := Refines maxEntries ttlMs)
    (fun c r op h hop => h.perform asKey asValue hzero op hop) hstart hdef
  refine ⟨hanswers, ?_, hlast.size_le hmax, ?_⟩
  · intro k
    obtain ⟨l, hholds, hlisted, -⟩ := hlast.listed
    rw [hlisted.mem_stored_iff, hholds.store_has, Option.isSome_iff_ne_none, Ne, find_eq_none_iff,
      List.mem_map]
    simp
  · obtain ⟨l, hholds, -, -⟩ := hlast.listed
    exact hholds.expiring

end Reference

/-! A cache of two entries, the second of which expires. -/

def twoOps : List (CacheOp Key Json) :=
  [.set (.string "a") (.bool true) none (.fin 0), .set (.string "b") (.bool false) (some (.fin 5)) (.fin 0),
   .get (.string "a") (.fin 1), .get (.string "b") (.fin 6)]

theorem cache_refines_two :
    let run := performAll (LruMemoCache.perform id id)
      (LruMemoCache.mk Map.empty Map.empty (.fin 2) none) twoOps
    let reference := performAll (Reference.perform id id (.fin 2) none) Cache.empty twoOps
    run.1 = reference.1 ∧ (∀ k, run.2.store.has k = true ↔ k ∈ reference.2.stored) ∧
      (Number.fin run.2.size).le (Number.fin 2).ceil = true ∧
      ∀ k, run.2.expiresAt.has k = true → run.2.store.has k = true :=
  cache_refines id id rfl (by decide) (by simp [twoOps, CacheOp.Defined])

/-- **A fractional limit is exceeded**: at `1.5` the cache holds two entries. -/
theorem fractional_limit_exceeded :
    ((LruMemoCache.new (K := Key) (V := Json) (.fin (3 / 2)) none).toOption.map fun c =>
      (performAll (LruMemoCache.perform id id) c twoOps.dropLast.dropLast).2.size) = some 2 ∧
      (Number.fin 1).le (.fin (3 / 2)) = true ∧ (Number.fin 2).le (.fin (3 / 2)) = false := by
  decide +kernel

/-! ## Snapshots that are refused -/

section Refused

variable {K V σ : Type} {asKey : Key → K} {asValue : Json → V}
  {insert : σ → K → Option V → Option Number → σ} {readings before after : List (Reading K V)}

namespace Reading

def isSkipped : Reading K V → Bool
  | .skipped => true
  | _ => false

def isRefused : Reading K V → Bool
  | .refused _ => true
  | _ => false

theorem isRefused_iff {r : Reading K V} : r.isRefused = true ↔ ∃ error, r = .refused error := by
  cases r with
  | refused error => exact ⟨fun _ => ⟨error, rfl⟩, fun _ => rfl⟩
  | skipped | entry _ _ _ =>
    constructor
    · intro h
      cases h
    · rintro ⟨_, h⟩
      cases h

/-- The insertion of an element. -/
def insertInto (insert : σ → K → Option V → Option Number → σ) (s : σ) : Reading K V → σ
  | .entry key value expiresAt => insert s key value expiresAt
  | _ => s

end Reading

/-- **What a refusal leaves**: everything before it is inserted. -/
theorem replay_refused (h : ∀ r ∈ before, r.isRefused = false) (error : Thrown) (s : σ) (n : ℕ) :
    replay insert (before ++ .refused error :: after) s n =
      (before.foldl (Reading.insertInto insert) s, .error error) := by
  induction before generalizing s n with
  | nil => rfl
  | cons r before ih =>
    have hrest := fun x hx => h x (List.mem_cons_of_mem r hx)
    cases r with
    | skipped => exact ih hrest s n
    | entry key value expiresAt => exact ih hrest _ _
    | refused error => cases h _ List.mem_cons_self

variable (insert) in
theorem replay_ok (h : ∀ r ∈ readings, r.isRefused = false) (s : σ) (n : ℕ) :
    ∃ m, (replay insert readings s n).2 = .ok m := by
  induction readings generalizing s n with
  | nil => exact ⟨n, rfl⟩
  | cons r readings ih =>
    have hrest := fun x hx => h x (List.mem_cons_of_mem r hx)
    cases r with
    | skipped => exact ih hrest s n
    | entry key value expiresAt => exact ih hrest _ _
    | refused error => cases h _ List.mem_cons_self

/-- What `hydrate` inserts, in its order. -/
def insertions (asKey : Key → K) (asValue : Json → V) (json : Option Json) (now : Number) :
    List (K × Option V × Option Number) :=
  (hydrateWith asKey asValue (fun l key value expiresAt => l ++ [(key, value, expiresAt)]) [] json now).1

/-- An element without an insertion is skipped or refused. -/
def Reading.insertion : Reading K V → Option (K × Option V × Option Number)
  | .entry key value expiresAt => some (key, value, expiresAt)
  | _ => none

theorem foldl_insertInto (readings : List (Reading K V)) (l : List (K × Option V × Option Number)) :
    readings.foldl (Reading.insertInto fun l key value expiresAt => l ++ [(key, value, expiresAt)]) l =
      l ++ readings.filterMap Reading.insertion := by
  induction readings generalizing l with
  | nil => exact (List.append_nil l).symm
  | cons r readings ih =>
    cases r with
    | skipped | refused _ => exact ih l
    | entry key value expiresAt =>
      rw [List.foldl_cons, ih, Reading.insertInto, List.append_assoc]
      rfl

theorem insertInto_skipped (h : ∀ r ∈ readings, r.isSkipped = true) (s : σ) :
    readings.foldl (Reading.insertInto insert) s = s := by
  induction readings with
  | nil => rfl
  | cons r readings ih =>
    have hr := h r List.mem_cons_self
    cases r with
    | skipped => exact ih fun x hx => h x (List.mem_cons_of_mem _ hx)
    | refused _ | entry _ _ _ => cases hr

variable [DecidableEq K]

/-- A `hydrate` that throws inserts nothing, and leaves the cache as it was. -/
def HydratesAtomically (asKey : Key → K) (asValue : Json → V) (c : LruMemoCache K V)
    (json : Option Json) (now : Number) : Prop :=
  ∀ error, (c.hydrate asKey asValue json now).2 = .error error →
    (c.hydrate asKey asValue json now).1 = c ∧ insertions asKey asValue json now = []

/-- No element is inserted before the first one whose key is refused. -/
def RefusesFirst (asKey : Key → K) (asValue : Json → V) (json : Option Json) (now : Number) : Prop :=
  ∀ entries before raw after, snapshotEntries json = .ok entries → entries = before ++ raw :: after →
    (readEntry asKey asValue now raw).isRefused = true →
    (∀ x ∈ before, (readEntry asKey asValue now x).isRefused = false) →
    ∀ x ∈ before, (readEntry asKey asValue now x).isSkipped = true

/-- **When a `hydrate` that throws leaves the cache alone.** -/
theorem hydratesAtomically_iff (asKey : Key → K) (asValue : Json → V) (c : LruMemoCache K V)
    (json : Option Json) (now : Number) :
    HydratesAtomically asKey asValue c json now ↔ RefusesFirst asKey asValue json now := by
  have hall {before : List Json} (h : ∀ x ∈ before, (readEntry asKey asValue now x).isRefused = false) :
      ∀ r ∈ before.map (readEntry asKey asValue now), r.isRefused = false := List.forall_mem_map.mpr h
  constructor
  · rintro h entries before raw after hjson rfl hraw hbefore x hx
    obtain ⟨error, herror⟩ := Reading.isRefused_iff.mp hraw
    have hread : (before ++ raw :: after).map (readEntry asKey asValue now) =
        before.map (readEntry asKey asValue now) ++
          .refused error :: after.map (readEntry asKey asValue now) := by
      rw [List.map_append, List.map_cons, herror]
    have hthrows : (c.hydrate asKey asValue json now).2 = .error error := by
      rw [LruMemoCache.hydrate, hydrateWith, hjson]
      simp only [hread, replay_refused (hall hbefore)]
    have hnil := (h error hthrows).2
    rw [insertions, hydrateWith, hjson] at hnil
    simp only [hread, replay_refused (hall hbefore), foldl_insertInto, List.nil_append,
      List.filterMap_eq_nil_iff, List.forall_mem_map] at hnil
    have hnone := hnil x hx
    have hok := hbefore x hx
    cases hx : readEntry asKey asValue now x with
    | skipped => rfl
    | refused _ =>
      rw [hx] at hok
      cases hok
    | entry _ _ _ =>
      rw [hx] at hnone
      cases hnone
  · intro h error herror
    cases hjson : snapshotEntries json with
    | error e =>
      rw [LruMemoCache.hydrate, insertions, hydrateWith, hydrateWith, hjson]
      exact ⟨rfl, rfl⟩
    | ok entries =>
      obtain ⟨before, raw, after, rfl, hraw, hbefore⟩ :
          ∃ before raw after, entries = before ++ raw :: after ∧
            (readEntry asKey asValue now raw).isRefused = true ∧
            ∀ x ∈ before, (readEntry asKey asValue now x).isRefused = false := by
        cases hfind : entries.find? fun x => (readEntry asKey asValue now x).isRefused with
        | some raw =>
          obtain ⟨hraw, before, after, hentries, hbefore⟩ := List.find?_eq_some_iff_append.mp hfind
          refine ⟨before, raw, after, hentries, hraw, fun x hx => ?_⟩
          exact (Bool.not_eq_eq_eq_not ..).mp (hbefore x hx)
        | none =>
          have hnone := fun x hx => Bool.eq_false_iff.mpr (List.find?_eq_none.mp hfind x hx)
          obtain ⟨m, hm⟩ := replay_ok LruMemoCache.insert (hall hnone) c 0
          rw [LruMemoCache.hydrate, hydrateWith, hjson] at herror
          cases hm.symm.trans herror
      have hskipped : ∀ r ∈ before.map (readEntry asKey asValue now), r.isSkipped = true :=
        List.forall_mem_map.mpr (h _ before raw after hjson rfl hraw hbefore)
      obtain ⟨error, hread⟩ := Reading.isRefused_iff.mp hraw
      rw [LruMemoCache.hydrate, insertions, hydrateWith, hydrateWith, hjson]
      simp only [List.map_append, List.map_cons, hread, replay_refused (hall hbefore)]
      exact ⟨insertInto_skipped hskipped c, insertInto_skipped hskipped []⟩

/-- **An entry before a refused one** takes the place of what the cache held. -/
theorem hydrate_replaces : ¬ HydratesAtomically id id
    (LruMemoCache.insert (LruMemoCache.mk Map.empty Map.empty (.fin 1) none) (Key.string "a")
      (some (Json.bool true)) none)
    (some (.object [("version", .number (.fin 1)), ("entries", .array
      [.object [("key", .string "b"), ("value", .bool false)], .object [("key", .bool true)]])]))
    (.fin 0) := by
  intro h
  have hnil := (h _ rfl).2
  cases hnil

end Refused

end StreamFi
