import StreamFi.Memo.Lru

/-!
# Snapshots of the memo cache

`serialize` writes the entries that have not expired, the least recently used first, and `hydrate`
inserts them again. What has expired takes up room in the cache that was written, and none in the
one that is read.

* `serialize`: the code; `Built`: the caches that the code makes, and `Tidy`, what they have in
  common;
* `Mark`: an item of the first cache is gone in the second, or has lost an infinite deadline, or is
  the same there;
* `Restores`: the two caches hold marked items, with **`Restores.perform`**;
* **`snapshot_restores`**: what is restored, and for which runs the caches answer alike.
-/

namespace StreamFi

open Js Run Run.Lru

/-! ## The code -/

def Key.json : Key → Json
  | .string s => .string s
  | .number x => .number x

section Serialize

variable {K V : Type} [DecidableEq K] (ofKey : K → Json) (ofValue : V → Json)

/-- A property that is `undefined` is not written. -/
def snapshotEntry (key : Json) (value : Option Json) (expiresAt : Option Number) : Json :=
  .object (("key", key) :: (value.map fun v => ("value", v)).toList ++
    [("expiresAt", (expiresAt.map Json.number).getD .null)])

namespace LruMemoCache

variable (c : LruMemoCache K V) (now : Number)

/-- The loop of `serialize`. -/
def serializeEntries : List (K × Option V) → Except Thrown (List Json)
  | [] => .ok []
  | (key, value) :: rest => match serializableKey (ofKey key) with
    | .error error => .error error
    | .ok _ =>
      if c.isExpired key now then serializeEntries rest
      else (serializeEntries rest).map fun entries =>
        snapshotEntry (ofKey key) (value.map ofValue) (c.expiresAt.get key) :: entries

/-- `serialize`: the document that the text stands for. -/
def serialize : Except Thrown Json :=
  (c.serializeEntries ofKey ofValue now c.store.entries).map fun entries =>
    Json.written (.object
      [("version", .number (.fin 1)), ("maxSize", .number c.maxSize), ("entries", .array entries)])

end LruMemoCache

end Serialize

/-! ## The caches that the code makes -/

namespace LruMemoCache

variable {K V : Type} [DecidableEq K]

inductive Built (asKey : Key → K) (asValue : Json → V) : LruMemoCache K V → Prop
  | new {maxEntries : Number} {ttlMs : Option Number} {c : LruMemoCache K V}
      (h : LruMemoCache.new maxEntries ttlMs = .ok c) : Built asKey asValue c
  | get {c : LruMemoCache K V} (h : Built asKey asValue c) (k : K) (now : Number) :
      Built asKey asValue (c.get k now).2
  | set {c c' : LruMemoCache K V} (h : Built asKey asValue c) {k : K} {value : Option V}
      {ttlMs : Option Number} {now : Number} (hset : c.set k value ttlMs now = .ok c') :
      Built asKey asValue c'
  | clear {c : LruMemoCache K V} (h : Built asKey asValue c) : Built asKey asValue c.clear
  | hydrate {c : LruMemoCache K V} (h : Built asKey asValue c) (json : Option Json) (now : Number) :
      Built asKey asValue (c.hydrate asKey asValue json now).1

/-- Deadlines are those of stored keys, and a cache that holds more than one entry was not full
before. -/
structure Tidy (c : LruMemoCache K V) : Prop where
  expiring : ∀ k, c.expiresAt.has k = true → c.store.has k = true
  fits : ∀ m, 0 < m → m < c.size → atCapacity c.maxSize m = false

namespace Tidy

variable {c : LruMemoCache K V}

theorem size_remove_lt {k : K} (h : c.store.has k = true) : (c.remove k).size < c.size := by
  show (c.store.entries.filter fun p => p.1 ≠ k).length < c.store.entries.length
  rw [List.length_filter_lt_length_iff_exists]
  obtain ⟨p, hp, hk⟩ := List.mem_map.mp (Map.has_iff.mp h)
  exact ⟨p, hp, by simpa using hk⟩

theorem remove (h : c.Tidy) (k : K) : (c.remove k).Tidy where
  expiring k' hk' := by
    obtain ⟨hexp, hne⟩ := Map.has_delete_iff.mp hk'
    exact Map.has_delete_iff.mpr ⟨h.expiring k' hexp, hne⟩
  fits m hm hlt := by
    apply h.fits m hm
    exact hlt.trans_le (List.length_filter_le _ _)

theorem get (h : c.Tidy) (k : K) (now : Number) : (c.get k now).2.Tidy := by
  unfold LruMemoCache.get
  split_ifs
  · exact h.remove k
  · cases hvalue : (c.store.get k).join with
    | none => exact h
    | some v =>
      have hhas : c.store.has k = true := by
        rw [← Map.get_isSome]
        cases hget : c.store.get k with
        | none =>
          rw [hget] at hvalue
          cases hvalue
        | some _ => rfl
      refine ⟨?_, ?_⟩
      · intro k' hk'
        apply Map.has_set_iff.mpr
        by_cases hk : k' = k
        · exact .inl hk
        · exact .inr (Map.has_delete_iff.mpr ⟨h.expiring k' hk', hk⟩)
      · intro m hm hlt
        have hsize : ((c.store.delete k).set k (some v)).entries.length ≤ c.size := by
          rw [Map.set_new Map.has_delete_self, List.length_append]
          exact size_remove_lt hhas
        exact h.fits m hm (hlt.trans_le hsize)

/-- There is room for one more. -/
theorem makeRoom (h : c.Tidy) (k : K) : (c.makeRoom k).Tidy ∧
    (c.makeRoom k).store.has k = false ∧
    ∀ m, 0 < m → m < (c.makeRoom k).size + 1 → atCapacity c.maxSize m = false := by
  unfold LruMemoCache.makeRoom
  split_ifs with hhas hfull
  · refine ⟨h.remove k, Map.has_delete_self, fun m hm hlt => ?_⟩
    exact h.fits m hm (lt_of_lt_of_le hlt (size_remove_lt hhas))
  · rw [Bool.not_eq_true] at hhas
    cases hhead : c.store.entries.head? with
    | none =>
      have hnil : c.size = 0 := by
        rw [size, Map.size, List.head?_eq_none_iff.mp hhead]
        rfl
      exact ⟨h, hhas, fun m hm hlt => by simp only [hnil] at hlt; omega⟩
    | some oldest =>
      have hmem : c.store.has oldest.1 = true :=
        Map.has_iff.mpr (List.mem_map_of_mem (List.mem_of_mem_head? hhead))
      refine ⟨h.remove oldest.1, ?_, fun m hm hlt => ?_⟩
      · show (c.store.delete oldest.1).has k = false
        rw [← Map.get_eq_none_iff] at hhas ⊢
        rw [Map.get_delete, hhas, ite_self]
      · exact h.fits m hm (lt_of_lt_of_le hlt (size_remove_lt hmem))
  · rw [Bool.not_eq_true] at hhas hfull
    refine ⟨h, hhas, fun m hm hlt => ?_⟩
    rcases Nat.lt_succ_iff_lt_or_eq.mp hlt with hlt | rfl
    · exact h.fits m hm hlt
    · exact hfull

theorem insert (h : c.Tidy) (k : K) (value : Option V) (expiresAt : Option Number) :
    (c.insert k value expiresAt).Tidy := by
  obtain ⟨hroom, hnew, hfits⟩ := h.makeRoom k
  refine ⟨?_, ?_⟩
  · intro k' hk'
    have hmem : k' = k ∨ (c.makeRoom k).expiresAt.has k' = true := by
      cases expiresAt with
      | none => exact .inr hk'
      | some expiry =>
        exact Map.has_set_iff.mp hk'
    exact Map.has_set_iff.mpr (hmem.imp_right (hroom.expiring k'))
  · intro m hm hlt
    have hsize : (c.insert k value expiresAt).size = (c.makeRoom k).size + 1 := by
      show ((c.makeRoom k).store.set k value).entries.length = _
      rw [Map.set_new hnew, List.length_append]
      rfl
    rw [hsize] at hlt
    rw [(c.insert_config k value expiresAt).1]
    exact hfits m hm hlt

theorem replay (h : c.Tidy) (readings : List (Reading K V)) (restored : ℕ) :
    (StreamFi.replay LruMemoCache.insert readings c restored).1.Tidy := by
  induction readings generalizing c restored with
  | nil => exact h
  | cons reading readings ih =>
    cases reading with
    | skipped => exact ih h restored
    | refused error => exact h
    | entry key value deadline => exact ih (h.insert key value deadline) (restored + 1)

end Tidy

/-- **Every cache is tidy.** -/
theorem Built.tidy {asKey : Key → K} {asValue : Json → V} {c : LruMemoCache K V}
    (h : Built asKey asValue c) : c.Tidy := by
  have hempty (maxSize : Number) (ttlMs : Option Number) :
      (LruMemoCache.mk (K := K) (V := V) Map.empty Map.empty maxSize ttlMs).Tidy :=
    ⟨fun _ hk => (nomatch hk), fun _ _ hlt => nomatch hlt⟩
  induction h with
  | new h =>
    unfold LruMemoCache.new at h
    split_ifs at h
    cases h
    exact hempty _ _
  | get _ k now ih => exact ih.get k now
  | set _ hset ih =>
    unfold LruMemoCache.set at hset
    split at hset
    · cases hset
      exact ih.insert _ _ _
    · split_ifs at hset
      cases hset
      exact ih.insert _ _ _
  | clear _ _ => exact hempty _ _
  | hydrate _ json now ih =>
    unfold LruMemoCache.hydrate hydrateWith
    split
    · exact ih
    · exact ih.replay _ _

/-- The key whose entry makes room for another. -/
def evicts (c : LruMemoCache K V) (k : K) : Option K :=
  if c.store.has k then none
  else if c.maxSize.le (.fin c.store.size) then c.store.entries.head?.map Prod.fst
  else none

/-- An entry of the first cache that makes room is missing in the second, or makes room there too. -/
def Spares (c h : LruMemoCache K V) (k : K) : Prop :=
  ∀ k₀, c.evicts k = some k₀ → h.store.has k₀ = false ∨ h.maxSize.le (.fin h.store.size) = true

end LruMemoCache

/-! ## Marked items -/

/-- What the second cache has of an item with a deadline. -/
inductive Mark where
  | gone
  | lost
  | same

section Marks

variable {K V : Type}

/-- The item in the first cache. -/
def whole (e : Item K V (Number × Mark)) : Option (Item K V Number) :=
  some ⟨e.key, e.value, e.deadline.map Prod.fst⟩

/-- The item in the second one. -/
def restored (e : Item K V (Number × Mark)) : Option (Item K V Number) :=
  match e.deadline with
  | none => some ⟨e.key, e.value, none⟩
  | some (_, .gone) => none
  | some (_, .lost) => some ⟨e.key, e.value, none⟩
  | some (expiry, .same) => some ⟨e.key, e.value, some expiry⟩

/-- What a snapshot makes of an item. -/
def mark (now : Number) (e : Item K V Number) : Item K V (Number × Mark) :=
  ⟨e.key, e.value, e.deadline.map fun expiry =>
    (expiry, if past now expiry then .gone else if expiry.isFinite then .same else .lost)⟩

/-- What is gone has expired, and a deadline that is lost never passes. -/
def Sound (now : Number) (e : Item K V (Number × Mark)) : Prop :=
  match e.deadline with
  | some (expiry, .gone) => past now expiry = true
  | some (expiry, .lost) => ∀ t : Number, t.isFinite = true → past t expiry = false
  | _ => True

variable {now t : Number} {e : Item K V (Number × Mark)} {e' : Item K V Number}

theorem whole_key (e : Item K V (Number × Mark)) (e' : Item K V Number) (h : whole e = some e') :
    e'.key = e.key := by
  cases h
  rfl

theorem restored_key (e : Item K V (Number × Mark)) (e' : Item K V Number)
    (h : restored e = some e') : e'.key = e.key := by
  unfold restored at h
  split at h <;> cases h <;> rfl

/-- An item that is stored later is the same in both. -/
def fresh (e : Item K V Number) : Item K V (Number × Mark) :=
  ⟨e.key, e.value, e.deadline.map fun expiry => (expiry, .same)⟩

theorem whole_fresh (e : Item K V Number) : whole (fresh e) = some e := by
  rcases e with ⟨k, value, _ | expiry⟩ <;> rfl

theorem restored_fresh (e : Item K V Number) : restored (fresh e) = some e := by
  rcases e with ⟨k, value, _ | expiry⟩ <;> rfl

theorem sound_fresh (e : Item K V Number) : Sound now (fresh e) := by
  rcases e with ⟨k, value, _ | expiry⟩ <;> trivial

theorem whole_past (h : whole e = some e') :
    e'.value = e.value ∧ e'.deadline.any (past t) = e.deadline.any fun p => past t p.1 := by
  cases h
  exact ⟨rfl, Option.any_map⟩

theorem past_mono {now t expiry : Number} (h : now.le t = true) (hpast : past now expiry = true) :
    past t expiry = true := Number.le_trans hpast h

theorem any_past_mono {now t : Number} (h : now.le t = true) {deadline : Option Number}
    (hany : deadline.any (past now) = true) : deadline.any (past t) = true := by
  cases deadline with
  | none => exact hany
  | some expiry => exact past_mono h hany

/-- **A restored item expires when the item does.** -/
theorem restored_past (hsound : Sound now e) (ht : t.isFinite = true) (h : restored e = some e') :
    e'.value = e.value ∧ e'.deadline.any (past t) = e.deadline.any fun p => past t p.1 := by
  unfold restored at h
  unfold Sound at hsound
  split at h <;> rename_i hdeadline <;> rw [hdeadline] at hsound ⊢ <;> cases h
  · exact ⟨rfl, rfl⟩
  · exact ⟨rfl, (hsound t ht).symm⟩
  · exact ⟨rfl, rfl⟩

theorem restored_none (hsound : Sound now e) (ht : now.le t = true) (h : restored e = none) :
    (e.deadline.any fun p => past t p.1) = true := by
  unfold restored at h
  unfold Sound at hsound
  split at h <;> rename_i hdeadline <;> rw [hdeadline] at hsound ⊢ <;> cases h
  exact past_mono ht hsound

theorem whole_mark (e : Item K V Number) : whole (mark now e) = some e := by
  rcases e with ⟨k, value, _ | expiry⟩ <;> rfl

/-- What has not expired is restored. -/
theorem restored_mark (e : Item K V Number) : restored (mark now e) =
    if e.deadline.any (past now) = true then none
    else some ⟨e.key, e.value, e.deadline.filter Number.isFinite⟩ := by
  rcases e with ⟨k, value, _ | expiry⟩
  · rfl
  · simp only [restored, mark, Option.map_some, Option.any_some, Option.filter_some]
    by_cases hpast : past now expiry = true
    · simp only [if_pos hpast]
    · by_cases hfin : expiry.isFinite = true
      · simp only [if_neg hpast, if_pos hfin]
      · simp only [if_neg hpast, if_neg hfin]

theorem sound_mark (hnow : now.isFinite = true) (e : Item K V Number) : Sound now (mark now e) := by
  cases hdeadline : e.deadline with
  | none => simp [Sound, mark, hdeadline]
  | some expiry =>
    simp only [Sound, mark, hdeadline, Option.map_some]
    by_cases hpast : past now expiry = true
    · simp only [if_pos hpast]
      exact hpast
    · by_cases hfin : expiry.isFinite = true
      · simp only [if_neg hpast, if_pos hfin]
      · simp only [if_neg hpast, if_neg hfin]
        intro t ht
        cases expiry with
        | fin q => exact absurd rfl hfin
        | nan => cases t <;> rfl
        | posInf =>
          cases t with
          | fin q => rfl
          | nan | posInf | negInf => cases ht
        | negInf =>
          cases now with
          | fin q => exact absurd rfl hpast
          | nan | posInf | negInf => cases hnow

end Marks

/-! ## The two caches -/

/-- The caches hold the marked items. -/
structure Restores {K V : Type} [DecidableEq K] (now : Number) (c h : LruMemoCache K V)
    (g : List (Item K V (Number × Mark))) : Prop where
  first : Holds c (g.filterMap whole)
  second : Holds h (g.filterMap restored)
  sound : ∀ e ∈ g, Sound now e
  fits : ∀ m, 0 < m → m < g.length → atCapacity c.maxSize m = false
  room : ∀ m, atCapacity h.maxSize m = true → atCapacity c.maxSize m = true
  ttl_eq : h.defaultTtlMs = c.defaultTtlMs

/-- A `get` or `set` at a time from `now` on. -/
def CacheOp.Later {K V : Type} (now : Number) : CacheOp K V → Prop
  | .get _ t | .set _ _ _ t => t.isFinite = true ∧ now.le t = true
  | _ => False

namespace Restores

variable {K V : Type} [DecidableEq K] {now t : Number} {c h : LruMemoCache K V}
  {g : List (Item K V (Number × Mark))} {k : K}

omit [DecidableEq K] in
theorem length_whole (g : List (Item K V (Number × Mark))) : (g.filterMap whole).length = g.length :=
  List.filterMap_length_eq_length.mpr fun _ _ => rfl

theorem keys_nodup (r : Restores now c h g) : (g.map Item.key).Nodup := by
  have hkeys := r.first.keys_nodup
  rwa [List.map_filterMap, show (fun e => (whole e).map Item.key) =
    some ∘ (Item.key : Item K V (Number × Mark) → K) from rfl, List.filterMap_eq_map] at hkeys

/-- **Looking a key up.** -/
theorem get (r : Restores now c h g) (ht : t.isFinite = true) (hle : now.le t = true) (k : K) :
    (c.get k t).1 = (h.get k t).1 ∧
      Restores now (c.get k t).2 (h.get k t).2 (getItem (fun p => past t p.1) g k).2 := by
  obtain ⟨hvalue₁, hholds₁⟩ := r.first.get k t
  obtain ⟨hvalue₂, hholds₂⟩ := r.second.get k t
  rw [getItem_filterMap whole_key (fun e _ e' he' => whole_past he') (fun e _ he => nomatch he)
    r.keys_nodup] at hvalue₁ hholds₁
  rw [getItem_filterMap restored_key (fun e he e' he' => restored_past (r.sound e he) ht he')
    (fun e he hnone => restored_none (r.sound e he) hle hnone) r.keys_nodup] at hvalue₂ hholds₂
  refine ⟨hvalue₁.trans hvalue₂.symm, hholds₁, hholds₂, ?_, ?_, ?_, ?_⟩
  · exact fun e he => r.sound e (getItem_subset he)
  · intro m hm hlt
    rw [(c.get_config k t).1]
    exact r.fits m hm (hlt.trans_le length_getItem_le)
  · rw [(c.get_config k t).1, (h.get_config k t).1]
    exact r.room
  · rw [(c.get_config k t).2, (h.get_config k t).2]
    exact r.ttl_eq

/-- The item that makes room is missing in the second cache, or that is full as well. -/
theorem free (r : Restores now c h g) (hspares : c.Spares h k) (hnew : find g k = none)
    (hfull : atCapacity c.maxSize g.length = true) :
    (∀ e₀ ∈ g.head?, restored e₀ = none) ∨
      atCapacity h.maxSize (g.filterMap restored).length = true := by
  have hhas : c.store.has k = false := by
    rw [r.first.store_has, find_filterMap whole_key r.keys_nodup, hnew]
    rfl
  have hsize : c.store.size = g.length := r.first.size_eq.trans (length_whole g)
  rw [← r.second.size_eq]
  cases g with
  | nil => exact .inl fun _ he => nomatch he
  | cons e g =>
    have hhead : c.store.entries.head? = some (e.key, some e.value) := by
      rw [r.first.store]
      rfl
    have hevicts : c.evicts k = some e.key := by
      have hle : c.maxSize.le (.fin c.store.size) = true := by
        rw [hsize]
        exact hfull
      rw [LruMemoCache.evicts, if_neg (by rw [hhas]; exact Bool.false_ne_true), if_pos hle, hhead]
      rfl
    refine (hspares e.key hevicts).imp_left ?_
    intro hmissing e₀ he₀
    cases he₀
    have hfind : find (e :: g) e.key = some e := List.find?_cons_of_pos (by simp)
    rw [r.second.store_has, find_filterMap restored_key r.keys_nodup, hfind, Option.bind_some]
      at hmissing
    exact Option.isNone_iff_eq_none.mp (Option.isSome_eq_false_iff.mp hmissing)

/-- **Storing a value.** -/
theorem insert (r : Restores now c h g) (e : Item K V Number) (hspares : c.Spares h e.key) :
    Restores now (c.insert e.key (some e.value) e.deadline)
      (h.insert e.key (some e.value) e.deadline) (putItem (atCapacity c.maxSize) g (fresh e)) := by
  have hholds₁ := r.first.insert e
  have hholds₂ := r.second.insert e
  rw [putItem_filterMap whole_key (whole_fresh e) r.keys_nodup (fun _ hm => hm) r.fits
    (fun _ hfull => .inr (by rw [length_whole]; exact hfull))] at hholds₁
  rw [putItem_filterMap restored_key (restored_fresh e) r.keys_nodup r.room r.fits
    (fun hnew hfull => r.free hspares hnew hfull)] at hholds₂
  refine ⟨hholds₁, hholds₂, ?_, ?_, ?_, ?_⟩
  · intro e₀ he₀
    rcases List.mem_append.mp (putItem_subset he₀) with hold | hnew
    · exact r.sound e₀ hold
    · rw [List.mem_singleton.mp hnew]
      exact sound_fresh e
  · rw [(c.insert_config _ _ _).1]
    exact fits_putItem r.fits
  · rw [(c.insert_config _ _ _).1, (h.insert_config _ _ _).1]
    exact r.room
  · rw [(c.insert_config _ _ _).2, (h.insert_config _ _ _).2]
    exact r.ttl_eq

/-- **One operation** gets the same answer; what is stored later comes after what is restored. -/
theorem perform (r : Restores now c h g) (asKey : Key → K) (asValue : Json → V) {op : CacheOp K V}
    (hop : op.Later now) (hspares : ∀ k value ttlMs t, op = .set k value ttlMs t → c.Spares h k) :
    (c.perform asKey asValue op).1 = (h.perform asKey asValue op).1 ∧
      ∃ g₁ g₂, Restores now (c.perform asKey asValue op).2 (h.perform asKey asValue op).2 (g₁ ++ g₂) ∧
        g₁.Sublist g ∧ ∀ e ∈ g₂, restored e ≠ none := by
  cases op with
  | get k t =>
    obtain ⟨ht, hle⟩ := hop
    obtain ⟨hvalue, hnext⟩ := r.get ht hle k
    obtain ⟨g₁, g₂, heq, hsub, hused⟩ := getItem_snd (fun p => past t p.1) g k
    rw [heq] at hnext
    refine ⟨congrArg CacheAnswer.value hvalue, g₁, g₂, hnext, hsub, ?_⟩
    intro e he hnone
    obtain ⟨hmem, hlive⟩ := hused e he
    rw [restored_none (r.sound e hmem) hle hnone] at hlive
    cases hlive
  | set k value ttlMs t =>
    have hinsert (deadline : Option Number) :
        ∃ g₁ g₂, Restores now (c.insert k (some value) deadline) (h.insert k (some value) deadline)
          (g₁ ++ g₂) ∧ g₁.Sublist g ∧ ∀ e ∈ g₂, restored e ≠ none := by
      have hnext := r.insert ⟨k, value, deadline⟩ (hspares k value ttlMs t rfl)
      obtain ⟨g₁, heq, hsub⟩ := putItem_eq (atCapacity c.maxSize) g (fresh ⟨k, value, deadline⟩)
      rw [heq] at hnext
      refine ⟨g₁, _, hnext, hsub, ?_⟩
      intro e he hnone
      rw [List.mem_singleton.mp he, restored_fresh] at hnone
      cases hnone
    simp only [LruMemoCache.perform, LruMemoCache.set, r.ttl_eq]
    cases ttlMs.or c.defaultTtlMs with
    | none => exact ⟨rfl, hinsert none⟩
    | some ttl =>
      by_cases hbad : badTtl ttl = true
      · simp only [hbad, if_true]
        exact ⟨trivial, g, [], by rwa [List.append_nil], List.Sublist.refl g,
          fun _ he => absurd he List.not_mem_nil⟩
      · simp only [if_neg hbad]
        exact ⟨trivial, hinsert _⟩
  | clear => exact hop.elim
  | hydrate json t => exact hop.elim

end Restores

/-! ## Writing and reading back -/

@[simp] theorem serializableKey_json (k : Key) : serializableKey k.json = .ok k := by
  cases k <;> rfl

namespace LruMemoCache

/-- Keys are strings and finite numbers, and values are read back as they were written. -/
def Representable (c : LruMemoCache Key Json) : Prop :=
  ∀ p ∈ c.store.entries, p.1.json.written = p.1.json ∧ ∃ v, p.2 = some v ∧ v.written = v

/-- What has expired was used less recently than what has not. -/
def ExpiredFirst (c : LruMemoCache Key Json) (now : Number) : Prop :=
  c.store.entries.Pairwise fun p q => c.isExpired q.1 now = true → c.isExpired p.1 now = true

def items (c : LruMemoCache Key Json) : List (Item Key Json Number) :=
  c.store.entries.filterMap fun p => p.2.map fun v => ⟨p.1, v, c.expiresAt.get p.1⟩

variable {c : LruMemoCache Key Json} {now : Number}

theorem isExpired_eq {e : Item Key Json Number} (h : c.expiresAt.get e.key = e.deadline) :
    c.isExpired e.key now = e.deadline.any (past now) := by
  rw [isExpired, h]
  rfl

theorem mem_items {e : Item Key Json Number} (he : e ∈ c.items) :
    (e.key, some e.value) ∈ c.store.entries ∧ c.expiresAt.get e.key = e.deadline := by
  obtain ⟨p, hp, hmap⟩ := List.mem_filterMap.mp he
  obtain ⟨v, hv, rfl⟩ := Option.map_eq_some_iff.mp hmap
  exact ⟨by rwa [← hv], rfl⟩

theorem holds_items (hc : c.Tidy) (hcontent : c.Representable) : Holds c c.items where
  store := by
    have hpairs : ∀ entries : List (Key × Option Json), (∀ p ∈ entries, ∃ v, p.2 = some v) →
        (entries.filterMap fun p => p.2.map fun v =>
          (⟨p.1, v, c.expiresAt.get p.1⟩ : Item Key Json Number)).map
            (fun e => (e.key, some e.value)) = entries := by
      intro entries hall
      induction entries with
      | nil => rfl
      | cons p entries ih =>
        obtain ⟨v, hv⟩ := hall p List.mem_cons_self
        rw [List.filterMap_cons_some (by rw [hv]; rfl), List.map_cons,
          ih fun q hq => hall q (List.mem_cons_of_mem _ hq), ← hv]
    refine (hpairs c.store.entries ?_).symm
    intro p hp
    obtain ⟨-, v, hv, -⟩ := hcontent p hp
    exact ⟨v, hv⟩
  deadline e he := (mem_items he).2
  expiring := hc.expiring

/-- What `serialize` writes. -/
theorem serializeEntries_eq {l : List (Item Key Json Number)}
    (h : ∀ e ∈ l, c.expiresAt.get e.key = e.deadline) :
    c.serializeEntries Key.json id now (l.map fun e => (e.key, some e.value)) =
      .ok ((l.filter fun e => !e.deadline.any (past now)).map fun e =>
        snapshotEntry e.key.json (some e.value) e.deadline) := by
  induction l with
  | nil => rfl
  | cons e l ih =>
    have hdeadline := h e List.mem_cons_self
    rw [List.map_cons, serializeEntries, serializableKey_json]
    simp only [isExpired_eq hdeadline, ih fun e' he' => h e' (List.mem_cons_of_mem _ he'), hdeadline]
    by_cases hpast : e.deadline.any (past now) = true
    · rw [if_pos hpast, List.filter_cons_of_neg (by simp [hpast])]
    · rw [if_neg hpast, List.filter_cons_of_pos (by simpa using hpast)]
      rfl

theorem snapshotEntries_written (maxSize : Number) (entries : List Json) :
    snapshotEntries (some (Json.written (.object [("version", .number (.fin 1)),
      ("maxSize", .number maxSize), ("entries", .array entries)]))) =
        .ok (entries.map Json.written) := by
  rw [← Json.writtenItems_eq]
  rfl

end LruMemoCache

section Replay

variable {now now' : Number} {e : Item Key Json Number}

/-- What `hydrate` makes of an item that was written. -/
def Reading.ofItem : Option (Item Key Json Number) → Reading Key Json
  | none => .skipped
  | some e => .entry e.key (some e.value) e.deadline

/-- **An item is read back as the snapshot restores it.** -/
theorem readEntry_written (hkey : e.key.json.written = e.key.json) (hvalue : e.value.written = e.value)
    (hlive : e.deadline.any (past now) = false) (hnow : now.le now' = true)
    (hfin : now'.isFinite = true) :
    readEntry id id now' (snapshotEntry e.key.json (some e.value) e.deadline).written =
      Reading.ofItem (restored (mark now' e)) := by
  have hraw : (snapshotEntry e.key.json (some e.value) e.deadline).written =
      .object [("key", e.key.json), ("value", e.value),
        ("expiresAt", ((e.deadline.map Json.number).getD .null).written)] := by
    simp [snapshotEntry, Json.written, Json.writtenFields, hkey, hvalue]
  rw [hraw]
  simp only [readEntry, Json.field, List.find?, decide_true, String.reduceEq, decide_false,
    Option.map_some, serializableKey_json, id_eq]
  rcases e with ⟨k, value, _ | expiry⟩
  · rfl
  · have hnot : past now expiry = false := hlive
    cases expiry with
    | fin q =>
      have hwritten : Json.written (.number (.fin q)) = .number (.fin q) := rfl
      simp only [Option.map_some, Option.getD_some, hwritten, Option.any_some, restored, mark]
      by_cases hpast : past now' (.fin q) = true
      · have hle : (Number.fin q).le now' = true := hpast
        simp only [if_pos hle, if_pos hpast]
        rfl
      · have hle : ¬ (Number.fin q).le now' = true := hpast
        simp only [if_neg hle, if_neg hpast]
        rfl
    | nan => rfl
    | posInf =>
      cases now' with
      | fin q => rfl
      | nan | posInf | negInf => cases hfin
    | negInf =>
      cases now with
      | nan => cases hnow
      | fin _ | posInf | negInf => cases hnot

/-- Items inserted one after the other, where there is room for all. -/
theorem replay_items {f : Item Key Json Number → Option (Item Key Json Number)}
    {l acc : List (Item Key Json Number)} {h : LruMemoCache Key Json} (hholds : Holds h acc)
    (hnodup : ((acc ++ l.filterMap f).map Item.key).Nodup)
    (hfits : ∀ m, 0 < m → m < (acc ++ l.filterMap f).length → atCapacity h.maxSize m = false)
    (restored : ℕ) :
    let r := replay LruMemoCache.insert (l.map fun e => Reading.ofItem (f e)) h restored
    Holds r.1 (acc ++ l.filterMap f) ∧ r.2 = .ok (restored + (l.filterMap f).length) ∧
      r.1.maxSize = h.maxSize ∧ r.1.defaultTtlMs = h.defaultTtlMs := by
  induction l generalizing acc h restored with
  | nil =>
    rw [List.filterMap_nil, List.append_nil]
    exact ⟨hholds, rfl, rfl, rfl⟩
  | cons e l ih =>
    cases hf : f e with
    | none =>
      rw [List.filterMap_cons_none hf] at hnodup hfits ⊢
      rw [List.map_cons, hf]
      exact ih hholds hnodup hfits restored
    | some e' =>
      rw [List.filterMap_cons_some hf, List.append_cons] at hnodup hfits ⊢
      have hnew : find acc e'.key = none := by
        rw [find_eq_none_iff]
        intro e₀ he₀ hk
        rw [List.map_append, List.map_append] at hnodup
        have := (List.nodup_append.mp (List.nodup_append.mp hnodup).1).2.2 e₀.key
          (List.mem_map_of_mem he₀) e'.key (List.mem_map_of_mem (List.mem_singleton_self e'))
        exact this hk
      have hput : putItem (atCapacity h.maxSize) acc e' = acc ++ [e'] := by
        rw [putItem_new hnew]
        congr 1
        split_ifs with hfull
        · cases acc with
          | nil => rfl
          | cons e₀ acc =>
            have hroom := hfits (e₀ :: acc).length (Nat.succ_pos _) (by simp)
            rw [hfull] at hroom
            cases hroom
        · rfl
      have hnext := hholds.insert e'
      have hconfig := h.insert_config e'.key (some e'.value) e'.deadline
      rw [hput] at hnext
      rw [List.map_cons, hf]
      obtain ⟨hlast, hcount, hmax, httl⟩ := ih hnext hnodup (by rwa [hconfig.1]) (restored + 1)
      refine ⟨hlast, ?_, hmax.trans hconfig.1, httl.trans hconfig.2⟩
      rw [List.length_cons, Nat.add_comm _ 1, ← Nat.add_assoc]
      exact hcount

end Replay

/-! ## What a snapshot restores -/

section Restore

variable {c h₀ : LruMemoCache Key Json} {maxEntries now now' : Number}

theorem atCapacity_of_le {maxSize maxSize' : Number} (h : maxSize.le maxSize' = true) {m : ℕ}
    (hfull : atCapacity maxSize' m = true) : atCapacity maxSize m = true := Number.le_trans h hfull

/-- The items that a snapshot has. -/
def LruMemoCache.live (c : LruMemoCache Key Json) (now : Number) : List (Item Key Json Number) :=
  c.items.filter fun e => !e.deadline.any (past now)

theorem filterMap_whole_mark (l : List (Item Key Json Number)) :
    (l.map (mark now)).filterMap whole = l := by
  rw [List.filterMap_map]
  exact (List.filterMap_congr fun e _ => whole_mark e).trans List.filterMap_some

/-- What has expired when the snapshot is taken has expired when it is read. -/
theorem filterMap_restored_live (hnow : now.le now' = true) :
    (c.live now).filterMap (fun e => restored (mark now' e)) =
      (c.items.map (mark now')).filterMap restored := by
  rw [LruMemoCache.live, List.filterMap_map, List.filterMap_filter]
  refine List.filterMap_congr fun e _ => ?_
  split_ifs with hlive
  · rfl
  · rw [Bool.not_eq_true, Bool.not_eq_false'] at hlive
    rw [Function.comp_apply, restored_mark, if_pos (any_past_mono hnow hlive)]

/-- **What `hydrate` reads** of what `serialize` wrote. -/
theorem serialize_read (hc : c.Tidy) (hcontent : c.Representable) (hnow : now.le now' = true)
    (hfin : now'.isFinite = true) :
    ∃ json entries, c.serialize Key.json id now = .ok json ∧
      snapshotEntries (some json) = .ok entries ∧ entries.map (readEntry id id now') =
        (c.live now).map fun e => Reading.ofItem (restored (mark now' e)) := by
  let entries := (c.live now).map fun e => snapshotEntry e.key.json (some e.value) e.deadline
  refine ⟨Json.written (.object [("version", .number (.fin 1)), ("maxSize", .number c.maxSize),
    ("entries", .array entries)]), entries.map Json.written, ?_, ?_, ?_⟩
  · rw [LruMemoCache.serialize, (LruMemoCache.holds_items hc hcontent).store,
      LruMemoCache.serializeEntries_eq fun e he => (LruMemoCache.mem_items he).2]
    rfl
  · exact LruMemoCache.snapshotEntries_written c.maxSize entries
  · rw [List.map_map, List.map_map]
    refine List.map_congr_left fun e he => ?_
    obtain ⟨hitem, hlive⟩ := List.mem_filter.mp he
    obtain ⟨hkey, v, hv, hvalue⟩ := hcontent _ (LruMemoCache.mem_items hitem).1
    cases hv
    exact readEntry_written hkey hvalue (by simpa using hlive) hnow hfin

/-- **Hydrating an empty cache.** -/
theorem hydrate_serialized (hc : c.Tidy) (hcontent : c.Representable)
    (hnew : LruMemoCache.new maxEntries c.defaultTtlMs = .ok h₀)
    (hroom : maxEntries = c.maxSize ∨ c.maxSize.le maxEntries = true) (hnow : now.le now' = true)
    (hfin : now'.isFinite = true) :
    ∃ json, c.serialize Key.json id now = .ok json ∧
      (h₀.hydrate id id (some json) now').2 = .ok (h₀.hydrate id id (some json) now').1.size ∧
      (h₀.hydrate id id (some json) now').1.maxSize = maxEntries ∧
      Restores now' c (h₀.hydrate id id (some json) now').1 (c.items.map (mark now')) := by
  have hholds := LruMemoCache.holds_items hc hcontent
  have hlive : [] ++ (c.live now).filterMap (fun e => restored (mark now' e)) =
      (c.items.map (mark now')).filterMap restored := filterMap_restored_live hnow
  obtain ⟨json, entries, hjson, hentries, hreadings⟩ := serialize_read hc hcontent hnow hfin
  obtain ⟨hempty, hmax₀, httl₀⟩ : Holds h₀ [] ∧ h₀.maxSize = maxEntries ∧
      h₀.defaultTtlMs = c.defaultTtlMs := by
    unfold LruMemoCache.new at hnew
    split_ifs at hnew
    cases hnew
    exact ⟨Holds.clear ⟨Map.empty, Map.empty, maxEntries, c.defaultTtlMs⟩, rfl, rfl⟩
  have hroom₀ (m : ℕ) (hfull : atCapacity h₀.maxSize m = true) : atCapacity c.maxSize m = true := by
    rw [hmax₀] at hfull
    rcases hroom with rfl | hle
    · exact hfull
    · exact atCapacity_of_le hle hfull
  have hfits (m : ℕ) (hpos : 0 < m) (hlt : m < c.items.length) : atCapacity c.maxSize m = false :=
    hc.fits m hpos (by rwa [hholds.size_eq])
  obtain ⟨hlast, hcount, hmax, httl⟩ := replay_items (f := fun e => restored (mark now' e))
    (l := c.live now) hempty
    (by
      rw [hlive, List.filterMap_map]
      exact nodup_filterMap (fun e e' he => restored_key (mark now' e) e' he) hholds.keys_nodup)
    (by
      intro m hpos hlt
      rw [hlive, List.filterMap_map] at hlt
      have hroom := hfits m hpos (hlt.trans_le (List.length_filterMap_le _ _))
      rw [← Bool.not_eq_true] at hroom ⊢
      exact fun hfull => hroom (hroom₀ m hfull))
    0
  rw [hlive] at hlast
  have hhydrate : h₀.hydrate id id (some json) now' = replay LruMemoCache.insert
      ((c.live now).map fun e => Reading.ofItem (restored (mark now' e))) h₀ 0 := by
    rw [LruMemoCache.hydrate, hydrateWith, hentries, ← hreadings]
  refine ⟨json, hjson, ?_⟩
  rw [hhydrate]
  refine ⟨?_, hmax.trans hmax₀, ?_, hlast, ?_, ?_, ?_, httl.trans httl₀⟩
  · rw [hcount, hlast.size_eq, ← hlive, Nat.zero_add]
    rfl
  · rwa [filterMap_whole_mark]
  · intro e he
    obtain ⟨e', -, rfl⟩ := List.mem_map.mp he
    exact sound_mark hfin e'
  · rwa [List.length_map]
  · rw [hmax]
    exact hroom₀

variable {h : LruMemoCache Key Json} {g : List (Item Key Json (Number × Mark))}

namespace Restores

/-- Where what is gone comes first, a full cache loses that, or is full in both. -/
theorem spares (r : Restores now' c h g) (hmax : h.maxSize = c.maxSize)
    (hfirst : g.Pairwise fun e e' => restored e' = none → restored e = none) (k : Key) :
    c.Spares h k := by
  intro k₀ hk₀
  have hsize : c.store.size = g.length := r.first.size_eq.trans (length_whole g)
  unfold LruMemoCache.evicts at hk₀
  split_ifs at hk₀ with hhas hfull
  rw [r.first.store] at hk₀
  cases g with
  | nil => cases hk₀
  | cons e g =>
    cases hk₀
    cases hgone : restored e with
    | none =>
      have hfind : find (e :: g) e.key = some e := List.find?_cons_of_pos (by simp)
      refine .inl ?_
      show h.store.has e.key = false
      rw [r.second.store_has, find_filterMap restored_key r.keys_nodup, hfind, Option.bind_some,
        hgone]
      rfl
    | some e' =>
      have hall : ∀ e₁ ∈ e :: g, (restored e₁).isSome = true := by
        intro e₁ he₁
        rw [Option.isSome_iff_ne_none]
        intro hnone
        rcases List.mem_cons.mp he₁ with rfl | he₁
        · rw [hgone] at hnone
          cases hnone
        · rw [(List.pairwise_cons.mp hfirst).1 e₁ he₁ hnone] at hgone
          cases hgone
      have hlen : h.store.size = c.store.size := by
        rw [hsize, ← List.filterMap_length_eq_length.mpr hall]
        exact r.second.size_eq
      rw [hmax, hlen]
      exact .inr hfull

theorem perform_maxSize {op : CacheOp Key Json} (hop : op.Later now') :
    (c.perform id id op).2.maxSize = c.maxSize := by
  cases op with
  | get k t => exact (c.get_config k t).1
  | set k value ttlMs t =>
    simp only [LruMemoCache.perform, LruMemoCache.set]
    cases ttlMs.or c.defaultTtlMs with
    | none => exact (c.insert_config k (some value) none).1
    | some ttl =>
      by_cases hbad : badTtl ttl = true
      · simp only [hbad, if_true]
      · simp only [if_neg hbad]
        exact (c.insert_config k (some value) _).1
  | clear => exact hop.elim
  | hydrate json t => exact hop.elim

/-- **A run** in which every entry that makes room is spared. -/
theorem answers_while (r : Restores now' c h g) {ops : List (CacheOp Key Json)}
    (hops : ∀ op ∈ ops, op.Later now')
    (hspares : ∀ ops₁ k value ttlMs t ops₂, ops = ops₁ ++ .set k value ttlMs t :: ops₂ →
      (performAll (LruMemoCache.perform id id) c ops₁).2.Spares
        (performAll (LruMemoCache.perform id id) h ops₁).2 k) :
    (performAll (LruMemoCache.perform id id) c ops).1 =
      (performAll (LruMemoCache.perform id id) h ops).1 := by
  have hstep (c h : LruMemoCache Key Json) (op : CacheOp Key Json)
      (hr : ∃ g, Restores now' c h g) (hok : op.Later now' ∧
        ∀ k value ttlMs t, op = .set k value ttlMs t → c.Spares h k) :
      (c.perform id id op).1 = (h.perform id id op).1 ∧
        ∃ g, Restores now' (c.perform id id op).2 (h.perform id id op).2 g := by
    obtain ⟨g, r⟩ := hr
    obtain ⟨hanswer, g₁, g₂, hnext, -⟩ := r.perform id id hok.1 hok.2
    exact ⟨hanswer, _, hnext⟩
  refine (performAll_simulates_while hstep ⟨g, r⟩ ?_).1
  rintro ops₁ op ops₂ rfl
  refine ⟨hops op (List.mem_append_right ops₁ List.mem_cons_self), ?_⟩
  rintro k value ttlMs t rfl
  exact hspares ops₁ k value ttlMs t ops₂ rfl

/-- **Every run**, where what is gone comes first and the caches are equally large. -/
theorem answers (r : Restores now' c h g) (hmax : h.maxSize = c.maxSize)
    (hfirst : g.Pairwise fun e e' => restored e' = none → restored e = none)
    {ops : List (CacheOp Key Json)} (hops : ∀ op ∈ ops, op.Later now') :
    (performAll (LruMemoCache.perform id id) c ops).1 =
      (performAll (LruMemoCache.perform id id) h ops).1 := by
  have hstep (c h : LruMemoCache Key Json) (op : CacheOp Key Json)
      (hr : ∃ g, Restores now' c h g ∧ h.maxSize = c.maxSize ∧
        g.Pairwise fun e e' => restored e' = none → restored e = none) (hop : op.Later now') :
      (c.perform id id op).1 = (h.perform id id op).1 ∧
        ∃ g, Restores now' (c.perform id id op).2 (h.perform id id op).2 g ∧
          (h.perform id id op).2.maxSize = (c.perform id id op).2.maxSize ∧
          g.Pairwise fun e e' => restored e' = none → restored e = none := by
    obtain ⟨g, r, hmax, hfirst⟩ := hr
    obtain ⟨hanswer, g₁, g₂, hnext, hsub, hkept⟩ :=
      r.perform id id hop fun k _ _ _ _ => r.spares hmax hfirst k
    refine ⟨hanswer, _, hnext, ?_, ?_⟩
    · rw [perform_maxSize hop, perform_maxSize hop, hmax]
    · rw [List.pairwise_append]
      refine ⟨hfirst.sublist hsub, ?_, ?_⟩
      · exact List.pairwise_of_forall_mem_list fun e _ e' he' hnone => absurd hnone (hkept e' he')
      · exact fun e _ e' he' hnone => absurd hnone (hkept e' he')
  exact (performAll_simulates hstep ⟨g, r, hmax, hfirst⟩ hops).1

end Restores

/-- **What a snapshot restores**: the entries that are live when it is read, with the same values
and deadlines (an infinite one is dropped) and in the same order. From then on the two caches answer
alike if they are equally large and what has expired was used before what has not, or as long as an
entry that makes room in the first is missing in the second or makes room there too. -/
theorem snapshot_restores (hc : c.Built id id) (hcontent : c.Representable)
    (hnew : LruMemoCache.new maxEntries c.defaultTtlMs = .ok h₀)
    (hroom : maxEntries = c.maxSize ∨ c.maxSize.le maxEntries = true) (hnow : now.le now' = true)
    (hfin : now'.isFinite = true) :
    ∃ json, c.serialize Key.json id now = .ok json ∧
      let h := (h₀.hydrate id id (some json) now').1
      (h₀.hydrate id id (some json) now').2 = .ok h.size ∧
      h.store.entries = c.store.entries.filter (fun p => !c.isExpired p.1 now') ∧
      (∀ k, h.store.has k = true →
        h.expiresAt.get k = (c.expiresAt.get k).filter Number.isFinite) ∧
      ∀ ops : List (CacheOp Key Json), (∀ op ∈ ops, op.Later now') →
        (maxEntries = c.maxSize ∧ c.ExpiredFirst now' ∨
          ∀ ops₁ k value ttlMs t ops₂, ops = ops₁ ++ .set k value ttlMs t :: ops₂ →
            (performAll (LruMemoCache.perform id id) c ops₁).2.Spares
              (performAll (LruMemoCache.perform id id) h ops₁).2 k) →
        (performAll (LruMemoCache.perform id id) c ops).1 =
          (performAll (LruMemoCache.perform id id) h ops).1 := by
  have hholds := LruMemoCache.holds_items hc.tidy hcontent
  obtain ⟨json, hjson, hcount, hmax, r⟩ := hydrate_serialized hc.tidy hcontent hnew hroom hnow hfin
  refine ⟨json, hjson, hcount, ?_, ?_, ?_⟩
  · rw [r.second.store, hholds.store, List.filterMap_map, List.map_filterMap, List.filter_map,
      ← List.filterMap_eq_map', List.filterMap_filter]
    refine List.filterMap_congr fun e he => ?_
    simp only [Function.comp_apply, restored_mark,
      LruMemoCache.isExpired_eq (LruMemoCache.mem_items he).2]
    cases e.deadline.any (past now') <;> rfl
  · intro k hk
    rw [r.second.store_has, find_filterMap restored_key r.keys_nodup] at hk
    rw [r.second.expiresAt_get, find_filterMap restored_key r.keys_nodup, r.first.expiresAt_get,
      find_filterMap whole_key r.keys_nodup]
    cases hfind : find (c.items.map (mark now')) k with
    | none =>
      rw [hfind] at hk
      cases hk
    | some e =>
      obtain ⟨e₀, -, rfl⟩ := List.mem_map.mp (find_eq_some hfind).1
      rw [hfind, Option.bind_some, restored_mark] at hk
      rw [Option.bind_some, Option.bind_some, restored_mark, whole_mark]
      split_ifs at hk ⊢
      · cases hk
      · rfl
  · rintro ops hops (⟨hsame, hfirst⟩ | hspares)
    · refine r.answers (hmax.trans hsame) ?_ hops
      unfold LruMemoCache.ExpiredFirst at hfirst
      rw [hholds.store, List.pairwise_map] at hfirst
      rw [List.pairwise_map]
      refine hfirst.imp_of_mem ?_
      intro e e' he he' himp hnone
      simp only [LruMemoCache.isExpired_eq (LruMemoCache.mem_items he).2,
        LruMemoCache.isExpired_eq (LruMemoCache.mem_items he').2] at himp
      rw [restored_mark] at hnone ⊢
      split_ifs at hnone with hexpired
      exact if_pos (himp hexpired)
    · exact r.answers_while hops hspares

end Restore

/-! A cache of two entries, one of which has expired at `20`. -/

def storedAt (k : Key) (ttlMs : Option Number) (c : LruMemoCache Key Json) : LruMemoCache Key Json :=
  c.insert k (some (.bool true)) (ttlMs.map (Number.fin 0).add)

def twoEntries (first second : Key × Option Number) : LruMemoCache Key Json :=
  storedAt second.1 second.2 (storedAt first.1 first.2 ⟨Map.empty, Map.empty, .fin 2, none⟩)

theorem built_storedAt {c : LruMemoCache Key Json} (hc : c.Built id id) (hdefault : c.defaultTtlMs = none)
    (k : Key) (ttlMs : Option Number) (hgood : ttlMs.any badTtl = false) :
    (storedAt k ttlMs c).Built id id := by
  have hset : c.set k (some (.bool true)) ttlMs (.fin 0) = .ok (storedAt k ttlMs c) := by
    rw [LruMemoCache.set, hdefault, Option.or_none]
    cases ttlMs with
    | none => rfl
    | some ttl =>
      rw [Option.any_some] at hgood
      exact if_neg (by rw [hgood]; exact Bool.false_ne_true)
  exact hc.set hset

theorem snapshot_restores_two :
    let c := twoEntries (.string "a", some (.fin 10)) (.number (.fin 1), none)
    ∃ json, c.serialize Key.json id (.fin 20) = .ok json ∧
      let h := ((LruMemoCache.mk Map.empty Map.empty (.fin 2) none).hydrate id id (some json)
        (.fin 20)).1
      ∀ ops : List (CacheOp Key Json), (∀ op ∈ ops, op.Later (.fin 20)) →
        (performAll (LruMemoCache.perform id id) c ops).1 =
          (performAll (LruMemoCache.perform id id) h ops).1 := by
  intro c
  have hbuilt : c.Built id id := by
    have hnew : LruMemoCache.new (.fin 2) none =
      .ok (⟨Map.empty, Map.empty, .fin 2, none⟩ : LruMemoCache Key Json) := rfl
    have hfirst := built_storedAt (.new hnew) rfl (.string "a") (some (.fin 10)) (by decide)
    exact built_storedAt hfirst rfl (.number (.fin 1)) none rfl
  have hcontent : c.Representable := by
    have hentries : c.store.entries =
      [(.string "a", some (.bool true)), (.number (.fin 1), some (.bool true))] := rfl
    intro p hp
    rw [hentries] at hp
    rcases List.mem_pair.mp hp with rfl | rfl <;> exact ⟨rfl, _, rfl, rfl⟩
  have hnow : (Number.fin 20).le (.fin 20) = true := by decide
  obtain ⟨json, hjson, -, -, -, hruns⟩ :=
    snapshot_restores hbuilt hcontent rfl (.inl rfl) hnow rfl
  have hfirst : c.ExpiredFirst (.fin 20) := by
    unfold LruMemoCache.ExpiredFirst
    decide
  exact ⟨json, hjson, fun ops hops => hruns ops hops (.inl ⟨rfl, hfirst⟩)⟩

/-- **An expired entry takes up room**: after another value is stored, the cache that was written has
lost what the one that was read has kept. -/
theorem expired_takes_room :
    let c := twoEntries (.number (.fin 1), none) (.string "a", some (.fin 10))
    let read := (c.serialize Key.json id (.fin 20)).toOption.map fun json =>
      ((LruMemoCache.mk Map.empty Map.empty (.fin 2) none).hydrate id id (some json) (.fin 20)).1
    let later := fun c : LruMemoCache Key Json =>
      (((storedAt (.string "b") none c).get (.number (.fin 1)) (.fin 20)).1).isSome
    later c = false ∧ read.map later = some true := by
  decide +kernel

end StreamFi
