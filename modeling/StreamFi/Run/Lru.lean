import Mathlib

/-!
# Caches that forget the least recently used entry

* `Cache`: what such a cache is: a stored key has a value, perhaps a deadline, and the time when it
  was last used; `look`, `put`, `evict`;
* `find`, `getItem`, `putItem`: a list of items, the least recently used first;
* `getItem_filterMap`, `putItem_filterMap`: the same operations where some items are missing;
* `Listed`: the list holds what the cache does, in the order of use; **`Listed.get`**,
  **`Listed.put`**: one operation.
-/

namespace Run.Lru

variable {κ β δ : Type*}

/-! ## Caches -/

structure Entry (β δ : Type*) where
  value : β
  deadline : Option δ
  usedAt : ℕ

@[ext]
structure Cache (κ β δ : Type*) where
  entries : κ → Option (Entry β δ)
  uses : ℕ

namespace Cache

variable (c : Cache κ β δ)

def empty : Cache κ β δ := ⟨fun _ => none, 0⟩

/-- The stored keys. -/
def stored : Set κ := {k | (c.entries k).isSome = true}

/-- The least recently used key. -/
def Oldest (k : κ) : Prop :=
  ∃ e, c.entries k = some e ∧ ∀ k' e', c.entries k' = some e' → e.usedAt ≤ e'.usedAt

open scoped Classical in
noncomputable def evict : Cache κ β δ :=
  { c with entries := fun k => if c.Oldest k then none else c.entries k }

variable [DecidableEq κ]

def drop (k : κ) : Cache κ β δ := { c with entries := Function.update c.entries k none }

/-- Store a value, as a use of its key. -/
def use (k : κ) (value : β) (deadline : Option δ) : Cache κ β δ where
  entries := Function.update c.entries k (some ⟨value, deadline, c.uses⟩)
  uses := c.uses + 1

variable {c} {k k' : κ} {value : β} {deadline : Option δ}

@[simp] theorem drop_self : (c.drop k).entries k = none := Function.update_self _ _ _

theorem drop_of_ne (h : k' ≠ k) : (c.drop k).entries k' = c.entries k' := Function.update_of_ne h _ _

@[simp] theorem use_self :
    (c.use k value deadline).entries k = some ⟨value, deadline, c.uses⟩ := Function.update_self _ _ _

theorem use_of_ne (h : k' ≠ k) : (c.use k value deadline).entries k' = c.entries k' :=
  Function.update_of_ne h _ _

theorem use_drop : (c.drop k).use k value deadline = c.use k value deadline := by
  ext1
  · exact Function.update_idem _ _ _
  · rfl

variable (c)

/-- The value of a key whose deadline is not past; one whose deadline is past is dropped. -/
def get (past : δ → Bool) (k : κ) : Option β × Cache κ β δ :=
  match c.entries k with
  | none => (none, c)
  | some e => if e.deadline.any past then (none, c.drop k) else (some e.value, c.use k e.value e.deadline)

open scoped Classical in
/-- Store a value; a new key takes the place of the least recently used one in a full cache. -/
noncomputable def put (full : ℕ → Bool) (k : κ) (value : β) (deadline : Option δ) : Cache κ β δ :=
  if k ∉ c.stored ∧ full c.stored.ncard = true then c.evict.use k value deadline
  else c.use k value deadline

end Cache

/-! ## Lists of items -/

structure Item (κ β δ : Type*) where
  key : κ
  value : β
  deadline : Option δ

section Items

variable [DecidableEq κ]

def find (l : List (Item κ β δ)) (k : κ) : Option (Item κ β δ) := l.find? fun e => e.key = k

def forget (l : List (Item κ β δ)) (k : κ) : List (Item κ β δ) := l.filter fun e => e.key ≠ k

def getItem (past : δ → Bool) (l : List (Item κ β δ)) (k : κ) : Option β × List (Item κ β δ) :=
  match find l k with
  | none => (none, l)
  | some e => if e.deadline.any past then (none, forget l k) else (some e.value, forget l k ++ [e])

def putItem (full : ℕ → Bool) (l : List (Item κ β δ)) (e : Item κ β δ) : List (Item κ β δ) :=
  match find l e.key with
  | some _ => forget l e.key ++ [e]
  | none => (if full l.length then l.tail else l) ++ [e]

variable {l : List (Item κ β δ)} {k : κ} {e : Item κ β δ} {past : δ → Bool} {full : ℕ → Bool}

theorem find_eq_some (h : find l k = some e) : e ∈ l ∧ e.key = k :=
  ⟨List.mem_of_find?_eq_some h, by simpa using List.find?_some h⟩

theorem find_eq_none_iff : find l k = none ↔ ∀ e ∈ l, e.key ≠ k := by
  simp [find]

theorem mem_forget : e ∈ forget l k ↔ e ∈ l ∧ e.key ≠ k := by
  simp [forget]

theorem forget_eq_self (h : find l k = none) : forget l k = l := by
  rw [find_eq_none_iff] at h
  exact List.filter_eq_self.mpr (by simpa using h)

theorem putItem_found (h : (find l e.key).isSome = true) :
    putItem full l e = forget l e.key ++ [e] := by
  obtain ⟨e', he'⟩ := Option.isSome_iff_exists.mp h
  rw [putItem, he']

theorem putItem_new (h : find l e.key = none) :
    putItem full l e = (if full l.length then l.tail else l) ++ [e] := by
  rw [putItem, h]

/-- An item that is found was in the list. -/
theorem getItem_fst {value : β} (h : (getItem past l k).1 = some value) :
    ∃ e ∈ l, e.key = k ∧ e.value = value ∧ e.deadline.any past = false := by
  unfold getItem at h
  cases hfind : find l k with
  | none =>
    rw [hfind] at h
    cases h
  | some e =>
    rw [hfind] at h
    simp only at h
    split_ifs at h with hpast
    · cases h
      rw [Bool.not_eq_true] at hpast
      exact ⟨e, (find_eq_some hfind).1, (find_eq_some hfind).2, rfl, hpast⟩

/-- What a look leaves: items that stay where they are, and perhaps the one that was used. -/
theorem getItem_snd (past : δ → Bool) (l : List (Item κ β δ)) (k : κ) :
    ∃ l₁ l₂, (getItem past l k).2 = l₁ ++ l₂ ∧ l₁.Sublist l ∧
      ∀ e ∈ l₂, e ∈ l ∧ e.deadline.any past = false := by
  unfold getItem
  cases hfind : find l k with
  | none => exact ⟨l, [], (List.append_nil l).symm, List.Sublist.refl l, fun _ he => nomatch he⟩
  | some e =>
    simp only
    split_ifs with hpast
    · exact ⟨forget l k, [], (List.append_nil _).symm, List.filter_sublist, fun _ he => nomatch he⟩
    · rw [Bool.not_eq_true] at hpast
      refine ⟨forget l k, [e], rfl, List.filter_sublist, ?_⟩
      intro e' he'
      rw [List.mem_singleton.mp he']
      exact ⟨(find_eq_some hfind).1, hpast⟩

theorem getItem_subset : (getItem past l k).2 ⊆ l := by
  obtain ⟨l₁, l₂, heq, hsub, hused⟩ := getItem_snd past l k
  rw [heq]
  exact List.append_subset.mpr ⟨hsub.subset, fun e he => (hused e he).1⟩

theorem putItem_eq (full : ℕ → Bool) (l : List (Item κ β δ)) (e : Item κ β δ) :
    ∃ l₁, putItem full l e = l₁ ++ [e] ∧ l₁.Sublist l := by
  unfold putItem
  cases find l e.key with
  | some e' => exact ⟨_, rfl, List.filter_sublist⟩
  | none =>
    refine ⟨_, rfl, ?_⟩
    split_ifs
    · exact List.tail_sublist l
    · exact List.Sublist.refl l

theorem putItem_subset : putItem full l e ⊆ l ++ [e] := by
  obtain ⟨l₁, heq, hsub⟩ := putItem_eq full l e
  rw [heq]
  exact List.append_subset.mpr
    ⟨List.Subset.trans hsub.subset (List.subset_append_left _ _), List.subset_append_right _ _⟩

theorem length_forget_lt (h : (find l k).isSome = true) : (forget l k).length < l.length := by
  obtain ⟨e, he⟩ := Option.isSome_iff_exists.mp h
  obtain ⟨hmem, hk⟩ := find_eq_some he
  rw [forget, List.length_filter_lt_length_iff_exists]
  exact ⟨e, hmem, by simp [hk]⟩

theorem length_getItem_le : (getItem past l k).2.length ≤ l.length := by
  unfold getItem
  cases hfind : find l k with
  | none => exact le_rfl
  | some e =>
    have hlt : (forget l k).length < l.length := length_forget_lt (by rw [hfind]; rfl)
    simp only
    split_ifs
    · exact hlt.le
    · rw [List.length_append, List.length_singleton]
      exact hlt

/-- A list that has grown was not full before. -/
theorem fits_putItem (h : ∀ m, 0 < m → m < l.length → full m = false) :
    ∀ m, 0 < m → m < (putItem full l e).length → full m = false := by
  intro m hpos hm
  cases hfind : find l e.key with
  | some e' =>
    have hlt : (forget l e.key).length < l.length := length_forget_lt (by rw [hfind]; rfl)
    rw [putItem_found (by rw [hfind]; rfl), List.length_append, List.length_singleton] at hm
    exact h m hpos (by omega)
  | none =>
    rw [putItem_new hfind, List.length_append, List.length_singleton] at hm
    by_cases hfull : full l.length = true
    · rw [if_pos hfull, List.length_tail] at hm
      exact h m hpos (by omega)
    · rw [if_neg hfull] at hm
      rw [Bool.not_eq_true] at hfull
      rcases Nat.lt_succ_iff_lt_or_eq.mp hm with hlt | heq
      · exact h m hpos hlt
      · rw [heq]
        exact hfull

/-! ### Lists without some items -/

section Kept

variable {δ' : Type*} {keep : Item κ β δ → Option (Item κ β δ')} {past' : δ' → Bool}
  {full' : ℕ → Bool} {e' : Item κ β δ'}

/-- An item that is found is found among those that are kept, if it is one. -/
theorem find_filterMap (hkey : ∀ e e', keep e = some e' → e'.key = e.key)
    (hnodup : (l.map Item.key).Nodup) : find (l.filterMap keep) k = (find l k).bind keep := by
  induction l with
  | nil => rfl
  | cons e l ih =>
    obtain ⟨hnew, hnodup⟩ := List.nodup_cons.mp hnodup
    have hrest := ih hnodup
    by_cases hk : e.key = k
    · have hcons : find (e :: l) k = some e := List.find?_cons_of_pos (by simpa using hk)
      have hnone : find l k = none := by
        rw [find_eq_none_iff]
        intro e₁ he₁ hk₁
        exact hnew (List.mem_map.mpr ⟨e₁, he₁, hk₁.trans hk.symm⟩)
      rw [hcons, Option.bind_some]
      cases hkeep : keep e with
      | none => rw [List.filterMap_cons_none hkeep, hrest, hnone, Option.bind_none]
      | some e₁ =>
        rw [List.filterMap_cons_some hkeep]
        exact List.find?_cons_of_pos (by simpa using (hkey e e₁ hkeep).trans hk)
    · have hcons : find (e :: l) k = find l k := List.find?_cons_of_neg (by simpa using hk)
      rw [hcons, ← hrest]
      cases hkeep : keep e with
      | none => rw [List.filterMap_cons_none hkeep]
      | some e₁ =>
        rw [List.filterMap_cons_some hkeep]
        exact List.find?_cons_of_neg (by simpa [hkey e e₁ hkeep] using hk)

omit [DecidableEq κ] in
theorem nodup_filterMap (hkey : ∀ e e', keep e = some e' → e'.key = e.key)
    (hnodup : (l.map Item.key).Nodup) : ((l.filterMap keep).map Item.key).Nodup := by
  rw [List.Nodup, List.pairwise_map] at hnodup ⊢
  rw [List.pairwise_filterMap]
  refine hnodup.imp ?_
  intro e₁ e₂ hne e₁' h₁ e₂' h₂ heq
  rw [hkey e₁ e₁' h₁, hkey e₂ e₂' h₂] at heq
  exact hne heq

theorem forget_filterMap (hkey : ∀ e e', keep e = some e' → e'.key = e.key) :
    forget (l.filterMap keep) k = (forget l k).filterMap keep := by
  induction l with
  | nil => rfl
  | cons e l ih =>
    unfold forget at ih ⊢
    by_cases hk : e.key = k
    · rw [List.filter_cons_of_neg (l := l) (by simpa using hk), ← ih]
      cases hkeep : keep e with
      | none => rw [List.filterMap_cons_none hkeep]
      | some e₁ =>
        rw [List.filterMap_cons_some hkeep]
        exact List.filter_cons_of_neg (by simpa using (hkey e e₁ hkeep).trans hk)
    · rw [List.filter_cons_of_pos (l := l) (by simpa using hk)]
      cases hkeep : keep e with
      | none => rw [List.filterMap_cons_none hkeep, List.filterMap_cons_none hkeep, ih]
      | some e₁ =>
        rw [List.filterMap_cons_some hkeep, List.filterMap_cons_some hkeep, ← ih]
        exact List.filter_cons_of_pos (by simpa [hkey e e₁ hkeep] using hk)

/-- **Looking a key up** where only items past their deadline are missing. -/
theorem getItem_filterMap (hkey : ∀ e e', keep e = some e' → e'.key = e.key)
    (hkept : ∀ e ∈ l, ∀ e', keep e = some e' →
      e'.value = e.value ∧ e'.deadline.any past' = e.deadline.any past)
    (hgone : ∀ e ∈ l, keep e = none → e.deadline.any past = true)
    (hnodup : (l.map Item.key).Nodup) :
    getItem past' (l.filterMap keep) k =
      ((getItem past l k).1, (getItem past l k).2.filterMap keep) := by
  unfold getItem
  rw [find_filterMap hkey hnodup, forget_filterMap hkey]
  cases hfind : find l k with
  | none => rfl
  | some e =>
    obtain ⟨he, -⟩ := find_eq_some hfind
    rw [Option.bind_some]
    cases hkeep : keep e with
    | none =>
      have hself : (forget l k).filterMap keep = l.filterMap keep := by
        rw [← forget_filterMap hkey]
        apply forget_eq_self
        rw [find_filterMap hkey hnodup, hfind, Option.bind_some, hkeep]
      simp only [hgone e he hkeep, if_true, hself]
    | some e₁ =>
      obtain ⟨hvalue, hpast⟩ := hkept e he e₁ hkeep
      simp only [hpast, hvalue]
      split_ifs
      · rfl
      · simp [hkeep]

omit [DecidableEq κ] in
/-- A full list that is shorter than the other is empty. -/
theorem filterMap_eq_nil_of_full (hroom : ∀ m, full' m = true → full m = true)
    (hfits : ∀ m, 0 < m → m < l.length → full m = false) (hlt : (l.filterMap keep).length < l.length)
    (hfull : full' (l.filterMap keep).length = true) : l.filterMap keep = [] := by
  rw [← List.length_eq_zero_iff]
  by_contra hne
  have := hfits _ (Nat.pos_of_ne_zero hne) hlt
  rw [hroom _ hfull] at this
  cases this

omit [DecidableEq κ] in
/-- **Making room** drops no item that is kept, unless both lists are full. -/
theorem tail_filterMap (hroom : ∀ m, full' m = true → full m = true)
    (hfits : ∀ m, 0 < m → m < l.length → full m = false)
    (hfree : full l.length = true →
      (∀ e₀ ∈ l.head?, keep e₀ = none) ∨ full' (l.filterMap keep).length = true) :
    (if full' (l.filterMap keep).length = true then (l.filterMap keep).tail else l.filterMap keep) =
      (if full l.length = true then l.tail else l).filterMap keep := by
  by_cases hfull' : full' (l.filterMap keep).length = true
  · rw [if_pos hfull']
    rcases Nat.lt_or_eq_of_le (List.length_filterMap_le keep l) with hlt | heq
    · have hnil := filterMap_eq_nil_of_full hroom hfits hlt hfull'
      rw [hnil, List.tail_nil]
      symm
      split_ifs
      · rw [List.filterMap_eq_nil_iff] at hnil ⊢
        exact fun e₀ he₀ => hnil e₀ (List.mem_of_mem_tail he₀)
      · exact hnil
    · rw [if_pos (by rw [← heq]; exact hroom _ hfull')]
      cases l with
      | nil => rfl
      | cons e₀ l =>
        have hall := List.filterMap_length_eq_length.mp heq e₀ List.mem_cons_self
        obtain ⟨e₁, he₁⟩ := Option.isSome_iff_exists.mp hall
        rw [List.filterMap_cons_some he₁, List.tail_cons, List.tail_cons]
  · rw [if_neg hfull']
    by_cases hfull : full l.length = true
    · rw [if_pos hfull]
      cases l with
      | nil => rfl
      | cons e₀ l =>
        rcases hfree hfull with hhead | hboth
        · rw [List.filterMap_cons_none (hhead e₀ rfl), List.tail_cons]
        · exact absurd hboth hfull'
    · rw [if_neg hfull]

/-- **Storing a value** takes the place of no item that is kept, unless it does so in both lists. -/
theorem putItem_filterMap (hkey : ∀ e e', keep e = some e' → e'.key = e.key)
    (hkeep : keep e = some e') (hnodup : (l.map Item.key).Nodup)
    (hroom : ∀ m, full' m = true → full m = true)
    (hfits : ∀ m, 0 < m → m < l.length → full m = false)
    (hfree : find l e.key = none → full l.length = true →
      (∀ e₀ ∈ l.head?, keep e₀ = none) ∨ full' (l.filterMap keep).length = true) :
    putItem full' (l.filterMap keep) e' = (putItem full l e).filterMap keep := by
  have hlast (l : List (Item κ β δ)) : (l ++ [e]).filterMap keep = l.filterMap keep ++ [e'] := by
    rw [List.filterMap_append, List.filterMap_cons_some hkeep, List.filterMap_nil]
  have hfound := find_filterMap (k := e.key) hkey hnodup
  cases hfind : find l e.key with
  | some e₀ =>
    rw [putItem_found (e := e) (by rw [hfind]; rfl), hlast, ← forget_filterMap hkey]
    rw [hfind, Option.bind_some, ← hkey e e' hkeep] at hfound
    cases hkeep₀ : keep e₀ with
    | some e₁ =>
      rw [hkeep₀] at hfound
      rw [putItem_found (by rw [hfound]; rfl), hkey e e' hkeep]
    | none =>
      rw [hkeep₀] at hfound
      rw [putItem_new hfound, ← hkey e e' hkeep, forget_eq_self hfound]
      have hlt : (l.filterMap keep).length < l.length := by
        refine lt_of_le_of_ne (List.length_filterMap_le _ _) ?_
        intro heq
        have hall := List.filterMap_length_eq_length.mp heq e₀ (find_eq_some hfind).1
        rw [hkeep₀] at hall
        cases hall
      split_ifs with hfull
      · rw [filterMap_eq_nil_of_full hroom hfits hlt hfull]
        rfl
      · rfl
  | none =>
    rw [hfind, Option.bind_none, ← hkey e e' hkeep] at hfound
    rw [putItem_new hfind, putItem_new hfound, hlast, tail_filterMap hroom hfits (hfree hfind)]

end Kept

end Items

/-! ## A list holds a cache -/

/-- The list holds what the cache does, in the order of use. -/
structure Listed (l : List (Item κ β δ)) (c : Cache κ β δ) : Prop where
  mem_iff : ∀ k value deadline, ⟨k, value, deadline⟩ ∈ l ↔ ∃ u, c.entries k = some ⟨value, deadline, u⟩
  ordered : l.Pairwise fun e e' => ∀ u u', c.entries e.key = some u → c.entries e'.key = some u' →
    u.usedAt < u'.usedAt
  bounded : ∀ k e, c.entries k = some e → e.usedAt < c.uses

namespace Listed

variable {l : List (Item κ β δ)} {c : Cache κ β δ} {k : κ} {e e' : Item κ β δ}

theorem empty : Listed ([] : List (Item κ β δ)) Cache.empty where
  mem_iff := by simp [Cache.empty]
  ordered := List.Pairwise.nil
  bounded := by simp [Cache.empty]

theorem entry (h : Listed l c) (he : e ∈ l) :
    ∃ u, c.entries e.key = some ⟨e.value, e.deadline, u⟩ :=
  (h.mem_iff e.key e.value e.deadline).mp he

theorem keys_nodup (h : Listed l c) : (l.map Item.key).Nodup := by
  rw [List.Nodup, List.pairwise_map]
  refine h.ordered.imp_of_mem ?_
  intro e e' he _ hlt hk
  obtain ⟨u, hu⟩ := h.entry he
  exact absurd (hlt _ _ hu (hk ▸ hu)) (lt_irrefl _)

theorem mem_stored_iff (h : Listed l c) : k ∈ c.stored ↔ k ∈ l.map Item.key := by
  rw [Cache.stored, Set.mem_ofPred_eq, Option.isSome_iff_exists, List.mem_map]
  constructor
  · rintro ⟨u, hu⟩
    exact ⟨⟨k, u.value, u.deadline⟩, (h.mem_iff _ _ _).mpr ⟨u.usedAt, hu⟩, rfl⟩
  · rintro ⟨e, he, rfl⟩
    obtain ⟨u, hu⟩ := h.entry he
    exact ⟨_, hu⟩

/-- **The list is as long as the cache is large.** -/
theorem ncard_stored (h : Listed l c) : c.stored.ncard = l.length := by
  classical
  have hset : c.stored = ((l.map Item.key).toFinset : Set κ) := by
    ext k
    rw [h.mem_stored_iff, List.coe_toFinset, Set.mem_ofPred_eq]
  rw [hset, Set.ncard_coe_finset, List.toFinset_card_of_nodup h.keys_nodup, List.length_map]

/-- **The first item is the least recently used one.** -/
theorem oldest_iff (h : Listed (e :: l) c) : c.Oldest k ↔ k = e.key := by
  obtain ⟨u, hu⟩ := h.entry List.mem_cons_self
  constructor
  · rintro ⟨v, hv, hleast⟩
    by_contra hne
    have hmem : (⟨k, v.value, v.deadline⟩ : Item κ β δ) ∈ e :: l := (h.mem_iff _ _ _).mpr ⟨_, hv⟩
    rcases List.mem_cons.mp hmem with heq | hmem
    · exact hne (congrArg Item.key heq)
    · have hlt := (List.pairwise_cons.mp h.ordered).1 _ hmem _ _ hu hv
      exact absurd (hleast _ _ hu) (not_le.mpr hlt)
  · rintro rfl
    refine ⟨_, hu, ?_⟩
    intro k' v hv
    have hmem : (⟨k', v.value, v.deadline⟩ : Item κ β δ) ∈ e :: l := (h.mem_iff _ _ _).mpr ⟨_, hv⟩
    rcases List.mem_cons.mp hmem with heq | hmem
    · have hk : k' = e.key := congrArg Item.key heq
      rw [hk, hu] at hv
      cases hv
      exact le_rfl
    · exact ((List.pairwise_cons.mp h.ordered).1 _ hmem _ _ hu hv).le

variable [DecidableEq κ]

theorem drop (h : Listed l c) (k : κ) : Listed (forget l k) (c.drop k) where
  mem_iff k' value deadline := by
    rw [mem_forget, h.mem_iff]
    by_cases hk : k' = k
    · subst hk
      simp
    · simp [hk, Cache.drop_of_ne hk]
  ordered := by
    refine (h.ordered.filter _).imp_of_mem ?_
    intro e e' he he' hlt u u' hu hu'
    rw [← forget] at he he'
    rw [Cache.drop_of_ne (mem_forget.mp he).2] at hu
    rw [Cache.drop_of_ne (mem_forget.mp he').2] at hu'
    exact hlt u u' hu hu'
  bounded k' e he := by
    by_cases hk : k' = k
    · rw [hk, Cache.drop_self] at he
      cases he
    · rw [Cache.drop_of_ne hk] at he
      exact h.bounded k' e he

/-- A new key is used last. -/
theorem use_new (h : Listed l c) (hk : ∀ e' ∈ l, e'.key ≠ e.key) :
    Listed (l ++ [e]) (c.use e.key e.value e.deadline) where
  mem_iff k' value deadline := by
    rw [List.mem_append, List.mem_singleton]
    by_cases hkey : k' = e.key
    · subst hkey
      rw [Cache.use_self]
      constructor
      · rintro (hmem | heq)
        · exact absurd rfl (hk ⟨e.key, value, deadline⟩ hmem)
        · rw [← heq]
          exact ⟨c.uses, rfl⟩
      · rintro ⟨u, hu⟩
        cases hu
        exact .inr rfl
    · rw [Cache.use_of_ne hkey, ← h.mem_iff]
      constructor
      · rintro (hmem | rfl)
        · exact hmem
        · exact absurd rfl hkey
      · exact .inl
  ordered := by
    have hold {e' : Item κ β δ} (he' : e' ∈ l) :
        (c.use e.key e.value e.deadline).entries e'.key = c.entries e'.key :=
      Cache.use_of_ne (hk e' he')
    rw [List.pairwise_append]
    refine ⟨h.ordered.imp_of_mem ?_, List.pairwise_singleton _ _, ?_⟩
    · intro e₁ e₂ h₁ h₂ hlt u u' hu hu'
      rw [hold h₁] at hu
      rw [hold h₂] at hu'
      exact hlt u u' hu hu'
    · intro e₁ h₁ e₂ h₂ u u' hu hu'
      rw [List.mem_singleton.mp h₂, Cache.use_self] at hu'
      rw [hold h₁] at hu
      cases hu'
      exact h.bounded _ _ hu
  bounded k' u hu := by
    by_cases hkey : k' = e.key
    · subst hkey
      rw [Cache.use_self] at hu
      cases hu
      exact Nat.lt_succ_self _
    · rw [Cache.use_of_ne hkey] at hu
      exact (h.bounded k' u hu).trans (Nat.lt_succ_self _)

/-- A key that is used goes to the end. -/
theorem use (h : Listed l c) (e : Item κ β δ) :
    Listed (forget l e.key ++ [e]) (c.use e.key e.value e.deadline) := by
  rw [← Cache.use_drop]
  exact (h.drop e.key).use_new fun e' he' => (mem_forget.mp he').2

omit [DecidableEq κ] in
theorem evict (h : Listed l c) : Listed l.tail c.evict := by
  classical
  cases l with
  | nil =>
    have hnone (k : κ) : c.entries k = none := by
      by_contra hne
      obtain ⟨u, hu⟩ := Option.ne_none_iff_exists'.mp hne
      cases (h.mem_iff k u.value u.deadline).mpr ⟨_, hu⟩
    have heq : c.evict = c := by
      ext1
      · funext k
        simp [Cache.evict, hnone]
      · rfl
    rw [heq]
    exact h
  | cons e l =>
    have heq : c.evict = c.drop e.key := by
      ext1
      · funext k
        simp only [Cache.evict, Cache.drop, h.oldest_iff, Function.update_apply]
      · rfl
    have hforget : forget (e :: l) e.key = l := by
      have hnodup := (List.nodup_cons.mp h.keys_nodup).1
      have hself : forget l e.key = l := by
        apply forget_eq_self
        rw [find_eq_none_iff]
        intro e' he' hk
        exact hnodup (List.mem_map.mpr ⟨e', he', hk⟩)
      rw [forget, List.filter_cons_of_neg (by simp)]
      exact hself
    rw [List.tail_cons, heq]
    have := h.drop e.key
    rwa [hforget] at this

/-- **Looking a key up.** -/
theorem get (h : Listed l c) (past : δ → Bool) (k : κ) :
    (getItem past l k).1 = (c.get past k).1 ∧ Listed (getItem past l k).2 (c.get past k).2 := by
  unfold getItem Cache.get
  cases hfind : find l k with
  | none =>
    have hnone : c.entries k = none := by
      by_contra hne
      obtain ⟨u, hu⟩ := Option.ne_none_iff_exists'.mp hne
      exact find_eq_none_iff.mp hfind _ ((h.mem_iff k u.value u.deadline).mpr ⟨_, hu⟩) rfl
    rw [hnone]
    exact ⟨rfl, h⟩
  | some e =>
    obtain ⟨he, rfl⟩ := find_eq_some hfind
    obtain ⟨u, hu⟩ := h.entry he
    rw [hu]
    simp only
    by_cases hpast : e.deadline.any past = true
    · rw [if_pos hpast, if_pos hpast]
      exact ⟨rfl, h.drop e.key⟩
    · rw [if_neg hpast, if_neg hpast]
      exact ⟨rfl, h.use e⟩

/-- **Storing a value.** -/
theorem put (h : Listed l c) (full : ℕ → Bool) (e : Item κ β δ) :
    Listed (putItem full l e) (c.put full e.key e.value e.deadline) := by
  cases hfind : find l e.key with
  | some e' =>
    obtain ⟨he', hk⟩ := find_eq_some hfind
    have hold : e.key ∈ c.stored := h.mem_stored_iff.mpr (List.mem_map.mpr ⟨e', he', hk⟩)
    rw [putItem_found (by rw [hfind]; rfl), Cache.put, if_neg fun hnew => hnew.1 hold]
    exact h.use e
  | none =>
    rw [putItem_new hfind, Cache.put, h.ncard_stored]
    rw [find_eq_none_iff] at hfind
    have hnew : e.key ∉ c.stored := by
      rw [h.mem_stored_iff, List.mem_map]
      rintro ⟨e', he', hk⟩
      exact hfind e' he' hk
    by_cases hfull : full l.length = true
    · rw [if_pos hfull, if_pos ⟨hnew, hfull⟩]
      exact h.evict.use_new fun e' he' => hfind e' (List.mem_of_mem_tail he')
    · rw [if_neg hfull, if_neg fun hboth => hfull hboth.2]
      exact h.use_new hfind

end Listed

end Run.Lru
