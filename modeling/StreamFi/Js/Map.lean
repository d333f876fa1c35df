import Mathlib

/-!
# Maps

A JavaScript `Map` lists its entries in the order in which their keys were added; a key has one
entry.

* `get`, `has`, `set`, `delete`, `size`;
* **`get_eq_some_iff`**: what `get` finds; `get_set`, `get_delete`;
* `set_new`: a key that is new, or that has been deleted, is added at the end.
-/

namespace Js

@[ext]
structure Map (κ β : Type*) where
  entries : List (κ × β)
  nodup : (entries.map Prod.fst).Nodup

namespace Map

variable {κ β : Type*}

def empty : Map κ β := ⟨[], List.nodup_nil⟩

instance : Inhabited (Map κ β) := ⟨empty⟩

instance [DecidableEq κ] [DecidableEq β] : DecidableEq (Map κ β) :=
  fun m m' => decidable_of_iff (m.entries = m'.entries) ⟨Map.ext, congrArg entries⟩

variable (m : Map κ β)

def size : ℕ := m.entries.length

variable [DecidableEq κ]

def get (k : κ) : Option β := (m.entries.find? fun p => p.1 = k).map Prod.snd

def has (k : κ) : Bool := m.entries.any fun p => p.1 = k

def delete (k : κ) : Map κ β where
  entries := m.entries.filter fun p => p.1 ≠ k
  nodup := m.nodup.sublist (List.filter_sublist.map _)

theorem has_iff {m : Map κ β} {k : κ} : m.has k = true ↔ k ∈ m.entries.map Prod.fst := by
  simp [has]

def set (k : κ) (v : β) : Map κ β :=
  if h : m.has k = true then
    { entries := m.entries.map fun p => if p.1 = k then (k, v) else p
      nodup := by
        have hkeys : (m.entries.map fun p => if p.1 = k then (k, v) else p).map Prod.fst =
            m.entries.map Prod.fst := by
          rw [List.map_map]
          refine List.map_congr_left fun p _ => ?_
          rw [Function.comp_apply]
          split_ifs with hp
          · exact hp.symm
          · rfl
        rw [hkeys]
        exact m.nodup }
  else
    { entries := m.entries ++ [(k, v)]
      nodup := by
        rw [List.map_append, List.nodup_append_comm]
        exact List.nodup_cons.mpr ⟨fun hk => h (has_iff.mpr hk), m.nodup⟩ }

variable {m} {k k' : κ} {v : β} {p : κ × β}

/-- **What `get` finds.** -/
theorem get_eq_some_iff : m.get k = some v ↔ (k, v) ∈ m.entries := by
  unfold get
  constructor
  · intro h
    obtain ⟨p, hp, rfl⟩ := Option.map_eq_some_iff.mp h
    have hk : p.1 = k := by simpa using List.find?_some hp
    rw [← hk]
    exact List.mem_of_find?_eq_some hp
  · intro h
    cases hfind : m.entries.find? fun p => p.1 = k with
    | none =>
      have := List.find?_eq_none.mp hfind (k, v) h
      simp at this
    | some p =>
      have hk : p.1 = k := by simpa using List.find?_some hfind
      have hp := List.inj_on_of_nodup_map m.nodup (List.mem_of_find?_eq_some hfind) h hk
      rw [hp]
      rfl

theorem get_isSome : (m.get k).isSome = m.has k := by
  rw [get, Option.isSome_map, Bool.eq_iff_iff, List.find?_isSome, has, List.any_eq_true]

theorem get_eq_none_iff : m.get k = none ↔ m.has k = false := by
  rw [← Option.not_isSome_iff_eq_none, get_isSome, Bool.not_eq_true]

theorem mem_delete : p ∈ (m.delete k).entries ↔ p ∈ m.entries ∧ p.1 ≠ k := by
  simp [delete]

theorem get_delete : (m.delete k).get k' = if k' = k then none else m.get k' := by
  ext v
  rw [get_eq_some_iff, mem_delete]
  split_ifs with h
  · simp [h]
  · rw [get_eq_some_iff]
    exact and_iff_left h

theorem has_delete_iff : (m.delete k).has k' = true ↔ m.has k' = true ∧ k' ≠ k := by
  rw [← get_isSome, get_delete, ← get_isSome]
  split_ifs with h <;> simp [h]

theorem has_delete_self : (m.delete k).has k = false := by
  rw [← get_eq_none_iff, get_delete, if_pos rfl]

theorem set_new (h : m.has k = false) : (m.set k v).entries = m.entries ++ [(k, v)] := by
  rw [set, dif_neg (by rw [h]; exact Bool.false_ne_true)]

theorem mem_set : p ∈ (m.set k v).entries ↔ p = (k, v) ∨ p ∈ m.entries ∧ p.1 ≠ k := by
  by_cases h : m.has k = true
  · rw [set, dif_pos h, List.mem_map]
    constructor
    · rintro ⟨q, hq, rfl⟩
      split_ifs with hk
      · exact .inl rfl
      · exact .inr ⟨hq, hk⟩
    · rintro (rfl | ⟨hp, hk⟩)
      · obtain ⟨q, hq, hkey⟩ := List.mem_map.mp (has_iff.mp h)
        exact ⟨q, hq, if_pos hkey⟩
      · exact ⟨p, hp, if_neg hk⟩
  · rw [Bool.not_eq_true] at h
    rw [set_new h, List.mem_append, List.mem_singleton, or_comm]
    refine or_congr_right (and_iff_left_of_imp fun hp hk => ?_).symm
    rw [← hk, has_iff.mpr (List.mem_map_of_mem hp)] at h
    cases h

theorem get_set : (m.set k v).get k' = if k' = k then some v else m.get k' := by
  ext w
  rw [get_eq_some_iff, mem_set]
  split_ifs with h
  · subst h
    simp [eq_comm]
  · rw [get_eq_some_iff]
    simp [h]

/-- Setting what is there changes nothing. -/
theorem set_get (h : m.get k = some v) : m.set k v = m := by
  have hhas : m.has k = true := by rw [← get_isSome, h, Option.isSome_some]
  ext : 1
  rw [set, dif_pos hhas]
  refine (List.map_congr_left fun p hp => ?_).trans (List.map_id _)
  split_ifs with hkey
  · have hval : m.get k = some p.2 := get_eq_some_iff.mpr (hkey ▸ hp)
    rw [h, Option.some.injEq] at hval
    rw [hval, ← hkey]
    rfl
  · rfl

theorem has_set_iff : (m.set k v).has k' = true ↔ k' = k ∨ m.has k' = true := by
  rw [← get_isSome, get_set, ← get_isSome]
  split_ifs with h <;> simp [h]

/-- Entries set one after the other. -/
theorem get_foldl_set (fields : List (κ × β)) : ∀ m : Map κ β, (fields.map Prod.fst).Nodup →
    (fields.foldl (fun m p => m.set p.1 p.2) m).get k =
      ((fields.find? fun p => p.1 = k).map Prod.snd).or (m.get k) := by
  induction fields with
  | nil => intro m _; rfl
  | cons p fields ih =>
    intro m h
    obtain ⟨hnew, hnodup⟩ := List.nodup_cons.mp h
    rw [List.foldl_cons, ih _ hnodup, get_set, List.find?_cons]
    by_cases hk : k = p.1
    · have hnone : fields.find? (fun q => q.1 = k) = none := by
        rw [List.find?_eq_none]
        intro q hq heq
        exact hnew (List.mem_map.mpr ⟨q, hq, (of_decide_eq_true heq).trans hk⟩)
      rw [if_pos hk, hnone, decide_eq_true hk.symm]
      rfl
    · rw [if_neg hk, decide_eq_false (fun h => hk h.symm)]

/-- The values that `f` makes of those of `m`. -/
def filterMap {γ : Type*} (f : β → Option γ) (m : Map κ β) : Map κ γ where
  entries := m.entries.filterMap fun p => (f p.2).map fun c => (p.1, c)
  nodup := by
    refine List.Nodup.sublist ?_ m.nodup
    rw [List.map_filterMap]
    induction m.entries with
    | nil => exact List.Sublist.refl _
    | cons p entries ih =>
      rw [List.filterMap_cons]
      cases f p.2 with
      | none => exact ih.trans (List.sublist_cons_self _ _)
      | some c => exact ih.cons_cons p.1

theorem get_filterMap {γ : Type*} (f : β → Option γ) (m : Map κ β) : (m.filterMap f).get k = (m.get k).bind f := by
  ext c
  rw [get_eq_some_iff, filterMap, List.mem_filterMap, Option.bind_eq_some_iff]
  constructor
  · rintro ⟨p, hp, hc⟩
    obtain ⟨c', hf, hpair⟩ := Option.map_eq_some_iff.mp hc
    cases hpair
    exact ⟨p.2, get_eq_some_iff.mpr hp, hf⟩
  · rintro ⟨v, hv, hf⟩
    exact ⟨(k, v), get_eq_some_iff.mp hv, by rw [hf]; rfl⟩

end Map

end Js
