import Mathlib

/-!
# Event logs

A log lists events in the order in which they happened.

* `Preceded need log`: what an event needs has happened before it;
* **`Preceded.append`**: the rule for a further stretch of events;
* `Preceded.prefix`: it holds at every earlier time;
* `Linked s log`: a log of state changes, each from where the one before it led, with
  **`linked_append_iff`**.
-/

namespace Run

variable {ε : Type*} {need : ε → ε → Prop} {l l' : List ε}

/-- Every event comes after each event that it needs. -/
def Preceded (need : ε → ε → Prop) (log : List ε) : Prop :=
  ∀ (n : ℕ) e, log[n]? = some e → ∀ d, need e d → d ∈ log.take n

theorem preceded_nil : Preceded need ([] : List ε) := by
  intro n e h
  simp at h

/-- **A further stretch** may rely on the log before it. -/
theorem Preceded.append (h : Preceded need l)
    (h' : ∀ (n : ℕ) e, l'[n]? = some e → ∀ d, need e d → d ∈ l ∨ d ∈ l'.take n) :
    Preceded need (l ++ l') := by
  intro n e he d hd
  by_cases hn : n < l.length
  · rw [List.getElem?_append_left hn] at he
    rw [List.take_append_of_le_length hn.le]
    exact h n e he d hd
  · rw [not_lt] at hn
    rw [List.getElem?_append_right hn] at he
    rw [List.take_append, List.take_of_length_le hn, List.mem_append]
    exact h' _ e he d hd

/-- A stretch whose events need only what is already logged. -/
theorem Preceded.append_of_mem (h : Preceded need l) (h' : ∀ e ∈ l', ∀ d, need e d → d ∈ l) :
    Preceded need (l ++ l') :=
  h.append fun _ e he d hd => .inl (h' e (List.mem_of_getElem? he) d hd)

theorem Preceded.prefix (h : Preceded need (l ++ l')) : Preceded need l := by
  intro n e he d hd
  have hn : n < l.length := (List.getElem?_eq_some_iff.mp he).1
  have := h n e (by rw [List.getElem?_append_left hn]; exact he) d hd
  rwa [List.take_append_of_le_length hn.le] at this

/-- The last event has its needs met before it. -/
theorem Preceded.last {e : ε} (h : Preceded need (l ++ [e])) {d : ε} (hd : need e d) : d ∈ l := by
  have := h l.length e (by simp) d hd
  rwa [List.take_left] at this

/-! ## State changes -/

section Linked

variable {σ : Type*} {s : σ} {c c' : List (σ × σ)}

/-- Every change starts where the one before it led; the first starts from `s`. -/
def Linked (s : σ) : List (σ × σ) → Prop
  | [] => True
  | (a, b) :: c => a = s ∧ Linked b c

/-- Where the changes lead. -/
def ledTo (s : σ) (c : List (σ × σ)) : σ := (c.map Prod.snd).getLastD s

@[simp] theorem ledTo_nil : ledTo s [] = s := rfl

@[simp] theorem ledTo_concat (a b : σ) : ledTo s (c ++ [(a, b)]) = b := by
  simp [ledTo]

theorem ledTo_cons (a b : σ) : ledTo s ((a, b) :: c) = ledTo b c := by
  rw [ledTo, List.map_cons, List.getLastD_cons]
  rfl

theorem linked_append_iff : Linked s (c ++ c') ↔ Linked s c ∧ Linked (ledTo s c) c' := by
  induction c generalizing s with
  | nil => simp [Linked]
  | cons e c ih =>
    obtain ⟨a, b⟩ := e
    rw [List.cons_append, Linked, Linked, ih, ledTo_cons, and_assoc]

@[simp] theorem linked_singleton_iff {a b : σ} : Linked s [(a, b)] ↔ a = s := by
  simp [Linked]

theorem linked_concat_iff {a b : σ} :
    Linked s (c ++ [(a, b)]) ↔ Linked s c ∧ a = ledTo s c := by
  rw [linked_append_iff, linked_singleton_iff]

end Linked

end Run
