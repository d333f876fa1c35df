import StreamFi.Js.Text

/-!
# JavaScript values

`Value ι` is a value of unknown type: a primitive, an array, a plain object by its own entries,
a value without a representation (`undefined`, symbols, functions) or a host object from `ι`.

* `Thrown`: what was thrown, with `err instanceof Error ? err.message : String(err)` as its text;
* `utf16Le`: `a <= b` on strings.
-/

namespace Js

/-- A thrown value. `text` is the message of an `Error` and `String(err)` of anything else;
`status` is an HTTP status, `code` a numeric code and `netCode` whether it, or a cause of it, has
the code of a transport failure. -/
structure Thrown where
  isError : Bool
  name : String
  text : String
  status : Option ℤ := none
  code : Option ℤ := none
  netCode : Bool := false
  deriving DecidableEq

/-- An `Error` of class `name`. -/
def errorOf (name message : String) : Thrown where
  isError := true
  name := name
  text := message

/-- `err instanceof Error ? err : new Error(String(err))` -/
def toError (err : Thrown) : Thrown := if err.isError then err else errorOf "Error" err.text

/-- `throw new Error(message)`. -/
def throwNew {α : Type} (message : String) : Except Thrown α := .error (errorOf "Error" message)

@[simp] theorem throwNew_ne_ok {α : Type} (message : String) (a : α) : throwNew message ≠ .ok a := nofun

/-- A result of two steps is one of the second, with a result of the first. -/
theorem bind_eq_ok {ε α β : Type} {x : Except ε α} {f : α → Except ε β} {b : β} :
    x >>= f = .ok b ↔ ∃ a, x = .ok a ∧ f a = .ok b := by
  cases x <;> simp [bind, Except.bind]

/-- An optional string that is present and not empty. -/
def truthyText (s : Option String) : Option String := s.filter (· ≠ "")

inductive Value (ι : Type) where
  | undefined
  | null
  | bool (b : Bool)
  | number (x : Number)
  | bigint (n : ℤ)
  | string (s : String)
  | symbol
  | function
  | array (xs : List (Value ι))
  | object (entries : List (String × Value ι))
  | host (x : ι)

/-- `s` as UTF-16 code units. -/
def utf16 (s : String) : List ℕ :=
  s.toList.flatMap fun c =>
    if c.toNat < 65536 then [c.toNat]
    else [0xD800 + (c.toNat - 0x10000) / 1024, 0xDC00 + (c.toNat - 0x10000) % 1024]

/-- `a <= b` on strings, by code units. -/
def utf16Le (a b : String) : Bool := decide (utf16 a ≤ utf16 b)

@[simp] theorem ok_seq {ε α β : Type} (a : α) (f : α → Except ε β) : Except.ok a >>= f = f a := rfl

@[simp] theorem error_seq {ε α β : Type} (e : ε) (f : α → Except ε β) :
    Except.error e >>= f = .error e := rfl

/-- What a successful sequence went through. -/
theorem seq_ok_iff {ε α β : Type} {x : Except ε α} {f : α → Except ε β} {b : β} :
    x >>= f = .ok b ↔ ∃ a, x = .ok a ∧ f a = .ok b := by
  rcases x with e | a
  · simp [Bind.bind, Except.bind]
  · simp [Bind.bind, Except.bind]

theorem map_ok_iff {ε α β : Type} {x : Except ε α} {f : α → β} {b : β} :
    x.map f = .ok b ↔ ∃ a, x = .ok a ∧ f a = b := by
  cases x with
  | error e => simp [Except.map]
  | ok a => simp [Except.map]

theorem ok_of_isOk {ε α : Type} {x : Except ε α} (h : x.isOk = true) : ∃ a, x = .ok a := by
  cases x with
  | error e => cases h
  | ok a => exact ⟨a, rfl⟩

theorem error_of_ne_ok {ε α : Type} {x : Except ε α} (h : ∀ a, x ≠ .ok a) : ∃ e, x = .error e := by
  cases x with
  | error e => exact ⟨e, rfl⟩
  | ok a => exact absurd rfl (h a)

theorem mapM_ok {ε α β : Type} {f : α → Except ε β} {g : α → β} {xs : List α}
    (h : ∀ x ∈ xs, f x = .ok (g x)) : xs.mapM f = .ok (xs.map g) := by
  induction xs with
  | nil => rfl
  | cons x xs ih =>
    rw [List.mapM_cons, h x List.mem_cons_self, ih fun y hy => h y (List.mem_cons_of_mem _ hy)]
    rfl

theorem mapM_singleton_ok_iff {ε α β : Type} {f : α → Except ε β} {x : α} {ys : List β} :
    [x].mapM f = .ok ys ↔ ∃ y, f x = .ok y ∧ ys = [y] := by
  rw [List.mapM_cons, seq_ok_iff]
  constructor
  · rintro ⟨y, hy, h⟩
    cases h
    exact ⟨y, hy, rfl⟩
  · rintro ⟨y, hy, rfl⟩
    exact ⟨y, hy, rfl⟩

/-- A successful pass over a list succeeded at each element. -/
theorem forall₂_of_mapM {ε α β : Type} {f : α → Except ε β} {xs : List α} {ys : List β}
    (h : xs.mapM f = .ok ys) : List.Forall₂ (fun x y => f x = .ok y) xs ys := by
  induction xs generalizing ys with
  | nil =>
    cases h
    exact .nil
  | cons x xs ih =>
    rw [List.mapM_cons] at h
    obtain ⟨y, hy, h⟩ := seq_ok_iff.mp h
    obtain ⟨ys', hys, h⟩ := seq_ok_iff.mp h
    cases h
    exact .cons hy (ih hys)

theorem exists_of_mapM {ε α β : Type} {f : α → Except ε β} {xs : List α} {ys : List β} {x : α}
    (h : xs.mapM f = .ok ys) (hx : x ∈ xs) : ∃ y, f x = .ok y := by
  have hall := forall₂_of_mapM h
  obtain ⟨i, hi, rfl⟩ := List.mem_iff_getElem.mp hx
  exact ⟨_, hall.get hi (hall.length_eq ▸ hi)⟩

theorem mem_of_mapM {ε α β : Type} {f : α → Except ε β} {xs : List α} {ys : List β} {x : α} {y : β}
    (h : xs.mapM f = .ok ys) (hx : x ∈ xs) (hy : f x = .ok y) : y ∈ ys := by
  have hall := forall₂_of_mapM h
  obtain ⟨i, hi, rfl⟩ := List.mem_iff_getElem.mp hx
  have hi' : i < ys.length := hall.length_eq ▸ hi
  cases hy.symm.trans (hall.get hi hi')
  exact List.getElem_mem hi'

theorem mapM_isOk_iff {ε α β : Type} {f : α → Except ε β} {xs : List α} :
    (∃ ys, xs.mapM f = .ok ys) ↔ ∀ x ∈ xs, ∃ y, f x = .ok y := by
  constructor
  · rintro ⟨ys, h⟩ x hx
    exact exists_of_mapM h hx
  · intro h
    induction xs with
    | nil => exact ⟨[], rfl⟩
    | cons x xs ih =>
      obtain ⟨y, hy⟩ := h x List.mem_cons_self
      obtain ⟨ys, hys⟩ := ih fun z hz => h z (List.mem_cons_of_mem _ hz)
      refine ⟨y :: ys, ?_⟩
      rw [List.mapM_cons, hy, hys]
      rfl

theorem forall₂_chain {α β γ : Type} {R : α → β → Prop} {S : β → γ → Prop} {xs : List α}
    {ys : List β} {zs : List γ} (h : List.Forall₂ R xs ys) (h' : List.Forall₂ S ys zs) :
    List.Forall₂ (fun x z => ∃ y, R x y ∧ S y z) xs zs := by
  induction h generalizing zs with
  | nil =>
    cases h'
    exact .nil
  | cons hxy _ ih =>
    cases h' with
    | cons hyz h' => exact .cons ⟨_, hxy, hyz⟩ (ih h')

end Js
