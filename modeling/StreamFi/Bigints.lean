import StreamFi.Batch.Execute

/-!
# Bigints in trees of objects

`bigintSafeStringify` turns the bigints inside a value into text, and makes a new object only where something
below it has changed. It compares what it gets back for a child with the child itself, and two objects are
the same when they are one object.

* `Tree`: values with the addresses of their objects and arrays; `strictEq`: the operator `===`;
* `stringify`: the code, with the next free address;
* `Sound`: the trees that it is for; `Stringified`, **`stringified_stringify`**: what it makes of them;
* `valueOf`: the value of a tree; the code is `bigintSafeStringify` of `StreamFi.Batch.Execute` on it;
* **`stringify_safe`**: no bigint is left, what had none is the same object, and once is enough.
-/

namespace StreamFi

open Js

/-! ## Trees -/

inductive Primitive where
  | undefined
  | null
  | bool (b : Bool)
  | number (x : Number)
  | bigint (n : ℤ)
  | string (s : String)
  | symbol (id : ℕ)
  deriving DecidableEq

/-- What a primitive becomes. -/
def Primitive.safe : Primitive → Primitive
  | .bigint n => .string (toString n)
  | p => p

/-- A value; `address` says which array or object it is. -/
inductive Tree where
  | leaf (p : Primitive)
  | array (address : ℕ) (items : List Tree)
  | object (address : ℕ) (entries : List (String × Tree))

namespace Tree

/-- `x === y`. -/
def strictEq : Tree → Tree → Bool
  | .leaf p, .leaf q => decide (p = q) && decide (p ≠ .number .nan)
  | .array a _, .array b _ => decide (a = b)
  | .object a _, .object b _ => decide (a = b)
  | _, _ => false

/-! ## The code -/

mutual

/-- `bigintSafeStringify`, with the next free address before and after. -/
def stringify : Tree → ℕ → Tree × ℕ
  | .leaf p, next => (.leaf p.safe, next)
  | .array address items, next =>
    let r := stringifyItems items (next + 1)
    (if r.2.1 then .array next r.1 else .array address items, r.2.2)
  | .object address entries, next =>
    let r := stringifyEntries entries (next + 1)
    (if r.2.1 then .object next r.1 else .object address entries, r.2.2)

/-- The loop over the items, and whether one of them has changed. -/
def stringifyItems : List Tree → ℕ → List Tree × Bool × ℕ
  | [], next => ([], false, next)
  | item :: items, next =>
    let r := stringify item next
    let rest := stringifyItems items r.2
    (r.1 :: rest.1, !r.1.strictEq item || rest.2.1, rest.2.2)

/-- The loop over the keys; an assignment to `__proto__` makes no entry. -/
def stringifyEntries : List (String × Tree) → ℕ → List (String × Tree) × Bool × ℕ
  | [], next => ([], false, next)
  | (key, value) :: entries, next =>
    let r := stringify value next
    let rest := stringifyEntries entries r.2
    (if key = "__proto__" then rest.1 else (key, r.1) :: rest.1, !r.1.strictEq value || rest.2.1, rest.2.2)

end

/-! ## The trees that it is for -/

mutual

/-- No leaf is `NaN`, no key is `__proto__`, and the addresses from `next` on are free. -/
def Sound (next : ℕ) : Tree → Prop
  | .leaf p => p ≠ .number .nan
  | .array address items => address < next ∧ SoundItems next items
  | .object address entries => address < next ∧ SoundEntries next entries

def SoundItems (next : ℕ) : List Tree → Prop
  | [] => True
  | item :: items => Sound next item ∧ SoundItems next items

def SoundEntries (next : ℕ) : List (String × Tree) → Prop
  | [] => True
  | (key, value) :: entries => (key ≠ "__proto__" ∧ Sound next value) ∧ SoundEntries next entries

end

mutual

/-- There is a bigint somewhere. -/
def hasBigint : Tree → Bool
  | .leaf (.bigint _) => true
  | .leaf _ => false
  | .array _ items => itemsHaveBigint items
  | .object _ entries => entriesHaveBigint entries

def itemsHaveBigint : List Tree → Bool
  | [] => false
  | item :: items => hasBigint item || itemsHaveBigint items

def entriesHaveBigint : List (String × Tree) → Bool
  | [] => false
  | (_, value) :: entries => hasBigint value || entriesHaveBigint entries

end

mutual

/-- The value of a tree, without its addresses. -/
def valueOf : Tree → Value ScVal
  | .leaf .undefined => .undefined
  | .leaf .null => .null
  | .leaf (.bool b) => .bool b
  | .leaf (.number x) => .number x
  | .leaf (.bigint n) => .bigint n
  | .leaf (.string s) => .string s
  | .leaf (.symbol _) => .symbol
  | .array _ items => .array (valuesOf items)
  | .object _ entries => .object (entriesOf entries)

def valuesOf : List Tree → List (Value ScVal)
  | [] => []
  | item :: items => valueOf item :: valuesOf items

def entriesOf : List (String × Tree) → List (String × Value ScVal)
  | [] => []
  | (key, value) :: entries => (key, valueOf value) :: entriesOf entries

end

/-! ## Children -/

def children : Tree → List Tree
  | .leaf _ => []
  | .array _ items => items
  | .object _ entries => entries.map Prod.snd

/-- **Induction over the children.** -/
theorem induction_children {P : Tree → Prop} (h : ∀ t, (∀ c ∈ t.children, P c) → P t) (t : Tree) : P t := by
  refine @Tree.rec P (fun items => ∀ c ∈ items, P c) (fun entries => ∀ c ∈ entries.map Prod.snd, P c)
    (fun entry => P entry.2) ?_ ?_ ?_ ?_ ?_ ?_ ?_ ?_ t
  · intro p
    exact h _ fun c hc => by cases hc
  · intro address items hitems
    exact h _ hitems
  · intro address entries hentries
    exact h _ hentries
  · intro c hc
    cases hc
  · intro item items hitem hitems
    exact List.forall_mem_cons.mpr ⟨hitem, hitems⟩
  · intro c hc
    cases hc
  · intro entry entries hentry hentries
    exact List.forall_mem_cons.mpr ⟨hentry, hentries⟩
  · intro key value hvalue
    exact hvalue

theorem soundItems_iff {next : ℕ} {items : List Tree} : SoundItems next items ↔ ∀ c ∈ items, Sound next c := by
  induction items with
  | nil => simp [SoundItems]
  | cons item items ih => rw [SoundItems, ih, List.forall_mem_cons]

theorem soundEntries_iff {next : ℕ} {entries : List (String × Tree)} : SoundEntries next entries ↔
    (∀ entry ∈ entries, entry.1 ≠ "__proto__") ∧ ∀ c ∈ entries.map Prod.snd, Sound next c := by
  induction entries with
  | nil => simp [SoundEntries]
  | cons entry entries ih =>
    rw [SoundEntries, ih, List.map_cons, List.forall_mem_cons, List.forall_mem_cons]
    tauto

theorem itemsHaveBigint_eq (items : List Tree) : itemsHaveBigint items = items.any hasBigint := by
  induction items with
  | nil => rfl
  | cons item items ih => rw [itemsHaveBigint, ih, List.any_cons]

theorem entriesHaveBigint_eq (entries : List (String × Tree)) :
    entriesHaveBigint entries = (entries.map Prod.snd).any hasBigint := by
  induction entries with
  | nil => rfl
  | cons entry entries ih => rw [entriesHaveBigint, ih, List.map_cons, List.any_cons]

/-- The loop over the keys is the loop over the values. -/
theorem stringifyEntries_eq {entries : List (String × Tree)} (h : ∀ entry ∈ entries, entry.1 ≠ "__proto__")
    (next : ℕ) :
    (stringifyEntries entries next).2 = (stringifyItems (entries.map Prod.snd) next).2 ∧
      (stringifyEntries entries next).1.map Prod.snd = (stringifyItems (entries.map Prod.snd) next).1 ∧
      (stringifyEntries entries next).1.map Prod.fst = entries.map Prod.fst := by
  induction entries generalizing next with
  | nil => exact ⟨rfl, rfl, rfl⟩
  | cons entry entries ih =>
    obtain ⟨hkey, hkeys⟩ := List.forall_mem_cons.mp h
    obtain ⟨hstate, hvalues, hnames⟩ := ih hkeys (stringify entry.2 next).2
    refine ⟨?_, ?_, ?_⟩
    · rw [stringifyEntries, List.map_cons, stringifyItems, hstate]
    · rw [stringifyEntries, List.map_cons, stringifyItems]
      simp only [if_neg hkey]
      rw [List.map_cons, hvalues]
    · rw [stringifyEntries]
      simp only [if_neg hkey]
      rw [List.map_cons, List.map_cons, hnames]

variable {m next : ℕ} {t c : Tree} {items : List Tree}

theorem Sound.child (h : t.Sound m) (hc : c ∈ t.children) : c.Sound m := by
  cases t with
  | leaf p => cases hc
  | array address items => exact soundItems_iff.mp h.2 c hc
  | object address entries => exact (soundEntries_iff.mp h.2).2 c hc

theorem hasBigint_child (h : t.hasBigint = false) (hc : c ∈ t.children) : c.hasBigint = false := by
  have hall {items : List Tree} (h : items.any hasBigint = false) (hc : c ∈ items) : c.hasBigint = false := by
    rw [List.any_eq_false] at h
    exact Bool.eq_false_iff.mpr (h c hc)
  cases t with
  | leaf p => cases hc
  | array address items =>
    rw [hasBigint, itemsHaveBigint_eq] at h
    exact hall h hc
  | object address entries =>
    rw [hasBigint, entriesHaveBigint_eq] at h
    exact hall h hc

theorem strictEq_self (h : t.Sound m) : t.strictEq t = true := by
  cases t with
  | leaf p =>
    have hp : p ≠ .number .nan := h
    rw [strictEq, decide_eq_true rfl, decide_eq_true hp, Bool.and_self]
  | array address items => exact decide_eq_true rfl
  | object address entries => exact decide_eq_true rfl

/-! ## Trees without a bigint -/

theorem stringifyItems_of_free (hs : ∀ c ∈ items, c.Sound m)
    (h : ∀ c ∈ items, ∀ next, (stringify c next).1 = c) (next : ℕ) : (stringifyItems items next).1 = items ∧ (stringifyItems items next).2.1 = false := by
  induction items generalizing next with
  | nil => exact ⟨rfl, rfl⟩
  | cons item items ih =>
    obtain ⟨hitem, hitems⟩ := List.forall_mem_cons.mp h
    obtain ⟨hs, hss⟩ := List.forall_mem_cons.mp hs
    obtain ⟨hsame, hunchanged⟩ := ih hss hitems (stringify item next).2
    rw [stringifyItems]
    simp only [hitem, hsame, hunchanged, strictEq_self hs]
    exact ⟨trivial, rfl⟩

/-- **A tree without a bigint is returned as it is.** -/
theorem stringify_of_free (t : Tree) :
    t.Sound m → t.hasBigint = false → ∀ next, (stringify t next).1 = t := by
  induction t using induction_children with
  | h t ih =>
    intro hs hfree next
    have hchildren : ∀ c ∈ t.children, ∀ next, (stringify c next).1 = c :=
      fun c hc => ih c hc (hs.child hc) (hasBigint_child hfree hc)
    have hsound : ∀ c ∈ t.children, c.Sound m := fun c hc => hs.child hc
    cases t with
    | leaf p =>
      cases p with
      | bigint n => cases hfree
      | _ => rfl
    | array address items =>
      have hflag : (stringifyItems items (next + 1)).2.1 = false := (stringifyItems_of_free hsound hchildren _).2
      rw [stringify]
      simp only
      rw [hflag, if_neg Bool.false_ne_true]
    | object address entries =>
      have hflag : (stringifyEntries entries (next + 1)).2.1 = false := by
        rw [(stringifyEntries_eq (soundEntries_iff.mp hs.2).1 _).1]
        exact (stringifyItems_of_free hsound hchildren _).2
      rw [stringify]
      simp only
      rw [hflag, if_neg Bool.false_ne_true]

/-! ## What becomes of a tree -/

/-- An array of which an item has changed. -/
theorem stringify_array {address : ℕ} (h : (stringifyItems items (next + 1)).2.1 = true) :
    stringify (.array address items) next =
      (.array next (stringifyItems items (next + 1)).1, (stringifyItems items (next + 1)).2.2) := by
  rw [stringify, h, if_pos rfl]

/-- An object of which a value has changed. -/
theorem stringify_object {address : ℕ} {entries : List (String × Tree)}
    (hkeys : ∀ entry ∈ entries, entry.1 ≠ "__proto__")
    (h : (stringifyItems (entries.map Prod.snd) (next + 1)).2.1 = true) :
    stringify (.object address entries) next =
      (.object next (stringifyEntries entries (next + 1)).1,
        (stringifyItems (entries.map Prod.snd) (next + 1)).2.2) := by
  rw [stringify, (stringifyEntries_eq hkeys (next + 1)).1, h, if_pos rfl]

theorem Sound.mono {next' : ℕ} (hle : next ≤ next') (t : Tree) : t.Sound next → t.Sound next' := by
  induction t using induction_children with
  | h t ih =>
    intro hs
    have hchildren : ∀ c ∈ t.children, c.Sound next' := fun c hc => ih c hc (hs.child hc)
    cases t with
    | leaf p => exact hs
    | array address items => exact ⟨hs.1.trans_le hle, soundItems_iff.mpr hchildren⟩
    | object address entries =>
      exact ⟨hs.1.trans_le hle, soundEntries_iff.mpr ⟨(soundEntries_iff.mp hs.2).1, hchildren⟩⟩

/-- The next free address is `next'`, and `r` is what has become of `t`. -/
structure Stringified (next : ℕ) (t r : Tree) (next' : ℕ) : Prop where
  le : next ≤ next'
  sound : r.Sound next'
  free : r.hasBigint = false
  changed : t.hasBigint = true → r.strictEq t = false
  value (host : ScVal → Value ScVal) : r.valueOf = bigintSafeStringify host t.valueOf

/-- The items after the loop. -/
structure ItemsStringified (next : ℕ) (items rs : List Tree) (flag : Bool) (next' : ℕ) : Prop where
  le : next ≤ next'
  sound : ∀ c ∈ rs, c.Sound next'
  free : rs.any hasBigint = false
  flagged : flag = items.any hasBigint
  length : rs.length = items.length
  value (host : ScVal → Value ScVal) : valuesOf rs = stringifyAll host (valuesOf items)

theorem stringifyItems_spec (hs : ∀ c ∈ items, c.Sound m)
    (h : ∀ c ∈ items, ∀ next, m ≤ next → Stringified next c (stringify c next).1 (stringify c next).2) :
    ∀ next, m ≤ next → ItemsStringified next items (stringifyItems items next).1 (stringifyItems items next).2.1
      (stringifyItems items next).2.2 := by
  induction items with
  | nil =>
    intro next _
    exact ⟨le_rfl, List.forall_mem_nil _, rfl, rfl, rfl, fun host => rfl⟩
  | cons item items ih =>
    intro next hnext
    obtain ⟨hitem, hitems⟩ := List.forall_mem_cons.mp h
    obtain ⟨hsi, hss⟩ := List.forall_mem_cons.mp hs
    have hi := hitem next hnext
    have hrest := ih hss hitems _ (hnext.trans hi.le)
    have hflag : (!(stringify item next).1.strictEq item) = item.hasBigint := by
      cases hb : item.hasBigint with
      | true => rw [hi.changed hb, Bool.not_false]
      | false => rw [stringify_of_free item hsi hb, strictEq_self hsi, Bool.not_true]
    rw [stringifyItems]
    refine ⟨hi.le.trans hrest.le, ?_, ?_, ?_, ?_, fun host => ?_⟩
    · exact List.forall_mem_cons.mpr ⟨hi.sound.mono hrest.le, hrest.sound⟩
    · rw [List.any_cons, hi.free, hrest.free, Bool.or_self]
    · rw [List.any_cons, hflag, hrest.flagged]
    · rw [List.length_cons, List.length_cons, hrest.length]
    · rw [valuesOf, valuesOf, stringifyAll, hi.value host, hrest.value host]

/-- The value of an object, by its keys and values. -/
theorem entriesOf_congr (host : ScVal → Value ScVal) {rs entries : List (String × Tree)}
    (hkeys : rs.map Prod.fst = entries.map Prod.fst)
    (hvalues : valuesOf (rs.map Prod.snd) = stringifyAll host (valuesOf (entries.map Prod.snd))) :
    entriesOf rs = StreamFi.stringifyEntries host (entriesOf entries) := by
  induction entries generalizing rs with
  | nil =>
    rw [List.map_nil, List.map_eq_nil_iff] at hkeys
    rw [hkeys]
    rfl
  | cons entry entries ih =>
    cases rs with
    | nil => cases hkeys
    | cons r rs =>
      rw [List.map_cons, List.map_cons, List.cons.injEq] at hkeys
      rw [List.map_cons, List.map_cons, valuesOf, valuesOf, stringifyAll, List.cons.injEq] at hvalues
      rw [entriesOf, entriesOf, StreamFi.stringifyEntries, hkeys.1, hvalues.1, ih hkeys.2 hvalues.2]

theorem stringifyAll_of_free (host : ScVal → Value ScVal)
    (h : ∀ c ∈ items, bigintSafeStringify host c.valueOf = c.valueOf) :
    stringifyAll host (valuesOf items) = valuesOf items := by
  induction items with
  | nil => rfl
  | cons item items ih =>
    obtain ⟨hitem, hitems⟩ := List.forall_mem_cons.mp h
    rw [valuesOf, stringifyAll, hitem, ih hitems]

theorem value_of_free (host : ScVal → Value ScVal) (t : Tree) :
    t.hasBigint = false → bigintSafeStringify host t.valueOf = t.valueOf := by
  induction t using induction_children with
  | h t ih =>
    intro hfree
    have hchildren := stringifyAll_of_free host fun c hc => ih c hc (hasBigint_child hfree hc)
    cases t with
    | leaf p =>
      cases p with
      | bigint n => cases hfree
      | _ => rfl
    | array address items =>
      rw [valueOf, bigintSafeStringify]
      exact congrArg Value.array hchildren
    | object address entries =>
      rw [valueOf, bigintSafeStringify]
      exact congrArg Value.object (entriesOf_congr host rfl hchildren.symm).symm

/-- A new array. -/
theorem stringified_array {address : ℕ} {next' : ℕ} {rs : List Tree} {flag : Bool}
    (hs : (array address items).Sound m) (hnext : m ≤ next)
    (hloop : ItemsStringified (next + 1) items rs flag next') :
    Stringified next (array address items) (array next rs) next' := by
  have haddress := hs.1
  refine ⟨Nat.le_of_succ_le hloop.le, ⟨hloop.le, soundItems_iff.mpr hloop.sound⟩, ?_, fun _ => ?_, fun host => ?_⟩
  · rw [hasBigint, itemsHaveBigint_eq]
    exact hloop.free
  · exact decide_eq_false (by omega)
  · rw [valueOf, valueOf, bigintSafeStringify]
    exact congrArg Value.array (hloop.value host)

/-- A new object, with the keys that there were. -/
theorem stringified_object {address : ℕ} {next' : ℕ} {entries rs : List (String × Tree)} {flag : Bool}
    (hs : (object address entries).Sound m) (hnext : m ≤ next) (hkeys : rs.map Prod.fst = entries.map Prod.fst)
    (hloop : ItemsStringified (next + 1) (entries.map Prod.snd) (rs.map Prod.snd) flag next') :
    Stringified next (object address entries) (object next rs) next' := by
  have haddress := hs.1
  refine ⟨Nat.le_of_succ_le hloop.le, ⟨hloop.le, soundEntries_iff.mpr ⟨?_, hloop.sound⟩⟩, ?_, fun _ => ?_,
    fun host => ?_⟩
  · intro entry hentry
    have hkey := List.mem_map_of_mem (f := Prod.fst) hentry
    rw [hkeys] at hkey
    obtain ⟨old, hold, heq⟩ := List.mem_map.mp hkey
    rw [← heq]
    exact (soundEntries_iff.mp hs.2).1 old hold
  · rw [hasBigint, entriesHaveBigint_eq]
    exact hloop.free
  · exact decide_eq_false (by omega)
  · rw [valueOf, valueOf, bigintSafeStringify]
    exact congrArg Value.object (entriesOf_congr host hkeys (hloop.value host))

/-- **What becomes of a tree.** -/
theorem stringified_stringify (t : Tree) :
    t.Sound m → ∀ next, m ≤ next → Stringified next t (stringify t next).1 (stringify t next).2 := by
  induction t using induction_children with
  | h t ih =>
    intro hs next hnext
    have hchildren : ∀ c ∈ t.children, ∀ next, m ≤ next →
        Stringified next c (stringify c next).1 (stringify c next).2 := fun c hc => ih c hc (hs.child hc)
    have hsound : ∀ c ∈ t.children, c.Sound m := fun c hc => hs.child hc
    have hloop := stringifyItems_spec hsound hchildren (next + 1) (by omega)
    have hle : next ≤ (stringify t next).2 := by
      cases t with
      | leaf p => exact le_rfl
      | array address items => exact Nat.le_of_succ_le hloop.le
      | object address entries =>
        show next ≤ (stringifyEntries entries (next + 1)).2.2
        rw [(stringifyEntries_eq (soundEntries_iff.mp hs.2).1 _).1]
        exact Nat.le_of_succ_le hloop.le
    cases hb : t.hasBigint with
    | false =>
      rw [stringify_of_free t hs hb]
      refine ⟨hle, hs.mono (hnext.trans hle), hb, fun h => ?_, fun host => (value_of_free host t hb).symm⟩
      rw [hb] at h
      cases h
    | true =>
      cases t with
      | leaf p =>
        cases p with
        | bigint n => exact ⟨le_rfl, Primitive.noConfusion, rfl, fun _ => rfl, fun _ => rfl⟩
        | _ => cases hb
      | array address items =>
        rw [hasBigint, itemsHaveBigint_eq] at hb
        have hflag : (stringifyItems items (next + 1)).2.1 = true := hloop.flagged.trans hb
        rw [stringify_array hflag]
        exact stringified_array hs hnext hloop
      | object address entries =>
        rw [hasBigint, entriesHaveBigint_eq] at hb
        have hnames := (soundEntries_iff.mp hs.2).1
        have hflag : (stringifyItems (entries.map Prod.snd) (next + 1)).2.1 = true := hloop.flagged.trans hb
        obtain ⟨-, hvalues, hkeys⟩ := stringifyEntries_eq hnames (next + 1)
        rw [stringify_object hnames hflag]
        exact stringified_object hs hnext hkeys (hvalues ▸ hloop)

/-! ## Subtrees -/

/-- The subtree at a path of positions. -/
def subtree : Tree → List ℕ → Option Tree
  | t, [] => some t
  | t, i :: path => t.children[i]?.bind fun c => c.subtree path

/-- No bigint remains at any depth. -/
def BigintFree (t : Tree) : Prop := ∀ path n, t.subtree path ≠ some (.leaf (.bigint n))

theorem hasBigint_subtree {s : Tree} {path : List ℕ} (h : t.hasBigint = false) (hp : t.subtree path = some s) :
    s.hasBigint = false := by
  induction path generalizing t with
  | nil =>
    cases hp
    exact h
  | cons i path ih =>
    obtain ⟨c, hc, hp⟩ := Option.bind_eq_some_iff.mp hp
    exact ih (hasBigint_child h (List.mem_of_getElem? hc)) hp

theorem exists_bigint (t : Tree) : t.hasBigint = true → ∃ path n, t.subtree path = some (.leaf (.bigint n)) := by
  induction t using induction_children with
  | h t ih =>
    intro hb
    have hchild (hany : t.children.any hasBigint = true) :
        ∃ path n, t.subtree path = some (.leaf (.bigint n)) := by
      obtain ⟨c, hc, hbc⟩ := List.any_eq_true.mp hany
      obtain ⟨path, n, hpath⟩ := ih c hc hbc
      obtain ⟨i, hi⟩ := List.getElem?_of_mem hc
      exact ⟨i :: path, n, Option.bind_eq_some_iff.mpr ⟨c, hi, hpath⟩⟩
    cases t with
    | leaf p =>
      cases p with
      | bigint n => exact ⟨[], n, rfl⟩
      | _ => cases hb
    | array address items =>
      rw [hasBigint, itemsHaveBigint_eq] at hb
      exact hchild hb
    | object address entries =>
      rw [hasBigint, entriesHaveBigint_eq] at hb
      exact hchild hb

theorem bigintFree_iff : t.BigintFree ↔ t.hasBigint = false := by
  constructor
  · intro h
    rw [← Bool.not_eq_true]
    intro hb
    obtain ⟨path, n, hpath⟩ := exists_bigint t hb
    exact h path n hpath
  · intro h path n hpath
    have hleaf := hasBigint_subtree h hpath
    cases hleaf

theorem getElem?_stringifyItems (hs : ∀ c ∈ items, c.Sound m) {i : ℕ} :
    ∀ next, m ≤ next → items[i]? = some c →
      ∃ n, m ≤ n ∧ (stringifyItems items next).1[i]? = some (stringify c n).1 := by
  induction items generalizing i with
  | nil =>
    intro next _ hc
    cases hc
  | cons item items ih =>
    intro next hnext hc
    obtain ⟨hsi, hss⟩ := List.forall_mem_cons.mp hs
    cases i with
    | zero =>
      cases hc
      exact ⟨next, hnext, rfl⟩
    | succ i => exact ih hss _ (hnext.trans (stringified_stringify item hsi next hnext).le) hc

/-- **The children of what a tree becomes** are what its children become. -/
theorem children_stringify (hs : t.Sound m) (hnext : m ≤ next) {i : ℕ} (hc : t.children[i]? = some c) :
    ∃ n, m ≤ n ∧ (stringify t next).1.children[i]? = some (stringify c n).1 := by
  have hsound : ∀ c ∈ t.children, c.Sound m := fun c hc => hs.child hc
  have hmem := List.mem_of_getElem? hc
  cases hb : t.hasBigint with
  | false =>
    refine ⟨m, le_rfl, ?_⟩
    rw [stringify_of_free t hs hb, stringify_of_free c (hs.child hmem) (hasBigint_child hb hmem), hc]
  | true =>
    obtain ⟨n, hn, hloop⟩ := getElem?_stringifyItems hsound (next + 1) (by omega) hc
    refine ⟨n, hn, ?_⟩
    have hspec := stringifyItems_spec hsound
      (fun c hc next hnext => stringified_stringify c (hsound c hc) next hnext) (next + 1) (by omega)
    cases t with
    | leaf p => cases hc
    | array address items =>
      rw [hasBigint, itemsHaveBigint_eq] at hb
      have hflag : (stringifyItems items (next + 1)).2.1 = true := hspec.flagged.trans hb
      rw [stringify_array hflag]
      exact hloop
    | object address entries =>
      rw [hasBigint, entriesHaveBigint_eq] at hb
      have hnames := (soundEntries_iff.mp hs.2).1
      have hflag : (stringifyItems (entries.map Prod.snd) (next + 1)).2.1 = true := hspec.flagged.trans hb
      rw [stringify_object hnames hflag, children, (stringifyEntries_eq hnames (next + 1)).2.1]
      exact hloop

/-- **The subtrees of what a tree becomes.** -/
theorem subtree_stringify {s : Tree} {path : List ℕ} (hs : t.Sound m) (hnext : m ≤ next)
    (hp : t.subtree path = some s) :
    s.Sound m ∧ ∃ n, (stringify t next).1.subtree path = some (stringify s n).1 := by
  induction path generalizing t next with
  | nil =>
    cases hp
    exact ⟨hs, next, rfl⟩
  | cons i path ih =>
    obtain ⟨c, hc, hp⟩ := Option.bind_eq_some_iff.mp hp
    obtain ⟨n, hn, hchild⟩ := children_stringify hs hnext hc
    obtain ⟨hsound, k, hk⟩ := ih (hs.child (List.mem_of_getElem? hc)) hn hp
    exact ⟨hsound, k, Option.bind_eq_some_iff.mpr ⟨_, hchild, hk⟩⟩

/-- **Every bigint becomes text and nothing else changes**: no bigint is left, what had none is the same
object, and once is enough. -/
theorem stringify_safe (host : ScVal → Value ScVal) (t : Tree) (next : ℕ) (hs : t.Sound next) :
    let r := (t.stringify next).1
    r.valueOf = bigintSafeStringify host t.valueOf ∧
    (∀ path p, t.subtree path = some (.leaf p) → r.subtree path = some (.leaf p.safe)) ∧
    r.BigintFree ∧
    (∀ path s, t.subtree path = some s → s.BigintFree → r.subtree path = some s) ∧
    ∀ next', (r.stringify next').1 = r := by
  have hr := stringified_stringify t hs next le_rfl
  refine ⟨hr.value host, fun path p hp => ?_, bigintFree_iff.mpr hr.free, fun path s hp hfree => ?_,
    fun next' => stringify_of_free _ hr.sound hr.free next'⟩
  · obtain ⟨-, n, hn⟩ := subtree_stringify hs le_rfl hp
    exact hn
  · obtain ⟨hsound, n, hn⟩ := subtree_stringify hs le_rfl hp
    rw [hn, stringify_of_free s hsound (bigintFree_iff.mp hfree)]

/-- An object with a bigint, and an array without one, which stays the same array. -/
theorem stringify_safe_mixed :
    let t : Tree := .object 0 [("id", .leaf (.bigint 7)), ("tags", .array 1 [.leaf (.string "a")])]
    (t.stringify 2).1.BigintFree ∧
      (t.stringify 2).1.subtree [1] = some (.array 1 [.leaf (.string "a")]) := by
  have hs : (Tree.object 0 [("id", .leaf (.bigint 7)), ("tags", .array 1 [.leaf (.string "a")])]).Sound 2 := by
    simp [Sound, SoundEntries, SoundItems]
  obtain ⟨-, -, hfree, hsame, -⟩ := stringify_safe (fun _ => .undefined) _ 2 hs
  exact ⟨hfree, hsame [1] _ rfl (bigintFree_iff.mpr rfl)⟩

end Tree

end StreamFi
