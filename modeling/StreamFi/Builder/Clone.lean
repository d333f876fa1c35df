import StreamFi.Builder.Fields

/-!
# Copies of a builder

`clone` copies a builder field by field, and `reset` clears it field by field. Both pass over
`cancelable` and `clawbackable`.

* `StreamBuilder.clone`, `StreamBuilder.reset`: the code;
* `StreamBuilder.overlay`: a builder over two values that were left behind; **`calls_overlay`**: calls
  of setters do not see them;
* **`copies_iff`**: when a clone is like its original, and a builder that was reset like a new one.
-/

namespace StreamFi

open Js

variable {Tx : Type} (sdk : Sdk Tx)

namespace StreamBuilder

/-! ## The code -/

def clone (b : StreamBuilder) : StreamBuilder where
  token := b.token
  sender := b.sender
  recipient := b.recipient
  amount := b.amount
  ratePerSecond := b.ratePerSecond
  startTime := b.startTime
  endTime := b.endTime
  clawbackEnabled := b.clawbackEnabled
  memo := b.memo

def reset (b : StreamBuilder) : StreamBuilder :=
  { b with
    token := none, sender := none, recipient := none, amount := none, ratePerSecond := none
    startTime := none, endTime := none, clawbackEnabled := none, memo := none
    isDestroyed := false }

/-- A call of a setter, whose exception is caught. -/
def call (b : StreamBuilder) (s : Setter) : StreamBuilder :=
  match b.set sdk s with
  | .ok b' => b'
  | .error _ => b

def calls (b : StreamBuilder) (setters : List Setter) : StreamBuilder := setters.foldl (call sdk) b

theorem run_after (b : StreamBuilder) (setters : List Setter) :
    Run.run (after sdk) b setters = some (calls sdk b setters) := by
  induction setters generalizing b with
  | nil => rfl
  | cons s setters ih =>
    have hafter : after sdk b s = some (call sdk b s) := by
      unfold after call
      cases b.set sdk s <;> rfl
    show (after sdk b s).bind (fun b' => Run.run (after sdk) b' setters) = _
    rw [hafter, Option.bind_some, ih]
    rfl

/-- Nothing tells the two builders apart. -/
structure Alike (b b' : StreamBuilder) : Prop where
  build : b.build = b'.build
  toContractArgs : ∀ now, b.toContractArgs sdk now = b'.toContractArgs sdk now
  memo : b.memo = b'.memo

/-! ## Values that are left behind -/

/-- A builder whose `cancelable` and `clawbackable`, where it has none, are `x` and `y`. -/
def overlay (b : StreamBuilder) (x y : Option Bool) : StreamBuilder :=
  { b with cancelable := b.cancelable.or x, clawbackable := b.clawbackable.or y }

theorem overlay_clone {b : StreamBuilder} (h : b.isDestroyed = false) :
    b.clone.overlay b.cancelable b.clawbackable = b := by
  unfold overlay clone
  simp only [Option.none_or, ← h]

theorem reset_eq (b : StreamBuilder) :
    b.reset = ({} : StreamBuilder).overlay b.cancelable b.clawbackable := rfl

/-- What a call of the setter `s` does to `b`, whether its check passes or not. -/
structure Writes (b : StreamBuilder) (s : Setter) : Prop where
  live : (call sdk b s).isDestroyed = b.isDestroyed
  cancelable : (call sdk b s).cancelable =
    (match s with | .setCancelable v => some v | _ => b.cancelable)
  clawbackable : (call sdk b s).clawbackable =
    (match s with | .setClawbackable v => some v | _ => b.clawbackable)
  overlay : ∀ x y, call sdk (b.overlay x y) s = (call sdk b s).overlay x y

/-- The checks read the argument only, and `cancelable` and `clawbackable` have one setter each. -/
theorem writes_call (b : StreamBuilder) (s : Setter) : Writes sdk b s := by
  constructor <;> unfold call
  all_goals
    cases s with
    | token address =>
      simp only [set]
      cases validateAddress sdk.isValidContract "token" contractRequirement address <;> intros <;> rfl
    | sender address =>
      simp only [set]
      cases validateAddress (isValidAddress sdk) "sender" accountRequirement address <;> intros <;>
        rfl
    | recipient address =>
      simp only [set]
      cases validateAddress (isValidAddress sdk) "recipient" accountRequirement address <;> intros <;>
        rfl
    | amount val =>
      simp only [set]
      cases positiveOf "amount" val <;> intros <;> rfl
    | ratePerSecond val =>
      simp only [set]
      cases positiveOf "ratePerSecond" val <;> intros <;> rfl
    | startTime val now =>
      simp only [set]
      cases requireTimestamp "startTime" val with
      | error err => intros; rfl
      | ok u => by_cases hpast : val.lt (.fin now) = true <;> simp only [hpast] <;> intros <;> rfl
    | endTime val =>
      simp only [set]
      cases requireTimestamp "endTime" val <;> intros <;> rfl
    | withMemo memo =>
      cases memo with
      | string s =>
        simp only [set]
        split_ifs <;> intros <;> rfl
      | memo m => intros; rfl
    | _ => intros; rfl

/-- **Calls of setters do not see what was left behind.** -/
theorem calls_overlay (b : StreamBuilder) (x y : Option Bool) (setters : List Setter) :
    calls sdk (b.overlay x y) setters = (calls sdk b setters).overlay x y := by
  induction setters generalizing b with
  | nil => rfl
  | cons s setters ih =>
    show calls sdk (call sdk (b.overlay x y) s) setters = _
    rw [(writes_call sdk b s).overlay, ih]
    rfl

theorem build_overlay (b : StreamBuilder) (x y : Option Bool) :
    (b.overlay x y).build = b.build.map fun config =>
      { config with cancelable := b.cancelable.or x, clawbackable := b.clawbackable.or y } := by
  obtain ⟨token, sender, recipient, amount, _, _, _, _, _, _, _, isDestroyed⟩ := b
  cases isDestroyed with
  | true => rfl
  | false => cases token <;> cases sender <;> cases recipient <;> cases amount <;> rfl

theorem toContractArgs_overlay (b : StreamBuilder) (x y : Option Bool) (now : ℕ) :
    (b.overlay x y).toContractArgs sdk now = b.toContractArgs sdk now := by
  unfold toContractArgs
  rw [build_overlay]
  cases b.build with
  | error err => rfl
  | ok config => rfl

/-- Without a required field nothing is built. -/
theorem build_ok_iff {b : StreamBuilder} (hlive : b.isDestroyed = false) :
    (∃ config, b.build = .ok config) ↔ b.validate = [] := by
  obtain ⟨token, sender, recipient, amount, _, _, _, _, _, _, _, isDestroyed⟩ := b
  cases hlive
  cases token <;> cases sender <;> cases recipient <;> cases amount <;> simp [build, validate]

theorem build_fields {b : StreamBuilder} {config : StreamConfig} (h : b.build = .ok config) :
    config.cancelable = b.cancelable ∧ config.clawbackable = b.clawbackable := by
  unfold build at h
  split_ifs at h
  · cases h
  · split at h
    · cases h
      exact ⟨rfl, rfl⟩
    · cases h

theorem or_eq_self_iff {a x : Option Bool} : a.or x = a ↔ x = none ∨ a.isSome = true := by
  cases a with
  | none => simp
  | some v => simp

/-- What was left behind shows in a payload. -/
theorem build_overlay_iff {b : StreamBuilder} (hlive : b.isDestroyed = false) (x y : Option Bool) :
    (b.overlay x y).build = b.build ↔
      (b.validate = [] → (x = none ∨ b.cancelable.isSome = true) ∧
        (y = none ∨ b.clawbackable.isSome = true)) := by
  rw [build_overlay, ← build_ok_iff hlive, ← or_eq_self_iff, ← or_eq_self_iff]
  cases hbuild : b.build with
  | error err =>
    refine iff_of_true rfl ?_
    rintro ⟨config, hconfig⟩
    cases hconfig
  | ok config =>
    obtain ⟨hcancelable, hclawbackable⟩ := build_fields hbuild
    simp only [Except.map, Except.ok.injEq]
    constructor
    · intro h _
      exact ⟨(congrArg StreamConfig.cancelable h).trans hcancelable,
        (congrArg StreamConfig.clawbackable h).trans hclawbackable⟩
    · intro h
      obtain ⟨hc, hb⟩ := h ⟨config, rfl⟩
      rw [hc, hb, ← hcancelable, ← hclawbackable]

/-! ## Histories -/

theorem calls_concat (b : StreamBuilder) (setters : List Setter) (s : Setter) :
    calls sdk b (setters ++ [s]) = call sdk (calls sdk b setters) s :=
  List.foldl_concat _ _ _ _

theorem isDestroyed_calls (setters : List Setter) : (calls sdk {} setters).isDestroyed = false := by
  induction setters using List.reverseRecOn with
  | nil => rfl
  | append_singleton setters s ih =>
    rw [calls_concat, (writes_call sdk _ s).live, ih]

theorem cancelable_calls (setters : List Setter) :
    (calls sdk {} setters).cancelable.isSome = true ↔ ∃ v, .setCancelable v ∈ setters := by
  induction setters using List.reverseRecOn with
  | nil => simp [calls]
  | append_singleton setters s ih =>
    rw [calls_concat, (writes_call sdk _ s).cancelable]
    cases s <;> simp [ih]

theorem clawbackable_calls (setters : List Setter) :
    (calls sdk {} setters).clawbackable.isSome = true ↔ ∃ v, .setClawbackable v ∈ setters := by
  induction setters using List.reverseRecOn with
  | nil => simp [calls]
  | append_singleton setters s ih =>
    rw [calls_concat, (writes_call sdk _ s).clawbackable]
    cases s <;> simp [ih]

/-- A clone of the builder after the calls `setters` is like it. -/
def CloneFaithful (setters : List Setter) : Prop :=
  Alike sdk (calls sdk {} setters).clone (calls sdk {} setters)

/-- After the calls `setters` and a reset, the calls `setters'` lead to what they make of a new
builder. -/
def ResetFaithful (setters setters' : List Setter) : Prop :=
  (calls sdk (calls sdk {} setters).reset setters').build = (calls sdk {} setters').build ∧
    ∀ now, (calls sdk (calls sdk {} setters).reset setters').toContractArgs sdk now =
      (calls sdk {} setters').toContractArgs sdk now

theorem none_iff_forall {setters : List Setter} {o : Option Bool} {f : Bool → Setter}
    (h : o.isSome = true ↔ ∃ v, f v ∈ setters) : o = none ↔ ∀ v, f v ∉ setters := by
  rw [← Option.not_isSome_iff_eq_none, h, not_exists]

theorem cloneFaithful_iff (setters : List Setter) :
    CloneFaithful sdk setters ↔ ((calls sdk {} setters).validate = [] →
      (∀ v, .setCancelable v ∉ setters) ∧ ∀ v, .setClawbackable v ∉ setters) := by
  set b := calls sdk {} setters with hb
  have hlive : b.isDestroyed = false := isDestroyed_calls sdk setters
  have hover := overlay_clone hlive
  have hbuild := build_overlay_iff (b := b.clone) rfl b.cancelable b.clawbackable
  have hargs := b.clone.toContractArgs_overlay sdk b.cancelable b.clawbackable
  rw [hover] at hbuild hargs
  have hvalidate : b.clone.validate = b.validate := rfl
  have hcancelable : b.clone.cancelable = none := rfl
  have hclawbackable : b.clone.clawbackable = none := rfl
  rw [hvalidate, hcancelable, hclawbackable, Option.isSome_none, Bool.false_eq_true, or_false,
    or_false, none_iff_forall (cancelable_calls sdk setters),
    none_iff_forall (clawbackable_calls sdk setters)] at hbuild
  rw [← hbuild]
  constructor
  · intro h
    exact h.build.symm
  · intro h
    exact ⟨h.symm, fun now => (hargs now).symm, rfl⟩

theorem resetFaithful_iff (setters setters' : List Setter) :
    ResetFaithful sdk setters setters' ↔ ((calls sdk {} setters').validate = [] →
      ((∀ v, .setCancelable v ∉ setters) ∨ ∃ v, .setCancelable v ∈ setters') ∧
        ((∀ v, .setClawbackable v ∉ setters) ∨ ∃ v, .setClawbackable v ∈ setters')) := by
  set b := calls sdk {} setters with hb
  set b' := calls sdk {} setters' with hb'
  have hover : calls sdk b.reset setters' = b'.overlay b.cancelable b.clawbackable := by
    rw [reset_eq, calls_overlay]
  have hbuild := build_overlay_iff (b := b') (isDestroyed_calls sdk setters') b.cancelable
    b.clawbackable
  rw [none_iff_forall (cancelable_calls sdk setters), none_iff_forall (clawbackable_calls sdk setters),
    cancelable_calls, clawbackable_calls] at hbuild
  rw [ResetFaithful, hover, ← hbuild]
  constructor
  · intro h
    exact h.1
  · intro h
    exact ⟨h, b'.toContractArgs_overlay sdk b.cancelable b.clawbackable⟩

/-- The calls set nothing that a copy passes over, or nothing can be built. -/
def Copied (setters : List Setter) : Prop :=
  (calls sdk {} setters).validate = [] →
    (∀ v, .setCancelable v ∉ setters) ∧ ∀ v, .setClawbackable v ∉ setters

/-- The later calls set again what a reset passes over, or nothing can be built. -/
def Overwritten (setters setters' : List Setter) : Prop :=
  (calls sdk {} setters').validate = [] →
    ((∀ v, .setCancelable v ∉ setters) ∨ ∃ v, .setCancelable v ∈ setters') ∧
      ((∀ v, .setClawbackable v ∉ setters) ∨ ∃ v, .setClawbackable v ∈ setters')

/-- **A clone is like its original, and a builder that was reset like a new one, exactly when no
call has set `cancelable` or `clawbackable` for good.** -/
theorem copies_iff (setters setters' : List Setter) :
    CloneFaithful sdk setters ∧ ResetFaithful sdk setters setters' ↔
      Copied sdk setters ∧ Overwritten sdk setters setters' :=
  and_congr (cloneFaithful_iff sdk setters) (resetFaithful_iff sdk setters setters')

/-! A builder whose stream cannot be cancelled. -/

def fixedSetters : List Setter :=
  [.token "CDLZFC3SYJYDZT7K67VZ75HPJVIEUVNIXF47ZG2FB2RMQQVU2HHGCYSC",
   .sender "GAAAAAAAAAAAAAAAAAAAAAAAAAAAAAAAAAAAAAAAAAAAAAAAAAAAAWHF",
   .recipient "GBBD47IF6LWK7P7MDEVSCWR7DPUWV3NY3DTQEVFL4NAT4AQH3ZLLFLA5",
   .amount (.bigint 1000)]

/-- What the calls set; the other fields stay. -/
theorem calls_fixed (b : StreamBuilder) : calls wideStandIn b fixedSetters =
    { b with
      token := some "CDLZFC3SYJYDZT7K67VZ75HPJVIEUVNIXF47ZG2FB2RMQQVU2HHGCYSC"
      sender := some "GAAAAAAAAAAAAAAAAAAAAAAAAAAAAAAAAAAAAAAAAAAAAAAAAAAAAWHF"
      recipient := some "GBBD47IF6LWK7P7MDEVSCWR7DPUWV3NY3DTQEVFL4NAT4AQH3ZLLFLA5"
      amount := some (.bigint 1000) } := by
  have hamount : positiveOf "amount" (.bigint 1000) = .ok (.bigint 1000) := rfl
  simp only [calls, fixedSetters, List.foldl_cons, List.foldl_nil, call,
    set_token _ addressShape_token, set_sender _ addressShape_sender,
    set_recipient _ addressShape_recipient, set_amount _ hamount]

/-- What `build` makes of the builder after these calls. -/
theorem build_fixed (b : StreamBuilder) (hlive : b.isDestroyed = false) :
    (calls wideStandIn b fixedSetters).build.toOption.map (·.cancelable) = some b.cancelable := by
  rw [calls_fixed, build, if_neg (by simp [hlive])]
  rfl

/-- **A clone loses `cancelable`, and a reset keeps it.** -/
theorem clone_loses_cancelable :
    (calls wideStandIn {} (fixedSetters ++ [.setCancelable false])).build.toOption.map
        (·.cancelable) = some (some false) ∧
      (calls wideStandIn {} (fixedSetters ++ [.setCancelable false])).clone.build.toOption.map
        (·.cancelable) = some none ∧
      ¬ CloneFaithful wideStandIn (fixedSetters ++ [.setCancelable false]) ∧
      (calls wideStandIn (calls wideStandIn {} [.setCancelable false]).reset
        fixedSetters).build.toOption.map (·.cancelable) = some (some false) ∧
      (calls wideStandIn {} fixedSetters).build.toOption.map (·.cancelable) = some none ∧
      ¬ ResetFaithful wideStandIn [.setCancelable false] fixedSetters := by
  have hset : (calls wideStandIn {} (fixedSetters ++ [.setCancelable false])).build.toOption.map
      (·.cancelable) = some (some false) := by
    rw [calls_concat, calls_fixed]
    rfl
  have hclone : (calls wideStandIn {} (fixedSetters ++ [.setCancelable false])).clone.build.toOption.map
      (·.cancelable) = some none := by
    rw [calls_concat, calls_fixed]
    rfl
  have hreset : (calls wideStandIn (calls wideStandIn {} [.setCancelable false]).reset
      fixedSetters).build.toOption.map (·.cancelable) = some (some false) := build_fixed _ rfl
  have hnew : (calls wideStandIn {} fixedSetters).build.toOption.map (·.cancelable) = some none :=
    build_fixed _ rfl
  refine ⟨hset, hclone, ?_, hreset, hnew, ?_⟩
  · intro h
    rw [h.build, hset] at hclone
    cases hclone
  · intro h
    rw [h.1, hnew] at hreset
    cases hreset

end StreamBuilder

end StreamFi
