import StreamFi.Js.Map
import StreamFi.Stellar
import StreamFi.Stream.Balance

/-!
# The state of a stream

A contract returns the state of its stream as a map with nine fields, and `parseStreamInfo` reads them by
name. Three of the booleans are bits of the field `flags`.

* `parseStreamInfo`: the code, with `entryName` and `fieldMap` for the names;
* `hasBit_twoPow`: what masking with the 32-bit operators reads;
* `streamFields`: the fields as the contract returns them;
* `fieldMap_get`: a field is found wherever its entry is;
* **`parseStreamInfo_fields`**: every state is read back, in any order and with any other entries.
-/

namespace StreamFi

open Js

/-! ## The code -/

/-- `STREAM_FLAG_PAUSED`. -/
def streamFlagPaused : Int32 := 1

/-- `STREAM_FLAG_CLAWBACK_ENABLED`. -/
def streamFlagClawbackEnabled : Int32 := (1 : Int32) <<< (1 : Int32)

/-- `STREAM_FLAG_CANCELLED`. -/
def streamFlagCancelled : Int32 := (1 : Int32) <<< (2 : Int32)

/-- `StreamInfo`, with the fields that a balance does not need. -/
structure StreamRecord extends StreamInfo where
  id : ℤ
  address : String
  sender : String
  recipient : String
  token : String
  clawbackEnabled : Bool
  deriving DecidableEq

/-- The name of an entry; a key that is no text has the empty one. -/
def entryName : ScVal → String
  | .symbol s => s
  | .string s => s
  | _ => ""

/-- `m`. An assignment to `__proto__` makes no entry. -/
def fieldMap (entries : List (ScVal × ScVal)) : Map String ScVal :=
  entries.foldl (fun m e => if entryName e.1 = "__proto__" then m else m.set (entryName e.1) e.2) .empty

/-- `(flags & mask) !== 0`, with the 32-bit operator. -/
def hasBit (flags : ℕ) (mask : Int32) : Bool := Int32.ofNat flags &&& mask != 0

/-- `m[name] ? read(m[name]) : absent`. -/
def readField {α : Type} (m : Map String ScVal) (name : String) (read : ScVal → Except Thrown α) (absent : α) :
    Except Thrown α :=
  match m.get name with
  | some v => read v
  | none => .ok absent

/-- `Number(scValToU64(val))`. -/
def timeOf (v : ScVal) : Except Thrown Number := (u64OrThrow v).map fun n => Number.ofRat n

/-- `flags` is zero where it cannot be read. -/
def flagsOf (m : Map String ScVal) : ℕ :=
  match m.get "flags" with
  | some v => (scValToU32 v).toOption.getD 0
  | none => 0

def parseStreamInfo (id : ℤ) (address : String) (val : ScVal) : Except Thrown StreamRecord := do
  let entries ← match val with
    | .map entries => .ok entries
    | _ => .error (errorOf "TypeError" "map not set")
  let m := fieldMap entries
  let flags := flagsOf m
  let sender ← readField m "sender" addressFromScVal ""
  let recipient ← readField m "recipient" addressFromScVal ""
  let token ← readField m "token" addressFromScVal ""
  let ratePerSecond ← readField m "rate_per_second" i128OrThrow 0
  let startTime ← readField m "start_time" timeOf (.fin 0)
  let endTime ← readField m "end_time" timeOf (.fin 0)
  let withdrawn ← readField m "withdrawn" i128OrThrow 0
  let pausedAt ← readField m "paused_at" timeOf (.fin 0)
  return {
    id := id
    address := address
    sender := sender
    recipient := recipient
    token := token
    ratePerSecond := ratePerSecond
    startTime := startTime
    endTime := endTime
    withdrawn := withdrawn
    paused := hasBit flags streamFlagPaused
    pausedAt := pausedAt
    cancelled := hasBit flags streamFlagCancelled
    clawbackEnabled := hasBit flags streamFlagClawbackEnabled }

/-! ## Bits -/

/-- **A mask of one bit reads that bit.** -/
theorem hasBit_twoPow {i : ℕ} (hi : i < 32) (flags : ℕ) {mask : Int32}
    (hmask : mask.toBitVec = BitVec.twoPow 32 i) : hasBit flags mask = flags.testBit i := by
  have hand : (Int32.ofNat flags &&& mask).toBitVec =
      if flags.testBit i then BitVec.twoPow 32 i else 0#32 := by
    have hbits : (Int32.ofNat flags).toBitVec = BitVec.ofNat 32 flags := rfl
    rw [Int32.toBitVec_and, hmask, hbits, BitVec.and_twoPow, BitVec.getLsbD_ofNat, decide_eq_true hi,
      Bool.true_and]
  have hnonzero : BitVec.twoPow 32 i ≠ 0#32 := by
    intro h
    have hbit := congrArg (fun x => x.getLsbD i) h
    simp [hi] at hbit
  rw [hasBit, Bool.eq_iff_iff, bne_iff_ne, ne_eq, ← Int32.toBitVec_inj, hand]
  cases flags.testBit i with
  | true => exact iff_of_true hnonzero rfl
  | false => exact iff_of_false (not_not.mpr rfl) Bool.false_ne_true

/-- The low bits of a negative number whose last 64 bits are zero. -/
theorem ldiff_low {k lo : ℕ} (h : lo < 2 ^ 64) :
    Nat.ldiff (2 ^ 64 * k + (2 ^ 64 - 1)) lo = 2 ^ 64 * k + (2 ^ 64 - (lo + 1)) := by
  apply Nat.eq_of_testBit_eq
  intro j
  rw [Nat.testBit_ldiff, Nat.testBit_two_pow_mul_add _ (by omega), Nat.testBit_two_pow_mul_add _ (by omega)]
  by_cases hj : j < 64
  · rw [if_pos hj, if_pos hj, Nat.testBit_two_pow_sub_one, Nat.testBit_two_pow_sub_succ h]
  · have hzero : lo.testBit j = false :=
      Nat.testBit_lt_two_pow (h.trans_le (Nat.pow_le_pow_right (by norm_num) (not_lt.mp hj)))
    rw [if_neg hj, if_neg hj, hzero, Bool.not_false, Bool.and_true]

/-- **The halves of an `i128`** as the code puts them together, `(hi << 64n) | lo`. -/
theorem scValToI128_or (hi : Int64) (lo : UInt64) :
    scValToI128 (.i128 hi lo) = some (Int.lor (hi.toInt <<< (64 : ℕ)) lo.toNat) := by
  have hlo := lo.toNat_lt
  rw [scValToI128, Int.shiftLeft_eq]
  congr 1
  cases hi.toInt with
  | ofNat a =>
    have hpow : Int.ofNat a * (2 : ℤ) ^ 64 = Int.ofNat (a <<< 64) := by
      rw [Nat.shiftLeft_eq]
      rfl
    rw [hpow, Int.ofNat_eq_natCast, ← Int.natCast_add, Nat.shiftLeft_add_eq_or_of_lt hlo]
    rfl
  | negSucc k =>
    have hpow : Int.negSucc k * 2 ^ 64 = Int.negSucc (2 ^ 64 * k + (2 ^ 64 - 1)) := by
      rw [Int.negSucc_eq, Int.negSucc_eq]
      push_cast
      ring
    have hlor (m n : ℕ) : Int.lor (Int.negSucc m) n = Int.negSucc (Nat.ldiff m n) := rfl
    rw [hpow, hlor, ldiff_low hlo, Int.negSucc_eq, Int.negSucc_eq]
    omega

/-! ## Fields -/

/-- What a contract keeps of its stream. -/
structure StreamState where
  sender : String
  recipient : String
  token : String
  ratePerSecond : ℤ
  startTime : ℕ
  endTime : ℕ
  withdrawn : ℤ
  pausedAt : ℕ
  flags : UInt32

/-- The values have the widths of their fields, and the times are exact as numbers. -/
structure StreamState.InRange (s : StreamState) : Prop where
  ratePerSecond : InI128 s.ratePerSecond
  withdrawn : InI128 s.withdrawn
  startTime : s.startTime < 2 ^ 53
  endTime : s.endTime < 2 ^ 53
  pausedAt : s.pausedAt < 2 ^ 53

/-- The fields of a state, by name. -/
def streamFields (s : StreamState) : List (String × ScVal) :=
  [("sender", .address s.sender), ("recipient", .address s.recipient), ("token", .address s.token),
    ("rate_per_second", i128Of s.ratePerSecond), ("start_time", u64Of s.startTime),
    ("end_time", u64Of s.endTime), ("withdrawn", i128Of s.withdrawn), ("paused_at", u64Of s.pausedAt),
    ("flags", .u32 s.flags)]

/-- The entries of a state, with symbols or texts as keys. -/
def streamEntries (key : String → ScVal) (s : StreamState) : List (ScVal × ScVal) :=
  (streamFields s).map fun field => (key field.1, field.2)

/-- The record that stands for the state. -/
def StreamState.record (s : StreamState) (id : ℤ) (address : String) : StreamRecord where
  id := id
  address := address
  sender := s.sender
  recipient := s.recipient
  token := s.token
  ratePerSecond := s.ratePerSecond
  startTime := .fin s.startTime
  endTime := .fin s.endTime
  withdrawn := s.withdrawn
  paused := s.flags.toNat.testBit 0
  pausedAt := .fin s.pausedAt
  cancelled := s.flags.toNat.testBit 2
  clawbackEnabled := s.flags.toNat.testBit 1

theorem fieldMap_concat (entries : List (ScVal × ScVal)) (e : ScVal × ScVal) :
    fieldMap (entries ++ [e]) =
      if entryName e.1 = "__proto__" then fieldMap entries else (fieldMap entries).set (entryName e.1) e.2 := by
  rw [fieldMap, List.foldl_append, List.foldl_cons, List.foldl_nil, ← fieldMap]

/-- **A field is found wherever its entry is.** -/
theorem fieldMap_get {entries : List (ScVal × ScVal)} {name : String} {v : ScVal} (hname : name ≠ "__proto__")
    (hmem : ∃ e ∈ entries, entryName e.1 = name)
    (hall : ∀ e ∈ entries, entryName e.1 = name → e.2 = v) : (fieldMap entries).get name = some v := by
  induction entries using List.reverseRecOn with
  | nil =>
    obtain ⟨e, he, -⟩ := hmem
    cases he
  | append_singleton entries e ih =>
    rw [fieldMap_concat]
    have hlast := hall e (List.mem_append_right _ (List.mem_singleton_self e))
    by_cases hname' : entryName e.1 = name
    · rw [if_neg (by rwa [hname']), Map.get_set, if_pos hname'.symm, hlast hname']
    · have hbefore : ∃ e ∈ entries, entryName e.1 = name := by
        obtain ⟨e', he', heq⟩ := hmem
        rcases List.mem_append.mp he' with he' | he'
        · exact ⟨e', he', heq⟩
        · rw [List.mem_singleton.mp he'] at heq
          exact absurd heq hname'
      have hget := ih hbefore fun e he => hall e (List.mem_append_left _ he)
      split_ifs
      · exact hget
      · rw [Map.get_set, if_neg (Ne.symm hname'), hget]

theorem timeOf_u64Of {n : ℕ} (h : n < 2 ^ 53) : timeOf (u64Of n) = .ok (.fin n) := by
  have hexact := Number.ofRat_intCast (n := n) (by rw [abs_of_nonneg (by positivity)]; omega)
  rw [timeOf, u64OrThrow, scValToU64_u64Of (h.trans (by norm_num))]
  exact congrArg Except.ok hexact

theorem i128OrThrow_i128Of {n : ℤ} (h : InI128 n) : i128OrThrow (i128Of n) = .ok n := by
  rw [i128OrThrow, scValToI128_i128Of h.1 h.2]

theorem nodup_streamFields (s : StreamState) : ((streamFields s).map Prod.fst).Nodup := by
  have hnames : (streamFields s).map Prod.fst = ["sender", "recipient", "token", "rate_per_second", "start_time",
    "end_time", "withdrawn", "paused_at", "flags"] := rfl
  rw [hnames]
  decide

/-- The fields of the state are all there. -/
def Shows (m : Map String ScVal) (s : StreamState) : Prop :=
  ∀ name v, (name, v) ∈ streamFields s → m.get name = some v

/-- **The fields are there** in any order, and with any other entries. -/
theorem shows_fieldMap {s : StreamState} {key : String → ScVal} (hkey : ∀ name, entryName (key name) = name)
    {extra entries : List (ScVal × ScVal)} (hextra : ∀ e ∈ extra, entryName e.1 ∉ (streamFields s).map Prod.fst)
    (hperm : entries.Perm (streamEntries key s ++ extra)) : Shows (fieldMap entries) s := by
  intro name v hfield
  have hnames : name ∈ (streamFields s).map Prod.fst := List.mem_map_of_mem (f := Prod.fst) hfield
  apply fieldMap_get
  · rintro rfl
    simp [streamFields] at hnames
  · refine ⟨(key name, v), hperm.mem_iff.mpr (List.mem_append_left _ ?_), hkey name⟩
    exact List.mem_map_of_mem (f := fun field => (key field.1, field.2)) hfield
  · intro e he hname
    rcases List.mem_append.mp (hperm.mem_iff.mp he) with he | he
    · obtain ⟨field, hfield', rfl⟩ := List.mem_map.mp he
      rw [hkey] at hname
      have hsame := List.inj_on_of_nodup_map (nodup_streamFields s) hfield' hfield hname
      rw [hsame]
    · exact absurd (hname ▸ hnames) (hextra e he)

theorem Shows.readField {m : Map String ScVal} {s : StreamState} (h : Shows m s) {α : Type} {name : String}
    {v : ScVal} {read : ScVal → Except Thrown α} {absent a : α} (hfield : (name, v) ∈ streamFields s)
    (hok : read v = .ok a) : readField m name read absent = .ok a := by
  rw [StreamFi.readField, h name v hfield]
  exact hok

theorem Shows.flagsOf {m : Map String ScVal} {s : StreamState} (h : Shows m s) : flagsOf m = s.flags.toNat := by
  rw [StreamFi.flagsOf, h "flags" (.u32 s.flags) (by simp [streamFields])]
  rfl

/-- **Every state is read back**, whatever the order of its entries and whatever other entries there are. -/
theorem parseStreamInfo_fields (s : StreamState) (hs : s.InRange) (key : String → ScVal)
    (hkey : ∀ name, entryName (key name) = name) (extra entries : List (ScVal × ScVal))
    (hextra : ∀ e ∈ extra, entryName e.1 ∉ (streamFields s).map Prod.fst)
    (hperm : entries.Perm (streamEntries key s ++ extra)) (id : ℤ) (address : String) :
    parseStreamInfo id address (.map entries) = .ok (s.record id address) := by
  have hm := shows_fieldMap hkey hextra hperm
  have hsender : readField (fieldMap entries) "sender" addressFromScVal "" = .ok s.sender :=
    hm.readField (v := .address s.sender) (by simp [streamFields]) rfl
  have hrecipient : readField (fieldMap entries) "recipient" addressFromScVal "" = .ok s.recipient :=
    hm.readField (v := .address s.recipient) (by simp [streamFields]) rfl
  have htoken : readField (fieldMap entries) "token" addressFromScVal "" = .ok s.token :=
    hm.readField (v := .address s.token) (by simp [streamFields]) rfl
  have hrate : readField (fieldMap entries) "rate_per_second" i128OrThrow 0 = .ok s.ratePerSecond :=
    hm.readField (by simp [streamFields]) (i128OrThrow_i128Of hs.ratePerSecond)
  have hstart : readField (fieldMap entries) "start_time" timeOf (.fin 0) = .ok (.fin s.startTime) :=
    hm.readField (by simp [streamFields]) (timeOf_u64Of hs.startTime)
  have hend : readField (fieldMap entries) "end_time" timeOf (.fin 0) = .ok (.fin s.endTime) :=
    hm.readField (by simp [streamFields]) (timeOf_u64Of hs.endTime)
  have hwithdrawn : readField (fieldMap entries) "withdrawn" i128OrThrow 0 = .ok s.withdrawn :=
    hm.readField (by simp [streamFields]) (i128OrThrow_i128Of hs.withdrawn)
  have hpaused : readField (fieldMap entries) "paused_at" timeOf (.fin 0) = .ok (.fin s.pausedAt) :=
    hm.readField (by simp [streamFields]) (timeOf_u64Of hs.pausedAt)
  simp only [parseStreamInfo, ok_seq, hm.flagsOf, hsender, hrecipient, htoken, hrate, hstart, hend, hwithdrawn,
    hpaused]
  rw [hasBit_twoPow (i := 0) (by decide) _ rfl, hasBit_twoPow (i := 2) (by decide) _ rfl,
    hasBit_twoPow (i := 1) (by decide) _ rfl]
  rfl

/-- A state at the ends of its ranges. -/
def extremeState : StreamState where
  sender := "GSENDER"
  recipient := "GRECIPIENT"
  token := "CTOKEN"
  ratePerSecond := -2 ^ 127
  startTime := 2 ^ 53 - 1
  endTime := 0
  withdrawn := 2 ^ 127 - 1
  pausedAt := 1
  flags := 0xFFFFFFFF

/-- The entries are the other way round, and one has a name of its own. -/
theorem parseStreamInfo_extreme :
    parseStreamInfo 1 "CSTREAM"
        (.map ((.symbol "paused", .bool true) :: streamEntries .symbol extremeState).reverse) =
      .ok (extremeState.record 1 "CSTREAM") := by
  refine parseStreamInfo_fields extremeState ⟨by decide, by decide, by decide, by decide, by decide⟩ .symbol
    (fun _ => rfl) [(.symbol "paused", .bool true)] _ ?_ ?_ 1 "CSTREAM"
  · intro e he
    rw [List.mem_singleton.mp he]
    decide
  · exact (List.reverse_perm _).trans (List.perm_append_singleton _ _).symm

end StreamFi
