import StreamFi.Constants
import StreamFi.Errors

/-!
# The Stellar SDK

The Stellar SDK is not part of the repository. `Sdk Tx` lists what the code calls, with `Tx` its
transaction type, and `Sdk.Lawful` what the code relies on.

* `ScVal`: contract values, with `scValToI128` and `scValToU64`;
* **`scValToI128_i128Of`**, **`scValToU64_u64Of`**: integers in range survive the trip;
* `Sdk.LawfulIntegers`: the same for integers that are given as text or as numbers.
-/

namespace StreamFi

open Js

/-! ## Contract values -/

inductive ScVal where
  | void
  | bool (b : Bool)
  | u32 (n : UInt32)
  | i32 (n : Int32)
  | u64 (n : UInt64)
  | i64 (n : Int64)
  | u128 (hi lo : UInt64)
  | i128 (hi : Int64) (lo : UInt64)
  | u256 (n : ℕ)
  | i256 (n : ℤ)
  | bytes (bs : List UInt8)
  | string (s : String)
  | symbol (s : String)
  | address (a : String)
  | vec (xs : List ScVal)
  | map (entries : List (ScVal × ScVal))

/-- The type names that force an encoding. -/
inductive ScValType where
  | u32 | i32 | u64 | i64 | u128 | i128 | u256 | i256
  | string | symbol | address | bool | bytes
  deriving DecidableEq

/-- `scValToI128`: `(hi << 64n) | lo`; `none` is the throw on another arm. -/
def scValToI128 : ScVal → Option ℤ
  | .i128 hi lo => some (hi.toInt * 2 ^ 64 + lo.toNat)
  | _ => none

/-- `scValToU64`; `none` is the throw on another arm. -/
def scValToU64 : ScVal → Option ℤ
  | .u64 n => some n.toNat
  | _ => none

/-- `scValToI128(val)`. -/
def i128OrThrow (v : ScVal) : Except Thrown ℤ :=
  match scValToI128 v with
  | some n => .ok n
  | none => .error (errorOf "TypeError" "i128 not set")

/-- `scValToU64(val)`. -/
def u64OrThrow (v : ScVal) : Except Thrown ℤ :=
  match scValToU64 v with
  | some n => .ok n
  | none => .error (errorOf "TypeError" "u64 not set")

/-- `val.switch().name`. -/
def ScVal.switchName : ScVal → String
  | .void => "scvVoid"
  | .bool _ => "scvBool"
  | .u32 _ => "scvU32"
  | .i32 _ => "scvI32"
  | .u64 _ => "scvU64"
  | .i64 _ => "scvI64"
  | .u128 _ _ => "scvU128"
  | .i128 _ _ => "scvI128"
  | .u256 _ => "scvU256"
  | .i256 _ => "scvI256"
  | .bytes _ => "scvBytes"
  | .string _ => "scvString"
  | .symbol _ => "scvSymbol"
  | .address _ => "scvAddress"
  | .vec _ => "scvVec"
  | .map _ => "scvMap"

def scValToU32 : ScVal → Except Thrown ℕ
  | .u32 n => .ok n.toNat
  | v => throwNew s!"Expected a u32 ScVal, got \"{v.switchName}\" instead."

/-- `Address.fromScVal(val).toString()`. -/
def addressFromScVal : ScVal → Except Thrown String
  | .address a => .ok a
  | _ => .error (errorOf "TypeError" "address not set")

def boolToScVal (b : Bool) : ScVal := .bool b

/-- `n` in two's complement. -/
def i128Of (n : ℤ) : ScVal := .i128 (Int64.ofInt (n / 2 ^ 64)) (UInt64.ofNat (n % 2 ^ 64).toNat)

def u64Of (n : ℕ) : ScVal := .u64 (UInt64.ofNat n)

/-- **An integer of 128 bits survives the trip.** -/
theorem scValToI128_i128Of {n : ℤ} (h₁ : -2 ^ 127 ≤ n) (h₂ : n < 2 ^ 127) :
    scValToI128 (i128Of n) = some n := by
  have hhi : (Int64.ofInt (n / 2 ^ 64)).toInt = n / 2 ^ 64 := by
    have hsize : Int64.size = 18446744073709551616 := rfl
    rw [Int64.toInt_ofInt]
    exact Int.bmod_eq_of_le (by omega) (by omega)
  have hlo : (UInt64.ofNat (n % 2 ^ 64).toNat).toNat = (n % 2 ^ 64).toNat := by
    rw [UInt64.toNat_ofNat']
    exact Nat.mod_eq_of_lt (by omega)
  rw [i128Of, scValToI128, hhi, hlo]
  exact congrArg some (by omega)

theorem scValToI128_range {v : ScVal} {n : ℤ} (h : scValToI128 v = some n) :
    -2 ^ 127 ≤ n ∧ n < 2 ^ 127 := by
  cases v with
  | i128 hi lo =>
    cases h
    have h₁ := hi.le_toInt
    have h₂ := hi.toInt_lt
    have h₃ := lo.toNat_lt
    omega
  | _ => cases h

/-- **An integer of 64 bits survives the trip.** -/
theorem scValToU64_u64Of {n : ℕ} (h : n < 2 ^ 64) : scValToU64 (u64Of n) = some (n : ℤ) := by
  rw [u64Of, scValToU64, UInt64.toNat_ofNat', Nat.mod_eq_of_lt h]

theorem scValToU64_range {v : ScVal} {n : ℤ} (h : scValToU64 v = some n) :
    0 ≤ n ∧ n < 2 ^ 64 := by
  cases v with
  | u64 m =>
    cases h
    have := m.toNat_lt
    omega
  | _ => cases h

/-! ## Library calls -/

/-- A contract call as handed to `TransactionBuilder`. -/
structure CallSpec where
  source : String
  sequence : ℤ
  fee : String
  networkPassphrase : String
  contractId : String
  method : String
  args : List ScVal
  timeout : Number
  /-- `Date.now()` when the time bound is set. -/
  clock : Number

/-- A successful simulation, kept opaque. -/
structure Simulation where
  data : String
  deriving DecidableEq

/-- The library calls of the code. -/
structure Sdk (Tx : Type) where
  isValidEd25519PublicKey : String → Bool
  isValidContract : String → Bool
  /-- `new Address(a).toScVal()` -/
  addressToScVal : String → Except Thrown ScVal
  nativeToScVal : Value ScVal → Option ScValType → Except Thrown ScVal
  /-- `Asset.native().contractId(passphrase)` -/
  nativeContractId : String → String
  /-- `new Asset(code, issuer).contractId(passphrase)` -/
  assetContractId : String → String → String → Except Thrown String
  /-- `new TransactionBuilder(…).addOperation(…).setTimeout(…).build()` -/
  buildCall : CallSpec → Except Thrown Tx
  sequence : Tx → ℤ
  assembleTransaction : Tx → Simulation → Except Thrown Tx
  toXDR : Tx → String
  /-- `new Transaction(xdr, passphrase)` -/
  fromXDR : String → String → Except Thrown Tx
  /-- What `bigintSafeStringify` makes of a library object. -/
  stringifyHost : ScVal → Value ScVal

variable {Tx : Type}

/-- `isValidAddress`. -/
def isValidAddress (sdk : Sdk Tx) (address : String) : Bool :=
  address ≠ "" && (sdk.isValidEd25519PublicKey address || sdk.isValidContract address)

/-- In the range of an `i128`. -/
def InI128 (n : ℤ) : Prop := -2 ^ 127 ≤ n ∧ n < 2 ^ 127

instance (n : ℤ) : Decidable (InI128 n) := inferInstanceAs (Decidable (_ ∧ _))

/-- A number that a `u64` can hold. -/
def InU64 (x : Number) : Prop := ∃ n : ℕ, x = .fin n ∧ n < 2 ^ 64

/-- What the code relies on. -/
structure Sdk.Lawful (sdk : Sdk Tx) : Prop where
  length_address : ∀ a, isValidAddress sdk a = true → utf16Length a = 56
  address_ok : ∀ a, isValidAddress sdk a = true → sdk.addressToScVal a = .ok (.address a)
  address_error : ∀ a, isValidAddress sdk a = false → ∃ e, sdk.addressToScVal a = .error e
  native_valid : ∀ p, isValidAddress sdk (sdk.nativeContractId p) = true
  usdc_valid : ∀ n issuer p, usdcIssuer n = .ok issuer →
    ∃ c, sdk.assetContractId "USDC" issuer p = .ok c ∧ isValidAddress sdk c = true
  i128_ok : ∀ n, InI128 n → sdk.nativeToScVal (.bigint n) (some .i128) = .ok (i128Of n)
  i128_error : ∀ n, ¬ InI128 n → ∃ e, sdk.nativeToScVal (.bigint n) (some .i128) = .error e
  u64_ok : ∀ n : ℕ, n < 2 ^ 64 → sdk.nativeToScVal (.number (.fin n)) (some .u64) = .ok (u64Of n)
  u64_error : ∀ x, ¬ InU64 x → ∃ e, sdk.nativeToScVal (.number x) (some .u64) = .error e
  sequence_build : ∀ spec tx, sdk.buildCall spec = .ok tx → sdk.sequence tx = spec.sequence + 1
  sequence_assemble : ∀ tx sim tx', sdk.assembleTransaction tx sim = .ok tx' →
    sdk.sequence tx' = sdk.sequence tx
  fromXDR_toXDR : ∀ tx p, ∃ tx', sdk.fromXDR (sdk.toXDR tx) p = .ok tx' ∧
    sdk.sequence tx' = sdk.sequence tx

section Lawful

variable {sdk : Sdk Tx}

theorem Sdk.Lawful.addressToScVal_iff (hl : sdk.Lawful) {a : String} {v : ScVal} :
    sdk.addressToScVal a = .ok v ↔ isValidAddress sdk a = true ∧ v = .address a := by
  by_cases ha : isValidAddress sdk a = true
  · rw [hl.address_ok a ha, Except.ok.injEq, eq_comm (b := v)]
    exact (and_iff_right ha).symm
  · obtain ⟨e, he⟩ := hl.address_error a (by simpa using ha)
    simp [he, ha]

theorem Sdk.Lawful.i128_iff (hl : sdk.Lawful) {n : ℤ} {v : ScVal} :
    sdk.nativeToScVal (.bigint n) (some .i128) = .ok v ↔ InI128 n ∧ v = i128Of n := by
  by_cases hn : InI128 n
  · rw [hl.i128_ok n hn, Except.ok.injEq, eq_comm (b := v)]
    exact (and_iff_right hn).symm
  · obtain ⟨e, he⟩ := hl.i128_error n hn
    simp [he, hn]

theorem Sdk.Lawful.u64_iff (hl : sdk.Lawful) {x : Number} {v : ScVal} :
    sdk.nativeToScVal (.number x) (some .u64) = .ok v ↔
      ∃ n : ℕ, x = .fin n ∧ n < 2 ^ 64 ∧ v = u64Of n := by
  constructor
  · intro h
    by_cases hx : InU64 x
    · obtain ⟨n, rfl, hn⟩ := hx
      rw [hl.u64_ok n hn] at h
      cases h
      exact ⟨n, rfl, hn, rfl⟩
    · obtain ⟨e, he⟩ := hl.u64_error x hx
      rw [he] at h
      cases h
  · rintro ⟨n, rfl, hn, rfl⟩
    exact hl.u64_ok n hn

end Lawful

/-! ## A stand-in -/

/-- Of the shape of an address with this first letter. -/
def addressShape (c : Char) (a : String) : Bool := utf16Length a = 56 && a.toList.head? = some c

/-- A library that satisfies `Lawful`: addresses go by shape, an envelope is its sequence number. -/
def standIn : Sdk ℕ where
  isValidEd25519PublicKey := addressShape 'G'
  isValidContract := addressShape 'C'
  addressToScVal a :=
    if addressShape 'G' a ∨ addressShape 'C' a then .ok (.address a)
    else throwNew s!"Unsupported address type: {a}"
  nativeToScVal v type := match v, type with
    | .bigint n, some .i128 => if InI128 n then .ok (i128Of n) else throwNew "out of range"
    | .number x, some .u64 => match x.toBigInt with
      | some n =>
        if 0 ≤ n ∧ n < 2 ^ 64 then .ok (u64Of n.toNat) else throwNew "out of range"
      | none => throwNew "expected an integer"
    | .string s, some .symbol => .ok (.symbol s)
    | .string s, none => .ok (.string s)
    | _, _ => throwNew "cannot convert"
  nativeContractId passphrase :=
    if passphrase = "Public Global Stellar Network ; September 2015" then
      "CAS3J7GYLGXMF6TDJBBYYSE3HQ6BBSMLNUQ34T6TZMYMW2EVH34XOWMA"
    else "CDLZFC3SYJYDZT7K67VZ75HPJVIEUVNIXF47ZG2FB2RMQQVU2HHGCYSC"
  assetContractId _ _ passphrase := .ok <|
    if passphrase = "Public Global Stellar Network ; September 2015" then
      "CCW67TSZV3SSS2HXMBQ5JFGCKJNXKZM7UQUWUZPUTHXSTZLEO7SJMI75"
    else "CBIELTK6YBZJU5UP2WWQEUCYKLPU6AUNZ2BQ4WWFEIE3USCIHMXQDAMA"
  buildCall spec :=
    if 0 ≤ spec.sequence then .ok (spec.sequence + 1).toNat else throwNew "negative sequence"
  sequence tx := tx
  assembleTransaction tx _ := .ok tx
  toXDR tx := String.ofList (Nat.toDigits 10 tx)
  fromXDR xdr _ := match bigInt xdr with
    | some n => .ok n.toNat
    | none => throwNew "invalid envelope"
  stringifyHost := .host

theorem isValidAddress_standIn {a : String} (h : isValidAddress standIn a = true) :
    addressShape 'G' a = true ∨ addressShape 'C' a = true := by
  rw [isValidAddress, Bool.and_eq_true, Bool.or_eq_true] at h
  exact h.2

theorem isValidAddress_of_shape {a : String} {c : Char} (h : addressShape c a = true)
    (hc : c = 'G' ∨ c = 'C') : isValidAddress standIn a = true := by
  have hne : a ≠ "" := by
    rintro rfl
    cases h
  rw [isValidAddress, decide_eq_true hne, Bool.true_and, Bool.or_eq_true]
  rcases hc with rfl | rfl
  · exact .inl h
  · exact .inr h

/-! Addresses that the examples take. -/

theorem addressShape_token :
    addressShape 'C' "CDLZFC3SYJYDZT7K67VZ75HPJVIEUVNIXF47ZG2FB2RMQQVU2HHGCYSC" = true := by
  simp [addressShape, utf16Length]

theorem addressShape_sender :
    addressShape 'G' "GAAAAAAAAAAAAAAAAAAAAAAAAAAAAAAAAAAAAAAAAAAAAAAAAAAAAWHF" = true := by
  simp [addressShape, utf16Length]

theorem addressShape_recipient :
    addressShape 'G' "GBBD47IF6LWK7P7MDEVSCWR7DPUWV3NY3DTQEVFL4NAT4AQH3ZLLFLA5" = true := by
  simp [addressShape, utf16Length]

theorem standIn_lawful : standIn.Lawful where
  length_address a h := by
    rcases isValidAddress_standIn h with h | h <;>
    · rw [addressShape, Bool.and_eq_true, decide_eq_true_eq] at h
      exact h.1
  address_ok a h := if_pos (isValidAddress_standIn h)
  address_error a h := by
    refine ⟨_, if_neg fun hs => ?_⟩
    have hne : a ≠ "" := by
      rintro rfl
      revert hs
      decide
    rw [isValidAddress, decide_eq_true hne, Bool.true_and, Bool.or_eq_false_iff] at h
    rcases hs with hs | hs
    · exact absurd (h.1.symm.trans hs) (by decide)
    · exact absurd (h.2.symm.trans hs) (by decide)
  native_valid p := by
    refine isValidAddress_of_shape (c := 'C') ?_ (.inr rfl)
    simp only [standIn]
    split_ifs
    · simp [addressShape, utf16Length]
    · exact addressShape_token
  usdc_valid n issuer p _ := by
    refine ⟨_, rfl, isValidAddress_of_shape (c := 'C') ?_ (.inr rfl)⟩
    split_ifs <;> simp [addressShape, utf16Length]
  i128_ok n h := if_pos h
  i128_error n h := ⟨_, if_neg h⟩
  u64_ok n h := by
    simp only [standIn, Number.toBigInt_natCast]
    rw [if_pos ⟨Int.natCast_nonneg n, by exact_mod_cast h⟩, Int.toNat_natCast]
  u64_error x h := by
    simp only [standIn]
    cases hx : x.toBigInt with
    | none => exact ⟨_, rfl⟩
    | some n =>
      refine ⟨_, if_neg ?_⟩
      rintro ⟨h₀, h₁⟩
      refine h ⟨n.toNat, ?_, by omega⟩
      rw [Number.eq_of_toBigInt hx]
      exact congrArg Number.fin (by exact_mod_cast (Int.toNat_of_nonneg h₀).symm)
  sequence_build spec tx h := by
    simp only [standIn] at h ⊢
    split_ifs at h with hs
    · cases h
      omega
    · cases h
  sequence_assemble tx sim tx' h := by
    cases h
    rfl
  fromXDR_toXDR tx p := by
    refine ⟨tx, ?_, rfl⟩
    simp only [standIn, bigInt_ofDigits (allDigits_toDigits tx), Nat.ofDigitChars_ten_toDigits,
      Int.toNat_natCast]

/-! ## Integers as text -/

/-- What the code relies on where an `i128` is given as text or as a number, and that the arguments
do not decide whether a call can be built. -/
structure Sdk.LawfulIntegers (sdk : Sdk Tx) : Prop extends sdk.Lawful where
  string_ok : ∀ s n, bigInt s = some n → InI128 n →
    sdk.nativeToScVal (.string s) (some .i128) = .ok (i128Of n)
  string_error : ∀ s, (∀ n, bigInt s = some n → ¬ InI128 n) →
    ∃ e, sdk.nativeToScVal (.string s) (some .i128) = .error e
  number_ok : ∀ x n, x.toBigInt = some n → InI128 n →
    sdk.nativeToScVal (.number x) (some .i128) = .ok (i128Of n)
  number_error : ∀ x, (∀ n, x.toBigInt = some n → ¬ InI128 n) →
    ∃ e, sdk.nativeToScVal (.number x) (some .i128) = .error e
  build_args : ∀ spec args, (∃ tx, sdk.buildCall spec = .ok tx) →
    ∃ tx, sdk.buildCall { spec with args := args } = .ok tx

section LawfulIntegers

variable {sdk : Sdk Tx}

theorem Sdk.LawfulIntegers.string_iff (hl : sdk.LawfulIntegers) {s : String} {v : ScVal} :
    sdk.nativeToScVal (.string s) (some .i128) = .ok v ↔
      ∃ n, bigInt s = some n ∧ InI128 n ∧ v = i128Of n := by
  constructor
  · intro h
    by_cases hs : ∃ n, bigInt s = some n ∧ InI128 n
    · obtain ⟨n, hn, hrange⟩ := hs
      rw [hl.string_ok s n hn hrange] at h
      exact ⟨n, hn, hrange, (Except.ok.inj h).symm⟩
    · obtain ⟨e, he⟩ := hl.string_error s fun n hn hrange => hs ⟨n, hn, hrange⟩
      rw [he] at h
      cases h
  · rintro ⟨n, hn, hrange, rfl⟩
    exact hl.string_ok s n hn hrange

theorem Sdk.LawfulIntegers.number_iff (hl : sdk.LawfulIntegers) {x : Number} {v : ScVal} :
    sdk.nativeToScVal (.number x) (some .i128) = .ok v ↔
      ∃ n, x.toBigInt = some n ∧ InI128 n ∧ v = i128Of n := by
  constructor
  · intro h
    by_cases hx : ∃ n, x.toBigInt = some n ∧ InI128 n
    · obtain ⟨n, hn, hrange⟩ := hx
      rw [hl.number_ok x n hn hrange] at h
      exact ⟨n, hn, hrange, (Except.ok.inj h).symm⟩
    · obtain ⟨e, he⟩ := hl.number_error x fun n hn hrange => hx ⟨n, hn, hrange⟩
      rw [he] at h
      cases h
  · rintro ⟨n, hn, hrange, rfl⟩
    exact hl.number_ok x n hn hrange

end LawfulIntegers

theorem i128Of_injective {m n : ℤ} (hm : InI128 m) (hn : InI128 n) (h : i128Of m = i128Of n) :
    m = n := by
  have := congrArg scValToI128 h
  rw [scValToI128_i128Of hm.1 hm.2, scValToI128_i128Of hn.1 hn.2] at this
  exact Option.some.inj this

theorem u64Of_injective {m n : ℕ} (hm : m < 2 ^ 64) (hn : n < 2 ^ 64) (h : u64Of m = u64Of n) :
    m = n := by
  have := congrArg scValToU64 h
  rw [scValToU64_u64Of hm, scValToU64_u64Of hn] at this
  exact_mod_cast Option.some.inj this

/-- An `i128` from what was read, if that is in range. -/
def i128Reading : Option ℤ → Except Thrown ScVal
  | some n => if InI128 n then .ok (i128Of n) else throwNew "out of range"
  | none => throwNew "expected an integer"

/-- The stand-in, reading integers from text and from numbers, too. -/
def wideStandIn : Sdk ℕ :=
  { standIn with
    nativeToScVal := fun v type => match v, type with
      | .string s, some .i128 => i128Reading (bigInt s)
      | .number x, some .i128 => i128Reading x.toBigInt
      | v, type => standIn.nativeToScVal v type }

theorem i128Reading_error {r : Option ℤ} (h : ∀ n, r = some n → ¬ InI128 n) :
    ∃ e, i128Reading r = .error e := by
  cases r with
  | none => exact ⟨_, rfl⟩
  | some n => exact ⟨_, if_neg (h n rfl)⟩

/-- A library that only encodes other values differently. -/
theorem Sdk.Lawful.with_native {sdk : Sdk Tx} (hl : sdk.Lawful)
    {native : Value ScVal → Option ScValType → Except Thrown ScVal}
    (hi : ∀ n, native (.bigint n) (some .i128) = sdk.nativeToScVal (.bigint n) (some .i128))
    (hu : ∀ x, native (.number x) (some .u64) = sdk.nativeToScVal (.number x) (some .u64)) :
    Sdk.Lawful { sdk with nativeToScVal := native } where
  length_address := hl.length_address
  address_ok := hl.address_ok
  address_error := hl.address_error
  native_valid := hl.native_valid
  usdc_valid := hl.usdc_valid
  i128_ok n h := (hi n).trans (hl.i128_ok n h)
  i128_error n h := by
    obtain ⟨e, he⟩ := hl.i128_error n h
    exact ⟨e, (hi n).trans he⟩
  u64_ok n h := (hu (.fin n)).trans (hl.u64_ok n h)
  u64_error x h := by
    obtain ⟨e, he⟩ := hl.u64_error x h
    exact ⟨e, (hu x).trans he⟩
  sequence_build := hl.sequence_build
  sequence_assemble := hl.sequence_assemble
  fromXDR_toXDR := hl.fromXDR_toXDR

theorem wideStandIn_lawful : wideStandIn.LawfulIntegers where
  toLawful := standIn_lawful.with_native (fun _ => rfl) (fun _ => rfl)
  string_ok s n hn hrange := by
    show i128Reading (bigInt s) = _
    rw [hn]
    exact if_pos hrange
  string_error s h := i128Reading_error h
  number_ok x n hn hrange := by
    show i128Reading x.toBigInt = _
    rw [hn]
    exact if_pos hrange
  number_error x h := i128Reading_error h
  build_args spec args h := by
    obtain ⟨tx, htx⟩ := h
    refine ⟨tx, ?_⟩
    rw [← htx]
    rfl

end StreamFi
