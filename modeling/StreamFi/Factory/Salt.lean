import StreamFi.Amount
import StreamFi.Wire.Der

/-!
# Salts

A stream is deployed with a salt that is its id, padded to 32 bytes.

* `streamIdToSalt`: the code;
* `putBytes_eq`: the bytes that the loop has written;
* **`streamIdToSalt_ofBytes`**: the salt is the id, most significant byte first, and no other id has it.
-/

namespace StreamFi

open Js

/-- `bigint | number`. -/
inductive SaltId where
  | bigint (n : ℤ)
  | number (x : Number)

/-- `BigInt(streamId)`. -/
def SaltId.bigInt : SaltId → Except Thrown ℤ
  | .bigint n => .ok n
  | .number x => bigIntOfNumber x

/-- `Number((id >> (8n * BigInt(i))) & 0xffn)`. -/
def saltByte (id : ℤ) (i : ℕ) : UInt8 := UInt8.ofNat ((id >>> (8 * i)) % 256).toNat

/-- The loop, after `k` of its rounds. -/
def putBytes (id : ℤ) (k : ℕ) : List UInt8 :=
  (List.range k).foldl (fun salt i => salt.set (31 - i) (saltByte id i)) (List.replicate 32 0)

def streamIdToSalt (streamId : SaltId) : Except Thrown (List UInt8) :=
  streamId.bigInt.map fun id => putBytes id 8

theorem saltByte_natCast (id i : ℕ) : saltByte id i = UInt8.ofNat (id / 256 ^ i) := by
  have hpow : (2 : ℤ) ^ (8 * i) = ((256 ^ i : ℕ) : ℤ) := by
    rw [pow_mul]
    norm_num
  have hmod : ((id : ℤ) >>> (8 * i)) % 256 = ((id / 256 ^ i % 256 : ℕ) : ℤ) := by
    rw [Int.shiftRight_eq_div_pow]
    push_cast at hpow ⊢
    rw [hpow]
  rw [saltByte, hmod, Int.toNat_natCast]
  apply UInt8.toNat_inj.mp
  rw [UInt8.toNat_ofNat', UInt8.toNat_ofNat']
  exact Nat.mod_mod _ _

/-- **The bytes that the loop has written** are the last ones, from the end. -/
theorem putBytes_eq (id : ℕ) {k : ℕ} (hk : k ≤ 32) :
    putBytes id k = List.replicate (32 - k) 0 ++ Der.bigEndian k id := by
  induction k with
  | zero => rfl
  | succ k ih =>
    have hzeros : List.replicate (32 - k) (0 : UInt8) = List.replicate (31 - k) 0 ++ [0] := by
      rw [← List.replicate_succ']
      congr 1
      omega
    rw [putBytes, List.range_succ, List.foldl_append, ← putBytes, ih (by omega), hzeros, List.foldl_cons,
      List.foldl_nil, saltByte_natCast, List.append_assoc, List.set_append_right _ _ (by simp),
      List.length_replicate, Nat.sub_self, List.singleton_append, List.set_cons_zero, Der.bigEndian,
      show 32 - (k + 1) = 31 - k by omega]

/-- **The salt is the id**, most significant byte first, and of no other id. -/
theorem streamIdToSalt_ofBytes (streamId : SaltId) (id : ℕ) (hid : streamId.bigInt = .ok id) (h : id < 2 ^ 64) :
    ∃ salt, streamIdToSalt streamId = .ok salt ∧ salt.length = 32 ∧ Der.ofBytes salt = id ∧
      ∀ (other : SaltId) (id' : ℕ), other.bigInt = .ok id' → id' < 2 ^ 64 →
        streamIdToSalt other = .ok salt → id' = id := by
  have hsalt {a : SaltId} {n : ℕ} (ha : a.bigInt = .ok n) (hn : n < 2 ^ 64) :
      streamIdToSalt a = .ok (Der.bigEndian 32 n) := by
    have hwidth : n < 256 ^ 8 := hn.trans_eq (by norm_num)
    rw [streamIdToSalt, ha, Except.map, putBytes_eq n (by decide), Der.bigEndian_add hwidth 24]
  have hread {n : ℕ} (hn : n < 2 ^ 64) : Der.ofBytes (Der.bigEndian 32 n) = n := by
    rw [Der.ofBytes_bigEndian]
    exact Nat.mod_eq_of_lt (hn.trans (by norm_num))
  refine ⟨_, hsalt hid h, Der.length_bigEndian _ _, hread h, ?_⟩
  intro other id' hother h' hsame
  rw [hsalt hother h'] at hsame
  have hbytes := Except.ok.inj hsame
  rw [← hread h', hbytes, hread h]

/-- The largest id. -/
theorem streamIdToSalt_largest : ∃ salt, streamIdToSalt (.bigint (2 ^ 64 - 1)) = .ok salt ∧ salt.length = 32 ∧
    Der.ofBytes salt = 2 ^ 64 - 1 ∧ ∀ (other : SaltId) (id' : ℕ), other.bigInt = .ok id' → id' < 2 ^ 64 →
      streamIdToSalt other = .ok salt → id' = 2 ^ 64 - 1 :=
  streamIdToSalt_ofBytes (.bigint (2 ^ 64 - 1)) (2 ^ 64 - 1) rfl (by norm_num)

end StreamFi
