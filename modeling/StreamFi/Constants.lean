import StreamFi.Errors

/-!
# Constants and clamps

* `Network`, `networkPassphrase`, `usdcIssuer`, `StreamsConfig`: the known networks;
* `clampListLimit`, `clampOffset`: page arguments;
* **`clampListLimit_range`**: a clamped limit is a natural number from `1` to `maxListLimit`.
-/

namespace StreamFi

open Js

/-! ## Networks -/

inductive Network where
  | mainnet
  | testnet
  | local
  | other (name : String)
  deriving DecidableEq

def Network.text : Network → String
  | .mainnet => "mainnet"
  | .testnet => "testnet"
  | .local => "local"
  | .other name => name

/-- `NETWORK_PASSPHRASE[network]`. -/
def networkPassphrase : Network → Option String
  | .mainnet => some "Public Global Stellar Network ; September 2015"
  | .testnet => some "Test SDF Network ; September 2015"
  | .local => some "Standalone Network ; February 2017"
  | .other _ => none

/-- `USDC_ISSUER[network]`; the `local` entry throws, and there is no other. -/
def usdcIssuer : Network → Except Thrown String
  | .mainnet => .ok "GA5ZSEJYB37JRC5AVCIA5MOP4RHTM335X2KGX3IHOJAPP5RE34K4KZVN"
  | .testnet => .ok "GBBD47IF6LWK7P7MDEVSCWR7DPUWV3NY3DTQEVFL4NAT4AQH3ZLLFLA5"
  | .local => throwNew ("token: 'USDC' is not supported on the 'local' network — no canonical " ++
      "USDC issuer exists on a local Soroban instance. " ++
      "Pass an explicit contract address for your locally-deployed token instead.")
  | .other _ => throwNew "Issuer cannot be null"

/-- What a `StreamsModule` is configured with; `canSign` when there is a wallet, a signer or a
keypair. -/
structure StreamsConfig where
  network : Network
  passphrase : String
  rpcUrl : String
  factoryAddress : Option String
  fee : String := "100"
  confirmationMaxAttempts : Option ℕ := none
  canSign : Bool := true

def testnetConfig : StreamsConfig where
  network := .testnet
  passphrase := "Test SDF Network ; September 2015"
  rpcUrl := "https://rpc"
  factoryAddress := some "CDLZFC3SYJYDZT7K67VZ75HPJVIEUVNIXF47ZG2FB2RMQQVU2HHGCYSC"

/-- `_ensureCanMutate`. -/
def ensureCanMutate (config : StreamsConfig) : Except Thrown Unit :=
  if config.canSign then .ok ()
  else throwNew "keypair, wallet adapter, or signer is required for mutating operations"

/-! ## Limits -/

/-- `MIN_STREAM_DURATION_SECONDS`. -/
def minStreamDurationSeconds : ℕ := 3600

/-- `DEFAULT_LIST_LIMIT`. -/
def defaultListLimit : ℕ := 20

/-- `MAX_LIST_LIMIT`. -/
def maxListLimit : ℕ := 100

/-- A page limit in `[1, maxListLimit]`. -/
def clampListLimit (limit : Number) : Number :=
  if !limit.isFinite then .fin defaultListLimit
  else if limit.trunc.le (.fin 0) then .fin defaultListLimit
  else Number.min limit.trunc (.fin maxListLimit)

/-- A page offset in `[0, 2 ^ 32 - 1]`. -/
def clampOffset (offset : Number) : Number :=
  if !offset.isFinite then .fin 0
  else Number.min (Number.max offset.trunc (.fin 0)) (.fin 0xFFFFFFFF)

theorem clampListLimit_natCast {n : ℕ} (hn : 0 < n) :
    clampListLimit (.fin n) = .fin (n ⊓ maxListLimit : ℕ) := by
  have h : Number.le (.fin n) (.fin 0) = false := by
    rw [Number.le_fin, decide_eq_false_iff_not, not_le]
    exact_mod_cast hn
  rw [clampListLimit, Number.trunc_natCast, h, Number.min_natCast]
  simp [Number.isFinite]

/-- **A clamped limit is between `1` and `maxListLimit`.** -/
theorem clampListLimit_range (limit : Number) :
    ∃ l : ℕ, clampListLimit limit = .fin l ∧ 1 ≤ l ∧ l ≤ maxListLimit := by
  have hdef : ∃ l : ℕ, Number.fin defaultListLimit = .fin l ∧ 1 ≤ l ∧ l ≤ maxListLimit :=
    ⟨defaultListLimit, rfl, by decide, by decide⟩
  cases limit with
  | nan | posInf | negInf => exact hdef
  | fin q =>
    by_cases hle : Number.le (Number.trunc (.fin q)) (.fin 0) = true
    · rw [clampListLimit, if_neg (by simp [Number.isFinite]), if_pos hle]
      exact hdef
    · -- the truncation is a positive integer
      obtain ⟨n, hn⟩ : ∃ n : ℤ, Number.trunc (.fin q) = .fin n := ⟨_, rfl⟩
      rw [hn] at hle
      have hpos : 0 < n := by
        rw [Number.le_fin, decide_eq_true_eq, not_le] at hle
        exact_mod_cast hle
      lift n to ℕ using hpos.le
      refine ⟨n ⊓ maxListLimit, ?_, ?_, Nat.min_le_right _ _⟩
      · rw [clampListLimit, hn, if_neg (by simp [Number.isFinite]), if_neg (by simpa using hle)]
        exact_mod_cast Number.min_natCast n maxListLimit
      · exact Nat.le_min.mpr ⟨by exact_mod_cast hpos, by decide⟩

theorem clampOffset_zero : clampOffset (.fin 0) = .fin 0 := by
  simp [clampOffset, Number.isFinite, Number.trunc, Number.max, Number.min, Number.le]

end StreamFi
