import StreamFi.Stellar

/-!
# Config readers

The factory and the governor module read their configuration from a contract, with the same cache
in front.

* `factoryBody`, `governorBody`: what a read simulates and makes of the answers;
* `factoryReader`, `governorReader`: the two readers, with their guards and times to live.
-/

namespace StreamFi

open Js

/-- What a read does after the answers it has: simulate one more method, or settle. -/
inductive FetchStep (V : Type) where
  | simulate (method : String)
  | done (r : Except Thrown V)

/-- What the two modules do not share: the check before the cache, the body of a read, and the
time to live, in milliseconds. -/
structure ConfigReader (V : Type) where
  guard : Except Thrown Unit
  body : List ScVal → FetchStep V
  ttlMs : Number

/-! ## The factory -/

structure FactoryConfig where
  feeBps : ℕ
  feeRecipient : Option String := none
  deriving DecidableEq

/-- `FACTORY_CONFIG_CACHE_TTL_MS`. -/
def factoryConfigCacheTtlMs : Number := .fin 300000

def factoryBody : List ScVal → FetchStep FactoryConfig
  | [] => .simulate "protocol_fee_bps"
  | feeBpsVal :: rest => match scValToU32 feeBpsVal, rest with
    | .error err, _ => .done (.error err)
    | .ok _, [] => .simulate "fee_recipient"
    | .ok feeBps, .void :: _ => .done (.ok { feeBps := feeBps })
    | .ok feeBps, feeRecipientVal :: _ => .done <|
      (addressFromScVal feeRecipientVal).map fun a => { feeBps := feeBps, feeRecipient := some a }

/-- `FactoryModule.getFactoryConfig`. -/
def factoryReader (ttlMs : Option Number) : ConfigReader FactoryConfig where
  guard := .ok ()
  body := factoryBody
  ttlMs := ttlMs.getD factoryConfigCacheTtlMs

/-! ## The governor -/

structure GovernorConfig where
  feeBps : ℕ
  minDurationSeconds : Number
  maxDurationSeconds : Number
  maxRatePerSecond : ℤ
  feeRecipient : Option String
  factoryAddress : Option String
  votingDelay : Option Number
  votingPeriod : Option Number
  proposalThreshold : Option ℤ
  deriving DecidableEq

/-- `GOVERNOR_CONFIG_CACHE_TTL_MS`. -/
def governorConfigCacheTtlMs : Number := .fin 30000

/-- `val.map() ?? []`. -/
def mapEntries : ScVal → Except Thrown (List (ScVal × ScVal))
  | .map entries => .ok entries
  | .void => .ok []
  | _ => .error (errorOf "TypeError" "map not set")

/-- `e.key().sym()?.toString('utf8') ?? …`. -/
def keyName : ScVal → Except Thrown String
  | .symbol s => .ok s
  | .void => .ok ""
  | _ => .error (errorOf "TypeError" "sym not set")

/-- `Number(scValToU64(val))`. -/
def numberFromU64 (v : ScVal) : Except Thrown Number := (u64OrThrow v).map fun n => Number.ofRat n

def parseGovernorConfig (val : ScVal) : Except Thrown GovernorConfig := do
  let entries ← mapEntries val
  let named ← entries.mapM fun (k, v) => (keyName k).map fun name => (name, v)
  -- an entry set twice keeps the last value
  let m (name : String) := List.lookup name named.reverse
  let feeBps ← (m "fee_bps").mapM scValToU32
  let minDuration ← (m "min_duration_seconds").mapM numberFromU64
  let maxDuration ← (m "max_duration_seconds").mapM numberFromU64
  let maxRate ← (m "max_rate_per_second").mapM i128OrThrow
  let feeRecipient ← (m "fee_recipient").mapM addressFromScVal
  let factoryAddress ← (m "factory_address").mapM addressFromScVal
  let votingDelay ← (m "voting_delay").mapM numberFromU64
  let votingPeriod ← (m "voting_period").mapM numberFromU64
  let proposalThreshold ← (m "proposal_threshold").mapM i128OrThrow
  return {
    feeBps := feeBps.getD 0, minDurationSeconds := minDuration.getD (.fin 0),
    maxDurationSeconds := maxDuration.getD (.fin 0), maxRatePerSecond := maxRate.getD 0,
    feeRecipient := feeRecipient, factoryAddress := factoryAddress, votingDelay := votingDelay,
    votingPeriod := votingPeriod, proposalThreshold := proposalThreshold }

def governorBody : List ScVal → FetchStep GovernorConfig
  | [] => .simulate "config"
  | val :: _ => .done (parseGovernorConfig val)

/-- `GovernorModule.getConfig`. -/
def governorReader (governorAddress : Option String) (network : Network) (ttlMs : Option Number) :
    ConfigReader GovernorConfig where
  guard := match truthyText governorAddress with
    | some _ => .ok ()
    | none => throwNew ("ConduitConfig.governorAddress is required (no default DripGovernor is " ++
        s!"known for network \"{network.text}\").")
  body := governorBody
  ttlMs := ttlMs.getD governorConfigCacheTtlMs

end StreamFi
