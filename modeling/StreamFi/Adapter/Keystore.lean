import StreamFi.Js.Encoding
import StreamFi.Js.Stringify
import StreamFi.Run.Pool
import StreamFi.Run.Table

/-!
# Keystores

`encryptKeystore` seals the seed of a keypair under a passphrase, with the account's address as additional data,
and `decryptKeystore` opens what it is given. `KeypairWalletAdapter` exports its key and can be destroyed.

* `Keypair`, `WebCrypto`: what Stellar's library and the browser do;
* `encryptKeystore`, `decryptKeystore`: the code;
* **`decryptKeystore_iff`**: exactly what was sealed is opened, however it is written down;
* `KeypairAdapter.step`, **`exports_run`**: an adapter that exports its key, and may be destroyed meanwhile.
-/

namespace StreamFi

open Js Run

/-! ## What is given -/

/-- A `Keypair`; `address` is the `G...` address of a seed. -/
structure Keypair (address : List UInt8 → String) where
  publicKey : String
  seed : Option (List UInt8)
  sound : ∀ s ∈ seed, s.length = 32 ∧ publicKey = address s

/-- `Keypair.fromRawEd25519Seed(seed)` -/
def Keypair.fromRawEd25519Seed {address : List UInt8 → String} (seed : List UInt8) :
    Except Thrown (Keypair address) :=
  if h : seed.length = 32 then .ok ⟨address seed, some seed, by simpa using h⟩
  else throwNew "secretKey length is invalid"

/-- What is used of `crypto.subtle`: `deriveKey` takes the bytes of a passphrase, a salt and the iterations, and
the ciphers take a key, an initialisation vector, additional data and the text. -/
structure WebCrypto (Key : Type) where
  deriveKey : List UInt8 → List UInt8 → Number → Except Thrown Key
  encrypt : Key → List UInt8 → List UInt8 → List UInt8 → Except Thrown (List UInt8)
  decrypt : Key → List UInt8 → List UInt8 → List UInt8 → Except Thrown (List UInt8)

/-- **Authenticated encryption**: what is opened is what was sealed, with the same key, vector and data. -/
def WebCrypto.Authentic {Key : Type} (crypto : WebCrypto Key) : Prop :=
  ∀ key iv data plain sealed, crypto.decrypt key iv data sealed = .ok plain ↔
    crypto.encrypt key iv data plain = .ok sealed

/-- `new TextEncoder().encode(s)` -/
def textEncode (s : String) : List UInt8 := s.toUTF8.data.toList

/-! ## The code -/

/-- A `Keystore` that has the right form. -/
structure Keystore where
  publicKey : String
  iterations : Number
  salt : String
  iv : String
  ciphertext : String
  deriving DecidableEq

/-- `DEFAULT_KEYSTORE_ITERATIONS` -/
def defaultKeystoreIterations : Number := .fin 600000

/-- `toBase64(bytes)`, as text. -/
def base64Text (bytes : List UInt8) : String := String.ofList (toBase64 bytes)

/-- The object that `encryptKeystore` returns. -/
def Keystore.json (ks : Keystore) : Json :=
  .object [("version", .number (.fin 1)), ("publicKey", .string ks.publicKey), ("kdf", .string "pbkdf2-sha256"),
    ("kdfparams", .object [("iterations", .number ks.iterations), ("salt", .string ks.salt)]),
    ("cipher", .string "aes-256-gcm"), ("cipherparams", .object [("iv", .string ks.iv)]),
    ("ciphertext", .string ks.ciphertext)]

/-- `Number.isInteger(iterations) && iterations >= 1` -/
def isCount (iterations : Number) : Bool := iterations.isInteger && (Number.fin 1).le iterations

section Code

variable {Key : Type} (crypto : WebCrypto Key) {address : List UInt8 → String}

def assertPassphrase (passphrase : String) : Except Thrown Unit :=
  if passphrase = "" then throwNew "A non-empty passphrase is required" else .ok ()

/-- `encryptKeystore` up to `deriveKey`: the seed and the iterations. -/
def checkExport (keypair : Keypair address) (passphrase : String) (iterations : Option Number) :
    Except Thrown (List UInt8 × Number) := do
  assertPassphrase passphrase
  let iterations := iterations.getD defaultKeystoreIterations
  match keypair.seed with
  | none => throwNew "Cannot export a keystore: this Keypair has no secret key (public-key only)"
  | some seed =>
    if isCount iterations then return (seed, iterations) else throwNew "iterations must be a positive integer"

/-- What `encryptKeystore` returns. -/
def sealedKeystore (publicKey : String) (iterations : Number) (salt iv sealed : List UInt8) : Keystore where
  publicKey := publicKey
  iterations := iterations
  salt := base64Text salt
  iv := base64Text iv
  ciphertext := base64Text sealed

/-- `salt` and `iv` are the random bytes. -/
def encryptKeystore (keypair : Keypair address) (passphrase : String) (iterations : Option Number)
    (salt iv : List UInt8) : Except Thrown Keystore := do
  let (seed, iterations) ← checkExport keypair passphrase iterations
  let key ← crypto.deriveKey (textEncode passphrase) salt iterations
  let sealed ← crypto.encrypt key iv (textEncode keypair.publicKey) seed
  return sealedKeystore keypair.publicKey iterations salt iv sealed

/-- A string, and a number, at a property. -/
def textAt (name : String) (j : Json) : Option String :=
  match j.field name with
  | some (.string s) => some s
  | _ => none

def numberAt (name : String) (j : Json) : Option Number :=
  match j.field name with
  | some (.number x) => some x
  | _ => none

/-- The checks on a keystore that was read. -/
def readKeystore (j : Json) : Option Keystore := do
  guard (numberAt "version" j = some (.fin 1) ∧ textAt "kdf" j = some "pbkdf2-sha256" ∧
    textAt "cipher" j = some "aes-256-gcm")
  let publicKey ← textAt "publicKey" j
  let ciphertext ← textAt "ciphertext" j
  let kdfparams ← j.field "kdfparams"
  let cipherparams ← j.field "cipherparams"
  let salt ← textAt "salt" kdfparams
  let iv ← textAt "iv" cipherparams
  let iterations ← numberAt "iterations" kdfparams
  guard (isCount iterations)
  return { publicKey := publicKey, iterations := iterations, salt := salt, iv := iv, ciphertext := ciphertext }

/-- The `try` of `decryptKeystore`. -/
def openKeystore (ks : Keystore) (passphrase : String) : Option (List UInt8) := do
  let salt ← atob ks.salt.toList
  let key ← (crypto.deriveKey (textEncode passphrase) salt ks.iterations).toOption
  let iv ← atob ks.iv.toList
  let sealed ← atob ks.ciphertext.toList
  (crypto.decrypt key iv (textEncode ks.publicKey) sealed).toOption

/-- A keystore is given as a text or as an object. -/
def keystoreJson : List Char ⊕ Json → Option Json
  | .inl text => Json.parse text
  | .inr j => some j

def decryptKeystore (keystore : List Char ⊕ Json) (passphrase : String) : Except Thrown (Keypair address) := do
  assertPassphrase passphrase
  match keystoreJson keystore with
  | none => throwNew "Invalid keystore: not valid JSON"
  | some j =>
    match readKeystore j with
    | none => throwNew "Invalid or unsupported keystore"
    | some ks =>
      match openKeystore crypto ks passphrase with
      | none => throwNew "Failed to decrypt keystore: wrong passphrase or corrupted keystore"
      | some seed =>
        let keypair ← Keypair.fromRawEd25519Seed seed
        if keypair.publicKey = ks.publicKey then return keypair
        else throwNew "Keystore public key does not match the decrypted secret key"

end Code

/-! ## What each of them does -/

section Steps

variable {Key : Type} {crypto : WebCrypto Key} {address : List UInt8 → String} {keypair : Keypair address}
  {passphrase : String} {seed : List UInt8}

theorem fromRawEd25519Seed_iff : Keypair.fromRawEd25519Seed seed = .ok keypair ↔ keypair.seed = some seed := by
  unfold Keypair.fromRawEd25519Seed
  constructor
  · intro h
    split_ifs at h with hlen
    · cases h
      rfl
    · exact absurd h (throwNew_ne_ok _ _)
  · intro h
    obtain ⟨hlen, hkey⟩ := keypair.sound seed h
    obtain ⟨publicKey, seed', hsound⟩ := keypair
    cases h
    cases hkey
    rw [dif_pos hlen]

@[simp] theorem assertPassphrase_iff {u : Unit} : assertPassphrase passphrase = .ok u ↔ passphrase ≠ "" := by
  unfold assertPassphrase
  split_ifs with h <;> simp [h]

theorem checkExport_iff {iterations : Option Number} {count : Number} :
    checkExport keypair passphrase iterations = .ok (seed, count) ↔
      passphrase ≠ "" ∧ keypair.seed = some seed ∧ iterations.getD defaultKeystoreIterations = count ∧
        isCount count = true := by
  unfold checkExport
  simp only [bind_eq_ok, assertPassphrase_iff, exists_const]
  refine and_congr_right fun _ => ?_
  cases keypair.seed with
  | none => simp
  | some seed' =>
    dsimp only
    split_ifs with hcount
    · simp only [pure, Except.pure, Except.ok.injEq, Prod.mk.injEq, Option.some.injEq]
      constructor
      · rintro ⟨rfl, rfl⟩
        exact ⟨rfl, rfl, hcount⟩
      · rintro ⟨rfl, rfl, -⟩
        exact ⟨rfl, rfl⟩
    · simp only [throwNew_ne_ok, false_iff, not_and]
      rintro - rfl
      exact hcount

/-- What `encryptKeystore` returns, and when. -/
theorem encryptKeystore_iff {iterations : Option Number} {salt iv : List UInt8} {ks : Keystore} :
    encryptKeystore crypto keypair passphrase iterations salt iv = .ok ks ↔
      ∃ seed count key sealed, checkExport keypair passphrase iterations = .ok (seed, count) ∧
        crypto.deriveKey (textEncode passphrase) salt count = .ok key ∧
        crypto.encrypt key iv (textEncode keypair.publicKey) seed = .ok sealed ∧
        sealedKeystore keypair.publicKey count salt iv sealed = ks := by
  unfold encryptKeystore
  simp only [bind_eq_ok, Prod.exists, pure, Except.pure, Except.ok.injEq]
  constructor
  · rintro ⟨seed, count, hcheck, key, hkey, sealed, hsealed, rfl⟩
    exact ⟨seed, count, key, sealed, hcheck, hkey, hsealed, rfl⟩
  · rintro ⟨seed, count, key, sealed, hcheck, hkey, hsealed, rfl⟩
    exact ⟨seed, count, hcheck, key, hkey, sealed, hsealed, rfl⟩

/-- What `decryptKeystore` returns, and when. -/
theorem decryptKeystore_eq_ok {keystore : List Char ⊕ Json} :
    decryptKeystore crypto keystore passphrase = .ok keypair ↔
      passphrase ≠ "" ∧ ∃ j ks seed, keystoreJson keystore = some j ∧ readKeystore j = some ks ∧
        openKeystore crypto ks passphrase = some seed ∧ keypair.seed = some seed ∧
        keypair.publicKey = ks.publicKey := by
  unfold decryptKeystore
  simp only [bind_eq_ok, assertPassphrase_iff, exists_const]
  refine and_congr_right fun _ => ?_
  cases keystoreJson keystore with
  | none => simp
  | some j =>
    cases hread : readKeystore j with
    | none => simp [hread]
    | some ks =>
      cases hopen : openKeystore crypto ks passphrase with
      | none => simp [hread, hopen]
      | some seed =>
        simp only [hread, hopen, bind_eq_ok, fromRawEd25519Seed_iff]
        constructor
        · rintro ⟨keypair', hseed, h⟩
          split_ifs at h with hkey
          · cases h
            exact ⟨j, ks, seed, rfl, hread, hopen, hseed, hkey⟩
          · exact absurd h (throwNew_ne_ok _ _)
        · rintro ⟨_, _, _, ⟨⟩, hread', hopen', hseed, hkey⟩
          cases hread.symm.trans hread'
          cases hopen.symm.trans hopen'
          exact ⟨keypair, hseed, if_pos hkey⟩

theorem toOption_eq_some {ε α : Type} {x : Except ε α} {a : α} : x.toOption = some a ↔ x = .ok a := by
  cases x <;> simp [Except.toOption]

/-- What `openKeystore` finds. -/
theorem openKeystore_iff {ks : Keystore} : openKeystore crypto ks passphrase = some seed ↔
    ∃ salt key iv sealed, atob ks.salt.toList = some salt ∧ atob ks.iv.toList = some iv ∧
      atob ks.ciphertext.toList = some sealed ∧
      crypto.deriveKey (textEncode passphrase) salt ks.iterations = .ok key ∧
      crypto.decrypt key iv (textEncode ks.publicKey) sealed = .ok seed := by
  simp only [openKeystore, Option.bind_eq_bind, Option.bind_eq_some_iff, toOption_eq_some]
  constructor
  · rintro ⟨salt, hsalt, key, hkey, iv, hiv, sealed, hsealed, h⟩
    exact ⟨salt, key, iv, sealed, hsalt, hiv, hsealed, hkey, h⟩
  · rintro ⟨salt, key, iv, sealed, hsalt, hiv, hsealed, hkey, h⟩
    exact ⟨salt, hsalt, key, hkey, iv, hiv, sealed, hsealed, h⟩

/-- The iterations of a keystore that passed the checks. -/
theorem isCount_of_read {j : Json} {ks : Keystore} (h : readKeystore j = some ks) : isCount ks.iterations = true := by
  simp only [readKeystore, Option.bind_eq_bind, Option.bind_eq_some_iff] at h
  obtain ⟨-, -, _, -, _, -, _, -, _, -, _, -, _, -, iterations, -, _, hguard, heq⟩ := h
  cases heq
  by_contra hcount
  simp [guard, hcount] at hguard

end Steps

/-! ## What is opened -/

section Opened

variable {Key : Type} {crypto : WebCrypto Key} {address : List UInt8 → String} {keypair : Keypair address}
  {passphrase : String}

/-- Two keystores that say the same, however their bytes are written down. -/
def Keystore.Spells (ks ks' : Keystore) : Prop :=
  ks.publicKey = ks'.publicKey ∧ ks.iterations = ks'.iterations ∧ atob ks.salt.toList = atob ks'.salt.toList ∧
    atob ks.iv.toList = atob ks'.iv.toList ∧ atob ks.ciphertext.toList = atob ks'.ciphertext.toList

theorem atob_base64Text (bytes : List UInt8) : atob (base64Text bytes).toList = some bytes := by
  rw [base64Text, String.toList_ofList, atob_toBase64]

theorem encrypt_of_decrypt (hauthentic : crypto.Authentic) {keystore : List Char ⊕ Json}
    (h : decryptKeystore crypto keystore passphrase = .ok keypair) :
    ∃ j ks ks' salt iv, keystoreJson keystore = some j ∧ readKeystore j = some ks ∧
      encryptKeystore crypto keypair passphrase (some ks.iterations) salt iv = .ok ks' ∧ ks.Spells ks' := by
  obtain ⟨hpass, j, ks, seed, hj, hread, hopened, hseed, hpublic⟩ := decryptKeystore_eq_ok.mp h
  obtain ⟨salt, key, iv, sealed, hsalt, hiv, hsealed, hkey, hopen⟩ := openKeystore_iff.mp hopened
  rw [← hpublic, hauthentic] at hopen
  have hcheck : checkExport keypair passphrase (some ks.iterations) = .ok (seed, ks.iterations) :=
    checkExport_iff.mpr ⟨hpass, hseed, rfl, isCount_of_read hread⟩
  refine ⟨j, ks, _, salt, iv, hj, hread,
    encryptKeystore_iff.mpr ⟨seed, ks.iterations, key, sealed, hcheck, hkey, hopen, rfl⟩, hpublic.symm, rfl, ?_⟩
  simp [sealedKeystore, atob_base64Text, hsalt, hiv, hsealed]

theorem decrypt_of_encrypt (hauthentic : crypto.Authentic) {keystore : List Char ⊕ Json} {j : Json}
    {ks ks' : Keystore} {salt iv : List UInt8} (hj : keystoreJson keystore = some j) (hread : readKeystore j = some ks)
    (h : encryptKeystore crypto keypair passphrase (some ks.iterations) salt iv = .ok ks') (hspells : ks.Spells ks') :
    decryptKeystore crypto keystore passphrase = .ok keypair := by
  obtain ⟨seed, count, key, sealed, hcheck, hkey, hopen, rfl⟩ := encryptKeystore_iff.mp h
  obtain ⟨hpass, hseed, rfl, -⟩ := checkExport_iff.mp hcheck
  obtain ⟨hpublic, -, hsalt, hiv, hsealed⟩ := hspells
  simp only [sealedKeystore, atob_base64Text] at hpublic hsalt hiv hsealed
  rw [← hauthentic, ← hpublic] at hopen
  have hopened := openKeystore_iff.mpr ⟨salt, key, iv, sealed, hsalt, hiv, hsealed, hkey, hopen⟩
  exact decryptKeystore_eq_ok.mpr ⟨hpass, j, ks, seed, hj, hread, hopened, hseed, hpublic.symm⟩

/-- **What is opened is what was sealed.** With authenticated encryption a keystore gives a keypair under a passphrase
exactly if it says what the export of this keypair under this passphrase says, for some salt and some vector. -/
theorem decryptKeystore_iff (hauthentic : crypto.Authentic) (keystore : List Char ⊕ Json) :
    decryptKeystore crypto keystore passphrase = .ok keypair ↔
      ∃ j ks ks' salt iv, keystoreJson keystore = some j ∧ readKeystore j = some ks ∧
        encryptKeystore crypto keypair passphrase (some ks.iterations) salt iv = .ok ks' ∧ ks.Spells ks' := by
  constructor
  · exact encrypt_of_decrypt hauthentic
  · rintro ⟨j, ks, ks', salt, iv, hj, hread, h, hspells⟩
    exact decrypt_of_encrypt hauthentic hj hread h hspells

/-! One seed and what it is sealed to, with a passphrase, a salt, a vector and 1000 iterations. -/

def someSeed : List UInt8 := (List.range 32).map fun i => UInt8.ofNat (i + 1)
def someSalt : List UInt8 := (List.range 16).map UInt8.ofNat
def someVector : List UInt8 := (List.range 12).map fun i => UInt8.ofNat (i + 100)

def someKey : List UInt8 :=
  [65, 200, 146, 39, 120, 20, 151, 188, 181, 161, 108, 125, 94, 233, 11, 137, 155, 243, 213, 166, 91, 186, 21, 138,
    5, 162, 68, 158, 76, 52, 118, 142]

def someSealed : List UInt8 :=
  [190, 213, 124, 96, 17, 61, 254, 97, 157, 199, 136, 72, 161, 43, 188, 164, 95, 97, 204, 25, 238, 101, 211, 63,
    165, 169, 131, 69, 171, 141, 77, 49, 122, 98, 113, 107, 160, 71, 17, 45, 220, 239, 226, 220, 72, 212, 66, 94]

def someAddress (seed : List UInt8) : String :=
  if seed = someSeed then "GB43KVROR7TFJ6KAPCYRF2FJROTZAH4FHLTJLPWX4DRZCC5NASLGITR6" else ""

def somePair : Keypair someAddress := ⟨someAddress someSeed, some someSeed, by decide⟩

/-- It seals nothing else. -/
def someCrypto : WebCrypto (List UInt8) where
  deriveKey passphrase salt iterations :=
    if passphrase = textEncode "pass" ∧ salt = someSalt ∧ iterations = .fin 1000 then .ok someKey
    else throwNew "deriveKey"
  encrypt key iv data plain :=
    if key = someKey ∧ iv = someVector ∧ data = textEncode (someAddress someSeed) ∧ plain = someSeed then
      .ok someSealed
    else throwNew "encrypt"
  decrypt key iv data sealed :=
    if key = someKey ∧ iv = someVector ∧ data = textEncode (someAddress someSeed) ∧ sealed = someSealed then
      .ok someSeed
    else throwNew "decrypt"

theorem authentic_someCrypto : someCrypto.Authentic := by
  intro key iv data plain sealed
  simp only [someCrypto]
  split_ifs with hopen hseal hseal
  · simp [hopen, hseal]
  · simp only [Except.ok.injEq, throwNew_ne_ok, iff_false]
    rintro rfl
    exact hseal ⟨hopen.1, hopen.2.1, hopen.2.2.1, rfl⟩
  · simp only [Except.ok.injEq, throwNew_ne_ok, false_iff]
    rintro rfl
    exact hopen ⟨hseal.1, hseal.2.1, hseal.2.2.1, rfl⟩
  · simp

def someKeystore : Keystore := sealedKeystore somePair.publicKey (.fin 1000) someSalt someVector someSealed

theorem decryptKeystore_iff_some :
    decryptKeystore someCrypto (.inr someKeystore.json) "pass" = .ok somePair ∧
      ∃ j ks ks' salt iv, keystoreJson (.inr someKeystore.json) = some j ∧ readKeystore j = some ks ∧
        encryptKeystore someCrypto somePair "pass" (some ks.iterations) salt iv = .ok ks' ∧ ks.Spells ks' :=
  ⟨rfl, (decryptKeystore_iff authentic_someCrypto (.inr someKeystore.json)).mp rfl⟩

theorem proper_json {ks : Keystore} (hdouble : Number.IsDouble ks.iterations) : ks.json.Proper := by
  have hone : Number.IsDouble (.fin 1) := by simpa using Number.isDouble_intCast (n := 1) (by norm_num)
  refine ⟨by simp, ?_, hone, trivial, trivial, ⟨by simp, ?_, hdouble, trivial, trivial⟩, trivial,
    ⟨by simp, List.pairwise_singleton _ _, trivial, trivial⟩, trivial, trivial⟩
  · show ["version", "publicKey", "kdf", "kdfparams", "cipher", "cipherparams", "ciphertext"].Pairwise _
    decide
  · show ["iterations", "salt"].Pairwise _
    decide

/-- The checks find what was written. -/
theorem readKeystore_json {ks : Keystore} (hcount : isCount ks.iterations = true) :
    readKeystore ks.json = some ks := by
  simp [readKeystore, Keystore.json, textAt, numberAt, Json.field, guard, hcount]

/-- A count is a finite number, and written as it is. -/
theorem json_written {ks : Keystore} (hcount : isCount ks.iterations = true) : ks.json.written = ks.json := by
  cases hiterations : ks.iterations with
  | fin q => simp [Keystore.json, Json.written, Json.writtenFields, Number.isFinite, hiterations]
  | nan | posInf | negInf => simp [isCount, Number.isInteger, hiterations] at hcount

theorem isDouble_default : Number.IsDouble defaultKeystoreIterations := by
  simpa [defaultKeystoreIterations] using Number.isDouble_intCast (n := 600000) (by norm_num)

/-- A keystore is opened again, from the text that was written of it. -/
theorem decryptKeystore_stringify (hauthentic : crypto.Authentic) {count : Number} (hdouble : count.IsDouble)
    {salt iv : List UInt8} {ks : Keystore}
    (h : encryptKeystore crypto keypair passphrase (some count) salt iv = .ok ks) :
    decryptKeystore crypto (.inl ks.json.stringify) passphrase = .ok keypair := by
  obtain ⟨seed, _, key, sealed, hcheck, -, -, rfl⟩ := encryptKeystore_iff.mp h
  obtain ⟨-, -, hdefault, hcount⟩ := checkExport_iff.mp hcheck
  rw [Option.getD_some] at hdefault
  subst hdefault
  have hread : readKeystore (sealedKeystore keypair.publicKey count salt iv sealed).json = some _ :=
    readKeystore_json hcount
  refine decrypt_of_encrypt hauthentic ?_ hread h ⟨rfl, rfl, rfl, rfl, rfl⟩
  rw [keystoreJson, Json.parse_stringify (proper_json hdouble), json_written hcount]

end Opened

/-! ## An adapter that can be destroyed -/

/-- How far an export is. It reads the seed when it has its key, and a destroyed keypair has none any more. -/
inductive ExportPhase (Key : Type) where
  | keying (count : Number)
  | sealing (count : Number) (key : Key) (plain : Option (List UInt8))
  | ended (r : Except Thrown Keystore)

structure Export (Key : Type) where
  passphrase : String
  salt : List UInt8
  iv : List UInt8
  phase : ExportPhase Key

/-- A `KeypairWalletAdapter`, and its exports. -/
structure KeypairAdapter (Key : Type) (address : List UInt8 → String) where
  keypair : Option (Keypair address)
  publicKey : String
  exports : List (Export Key) := []

/-- `unsealed` is what `encrypt` throws where there is no seed. -/
inductive KeypairEvent where
  | exportKeystore (passphrase : String) (iterations : Option Double) (salt iv : List UInt8)
  | derived (i : ℕ)
  | encrypted (i : ℕ) (unsealed : Thrown)
  | zeroize

namespace KeypairAdapter

variable {Key : Type} (crypto : WebCrypto Key) {address : List UInt8 → String}

/-- `new KeypairWalletAdapter(keypair)` -/
def start (keypair : Keypair address) : KeypairAdapter Key address where
  keypair := some keypair
  publicKey := keypair.publicKey

/-- `exportKeystore`, up to its first `await`. -/
def beginExport (s : KeypairAdapter Key address) (passphrase : String) (iterations : Option Double) :
    ExportPhase Key :=
  match s.keypair with
  | none => .ended (throwNew "KeypairWalletAdapter has been destroyed; its secret key is no longer available.")
  | some keypair =>
    match checkExport keypair passphrase (iterations.map Double.val) with
    | .error err => .ended (.error err)
    | .ok (_, count) => .keying count

/-- `deriveKey` is done. -/
def afterDerive (s : KeypairAdapter Key address) (e : Export Key) : Option (ExportPhase Key) :=
  match e.phase with
  | .keying count =>
    match crypto.deriveKey (textEncode e.passphrase) e.salt count with
    | .error err => some (.ended (.error err))
    | .ok key => some (.sealing count key (s.keypair.bind Keypair.seed))
  | _ => none

/-- `encrypt` is done. -/
def afterEncrypt (s : KeypairAdapter Key address) (e : Export Key) (unsealed : Thrown) : Option (ExportPhase Key) :=
  match e.phase with
  | .sealing _ _ none => some (.ended (.error unsealed))
  | .sealing count key (some plain) =>
    match crypto.encrypt key e.iv (textEncode s.publicKey) plain with
    | .error err => some (.ended (.error err))
    | .ok sealed => some (.ended (.ok (sealedKeystore s.publicKey count e.salt e.iv sealed)))
  | _ => none

def put (s : KeypairAdapter Key address) (i : ℕ) (e : Export Key) (phase : ExportPhase Key) :
    KeypairAdapter Key address :=
  { s with exports := s.exports.set i { e with phase := phase } }

def step (s : KeypairAdapter Key address) : KeypairEvent → Option (KeypairAdapter Key address)
  | .exportKeystore passphrase iterations salt iv =>
    some { s with exports := s.exports ++ [⟨passphrase, salt, iv, s.beginExport passphrase iterations⟩] }
  | .derived i => do
    let e ← s.exports[i]?
    return s.put i e (← s.afterDerive crypto e)
  | .encrypted i unsealed => do
    let e ← s.exports[i]?
    return s.put i e (← s.afterEncrypt crypto e unsealed)
  | .zeroize => some { s with keypair := none }

/-! What an export does. -/

variable {crypto} {keypair : Keypair address} {s s' : KeypairAdapter Key address}

/-- A count that passed the check. -/
def Counts (keypair : Keypair address) (passphrase : String) (count : Number) : Prop :=
  count.IsDouble ∧ ∃ seed, checkExport keypair passphrase (some count) = .ok (seed, count)

/-- What holds of an export of a keypair, however far it is. -/
def Exports (crypto : WebCrypto Key) (keypair : Keypair address) (e : Export Key) : Prop :=
  match e.phase with
  | .keying count => Counts keypair e.passphrase count
  | .sealing count key plain => Counts keypair e.passphrase count ∧
      crypto.deriveKey (textEncode e.passphrase) e.salt count = .ok key ∧ ∀ seed ∈ plain, keypair.seed = some seed
  | .ended (.ok ks) => ∃ count : Number, count.IsDouble ∧
      encryptKeystore crypto keypair e.passphrase (some count) e.salt e.iv = .ok ks
  | .ended (.error _) => True

/-- What holds of an adapter. -/
structure Kept (crypto : WebCrypto Key) (keypair : Keypair address) (s : KeypairAdapter Key address) : Prop where
  same : ∀ k ∈ s.keypair, k = keypair
  publicKey : s.publicKey = keypair.publicKey
  exports : ∀ e ∈ s.exports, Exports crypto keypair e

theorem Counts.of_check {passphrase : String} {iterations : Option Double} {seed : List UInt8} {count : Number}
    (h : checkExport keypair passphrase (iterations.map Double.val) = .ok (seed, count)) :
    Counts keypair passphrase count := by
  obtain ⟨hpass, hseed, hdefault, hcount⟩ := checkExport_iff.mp h
  refine ⟨?_, seed, checkExport_iff.mpr ⟨hpass, hseed, rfl, hcount⟩⟩
  cases iterations with
  | none => exact hdefault ▸ isDouble_default
  | some count' => exact hdefault ▸ count'.isDouble

theorem Kept.begin (h : Kept crypto keypair s) (passphrase : String) (iterations : Option Double)
    (salt iv : List UInt8) : Exports crypto keypair ⟨passphrase, salt, iv, s.beginExport passphrase iterations⟩ := by
  unfold Exports beginExport
  cases hkeypair : s.keypair with
  | none => trivial
  | some k =>
    cases h.same k hkeypair
    cases hcheck : checkExport keypair passphrase (iterations.map Double.val) with
    | error err => simp only [hcheck]
    | ok r =>
      simp only [hcheck]
      exact Counts.of_check hcheck

theorem Kept.derive (h : Kept crypto keypair s) {e : Export Key} {phase : ExportPhase Key}
    (he : Exports crypto keypair e) (hphase : s.afterDerive crypto e = some phase) :
    Exports crypto keypair { e with phase := phase } := by
  unfold afterDerive at hphase
  cases hp : e.phase with
  | keying count =>
    simp only [Exports, hp] at he hphase
    cases hkey : crypto.deriveKey (textEncode e.passphrase) e.salt count with
    | error err =>
      simp only [hkey, Option.some.injEq] at hphase
      cases hphase
      trivial
    | ok key =>
      simp only [hkey, Option.some.injEq] at hphase
      cases hphase
      refine ⟨he, hkey, fun seed hseed => ?_⟩
      obtain ⟨k, hk, hkseed⟩ := Option.bind_eq_some_iff.mp hseed
      rw [← h.same k hk]
      exact hkseed
  | sealing | ended => simp [hp] at hphase

theorem Kept.encrypt (h : Kept crypto keypair s) {e : Export Key} {phase : ExportPhase Key} {unsealed : Thrown}
    (he : Exports crypto keypair e) (hphase : s.afterEncrypt crypto e unsealed = some phase) :
    Exports crypto keypair { e with phase := phase } := by
  unfold afterEncrypt at hphase
  cases hp : e.phase with
  | sealing count key plain =>
    simp only [Exports, hp] at he hphase
    cases plain with
    | none =>
      cases hphase
      trivial
    | some plain =>
      obtain ⟨⟨hdouble, seed, hcheck⟩, hkey, hplain⟩ := he
      dsimp only at hphase
      cases hsealed : crypto.encrypt key e.iv (textEncode s.publicKey) plain with
      | error err =>
        simp only [hsealed, Option.some.injEq] at hphase
        cases hphase
        trivial
      | ok sealed =>
        simp only [hsealed, Option.some.injEq] at hphase
        cases hphase
        rw [h.publicKey] at hsealed ⊢
        have hseed := (checkExport_iff.mp hcheck).2.1
        cases hseed.symm.trans (hplain plain rfl)
        exact ⟨count, hdouble, encryptKeystore_iff.mpr ⟨plain, count, key, sealed, hcheck, hkey, hsealed, rfl⟩⟩
  | keying | ended => simp [hp] at hphase

theorem Kept.put (h : Kept crypto keypair s) {i : ℕ} {e : Export Key} {phase : ExportPhase Key}
    (he : Exports crypto keypair { e with phase := phase }) : Kept crypto keypair (s.put i e phase) where
  same := h.same
  publicKey := h.publicKey
  exports e' he' := (List.mem_or_eq_of_mem_set he').elim (h.exports e') fun heq => heq ▸ he

theorem Kept.step {e : KeypairEvent} (h : Kept crypto keypair s) (hs : s.step crypto e = some s') :
    Kept crypto keypair s' := by
  cases e with
  | exportKeystore passphrase iterations salt iv =>
    cases hs
    refine ⟨h.same, h.publicKey, fun e he => ?_⟩
    rcases List.mem_append.mp he with he | he
    · exact h.exports e he
    · rw [List.mem_singleton.mp he]
      exact h.begin passphrase iterations salt iv
  | derived i =>
    simp only [KeypairAdapter.step, Option.bind_eq_bind, Option.bind_eq_some_iff, Option.pure_def,
      Option.some.injEq] at hs
    obtain ⟨e, he, phase, hphase, rfl⟩ := hs
    exact h.put (h.derive (h.exports e (List.mem_of_getElem? he)) hphase)
  | encrypted i unsealed =>
    simp only [KeypairAdapter.step, Option.bind_eq_bind, Option.bind_eq_some_iff, Option.pure_def,
      Option.some.injEq] at hs
    obtain ⟨e, he, phase, hphase, rfl⟩ := hs
    exact h.put (h.encrypt (h.exports e (List.mem_of_getElem? he)) hphase)
  | zeroize =>
    cases hs
    exact ⟨nofun, h.publicKey, h.exports⟩

theorem kept_start : Kept crypto keypair (start keypair) :=
  ⟨fun _ hk => (Option.some.inj hk).symm, rfl, nofun⟩

theorem run_kept {log : List KeypairEvent} (h : run (step crypto) (start keypair) log = some s) :
    Kept crypto keypair s :=
  run_induction (P := fun s _ => Kept crypto keypair s) kept_start (fun _ _ _ _ hk he => hk.step he) h

/-- An export that has not read the seed, and was not refused. -/
def Unsealed (e : Export Key) : Prop :=
  match e.phase with
  | .sealing _ _ plain => plain = none
  | .ended r => ∀ ks, r ≠ .ok ks
  | .keying _ => True

/-- A destroyed adapter gives its seed to no export. -/
theorem sealed_step {e : KeypairEvent} (hgone : s.keypair = none) (hs : s.step crypto e = some s') {i : ℕ}
    {d : Export Key} (hd : s'.exports[i]? = some d) (hsealed : ¬ Unsealed d) :
    ∃ d', s.exports[i]? = some d' ∧ ¬ Unsealed d' := by
  cases e with
  | exportKeystore passphrase iterations salt iv =>
    cases hs
    rcases add_iff.mp hd with hd | ⟨-, rfl⟩
    · exact ⟨d, hd, hsealed⟩
    · simp [Unsealed, beginExport, hgone] at hsealed
  | derived j =>
    simp only [KeypairAdapter.step, Option.bind_eq_bind, Option.bind_eq_some_iff, Option.pure_def,
      Option.some.injEq] at hs
    obtain ⟨e, he, phase, hphase, rfl⟩ := hs
    rcases (put_iff (lt_of_entry he)).mp hd with ⟨rfl, rfl⟩ | ⟨-, hd⟩
    · refine absurd ?_ hsealed
      unfold afterDerive at hphase
      cases hp : e.phase with
      | keying count =>
        simp only [hp, hgone] at hphase
        split at hphase <;> cases hphase <;> simp [Unsealed]
      | sealing | ended => simp [hp] at hphase
    · exact ⟨d, hd, hsealed⟩
  | encrypted j unsealed =>
    simp only [KeypairAdapter.step, Option.bind_eq_bind, Option.bind_eq_some_iff, Option.pure_def,
      Option.some.injEq] at hs
    obtain ⟨e, he, phase, hphase, rfl⟩ := hs
    rcases (put_iff (lt_of_entry he)).mp hd with ⟨rfl, rfl⟩ | ⟨-, hd⟩
    · refine ⟨e, he, fun hunsealed => hsealed ?_⟩
      unfold afterEncrypt at hphase
      cases hp : e.phase with
      | sealing count key plain =>
        simp only [Unsealed, hp] at hunsealed
        simp only [hp, hunsealed, Option.some.injEq] at hphase
        simp [Unsealed, ← hphase]
      | keying | ended => simp [hp] at hphase
    · exact ⟨d, hd, hsealed⟩
  | zeroize =>
    cases hs
    exact ⟨d, hd, hsealed⟩

theorem gone_step {e : KeypairEvent} (hgone : s.keypair = none) (hs : s.step crypto e = some s') :
    s'.keypair = none := by
  cases e with
  | exportKeystore =>
    cases hs
    exact hgone
  | derived | encrypted =>
    simp only [KeypairAdapter.step, Option.bind_eq_bind, Option.bind_eq_some_iff, Option.pure_def,
      Option.some.injEq] at hs
    obtain ⟨_, _, _, _, rfl⟩ := hs
    exact hgone
  | zeroize =>
    cases hs
    rfl

/-- **The exports of an adapter**, however they and its destruction follow each other: each keystore that is
exported gives back the keypair, and once the adapter is destroyed only those exports go on that had read the seed
before. -/
theorem exports_run (hauthentic : crypto.Authentic) {log : List KeypairEvent}
    (h : run (step crypto) (start keypair) log = some s) :
    (∀ e ∈ s.exports, ∀ ks, e.phase = .ended (.ok ks) →
      decryptKeystore crypto (.inl ks.json.stringify) e.passphrase = .ok keypair) ∧
    (s.keypair = none → ∀ log' s', run (step crypto) s log' = some s' → ∀ (i : ℕ) e ks,
      s'.exports[i]? = some e → e.phase = .ended (.ok ks) → ∃ d, s.exports[i]? = some d ∧ ¬ Unsealed d) := by
  constructor
  · intro e he ks hphase
    have hexports := (run_kept h).exports e he
    simp only [Exports, hphase] at hexports
    obtain ⟨count, hdouble, hencrypt⟩ := hexports
    exact decryptKeystore_stringify hauthentic hdouble hencrypt
  · intro hgone log' s' h' i e ks he hphase
    refine (run_induction (P := fun s' _ => s'.keypair = none ∧ ∀ (i : ℕ) e, s'.exports[i]? = some e →
      ¬ Unsealed e → ∃ d, s.exports[i]? = some d ∧ ¬ Unsealed d) ⟨hgone, fun i e he hsealed => ⟨e, he, hsealed⟩⟩
      ?_ h').2 i e he ?_
    · rintro t l event t' ⟨htgone, ih⟩ ht
      refine ⟨gone_step htgone ht, fun i e he hsealed => ?_⟩
      obtain ⟨d, hd, hdsealed⟩ := sealed_step htgone ht he hsealed
      exact ih i d hd hdsealed
    · simp [Unsealed, hphase]

theorem isDouble_thousand : Number.IsDouble (.fin 1000) := by
  simpa using Number.isDouble_intCast (n := 1000) (by norm_num)

/-- It is destroyed while it seals its seed, and then asked once more. -/
theorem exports_run_some : ∃ s e,
    run (step someCrypto) (start somePair) [.exportKeystore "pass" (some ⟨.fin 1000, isDouble_thousand⟩) someSalt
      someVector, .derived 0, .zeroize, .encrypted 0 (errorOf "TypeError" ""),
      .exportKeystore "pass" none someSalt someVector] = some s ∧
    s.exports[0]? = some e ∧ e.phase = .ended (.ok someKeystore) ∧
    decryptKeystore someCrypto (.inl someKeystore.json.stringify) e.passphrase = .ok somePair := by
  have hrun {s : KeypairAdapter (List UInt8) someAddress} {e : Export (List UInt8)}
      (h : run (step someCrypto) (start somePair) [.exportKeystore "pass" (some ⟨.fin 1000, isDouble_thousand⟩)
        someSalt someVector, .derived 0, .zeroize, .encrypted 0 (errorOf "TypeError" ""),
        .exportKeystore "pass" none someSalt someVector] = some s)
      (he : s.exports[0]? = some e) := (exports_run authentic_someCrypto h).1 e (List.mem_of_getElem? he)
  exact ⟨_, _, rfl, rfl, rfl, hrun rfl rfl someKeystore rfl⟩

end KeypairAdapter

end StreamFi
