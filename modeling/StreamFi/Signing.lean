import StreamFi.Constants
import StreamFi.Run.Pool

/-!
# Who signs

A write asks for the address that its transactions are from, builds them and has them signed. The modules of
a client hold their wallets apart, and `setWallet` may come in between.

* `SigningClient.step`: a client with its writes;
* `SigningClient.Sound`: what every step keeps;
* **`signed_after_swaps`**: who gave the address signs, but for a stream the last wallet that was set since;
* **`signatures_admitted`**: whoever signs is on the network of the client, and an approval is its owner's;
* **`parties_agree_iff`**: the modules turn to the same party unless the client has a signer and a keypair
  and no wallet.
-/

namespace StreamFi

open Js Run

/-! ## Wallets -/

/-- Who gives an address and signs. The adapter that wraps the keypair is `keypair` as well. -/
inductive Party (W : Type) where
  | wallet (w : W)
  | signer
  | keypair
  deriving DecidableEq

/-- As an approval names it; the adapter of the keypair is a wallet. -/
def Party.text {W : Type} : Party W → String
  | .signer => "configured signer"
  | _ => "connected wallet"

/-- The configuration, with the public keys of `signer` and `keypair`. -/
structure SigningConfig (W : Type) where
  network : Network
  chainId : W → Option String
  wallet : Option W := none
  signer : Option String := none
  keypair : Option String := none

/-- `SUPPORTED_NETWORKS`. -/
def supportedNetworks : List String := ["mainnet", "testnet", "local"]

def unsupportedChainError (providedNetwork : String) : Thrown :=
  let supported := String.intercalate ", " supportedNetworks
  errorOf "UnsupportedChainError"
    s!"Unsupported network: '{providedNetwork}'. The Conduit SDK currently supports: {supported}."

/-- `CAIP2_TO_NETWORK[caip2]`. -/
def caip2ToNetwork : String → Option String
  | "stellar:pubnet" => some "mainnet"
  | "stellar:testnet" => some "testnet"
  | "stellar:local" => some "local"
  | _ => none

variable {W : Type}

namespace SigningConfig

def assertWalletNetworkMatch (config : SigningConfig W) (w : W) : Except Thrown Unit :=
  match config.chainId w with
  | none => .ok ()
  | some caip2 =>
    match caip2ToNetwork caip2 with
    | none => .error (unsupportedChainError caip2)
    | some resolved =>
      let expectedNetwork := config.network.text
      if resolved ≠ expectedNetwork then
        .error (unsupportedChainError
          s!"{caip2} (wallet is on '{resolved}' but client is configured for '{expectedNetwork}')")
      else .ok ()

/-- The chain of a wallet, if it tells one, is that of the client. -/
def OnNetwork (config : SigningConfig W) : Party W → Prop
  | .wallet w => ∀ caip2, config.chainId w = some caip2 → caip2ToNetwork caip2 = some config.network.text
  | _ => True

/-- `activeWallet` of a module that is constructed with this configuration. -/
def activeWallet (config : SigningConfig W) : Option (Party W) :=
  config.wallet.map .wallet <|> config.keypair.map fun _ => .keypair

/-- `signer`, or else `keypair`. -/
def fallback (config : SigningConfig W) : Option (Party W) :=
  config.signer.map (fun _ => .signer) <|> config.keypair.map fun _ => .keypair

/-- The public key, where no wallet has to be asked. -/
def publicKey (config : SigningConfig W) : Party W → Option String
  | .wallet _ => none
  | .signer => config.signer
  | .keypair => config.keypair

theorem assertWalletNetworkMatch_ok_iff {config : SigningConfig W} {w : W} :
    config.assertWalletNetworkMatch w = .ok () ↔ config.OnNetwork (.wallet w) := by
  unfold assertWalletNetworkMatch OnNetwork
  cases hchain : config.chainId w with
  | none => simp [hchain]
  | some caip2 =>
    cases hresolved : caip2ToNetwork caip2 with
    | none => simp [hchain, hresolved]
    | some resolved =>
      by_cases heq : resolved = config.network.text
      · simp [hchain, hresolved, heq]
      · simp [hchain, hresolved, heq]

/-- The order of `signer` and `keypair` matters where both are there. -/
theorem fallback_eq_iff (config : SigningConfig W) :
    config.fallback = (config.keypair.map (fun _ => Party.keypair) <|> config.signer.map fun _ => .signer) ↔
      config.signer = none ∨ config.keypair = none := by
  unfold fallback
  cases config.signer <;> cases config.keypair <;> simp

end SigningConfig

/-! ## Writes -/

/-- A write of a `StreamsModule`, an approval of a `TokenModule`, or the proposals that a `GovernorModule`
executes one after another. -/
inductive WriteKind where
  | stream
  | approve (ownerAddress : String)
  | execute (proposals : ℕ) (stopOnError : Bool)
  deriving DecidableEq

/-- `ready` with the address, and `left` transactions still to sign. -/
inductive WritePhase (W : Type) where
  | asking (source : Party W)
  | ready (source : Party W) (addr : String) (left : ℕ)
  | threw (err : Thrown)

/-- `swaps` are the wallets that were set since the address was asked for. -/
structure Write (W : Type) where
  kind : WriteKind
  phase : WritePhase W
  swaps : List W := []

/-- `signer` is asked to sign, for the address that `source` gave. A batch of streams is signed at once. -/
structure Signature (W : Type) where
  kind : WriteKind
  source : Party W
  addr : String
  signer : Party W

def WritePhase.source : WritePhase W → Option (Party W)
  | .asking source => some source
  | .ready source _ _ => some source
  | .threw _ => none

namespace WriteKind

def noParty : WriteKind → Thrown
  | .approve _ =>
    errorOf "Error" "keypair, wallet adapter, or signer is required to approve a token allowance"
  | _ => errorOf "Error" "keypair, wallet adapter, or signer is required for mutating operations"

/-- What an address leads to. -/
def receive (kind : WriteKind) (source : Party W) (addr : String) : WritePhase W :=
  match kind with
  | .stream => .ready source addr 1
  | .approve ownerAddress =>
    if addr ≠ ownerAddress then
      let party := source.text
      .threw (errorOf "Error" s!"Token allowance owner {ownerAddress} does not match the {party} {addr}")
    else .ready source addr 1
  | .execute proposals _ => .ready source addr proposals

/-- What is left when a transaction cannot be built: the next proposals, unless they stop here. -/
def fail (kind : WriteKind) (source : Party W) (addr : String) (left : ℕ) (err : Thrown) : WritePhase W :=
  match kind with
  | .execute _ stopOnError => .ready source addr (if stopOnError then 0 else left)
  | _ => .threw err

end WriteKind

/-! ## The machine -/

/-- `wallet` is that of the shared configuration, which a `GovernorModule` reads. -/
structure SigningClient (W : Type) where
  wallet : Option W
  streams : Option (Party W)
  tokens : Option (Party W)
  writes : List (Write W) := []
  signatures : List (Signature W) := []

inductive SigningEvent (W : Type) where
  | start (kind : WriteKind)
  | address (write : ℕ) (r : Except Thrown String)
  | sign (write : ℕ) (built : Except Thrown Unit)
  | setWallet (w : W)

namespace SigningClient

def init (config : SigningConfig W) : Except Thrown (SigningClient W) :=
  if config.network.text ∉ supportedNetworks then .error (unsupportedChainError config.network.text)
  else do
    config.wallet.elim (.ok ()) config.assertWalletNetworkMatch
    .ok { wallet := config.wallet, streams := config.activeWallet, tokens := config.activeWallet }

/-- Whom a module turns to. -/
def party (config : SigningConfig W) (s : SigningClient W) : WriteKind → Option (Party W)
  | .stream => s.streams <|> config.fallback
  | .approve _ => s.tokens <|> config.signer.map fun _ => .signer
  | .execute _ _ => s.wallet.map .wallet <|> config.fallback

def start (config : SigningConfig W) (s : SigningClient W) (kind : WriteKind) : SigningClient W :=
  let phase := match s.party config kind with
    | some source => .asking source
    | none => .threw kind.noParty
  { s with writes := s.writes ++ [{ kind := kind, phase := phase }] }

def address (config : SigningConfig W) (s : SigningClient W) (i : ℕ) (r : Except Thrown String) :
    Option (SigningClient W) := do
  let write ← s.writes[i]?
  match write.phase with
  | .asking source =>
    let phase := match (config.publicKey source).elim r .ok with
      | .ok addr => write.kind.receive source addr
      | .error err => .threw err
    some { s with writes := s.writes.set i { write with phase := phase } }
  | _ => none

/-- Who is asked to sign: a `StreamsModule` looks for its wallet again, the others have kept it. -/
def signerOf (config : SigningConfig W) (s : SigningClient W) (kind : WriteKind) (source : Party W) :
    Option (Party W) :=
  match kind with
  | .stream => s.party config .stream
  | _ => some source

/-- The next transaction of a write is built and simulated, and comes to be signed. -/
def sign (config : SigningConfig W) (s : SigningClient W) (i : ℕ) (built : Except Thrown Unit) :
    Option (SigningClient W) := do
  let write ← s.writes[i]?
  match write.phase with
  | .ready source addr (left + 1) =>
    match built with
    | .error err =>
      let phase := write.kind.fail source addr left err
      some { s with writes := s.writes.set i { write with phase := phase } }
    | .ok () =>
      match s.signerOf config write.kind source with
      | none => some { s with writes := s.writes.set i { write with phase := .threw write.kind.noParty } }
      | some asked =>
        let sig : Signature W := { kind := write.kind, source := source, addr := addr, signer := asked }
        some { s with
          writes := s.writes.set i { write with phase := .ready source addr left }
          signatures := s.signatures ++ [sig] }
  | _ => none

def setWallet (config : SigningConfig W) (s : SigningClient W) (w : W) : SigningClient W :=
  match config.assertWalletNetworkMatch w with
  | .error _ => s
  | .ok () =>
    { s with
      wallet := some w
      streams := some (.wallet w)
      tokens := some (.wallet w)
      writes := s.writes.map fun write => { write with swaps := write.swaps ++ [w] } }

def step (config : SigningConfig W) (s : SigningClient W) : SigningEvent W → Option (SigningClient W)
  | .start kind => some (s.start config kind)
  | .address i r => s.address config i r
  | .sign i built => s.sign config i built
  | .setWallet w => some (s.setWallet config w)

/-! ## What a step does to a write -/

/-- A write goes on to a phase, and `sigs` are what is signed for it. -/
structure Advance (config : SigningConfig W) (s s' : SigningClient W) (i : ℕ) (write : Write W)
    (phase : WritePhase W) (sigs : List (Signature W)) : Prop where
  found : s.writes[i]? = some write
  source : ∀ p ∈ phase.source, p ∈ write.phase.source
  owner : ∀ source addr left, phase = .ready source addr left →
    (∃ before, write.phase = .ready source addr before) ∨
      ∀ ownerAddress, write.kind = .approve ownerAddress → addr = ownerAddress
  signed : ∀ sig ∈ sigs, sig.kind = write.kind ∧ s.signerOf config write.kind sig.source = some sig.signer ∧
    ∃ left, write.phase = .ready sig.source sig.addr left
  eq : s' = { s with
    writes := s.writes.set i { write with phase := phase }
    signatures := s.signatures ++ sigs }

section Advance

variable {config : SigningConfig W} {s s' : SigningClient W} {i : ℕ}

theorem receive_source (kind : WriteKind) (source : Party W) (addr : String) :
    ∀ p ∈ (kind.receive source addr).source, p = source := by
  intro p hp
  cases kind with
  | stream | execute _ _ =>
    cases hp
    rfl
  | approve ownerAddress =>
    rw [WriteKind.receive] at hp
    split_ifs at hp
    · cases hp
    · cases hp
      rfl

theorem receive_owner {source source' : Party W} {addr addr' ownerAddress : String} {left : ℕ}
    (h : WriteKind.receive (.approve ownerAddress) source addr = .ready source' addr' left) :
    addr' = ownerAddress := by
  rw [WriteKind.receive] at h
  split_ifs at h with hne
  cases h
  exact not_not.mp hne

theorem fail_source (kind : WriteKind) (source : Party W) (addr : String) (left : ℕ) (err : Thrown) :
    ∀ p ∈ (kind.fail source addr left err).source, p = source := by
  intro p hp
  cases kind <;> cases hp
  rfl

theorem advance_of_address {r : Except Thrown String} (hs : s.address config i r = some s') :
    ∃ write phase, Advance config s s' i write phase [] := by
  simp only [address, Option.bind_eq_bind, Option.bind_eq_some_iff] at hs
  obtain ⟨write, hi, hs⟩ := hs
  split at hs
  · rename_i source hphase
    cases hr : (config.publicKey source).elim r .ok with
    | error err =>
      rw [hr] at hs
      cases hs
      exact ⟨write, .threw err, hi, fun p hp => (by cases hp), fun _ _ _ hp => (by cases hp),
        fun sig hmem => (by cases hmem), by rw [List.append_nil]⟩
    | ok addr =>
      rw [hr] at hs
      cases hs
      refine ⟨write, write.kind.receive source addr, hi, fun p hp => ?_,
        fun source' addr' left hp => .inr fun ownerAddress hkind => ?_, fun sig hmem => (by cases hmem),
        by rw [List.append_nil]⟩
      · rw [hphase, receive_source write.kind source addr p hp]
        rfl
      · rw [hkind] at hp
        exact receive_owner hp
  · cases hs

theorem advance_of_sign {built : Except Thrown Unit} (hs : s.sign config i built = some s') :
    ∃ write phase sigs, Advance config s s' i write phase sigs := by
  simp only [sign, Option.bind_eq_bind, Option.bind_eq_some_iff] at hs
  obtain ⟨write, hi, hs⟩ := hs
  split at hs
  · rename_i source addr left hphase
    have hsource : source ∈ write.phase.source := by
      rw [hphase]
      rfl
    split at hs
    · rename_i err
      cases hs
      refine ⟨write, _, [], hi, ?_, ?_, fun sig hmem => (by cases hmem), by rw [List.append_nil]⟩
      · intro p hp
        rwa [fail_source _ _ _ _ _ p hp]
      · intro source' addr' left' hp
        refine .inr fun ownerAddress hkind => ?_
        rw [hkind] at hp
        cases hp
    · split at hs
      · cases hs
        exact ⟨write, .threw write.kind.noParty, [], hi, fun p hp => (by cases hp), fun _ _ _ hp => (by cases hp),
          fun sig hmem => (by cases hmem), by rw [List.append_nil]⟩
      · rename_i asked hasked
        cases hs
        refine ⟨write, _, [_], hi, ?_, ?_, ?_, rfl⟩
        · intro p hp
          cases hp
          exact hsource
        · intro source' addr' left' hp
          cases hp
          exact .inl ⟨left + 1, hphase⟩
        · intro sig hmem
          rw [List.mem_singleton.mp hmem]
          exact ⟨rfl, hasked, left + 1, hphase⟩
  · cases hs

end Advance

end SigningClient

/-! ## What every step keeps -/

/-- The last of these wallets, or else `source`. -/
def lastParty (source : Party W) (swaps : List W) : Party W := (swaps.map .wallet).getLastD source

@[simp] theorem lastParty_nil (source : Party W) : lastParty source [] = source := rfl

@[simp] theorem lastParty_concat (source : Party W) (swaps : List W) (w : W) :
    lastParty source (swaps ++ [w]) = .wallet w := by
  simp [lastParty]

/-- The party that a write is signed by, if its address is from `source` and these wallets were set since. -/
def WriteKind.signer (kind : WriteKind) (source : Party W) (swaps : List W) : Party W :=
  match kind with
  | .stream => lastParty source swaps
  | _ => source

/-- Who gave the address and who signs are on the network of the client, and an approval is from the address
of its owner. -/
structure Signature.Admitted (config : SigningConfig W) (sig : Signature W) : Prop where
  source : config.OnNetwork sig.source
  signer : config.OnNetwork sig.signer
  owner : ∀ ownerAddress, sig.kind = .approve ownerAddress → sig.addr = ownerAddress

/-- A write, when a `StreamsModule` would turn to `current`. -/
structure Write.Sound (config : SigningConfig W) (current : Option (Party W)) (write : Write W) : Prop where
  network : ∀ source, write.phase.source = some source → config.OnNetwork source
  stream : ∀ source, write.phase.source = some source → write.kind = .stream →
    current = some (lastParty source write.swaps)
  owner : ∀ source addr left, write.phase = .ready source addr left →
    ∀ ownerAddress, write.kind = .approve ownerAddress → addr = ownerAddress

namespace SigningClient

structure Sound (config : SigningConfig W) (s : SigningClient W) : Prop where
  held : (∃ w, s.wallet = some w ∧ s.streams = some (.wallet w) ∧ s.tokens = some (.wallet w)) ∨
    s.wallet = none ∧ s.streams = config.keypair.map (fun _ => .keypair) ∧ s.tokens = s.streams
  network : ∀ w, s.wallet = some w → config.OnNetwork (.wallet w)
  writes : ∀ write ∈ s.writes, write.Sound config (s.party config .stream)
  signatures : ∀ sig ∈ s.signatures, sig.Admitted config

section Sound

variable {config : SigningConfig W} {s s₀ s' : SigningClient W}

/-- **Whom the modules turn to.** -/
theorem Sound.party_eq (h : s.Sound config) (kind : WriteKind) :
    (∃ w, s.wallet = some w ∧ s.party config kind = some (.wallet w)) ∨
      s.wallet = none ∧ s.party config kind = match kind with
        | .execute _ _ => config.fallback
        | _ => config.keypair.map (fun _ => .keypair) <|> config.signer.map fun _ => .signer := by
  rcases h.held with ⟨w, hw, hstreams, htokens⟩ | ⟨hw, hstreams, htokens⟩
  · refine .inl ⟨w, hw, ?_⟩
    cases kind <;> simp [party, hw, hstreams, htokens]
  · refine .inr ⟨hw, ?_⟩
    cases kind with
    | stream =>
      rw [party, hstreams, SigningConfig.fallback]
      cases config.keypair <;> simp
    | approve ownerAddress => rw [party, htokens, hstreams]
    | execute proposals stopOnError => simp [party, hw]

theorem Sound.onNetwork (h : s.Sound config) {kind : WriteKind} {p : Party W}
    (hp : s.party config kind = some p) : config.OnNetwork p := by
  rcases h.party_eq kind with ⟨w, hw, hparty⟩ | ⟨hw, hparty⟩
  · rw [hp] at hparty
    cases hparty
    exact h.network w hw
  · cases p with
    | signer | keypair => trivial
    | wallet w =>
      rw [hp] at hparty
      cases kind <;> cases hs : config.signer <;> cases hk : config.keypair <;>
        simp [SigningConfig.fallback, hs, hk] at hparty

theorem Sound.advance (h : s.Sound config) {i : ℕ} {write : Write W} {phase : WritePhase W}
    {sigs : List (Signature W)} (hs : Advance config s s' i write phase sigs) : s'.Sound config := by
  have hwrite := h.writes write (List.mem_of_getElem? hs.found)
  rw [hs.eq]
  refine ⟨h.held, h.network, ?_, ?_⟩
  · intro write' hmem
    rcases List.mem_or_eq_of_mem_set hmem with hmem | rfl
    · exact h.writes write' hmem
    · refine ⟨fun source hp => hwrite.network source (hs.source source hp),
        fun source hp hkind => hwrite.stream source (hs.source source hp) hkind, ?_⟩
      intro source addr left hp
      rcases hs.owner source addr left hp with ⟨before, hbefore⟩ | howner
      · exact hwrite.owner source addr before hbefore
      · exact howner
  · intro sig hmem
    rcases List.mem_append.mp hmem with hmem | hmem
    · exact h.signatures sig hmem
    · obtain ⟨hkind, hsigner, left, hphase⟩ := hs.signed sig hmem
      have hsource : config.OnNetwork sig.source := hwrite.network sig.source (by rw [hphase]; rfl)
      refine ⟨hsource, ?_, ?_⟩
      · cases hwk : write.kind with
        | stream =>
          have hparty : s.party config .stream = some sig.signer := by rwa [hwk] at hsigner
          exact h.onNetwork hparty
        | approve _ | execute _ _ =>
          rw [hwk] at hsigner
          rwa [← Option.some.inj hsigner]
      · rw [hkind]
        exact hwrite.owner sig.source sig.addr left hphase

theorem Sound.start (h : s.Sound config) (kind : WriteKind) : (s.start config kind).Sound config := by
  refine ⟨h.held, h.network, ?_, h.signatures⟩
  intro write hmem
  rcases List.mem_append.mp hmem with hmem | hmem
  · exact h.writes write hmem
  · rw [List.mem_singleton.mp hmem]
    show Write.Sound config (s.party config .stream) _
    cases hparty : s.party config kind with
    | none => exact ⟨fun source hs => (by cases hs), fun source hs => (by cases hs), fun _ _ _ hs => by cases hs⟩
    | some source =>
      refine ⟨fun source' hs => ?_, fun source' hs hkind => ?_, fun _ _ _ hs => by cases hs⟩
      · cases hs
        exact h.onNetwork hparty
      · cases hs
        cases (show kind = .stream from hkind)
        exact hparty

theorem Sound.setWallet (h : s.Sound config) (w : W) : (s.setWallet config w).Sound config := by
  unfold SigningClient.setWallet
  cases hmatch : config.assertWalletNetworkMatch w with
  | error err => exact h
  | ok u =>
    cases u
    have hnetwork : config.OnNetwork (.wallet w) := SigningConfig.assertWalletNetworkMatch_ok_iff.mp hmatch
    refine ⟨.inl ⟨w, rfl, rfl, rfl⟩, ?_, ?_, h.signatures⟩
    · intro w' hw
      cases hw
      exact hnetwork
    · intro write' hmem
      obtain ⟨write, hold, rfl⟩ := List.mem_map.mp hmem
      have hwrite := h.writes write hold
      refine ⟨hwrite.network, fun source _ _ => ?_, hwrite.owner⟩
      simp [party]

theorem Sound.step (h : s.Sound config) {e : SigningEvent W} (hs : s.step config e = some s') :
    s'.Sound config := by
  cases e with
  | start kind =>
    cases hs
    exact h.start kind
  | address i r =>
    obtain ⟨write, phase, hadvance⟩ := advance_of_address hs
    exact h.advance hadvance
  | sign i built =>
    obtain ⟨write, phase, sigs, hadvance⟩ := advance_of_sign hs
    exact h.advance hadvance
  | setWallet w =>
    cases hs
    exact h.setWallet w

theorem sound_init (h : init config = .ok s₀) : s₀.Sound config := by
  have hparty : (∃ w, config.wallet = some w ∧ config.activeWallet = some (.wallet w)) ∨
      config.wallet = none ∧ config.activeWallet = config.keypair.map fun _ => .keypair := by
    unfold SigningConfig.activeWallet
    cases config.wallet with
    | none => exact .inr ⟨rfl, by simp⟩
    | some w => exact .inl ⟨w, rfl, rfl⟩
  unfold init at h
  split_ifs at h
  obtain ⟨u, hmatch, h⟩ := seq_ok_iff.mp h
  cases h
  refine ⟨?_, ?_, fun write hmem => (by cases hmem), fun sig hmem => by cases hmem⟩
  · rcases hparty with ⟨w, hw, hactive⟩ | ⟨hw, hactive⟩
    · exact .inl ⟨w, hw, hactive, hactive⟩
    · exact .inr ⟨hw, hactive, rfl⟩
  · intro w hw
    cases u
    rw [show config.wallet = some w from hw] at hmatch
    exact SigningConfig.assertWalletNetworkMatch_ok_iff.mp hmatch

theorem sound_run {log : List (SigningEvent W)} (hinit : init config = .ok s₀)
    (h : run (step config) s₀ log = some s) : s.Sound config :=
  run_induction (P := fun s _ => s.Sound config) (sound_init hinit) (fun _ _ _ _ hP hs => hP.step hs) h

/-! ## What becomes of a write -/

/-- The wallets that were set. -/
def acceptedSwaps (config : SigningConfig W) : List (SigningEvent W) → List W :=
  List.filterMap fun
    | .setWallet w => match config.assertWalletNetworkMatch w with
      | .ok () => some w
      | .error _ => none
    | _ => none

/-- What has become of a write: it is of the same kind, nobody else has been asked for its address, and its
swaps are counted. -/
structure Continues (config : SigningConfig W) (write write' : Write W) (log : List (SigningEvent W)) : Prop where
  kind : write'.kind = write.kind
  source : ∀ p ∈ write'.phase.source, p ∈ write.phase.source
  swaps : write'.swaps = write.swaps ++ acceptedSwaps config log

theorem continues_advance {i j : ℕ} {write₀ write : Write W} {phase : WritePhase W} {sigs : List (Signature W)}
    {e : SigningEvent W} (he : acceptedSwaps config [e] = [])
    (hs : Advance config s s' j write phase sigs) (hi : s.writes[i]? = some write₀) :
    ∃ write', s'.writes[i]? = some write' ∧ Continues config write₀ write' [e] := by
  have hwrites : s'.writes = s.writes.set j { write with phase := phase } := by rw [hs.eq]
  rw [hwrites]
  by_cases hij : j = i
  · subst hij
    cases hs.found.symm.trans hi
    have hlt := (List.getElem?_eq_some_iff.mp hi).1
    refine ⟨_, List.getElem?_set_self hlt, rfl, hs.source, ?_⟩
    rw [he, List.append_nil]
  · rw [List.getElem?_set_ne hij]
    exact ⟨write₀, hi, rfl, fun p hp => hp, by rw [he, List.append_nil]⟩

theorem continues_step {i : ℕ} {write : Write W} {e : SigningEvent W} (hs : s.step config e = some s')
    (hi : s.writes[i]? = some write) :
    ∃ write', s'.writes[i]? = some write' ∧ Continues config write write' [e] := by
  cases e with
  | start kind =>
    cases hs
    have hlt := (List.getElem?_eq_some_iff.mp hi).1
    exact ⟨write, (List.getElem?_append_left hlt).trans hi, rfl, fun p hp => hp, by simp [acceptedSwaps]⟩
  | address j r =>
    obtain ⟨write', phase, hadvance⟩ := advance_of_address hs
    exact continues_advance rfl hadvance hi
  | sign j built =>
    obtain ⟨write', phase, sigs, hadvance⟩ := advance_of_sign hs
    exact continues_advance rfl hadvance hi
  | setWallet w =>
    cases hs
    unfold SigningClient.setWallet
    cases hmatch : config.assertWalletNetworkMatch w with
    | error err => exact ⟨write, hi, rfl, fun p hp => hp, by simp [acceptedSwaps, hmatch]⟩
    | ok u =>
      cases u
      refine ⟨{ write with swaps := write.swaps ++ [w] }, by simp [hi], rfl, fun p hp => hp, ?_⟩
      simp [acceptedSwaps, hmatch]

theorem continues_run {i : ℕ} {write : Write W} {log : List (SigningEvent W)}
    (h : run (step config) s₀ log = some s) (hi : s₀.writes[i]? = some write) :
    ∃ write', s.writes[i]? = some write' ∧ Continues config write write' log := by
  refine run_induction (P := fun s log => ∃ write', s.writes[i]? = some write' ∧
    Continues config write write' log) ⟨write, hi, rfl, fun p hp => hp, by simp [acceptedSwaps]⟩ ?_ h
  rintro s l e s' ⟨write', hi', hl⟩ hs
  obtain ⟨write'', hi'', he⟩ := continues_step hs hi'
  refine ⟨write'', hi'', he.kind.trans hl.kind, fun p hp => hl.source p (he.source p hp), ?_⟩
  rw [he.swaps, hl.swaps, List.append_assoc]
  simp [acceptedSwaps]

theorem Sound.signerOf_eq (h : s.Sound config) {write : Write W} {source : Party W} (hmem : write ∈ s.writes)
    (hsource : write.phase.source = some source) :
    s.signerOf config write.kind source = some (write.kind.signer source write.swaps) := by
  cases hkind : write.kind with
  | stream => exact (h.writes write hmem).stream source hsource hkind
  | approve _ | execute _ _ => rfl

/-- **A write is signed by whom it asked for the address**, but one of a `StreamsModule` by the last wallet
that was set since then. -/
theorem signed_after_swaps {s₁ : SigningClient W} {pre log : List (SigningEvent W)} {kind : WriteKind}
    (hinit : init config = .ok s₀) (hpre : run (step config) s₀ pre = some s₁)
    (h : run (step config) (s₁.start config kind) log = some s)
    (hs : s.sign config s₁.writes.length (.ok ()) = some s') :
    ∃ source sig, s₁.party config kind = some source ∧ s'.signatures = s.signatures ++ [sig] ∧
      sig.source = source ∧ sig.signer = kind.signer source (acceptedSwaps config log) := by
  have hrun : run (step config) s₀ (pre ++ (.start kind :: log)) = some s := by
    rw [run_append, hpre]
    exact h
  have hsound := sound_run hinit hrun
  have hstart : (s₁.start config kind).writes[s₁.writes.length]? = some
      { kind := kind, phase := (s₁.party config kind).elim (.threw kind.noParty) .asking } := by
    rw [start, List.getElem?_concat_length]
    cases s₁.party config kind <;> rfl
  obtain ⟨write, hi, hcontinues⟩ := continues_run h hstart
  simp only [sign, hi, Option.bind_eq_bind, Option.bind_some] at hs
  split at hs
  · rename_i source addr left hphase
    have hsource : write.phase.source = some source := by
      rw [hphase]
      rfl
    rw [hsound.signerOf_eq (List.mem_of_getElem? hi) hsource] at hs
    cases hs
    have hasked := hcontinues.source source hsource
    have hkind := hcontinues.kind
    have hswaps := hcontinues.swaps
    refine ⟨source, _, ?_, rfl, rfl, ?_⟩
    · cases hparty : s₁.party config kind with
      | none =>
        rw [hparty] at hasked
        cases hasked
      | some p =>
        rw [hparty] at hasked
        exact hasked
    · show write.kind.signer source write.swaps = _
      rw [hkind, hswaps]
      rfl
  · cases hs

/-- A client on the test network, where the third wallet is not. -/
def testnetWallets : SigningConfig ℕ where
  network := .testnet
  chainId w := if w = 3 then some "stellar:pubnet" else some "stellar:testnet"
  wallet := some 1

def connected : SigningClient ℕ where
  wallet := some 1
  streams := some (.wallet 1)
  tokens := some (.wallet 1)

/-- The second wallet is set while a transaction is built; the third is refused. -/
def swapWhileBuilding : List (SigningEvent ℕ) := [.address 0 (.ok "GOLD"), .setWallet 2, .setWallet 3]

theorem signed_after_swaps_overtaken : ∃ s s' sig,
    run (step testnetWallets) (connected.start testnetWallets .stream) swapWhileBuilding = some s ∧
      s.sign testnetWallets 0 (.ok ()) = some s' ∧ s'.signatures = s.signatures ++ [sig] ∧
        sig.source = .wallet 1 ∧ sig.signer = .wallet 2 := by
  obtain ⟨s', hs'⟩ := Option.isSome_iff_exists.mp (by decide :
    ((run (step testnetWallets) (connected.start testnetWallets .stream) swapWhileBuilding).bind
      fun s => s.sign testnetWallets 0 (.ok ())).isSome = true)
  obtain ⟨s, hs, hsign⟩ := Option.bind_eq_some_iff.mp hs'
  obtain ⟨source, sig, hparty, hsigs, hsource, hsigner⟩ :=
    signed_after_swaps (rfl : init testnetWallets = .ok connected)
      (rfl : run (step testnetWallets) connected [] = some connected) hs hsign
  cases hparty
  exact ⟨s, s', sig, hs, hsign, hsigs, hsource, hsigner⟩

/-- **Whoever signs is on the network of the client**, and an approval is its owner's. -/
theorem signatures_admitted {log : List (SigningEvent W)} (hinit : init config = .ok s₀)
    (h : run (step config) s₀ log = some s) : ∀ sig ∈ s.signatures, sig.Admitted config :=
  (sound_run hinit h).signatures

theorem signatures_admitted_swap : ∃ s,
    run (step testnetWallets) connected (.start .stream :: swapWhileBuilding ++ [.sign 0 (.ok ())]) = some s ∧
      ∀ sig ∈ s.signatures, sig.Admitted testnetWallets := by
  obtain ⟨s, hs⟩ := Option.isSome_iff_exists.mp (by decide :
    (run (step testnetWallets) connected
      (.start .stream :: swapWhileBuilding ++ [.sign 0 (.ok ())])).isSome = true)
  exact ⟨s, hs, signatures_admitted rfl hs⟩

/-- **The modules turn to the same party** unless there are a signer and a keypair and no wallet. -/
theorem parties_agree_iff {log : List (SigningEvent W)} (hinit : init config = .ok s₀)
    (h : run (step config) s₀ log = some s) :
    (∀ kind kind', s.party config kind = s.party config kind') ↔
      s.wallet.isSome ∨ config.signer = none ∨ config.keypair = none := by
  have hparty := (sound_run hinit h).party_eq
  cases hwallet : s.wallet with
  | some w =>
    have heq (kind : WriteKind) : s.party config kind = some (.wallet w) := by
      rcases hparty kind with ⟨w', hw, hkind⟩ | ⟨hw, -⟩
      · rwa [← Option.some.inj (hw.symm.trans hwallet)]
      · exact absurd (hw.symm.trans hwallet) (by simp)
    simp [heq]
  | none =>
    have heq (kind : WriteKind) := ((hparty kind).resolve_left (by simp [hwallet])).2
    have horder := config.fallback_eq_iff
    constructor
    · intro hall
      exact .inr (horder.mp ((heq (.execute 0 false)).symm.trans ((hall _ _).trans (heq .stream))))
    · rintro (hsome | hnone) kind kind'
      · cases hsome
      · rw [heq, heq]
        cases kind <;> cases kind' <;> simp only [horder.mpr hnone]

theorem parties_agree_iff_swap : ∃ s, run (step testnetWallets) connected [.setWallet 2] = some s ∧
    ∀ kind kind', s.party testnetWallets kind = s.party testnetWallets kind' := by
  obtain ⟨s, hs⟩ := Option.isSome_iff_exists.mp (by decide :
    (run (step testnetWallets) connected [.setWallet 2]).isSome = true)
  have hwallet : s.wallet = some 2 := by
    cases hs
    rfl
  exact ⟨s, hs, (parties_agree_iff rfl hs).mpr (.inl (by rw [hwallet]; rfl))⟩

end Sound

end SigningClient

end StreamFi
