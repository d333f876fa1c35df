import StreamFi.Errors
import StreamFi.Run.Pool
import StreamFi.Run.Table

/-!
# The caller of a read

A read is simulated for the public key of the active wallet, which `_resolveCallerAddress` asks for
once and caches until `setWallet`. A `StreamsModule` resolves addresses through a `FactoryModule` of
its own, which has a cache of its own and keeps the wallet of the configuration.

* `Resolver`: `_resolveCallerAddress` and `setWallet`; `CallerModule.step`: a module with both;
* `CallerModule.Sound`: what every step keeps when no key of a replaced wallet is used;
* **`callers_follow_wallet`**: every caller address is of a wallet that was active since the call
  started.
-/

namespace StreamFi

open Js Run

/-! ## Resolving the caller -/

/-- `ZERO_ADDR`. -/
def zeroAddr : String := "GAAAAAAAAAAAAAAAAAAAAAAAAAAAAAAAAAAAAAAAAAAAAAAAAAAAAWHF"

inductive ModuleKind where
  | streams
  | factory
  deriving DecidableEq

/-- The configuration, with the public keys of `signer` and `keypair`, and the wallet adapter that
wraps `keypair`. -/
structure CallerConfig (W : Type) where
  kind : ModuleKind
  wallet : Option W := none
  signer : Option String := none
  keypair : Option (W × String) := none

/-- An address, with the wallet that gave it. -/
structure Obtained (W : Type) where
  addr : String
  source : Option W
  deriving DecidableEq

structure Resolver (W : Type) where
  activeWallet : Option W
  cachedCallerAddr : Option (Obtained W) := none

/-- Where `_resolveCallerAddress` gets to at once: an address, or the await of a public key. -/
inductive Resolution (W : Type) where
  | address (o : Obtained W)
  | ask (wallet : W)

variable {W : Type}

def CallerConfig.initialWallet (config : CallerConfig W) : Option W :=
  config.wallet <|> config.keypair.map Prod.fst

/-- `pk && pk !== ZERO_ADDR`. -/
def validKey (pk : String) : Bool := pk ≠ "" && pk ≠ zeroAddr

/-- Of one of these wallets, or nobody's. -/
def Obtained.From (o : Obtained W) (wallets : List (Option W)) : Prop :=
  o.addr = zeroAddr ∨ o.source ∈ wallets

namespace Resolver

def resolve (config : CallerConfig W) (r : Resolver W) : Resolver W × Resolution W :=
  match r.cachedCallerAddr with
  | some o => (r, .address o)
  | none => match r.activeWallet with
    | some wallet => (r, .ask wallet)
    | none =>
      let addr := (config.signer <|> config.keypair.map Prod.snd).getD zeroAddr
      let o : Obtained W := { addr := addr, source := none }
      (if validKey addr then { r with cachedCallerAddr := some o } else r, .address o)

/-- The rest of `_resolveCallerAddress`, with the public key of the wallet. -/
def receive (r : Resolver W) (wallet : W) (pk : Option String) : Resolver W × Obtained W :=
  match pk.filter validKey with
  | some pk =>
    let o : Obtained W := { addr := pk, source := some wallet }
    ({ r with cachedCallerAddr := some o }, o)
  | none => (r, { addr := zeroAddr, source := some wallet })

def setWallet (_ : Resolver W) (wallet : W) : Resolver W := { activeWallet := some wallet }

/-- The cached address is the active wallet's. -/
def Sound (r : Resolver W) : Prop := ∀ o, r.cachedCallerAddr = some o → o.source = r.activeWallet

section Resolver

variable {config : CallerConfig W} {r : Resolver W} {wallets : List (Option W)}

@[simp] theorem resolve_activeWallet : (r.resolve config).1.activeWallet = r.activeWallet := by
  unfold resolve
  split
  · rfl
  · split
    · rfl
    · simp only
      split_ifs <;> rfl

@[simp] theorem receive_activeWallet {wallet : W} {pk : Option String} :
    (r.receive wallet pk).1.activeWallet = r.activeWallet := by
  unfold receive
  cases pk.filter validKey <;> rfl

theorem sound_resolve (h : r.Sound) : (r.resolve config).1.Sound := by
  intro o ho
  rw [resolve_activeWallet]
  unfold resolve at ho
  cases hc : r.cachedCallerAddr with
  | some o' =>
    rw [hc] at ho
    exact h o ho
  | none =>
    rw [hc] at ho
    cases hw : r.activeWallet with
    | some wallet =>
      rw [hw] at ho
      exact absurd (hc.symm.trans ho) (by simp)
    | none =>
      rw [hw] at ho
      simp only at ho
      split_ifs at ho
      · cases ho
        rfl
      · exact absurd (hc.symm.trans ho) (by simp)

/-- What is used at once is the active wallet's, and so is the key that is asked for. -/
theorem resolve_from (config : CallerConfig W) (h : r.Sound) (hw : r.activeWallet ∈ wallets) :
    (∃ o, (r.resolve config).2 = .address o ∧ o.From wallets) ∨
      ∃ wallet, (r.resolve config).2 = .ask wallet ∧ r.activeWallet = some wallet := by
  unfold resolve
  cases hc : r.cachedCallerAddr with
  | some o => exact .inl ⟨o, rfl, .inr (by rwa [h o hc])⟩
  | none =>
    cases hactive : r.activeWallet with
    | some wallet => exact .inr ⟨wallet, rfl, rfl⟩
    | none => exact .inl ⟨_, rfl, .inr (by rwa [hactive] at hw)⟩

theorem receive_from {wallet : W} (hw : some wallet ∈ wallets) (pk : Option String) :
    (r.receive wallet pk).2.From wallets := by
  unfold receive
  cases pk.filter validKey with
  | some pk => exact .inr hw
  | none => exact .inl rfl

theorem sound_receive (h : r.Sound) {wallet : W} {pk : Option String}
    (hw : ∀ key, pk = some key → validKey key = true → r.activeWallet = some wallet) :
    (r.receive wallet pk).1.Sound := by
  intro o ho
  rw [receive_activeWallet]
  unfold receive at ho
  cases hpk : pk.filter validKey with
  | some key =>
    rw [hpk] at ho
    cases ho
    obtain ⟨hkey, hvalid⟩ := Option.filter_eq_some_iff.mp hpk
    exact (hw key hkey hvalid).symm
  | none =>
    rw [hpk] at ho
    exact h o ho

end Resolver

end Resolver

/-! ## The machine -/

/-- The resolver that a call comes to: the module's own, or that of the `FactoryModule` inside a
`StreamsModule`. -/
inductive Through where
  | own
  | factory
  deriving DecidableEq

inductive RequestPhase (W : Type) where
  | waiting (wallet : W)
  | used (o : Obtained W)
  | threw (err : Thrown)

/-- A call of `_resolveCallerAddress`, with the wallets that were the module's since the read it is
for had started. -/
structure CallerRequest (W : Type) where
  through : Through
  since : List (Option W)
  phase : RequestPhase W

/-- `wallets` are those the module has had, the active one last; `reads` holds for each read how many
there were before the one it started under. -/
structure CallerModule (W : Type) where
  own : Resolver W
  factory : Resolver W
  wallets : List (Option W)
  reads : List ℕ := []
  requests : List (CallerRequest W) := []

inductive CallerEvent (W : Type) where
  | read
  | resolve (read : ℕ) (through : Through)
  | publicKey (request : ℕ) (r : Except Thrown (Option String))
  | setWallet (wallet : W)

namespace CallerModule

def init (config : CallerConfig W) : CallerModule W where
  own := { activeWallet := config.initialWallet }
  factory := { activeWallet := config.initialWallet }
  wallets := [config.initialWallet]

def resolver (s : CallerModule W) : Through → Resolver W
  | .own => s.own
  | .factory => s.factory

def setResolver (s : CallerModule W) (r : Resolver W) : Through → CallerModule W
  | .own => { s with own := r }
  | .factory => { s with factory := r }

def resolve (config : CallerConfig W) (s : CallerModule W) (read : ℕ) (through : Through) :
    Option (CallerModule W) := do
  let before ← s.reads[read]?
  if through = .factory ∧ config.kind = .factory then none
  else
    let since := s.wallets.drop before
    let (r, resolution) := (s.resolver through).resolve config
    let phase := match resolution with
      | .address o => .used o
      | .ask wallet => .waiting wallet
    let request : CallerRequest W := { through := through, since := since, phase := phase }
    some { s.setResolver r through with requests := s.requests ++ [request] }

def publicKey (s : CallerModule W) (i : ℕ) (r : Except Thrown (Option String)) :
    Option (CallerModule W) := do
  let request ← s.requests[i]?
  match request.phase, r with
  | .waiting _, .error err =>
    some { s with requests := s.requests.set i { request with phase := .threw err } }
  | .waiting wallet, .ok pk =>
    let (r, o) := (s.resolver request.through).receive wallet pk
    some { s.setResolver r request.through with
      requests := s.requests.set i { request with phase := .used o } }
  | _, _ => none

def step (config : CallerConfig W) (s : CallerModule W) : CallerEvent W → Option (CallerModule W)
  | .read => some { s with reads := s.reads ++ [s.wallets.length - 1] }
  | .resolve read through => s.resolve config read through
  | .publicKey i r => s.publicKey i r
  | .setWallet wallet =>
    some { s with own := s.own.setWallet wallet, wallets := s.wallets ++ [some wallet] }

/-! ## What every step keeps -/

/-- No key of a replaced wallet is used: a valid key reaches the module's own resolver while its
wallet is the active one (`key`), and no read that started later goes through the inner factory after
a swap (`inner`). -/
structure NoStaleKey (s : CallerModule W) (e : CallerEvent W) : Prop where
  key : ∀ i pk request wallet, e = .publicKey i (.ok (some pk)) → s.requests[i]? = some request →
    request.phase = .waiting wallet → request.through = .own → validKey pk = true →
    s.own.activeWallet = some wallet
  inner : ∀ read before, e = .resolve read .factory → s.reads[read]? = some before →
    s.factory.activeWallet ∈ s.wallets.drop before

structure Sound (s : CallerModule W) : Prop where
  last : ∃ l, s.wallets = l ++ [s.own.activeWallet]
  reads : ∀ before ∈ s.reads, before < s.wallets.length
  resolvers : ∀ through, (s.resolver through).Sound
  waiting : ∀ request ∈ s.requests, ∀ wallet, request.phase = .waiting wallet →
    some wallet ∈ request.since ∧ (request.through = .factory → s.factory.activeWallet = some wallet)
  used : ∀ request ∈ s.requests, ∀ o, request.phase = .used o → o.From request.since

section Sound

variable {config : CallerConfig W} {s s' : CallerModule W} {e : CallerEvent W} {through : Through}
  {r : Resolver W}

@[simp] theorem resolver_setResolver (t : Through) :
    (s.setResolver r through).resolver t = if t = through then r else s.resolver t := by
  cases through <;> cases t <;> rfl

theorem setResolver_wallets : (s.setResolver r through).wallets = s.wallets := by
  cases through <;> rfl

theorem setResolver_reads : (s.setResolver r through).reads = s.reads := by
  cases through <;> rfl

/-- A resolver may be changed for one of the same wallet. -/
theorem Sound.setResolver (h : s.Sound) (hr : r.Sound)
    (hactive : r.activeWallet = (s.resolver through).activeWallet)
    {requests : List (CallerRequest W)}
    (hrequests : ∀ request ∈ requests, request ∈ s.requests ∨
      (∀ wallet, request.phase = .waiting wallet → some wallet ∈ request.since ∧
        (request.through = .factory → s.factory.activeWallet = some wallet)) ∧
      ∀ o, request.phase = .used o → o.From request.since) :
    ({ s.setResolver r through with requests := requests } : CallerModule W).Sound := by
  have hown : (s.setResolver r through).own.activeWallet = s.own.activeWallet := by
    cases through <;> [exact hactive; rfl]
  have hfactory : (s.setResolver r through).factory.activeWallet = s.factory.activeWallet := by
    cases through <;> [rfl; exact hactive]
  refine ⟨?_, ?_, ?_, ?_, ?_⟩
  · simpa only [setResolver_wallets, hown] using h.last
  · simpa only [setResolver_wallets, setResolver_reads] using h.reads
  · intro t
    show ((s.setResolver r through).resolver t).Sound
    rw [resolver_setResolver]
    split_ifs
    · exact hr
    · exact h.resolvers t
  · intro request hmem wallet hp
    simp only [hfactory]
    rcases hrequests request hmem with hmem | ⟨hw, -⟩
    · exact h.waiting request hmem wallet hp
    · exact hw wallet hp
  · intro request hmem o hp
    rcases hrequests request hmem with hmem | ⟨-, ho⟩
    · exact h.used request hmem o hp
    · exact ho o hp

/-- The active wallet is one of those since any read started. -/
theorem Sound.active_mem (h : s.Sound) {before : ℕ} (hb : before < s.wallets.length) :
    s.own.activeWallet ∈ s.wallets.drop before := by
  obtain ⟨l, hl⟩ := h.last
  rw [hl, List.drop_append_of_le_length]
  · simp
  · rw [hl, List.length_append, List.length_singleton] at hb
    omega

theorem Sound.resolve (h : s.Sound) {read : ℕ} (hok : s.NoStaleKey (.resolve read through))
    (hs : s.resolve config read through = some s') : s'.Sound := by
  simp only [CallerModule.resolve, Option.bind_eq_bind, Option.bind_eq_some_iff] at hs
  obtain ⟨before, hb, hs⟩ := hs
  split_ifs at hs
  cases hs
  have hactive : (s.resolver through).activeWallet ∈ s.wallets.drop before := by
    cases through with
    | own => exact h.active_mem (h.reads before (List.mem_of_getElem? hb))
    | factory => exact hok.inner read before rfl hb
  have hr := h.resolvers through
  refine h.setResolver (Resolver.sound_resolve hr) Resolver.resolve_activeWallet ?_
  intro request hmem
  refine (List.mem_append.mp hmem).imp_right fun hmem => ?_
  rw [List.mem_singleton.mp hmem]
  rcases Resolver.resolve_from config hr hactive with ⟨o, heq, ho⟩ | ⟨w, heq, hw⟩
  · rw [heq]
    refine ⟨fun wallet hp => (by cases hp), fun o' hp => ?_⟩
    cases hp
    exact ho
  · rw [heq]
    refine ⟨fun wallet hp => ?_, fun o hp => by cases hp⟩
    cases hp
    refine ⟨by rwa [hw] at hactive, ?_⟩
    rintro rfl
    exact hw

theorem Sound.publicKey (h : s.Sound) {i : ℕ} {r : Except Thrown (Option String)}
    (hok : s.NoStaleKey (.publicKey i r)) (hs : s.publicKey i r = some s') : s'.Sound := by
  simp only [CallerModule.publicKey, Option.bind_eq_bind, Option.bind_eq_some_iff] at hs
  obtain ⟨request, hi, hs⟩ := hs
  have hmem := List.mem_of_getElem? hi
  split at hs
  · cases hs
    refine ⟨h.last, h.reads, h.resolvers, ?_, ?_⟩
    · intro request' hmem' wallet hp
      rcases List.mem_or_eq_of_mem_set hmem' with hmem' | rfl
      · exact h.waiting request' hmem' wallet hp
      · cases hp
    · intro request' hmem' o hp
      rcases List.mem_or_eq_of_mem_set hmem' with hmem' | rfl
      · exact h.used request' hmem' o hp
      · cases hp
  · rename_i wallet pk hp
    cases hs
    obtain ⟨hsince, hfactory⟩ := h.waiting request hmem wallet hp
    refine h.setResolver ?_ Resolver.receive_activeWallet ?_
    · refine Resolver.sound_receive (h.resolvers _) fun key hkey hvalid => ?_
      subst hkey
      cases hthrough : request.through with
      | own => exact hok.key i key request wallet rfl hi hp hthrough hvalid
      | factory => exact hfactory hthrough
    · intro request' hmem'
      refine (List.mem_or_eq_of_mem_set hmem').imp_right fun heq => ?_
      subst heq
      refine ⟨fun wallet' hp' => (by cases hp'), fun o ho => ?_⟩
      cases ho
      exact Resolver.receive_from hsince pk
  · cases hs

theorem Sound.step (h : s.Sound) (hok : s.NoStaleKey e) (hs : s.step config e = some s') :
    s'.Sound := by
  cases e with
  | read =>
    cases hs
    refine ⟨h.last, ?_, h.resolvers, h.waiting, h.used⟩
    intro before hb
    rcases List.mem_append.mp hb with hb | hb
    · exact h.reads before hb
    · obtain ⟨l, hl⟩ := h.last
      rw [List.mem_singleton.mp hb, hl]
      simp
  | resolve read through => exact h.resolve hok hs
  | publicKey i r => exact h.publicKey hok hs
  | setWallet wallet =>
    cases hs
    refine ⟨⟨s.wallets, rfl⟩, ?_, ?_, h.waiting, h.used⟩
    · intro before hb
      have := h.reads before hb
      rw [List.length_append]
      omega
    · intro t
      cases t with
      | own => exact fun o ho => by cases ho
      | factory => exact h.resolvers .factory

theorem sound_init (config : CallerConfig W) : (init config).Sound where
  last := ⟨[], rfl⟩
  reads before hb := by cases hb
  resolvers t := by cases t <;> exact fun o ho => by cases ho
  waiting request hmem := by cases hmem
  used request hmem := by cases hmem

/-- Every caller address is `ZERO_ADDR` or of a wallet that was active since the call started, and
the cached one is the active wallet's. -/
structure FollowsWallet (s : CallerModule W) : Prop where
  used : ∀ request ∈ s.requests, ∀ o, request.phase = .used o → o.From request.since
  cached : s.own.Sound

/-- **Callers follow the wallet**, in the runs where no key of a replaced wallet is used. -/
theorem callers_follow_wallet {log : List (CallerEvent W)}
    (hok : EachStep (CallerModule.step config) NoStaleKey (init config) log)
    (h : run (CallerModule.step config) (init config) log = some s) : s.FollowsWallet := by
  have hsound : s.Sound := run_induction_of (P := fun s _ => s.Sound) (sound_init config)
    (fun _ _ _ _ hP hok hs => hP.step hok hs) hok h
  exact ⟨hsound.used, hsound.resolvers .own⟩

end Sound

def twoWallets : CallerConfig ℕ := { kind := .streams, wallet := some 1 }

def checkKey (s : CallerModule ℕ) : CallerEvent ℕ → Bool
  | .publicKey i _ => s.requests[i]?.all fun request => match request.phase with
    | .waiting wallet => decide (s.own.activeWallet = some wallet)
    | _ => true
  | .resolve _ .factory => false
  | _ => true

/-- Each wallet is asked and answers before the next swap. -/
def swapBetween : List (CallerEvent ℕ) :=
  [.read, .resolve 0 .own, .publicKey 0 (.ok (some "GOLD")), .setWallet 2, .read, .resolve 1 .own,
    .publicKey 1 (.ok (some "GNEW"))]

theorem callers_follow_wallet_swap : ∃ s,
    run (step twoWallets) (init twoWallets) swapBetween = some s ∧ s.FollowsWallet := by
  obtain ⟨s, hs⟩ := Option.isSome_iff_exists.mp (by decide :
    (run (step twoWallets) (init twoWallets) swapBetween).isSome = true)
  have hcheck : ∀ s e, checkKey s e = true → s.NoStaleKey e := by
    intro s e h
    constructor
    · rintro i pk request wallet rfl hi hp hthrough hvalid
      rw [checkKey, hi, Option.all_some, hp] at h
      exact of_decide_eq_true h
    · rintro read before rfl hb
      cases h
  exact ⟨s, hs, callers_follow_wallet (.of_allSteps hcheck (by decide)) hs⟩

/-- The first wallet answers after the swap, and the next call uses its key. -/
def swapDuring : List (CallerEvent ℕ) :=
  [.read, .resolve 0 .own, .setWallet 2, .publicKey 0 (.ok (some "GOLD")), .read, .resolve 1 .own]

theorem stale_caller : ¬ ∀ log s, run (step twoWallets) (init twoWallets) log = some s →
    s.FollowsWallet := by
  intro h
  obtain ⟨s, hs, hrun⟩ := Option.map_eq_some_iff.mp (by decide :
    (run (step twoWallets) (init twoWallets) swapDuring).map (fun s =>
      s.requests[1]?.map fun request => (request.since, match request.phase with
        | .used o => some o
        | _ => none)) =
      some (some ([some 2], some { addr := "GOLD", source := some 1 })))
  obtain ⟨request, hi, heq⟩ := Option.map_eq_some_iff.mp hrun
  obtain ⟨hsince, hp⟩ := Prod.mk.inj heq
  cases hphase : request.phase with
  | used o =>
    rw [hphase] at hp
    cases hp
    have := (h swapDuring s hs).used request (List.mem_of_getElem? hi) _ hphase
    rw [hsince] at this
    exact absurd this (by simp [Obtained.From, zeroAddr])
  | waiting wallet | threw err =>
    rw [hphase] at hp
    cases hp

end CallerModule

end StreamFi
