import TypedTx.Proofs.Transaction.Rules
import TypedTx.Transaction.Build

/-!
# Valid transactions

`Transaction.Valid` states the construction rules of a finished transaction,
relative to the registry that it is bound to at the moment. A draft passes the
requirements of its kind exactly when the transaction it is assembled to is valid
and the chain id it names, if any, is the registry's.
-/

namespace TypedTx

/-- The gas price, or the fee cap of a fee market. -/
def Terms.feeCap : Terms → Word
  | .legacy gasPrice => gasPrice
  | .accessList _ gasPrice _ => gasPrice
  | .feeMarket market | .priority market _ => market.maxFeePerGas

/-- The terms of a fee market, for the kinds that have one. -/
def Terms.market? : Terms → Option MarketTerms
  | .legacy _ | .accessList .. => none
  | .feeMarket market | .priority market _ => some market

/-- The upgrades that a registry must have in force for a kind: typed transactions as such,
and the one that introduced the kind. -/
def Kind.Needs (kind : Kind) (eip : Nat) : Prop :=
  match kind with
  | .legacy => False
  | .accessList => eip = 2718 ∨ eip = 2930
  | .feeMarket | .priority => eip = 2718 ∨ eip = 1559

theorem Kind.mem_requiredEips_iff {kind : Kind} {eip : Nat} :
    eip ∈ kind.requiredEips ↔ kind.Needs eip := by
  cases kind <;> simp [requiredEips, Needs]

/-- An `s` is at most half the order of the curve once low values are required. -/
def Registry.AdmitsS (registry : Registry) (s : Word) : Prop :=
  registry.isActive 2 = true → s ≤ Secp256k1.halfOrder

/-- A typed signature has the bare parity as its `v`. -/
def Kind.AdmitsV (kind : Kind) (registry : Registry) (v : Word) : Prop :=
  match kind with
  | .legacy => registry.AdmitsV v
  | _ => v ≤ 1

/-- The second signature is there if and only if the first one is, and follows the
same rules. -/
structure SignatureParts.IsSecondOf (second first : SignatureParts) (registry : Registry) :
    Prop where
  together : first.isAbsent = second.isAbsent
  parity : ∀ v ∈ second.v, v ≤ 1
  lowS : ∀ s ∈ second.s, registry.AdmitsS s

namespace Transaction

/-- The construction rules hold with respect to the registry of the transaction. -/
structure Valid (t : Transaction) : Prop where
  upgrades : ∀ eip, t.kind.Needs eip → t.registry.isActive eip = true
  chainId : t.kind.isTyped = true → t.chainId? = some t.registry.chainId
  parity : ∀ v ∈ t.signature.v, t.kind.AdmitsV t.registry v
  lowS : ∀ s ∈ t.signature.s, t.registry.AdmitsS s
  initCode : t.recipient = none → t.unlimitedInitCode = false →
    t.registry.isActive 3860 = true → t.data.length ≤ 49152
  feeBound : t.gasLimit.toNat * t.terms.feeCap.toNat ≤ 2 ^ 256 - 1
  feeOrder : ∀ market ∈ t.terms.market?, market.maxPriorityFeePerGas ≤ market.maxFeePerGas
  second : ∀ second ∈ t.secondSignature?, second.IsSecondOf t.signature t.registry

/-- Whether a transaction is frozen and what it remembers do not matter. -/
theorem Valid.withState {t : Transaction} (h : t.Valid) (frozen : Bool)
    (hashCache : ForkCache Digest) (dataFeeCache : ForkCache Word) :
    ({ t with frozen, hashCache, dataFeeCache } : Transaction).Valid where
  upgrades := h.upgrades
  chainId := h.chainId
  parity := h.parity
  lowS := h.lowS
  initCode := h.initCode
  feeBound := h.feeBound
  feeOrder := h.feeOrder
  second := h.second

end Transaction

namespace Kind

variable {kind : Kind} {registry : Registry} {o : Options} {d : Draft} {t : Transaction}

/-- A typed draft that names a chain id names the registry's. -/
def MatchesChain (kind : Kind) (registry : Registry) (d : Draft) : Prop :=
  kind.isTyped = true → ∀ id ∈ d.chainId, id = Word.ofUInt64 registry.chainId

@[simp] theorem kind_terms : (kind.terms registry d).kind = kind := by
  cases kind <;> rfl

@[simp] theorem kind_assemble : (kind.assemble registry o d).kind = kind :=
  kind_terms

theorem chainId?_assemble (h : kind.isTyped = true) :
    (kind.assemble registry o d).chainId? = some registry.chainId := by
  cases kind with
  | legacy => exact absurd h (by decide)
  | accessList => rfl
  | feeMarket => rfl
  | priority => rfl

theorem requireChain_iff :
    kind.requireChain registry d = .ok () ↔
      (∀ eip, kind.Needs eip → registry.isActive eip = true) ∧
        kind.MatchesChain registry d ∧ ∀ v ∈ d.v, kind.AdmitsV registry v := by
  change (requireEips _ _ >>= _) = _ ↔ _
  rw [Success.seq_iff, requireEips_iff]
  simp only [mem_requiredEips_iff]
  cases kind with
  | legacy =>
      simp only [requireSome_iff, requireLegacyV_iff]
      refine and_congr_right fun _ => ?_
      constructor
      · intro hv
        exact ⟨nofun, hv⟩
      · intro h
        exact h.2
  | accessList | feeMarket | priority =>
      simp only [Success.seq_iff, requireSome_iff, requireParity_iff, requireChainId_iff]
      refine and_congr_right fun _ => ?_
      constructor
      · rintro ⟨hchain, hv⟩
        exact ⟨fun _ => hchain, hv⟩
      · rintro ⟨hchain, hv⟩
        exact ⟨hchain rfl, hv⟩

theorem requireFees_iff :
    kind.requireFees d = .ok () ↔
      (d.gasLimit.getD 0).toNat * (kind.terms registry d).feeCap.toNat < 2 ^ 256 ∧
        ∀ market ∈ (kind.terms registry d).market?,
          market.maxPriorityFeePerGas ≤ market.maxFeePerGas := by
  change (requireFeeBound _ _ _ >>= _) = _ ↔ _
  rw [Success.seq_iff, requireFeeBound_iff]
  cases kind with
  | legacy | accessList =>
      refine and_congr_right fun _ => ?_
      constructor
      · intro _
        exact nofun
      · intro _
        rfl
  | feeMarket | priority =>
      refine and_congr_right fun _ => requireFeeOrder_iff.trans ?_
      constructor
      · intro horder market hmarket
        exact Option.some.inj hmarket ▸ horder
      · intro h
        exact h _ rfl

theorem requireSecond_iff :
    kind.requireSecond registry d = .ok () ↔
      ∀ second ∈ (kind.assemble registry o d).secondSignature?,
        second.IsSecondOf d.signature registry := by
  cases kind with
  | legacy | accessList | feeMarket =>
      constructor
      · intro _
        exact nofun
      · intro _
        rfl
  | priority =>
      rw [requireSecond, Success.seq_iff, Success.seq_iff, requireBothSets_iff, requireSome_iff,
        requireSome_iff]
      simp only [requireParity_iff, requireLowS_iff]
      constructor
      · rintro ⟨htogether, hparity, hlow⟩ second hsecond
        exact Option.some.inj hsecond ▸ ⟨htogether, hparity, hlow⟩
      · intro h
        obtain ⟨htogether, hparity, hlow⟩ := h _ rfl
        exact ⟨htogether, hparity, hlow⟩

/-- The requirements on a draft are the rules of the transaction it is assembled
to. -/
theorem requireValid_iff :
    kind.requireValid registry o d = .ok () ↔
      kind.MatchesChain registry d ∧ (kind.assemble registry o d).Valid := by
  rw [requireValid, Success.seq_iff, Success.seq_iff, Success.seq_iff, Success.seq_iff,
    requireChain_iff, requireInitCode_iff, requireSome_iff, requireFees_iff,
    requireSecond_iff (o := o)]
  simp only [requireLowS_iff]
  constructor
  · rintro ⟨⟨hupgrades, hchain, hparity⟩, hinit, hlow, ⟨hbound, horder⟩, hsecond⟩
    refine ⟨hchain, ?_⟩
    exact
      { upgrades := by rwa [kind_assemble]
        chainId := by rw [kind_assemble]; exact chainId?_assemble
        parity := by rwa [kind_assemble]
        lowS := hlow
        initCode := hinit
        feeBound := Nat.le_sub_one_of_lt hbound
        feeOrder := horder
        second := hsecond }
  · rintro ⟨hchain, hvalid⟩
    have hupgrades := hvalid.upgrades
    have hparity := hvalid.parity
    rw [kind_assemble] at hupgrades hparity
    refine ⟨⟨hupgrades, hchain, hparity⟩, hvalid.initCode, hvalid.lowS, ⟨?_, hvalid.feeOrder⟩,
      hvalid.second⟩
    exact Nat.lt_of_le_sub_one (by decide) hvalid.feeBound

theorem construct_eq_ok_iff :
    kind.construct d o = .ok t ↔
      ∃ registry, o.resolve (kind.committedChainId d) = .ok registry ∧
        kind.requireValid registry o d = .ok () ∧ kind.assemble registry o d = t := by
  rw [construct, Success.bind_iff]
  simp only [Success.seq_iff, Except.ok.injEq]

theorem build_eq_ok_iff :
    kind.build d o = .ok t ↔
      ∃ registry, o.resolve (kind.committedChainId d) = .ok registry ∧
        kind.requireValid registry o d = .ok () ∧ kind.assemble registry o d = t := by
  rw [build, Success.annotate_iff, construct_eq_ok_iff]

theorem buildValues_eq_ok_iff {values : List Rlp.Item} :
    kind.buildValues values o = .ok t ↔
      ∃ d, Draft.ofItems kind values = .ok d ∧ kind.build d o = .ok t := by
  rw [buildValues, Success.bind_iff]
  simp only [Success.annotate_iff]

theorem decode_eq_ok_iff {input : Bytes} :
    kind.decode input o = .ok t ↔
      ∃ values, kind.unframe input = .ok values ∧ kind.buildValues values o = .ok t := by
  rw [decode, Success.bind_iff]
  simp only [Success.annotate_iff]

theorem kind_of_build (h : kind.build d o = .ok t) : t.kind = kind := by
  obtain ⟨registry, -, -, rfl⟩ := build_eq_ok_iff.mp h
  exact kind_assemble

/-- Whatever is built is valid. -/
theorem valid_of_build (h : kind.build d o = .ok t) : t.Valid := by
  obtain ⟨registry, -, hvalid, rfl⟩ := build_eq_ok_iff.mp h
  exact (requireValid_iff.mp hvalid).2

end Kind
end TypedTx
