import TypedTx.Proofs.Draft.Layout
import TypedTx.Proofs.Transaction.Validity

/-!
# Which drafts are accepted

Under a given registry, a draft is accepted as a transaction of a kind exactly if it
meets `Kind.Accepts`, which speaks of nothing but its fields, the registry and whether
the limit on initcode is waived. Whatever the kind does not write to the wire is not
looked at either: drafts that agree on the fields of the kind give the same transaction,
or the same failure.
-/

namespace TypedTx

namespace Kind

variable {kind : Kind} {registry : Registry} {o : Options} {d : Draft}

/-- Whether fees have a cap for the tip besides the cap of the whole fee. -/
def hasTip : Kind → Bool
  | .legacy | .accessList => false
  | .feeMarket | .priority => true

/-- What is paid for a unit of gas at most. An absent fee counts as zero. -/
def gasFee (kind : Kind) (d : Draft) : Word :=
  (if kind.hasTip then d.maxFeePerGas else d.gasPrice).getD 0

structure Accepts (kind : Kind) (registry : Registry) (unlimitedInitCode : Bool) (d : Draft) :
    Prop where
  upgrades : ∀ eip, kind.Needs eip → registry.isActive eip = true
  chainId : kind.isTyped = true → ∀ id ∈ d.chainId, id = Word.ofUInt64 registry.chainId
  parity : ∀ v ∈ d.v, kind.AdmitsV registry v
  initCode : d.recipient = none → unlimitedInitCode = false → registry.isActive 3860 = true →
    (d.data.getD []).length ≤ 49152
  lowS : ∀ s ∈ d.s, registry.AdmitsS s
  feeBound : (d.gasLimit.getD 0).toNat * (kind.gasFee d).toNat < 2 ^ 256
  feeOrder : kind.hasTip = true → d.maxPriorityFeePerGas.getD 0 ≤ d.maxFeePerGas.getD 0
  second : kind = .priority → d.secondSignature.IsSecondOf d.signature registry

theorem feeCap_terms (kind : Kind) (registry : Registry) (d : Draft) :
    (kind.terms registry d).feeCap = kind.gasFee d := by
  cases kind <;> rfl

theorem requireFees_iff_gasFee :
    kind.requireFees d = .ok () ↔
      (d.gasLimit.getD 0).toNat * (kind.gasFee d).toNat < 2 ^ 256 ∧
        (kind.hasTip = true → d.maxPriorityFeePerGas.getD 0 ≤ d.maxFeePerGas.getD 0) := by
  rw [@requireFees_iff kind .standard, feeCap_terms]
  refine and_congr_right fun _ => ?_
  cases kind with
  | legacy | accessList => exact iff_of_true nofun nofun
  | feeMarket | priority =>
      constructor
      · intro horder _
        exact horder _ rfl
      · intro horder market hmarket
        exact Option.some.inj hmarket ▸ horder rfl

theorem requireSecond_iff_of_priority :
    kind.requireSecond registry d = .ok () ↔
      (kind = .priority → d.secondSignature.IsSecondOf d.signature registry) := by
  rw [requireSecond_iff (o := {})]
  cases kind with
  | legacy | accessList | feeMarket => exact iff_of_true nofun nofun
  | priority =>
      constructor
      · intro hsecond _
        exact hsecond _ rfl
      · intro hsecond second hmem
        exact Option.some.inj hmem ▸ hsecond rfl

theorem requireValid_iff_accepts :
    kind.requireValid registry o d = .ok () ↔ kind.Accepts registry o.unlimitedInitCode d := by
  rw [requireValid, Success.seq_iff, Success.seq_iff, Success.seq_iff, Success.seq_iff,
    requireChain_iff, requireInitCode_iff, requireSome_iff, requireFees_iff_gasFee,
    requireSecond_iff_of_priority]
  simp only [requireLowS_iff]
  constructor
  · rintro ⟨⟨hupgrades, hchain, hparity⟩, hinit, hlow, ⟨hbound, horder⟩, hsecond⟩
    exact ⟨hupgrades, hchain, hparity, hinit, hlow, hbound, horder, hsecond⟩
  · rintro ⟨hupgrades, hchain, hparity, hinit, hlow, hbound, horder, hsecond⟩
    exact ⟨⟨hupgrades, hchain, hparity⟩, hinit, hlow, ⟨hbound, horder⟩, hsecond⟩

theorem exists_build_iff_accepts (ho : o.registry = some registry) :
    (∃ t, kind.build d o = .ok t) ↔ kind.Accepts registry o.unlimitedInitCode d := by
  have hresolve : o.resolve (kind.committedChainId d) = .ok registry := by
    rw [Options.resolve.eq_def, ho]
  constructor
  · rintro ⟨t, h⟩
    obtain ⟨found, hfound, hvalid, -⟩ := build_eq_ok_iff.mp h
    obtain rfl := Except.ok.inj (hresolve.symm.trans hfound)
    exact requireValid_iff_accepts.mp hvalid
  · intro h
    exact ⟨_, build_eq_ok_iff.mpr ⟨registry, hresolve, requireValid_iff_accepts.mpr h, rfl⟩⟩

end Kind

structure Draft.AgreesOn (d : Draft) (fields : List Field) (e : Draft) : Prop where
  quantity : ∀ q, .quantity q ∈ fields → d.get q = e.get q
  recipient : .recipient ∈ fields → d.recipient = e.recipient
  data : .data ∈ fields → d.data = e.data
  accessList : .accessList ∈ fields → d.accessList = e.accessList

theorem Draft.AgreesOn.mono {d e : Draft} {fields gs : List Field} (h : d.AgreesOn fields e)
    (hsub : ∀ g ∈ gs, g ∈ fields) : d.AgreesOn gs e where
  quantity q hq := h.quantity q (hsub _ hq)
  recipient hmem := h.recipient (hsub _ hmem)
  data hmem := h.data (hsub _ hmem)
  accessList hmem := h.accessList (hsub _ hmem)

namespace Kind

def commonFields : List Field :=
  [.quantity .nonce, .quantity .gasLimit, .recipient, .quantity .value, .data, .quantity .v,
   .quantity .r, .quantity .s]

variable {kind : Kind} {registry : Registry} {o : Options} {d e : Draft}

section Agreement

variable (h : d.AgreesOn (kind.fields true) e)

include h

theorem agreesOn_common : d.AgreesOn commonFields e := by
  apply h.mono
  cases kind <;> decide

theorem signature_eq_of_agreesOn : d.signature = e.signature := by
  have hcommon := agreesOn_common h
  have hv : d.v = e.v := hcommon.quantity .v (by decide)
  have hr : d.r = e.r := hcommon.quantity .r (by decide)
  have hs : d.s = e.s := hcommon.quantity .s (by decide)
  rw [Draft.signature, Draft.signature, hv, hr, hs]

theorem secondSignature_eq_of_agreesOn (hkind : kind = .priority) :
    d.secondSignature = e.secondSignature := by
  subst hkind
  have hv : d.pV = e.pV := h.quantity .pV (by decide)
  have hr : d.pR = e.pR := h.quantity .pR (by decide)
  have hs : d.pS = e.pS := h.quantity .pS (by decide)
  rw [Draft.secondSignature, Draft.secondSignature, hv, hr, hs]

theorem marketFees_eq_of_agreesOn (hkind : kind.hasTip = true) :
    d.maxFeePerGas = e.maxFeePerGas ∧ d.maxPriorityFeePerGas = e.maxPriorityFeePerGas := by
  cases kind with
  | legacy | accessList => exact absurd hkind (by decide)
  | feeMarket | priority =>
      exact ⟨h.quantity .maxFeePerGas (by decide), h.quantity .maxPriorityFeePerGas (by decide)⟩

theorem requireChain_congr : kind.requireChain registry d = kind.requireChain registry e := by
  have hv : d.v = e.v := congrArg SignatureParts.v (signature_eq_of_agreesOn h)
  cases kind with
  | legacy => rw [requireChain, requireChain, hv]
  | accessList | feeMarket | priority =>
      have hid : d.chainId = e.chainId := h.quantity .chainId (by decide)
      rw [requireChain.eq_def, requireChain.eq_def, hv, hid]

theorem requireFees_congr : kind.requireFees d = kind.requireFees e := by
  have hgas : d.gasLimit = e.gasLimit := (agreesOn_common h).quantity .gasLimit (by decide)
  cases kind with
  | legacy | accessList =>
      have hprice : d.gasPrice = e.gasPrice := h.quantity .gasPrice (by decide)
      rw [requireFees, requireFees, feeCap, feeCap, hgas, hprice]
  | feeMarket | priority =>
      obtain ⟨hcap, htip⟩ := marketFees_eq_of_agreesOn h rfl
      rw [requireFees, requireFees, feeCap, feeCap, hgas, hcap, htip]

theorem requireSecond_congr : kind.requireSecond registry d = kind.requireSecond registry e := by
  cases kind with
  | legacy | accessList | feeMarket => rfl
  | priority =>
      have hfirst := signature_eq_of_agreesOn h
      have hsecond := secondSignature_eq_of_agreesOn h rfl
      have hv : d.pV = e.pV := congrArg SignatureParts.v hsecond
      have hs : d.pS = e.pS := congrArg SignatureParts.s hsecond
      rw [requireSecond, requireSecond, hfirst, hsecond, hv, hs]

theorem requireValid_congr :
    kind.requireValid registry o d = kind.requireValid registry o e := by
  have hcommon := agreesOn_common h
  have hto : d.recipient = e.recipient := hcommon.recipient (by decide)
  have hdata : d.data = e.data := hcommon.data (by decide)
  have hs : d.s = e.s := hcommon.quantity .s (by decide)
  have hinit : requireInitCode registry o d = requireInitCode registry o e := by
    rw [requireInitCode, requireInitCode, hto, hdata]
  rw [requireValid, requireValid, requireChain_congr h, hinit, hs, requireFees_congr h,
    requireSecond_congr h]

theorem terms_congr : kind.terms registry d = kind.terms registry e := by
  cases kind with
  | legacy =>
      have hprice : d.gasPrice = e.gasPrice := h.quantity .gasPrice (by decide)
      rw [terms, terms, hprice]
  | accessList =>
      have hprice : d.gasPrice = e.gasPrice := h.quantity .gasPrice (by decide)
      have hlist : d.accessList = e.accessList := h.accessList (by decide)
      rw [terms, terms, hprice, hlist]
  | feeMarket =>
      obtain ⟨hcap, htip⟩ := marketFees_eq_of_agreesOn h rfl
      have hlist : d.accessList = e.accessList := h.accessList (by decide)
      rw [terms, terms, hcap, htip, hlist]
  | priority =>
      obtain ⟨hcap, htip⟩ := marketFees_eq_of_agreesOn h rfl
      have hlist : d.accessList = e.accessList := h.accessList (by decide)
      rw [terms, terms, hcap, htip, hlist, secondSignature_eq_of_agreesOn h rfl]

theorem assemble_congr : kind.assemble registry o d = kind.assemble registry o e := by
  have hcommon := agreesOn_common h
  have hnonce : d.nonce = e.nonce := hcommon.quantity .nonce (by decide)
  have hgas : d.gasLimit = e.gasLimit := hcommon.quantity .gasLimit (by decide)
  have hto : d.recipient = e.recipient := hcommon.recipient (by decide)
  have hvalue : d.value = e.value := hcommon.quantity .value (by decide)
  have hdata : d.data = e.data := hcommon.data (by decide)
  rw [assemble, assemble, hnonce, hgas, hto, hvalue, hdata, terms_congr h,
    signature_eq_of_agreesOn h]

/-- With a registry in the options, the fields of the kind are all that is read. The
chain id of a legacy draft is read as well otherwise. -/
theorem build_congr (ho : o.registry = some registry) : kind.build d o = kind.build e o := by
  have hcommon := agreesOn_common h
  have hnonce : d.nonce = e.nonce := hcommon.quantity .nonce (by decide)
  have hto : d.recipient = e.recipient := hcommon.recipient (by decide)
  have hresolve (found : Option Word) : o.resolve found = .ok registry := by
    rw [Options.resolve.eq_def, ho]
  have hconstruct : kind.construct d o = kind.construct e o := by
    rw [construct, construct, hresolve, hresolve]
    change (kind.requireValid registry o d >>= _) = (kind.requireValid registry o e >>= _)
    rw [requireValid_congr h, assemble_congr h]
  rw [build, build, hconstruct, hnonce, hto]

end Agreement

/-- Under a registry in the options, a draft is accepted exactly if it meets the
conditions, and no field that the kind does not have has any influence on the result. -/
theorem build_iff_accepts (kind : Kind) (d : Draft) (registry : Registry)
    (freeze unlimitedInitCode : Bool) :
    let o : Options := ⟨some registry, freeze, unlimitedInitCode⟩
    ((∃ t, kind.build d o = .ok t) ↔ kind.Accepts registry unlimitedInitCode d) ∧
      ∀ e : Draft, e.AgreesOn (kind.fields true) d → kind.build e o = kind.build d o := by
  intro o
  refine ⟨exists_build_iff_accepts rfl, ?_⟩
  intro e he
  exact build_congr he rfl

/-- A signed legacy draft on chain 5, without and with fields of other kinds. -/
theorem build_iff_accepts_of_foreign_fields :
    let o : Options := ⟨some (.ofChainId 5), true, false⟩
    let d : Draft := { v := some 45, r := some 1, s := some 1 }
    let e : Draft :=
      { d with
        kind := some .priority, chainId := some 1, maxPriorityFeePerGas := some 1,
        accessList := some [], pV := some 2 }
    (∃ t, Kind.legacy.build d o = .ok t) ∧ Kind.legacy.build e o = Kind.legacy.build d o := by
  intro o d e
  have haccepts : Kind.legacy.Accepts (.ofChainId 5) false d :=
    { upgrades := nofun
      chainId := nofun
      parity := by
        intro v hv
        obtain rfl := Option.some.inj hv
        exact .inr (.inr ⟨by decide, 0, by decide, rfl⟩)
      initCode := fun _ _ _ => Nat.zero_le _
      lowS := by
        intro s hs _
        obtain rfl := Option.some.inj hs
        decide
      feeBound := by decide
      feeOrder := nofun
      second := nofun }
  have hagrees : e.AgreesOn (Kind.legacy.fields true) d :=
    { quantity := by
        intro q hq
        cases q <;> first | rfl | exact absurd hq (by decide)
      recipient := fun _ => rfl
      data := fun _ => rfl
      accessList := fun hmem => absurd hmem (by decide) }
  obtain ⟨hiff, hforeign⟩ := build_iff_accepts .legacy d (.ofChainId 5) true false
  exact ⟨hiff.mpr haccepts, hforeign e hagrees⟩

end Kind
end TypedTx
