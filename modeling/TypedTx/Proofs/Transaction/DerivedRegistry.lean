import TypedTx.Proofs.Transaction.Caches
import TypedTx.Proofs.Transaction.OtherChain
import TypedTx.Proofs.Transaction.Signing

/-!
# Registries that are derived from a chain id

Options without a registry stand for the registry of the chain id that the fields tell,
or for the standard one if they tell none. Registries of this kind differ in the chain
alone, so a transaction that is valid under one of them is valid under the one that is
derived for its own fields. The two are the same if the fields tell the chain: a typed
transaction has it as a field and a replay-protected legacy signature has it inside `v`.
Signing makes a signature of that kind wherever replay protection is in force, which it
is in every derived registry.
-/

namespace TypedTx

namespace Registry

variable {registry : Registry}

/-- The registry is the one that its chain id stands for. -/
def IsDerived (registry : Registry) : Prop :=
  registry = ofChainId registry.chainId

theorem chainId_ofChainId (id : UInt64) : (ofChainId id).chainId = id := by
  rw [ofChainId]
  cases hchain : Chain.ofId? id with
  | none => rfl
  | some chain =>
      have hid := List.find?_some hchain
      exact of_decide_eq_true hid

theorem fork_ofChainId (id : UInt64) : (ofChainId id).fork = .standard := by
  rw [ofChainId]
  cases Chain.ofId? id <;> rfl

theorem eips_ofChainId (id : UInt64) : (ofChainId id).eips = [] := by
  rw [ofChainId]
  cases Chain.ofId? id <;> rfl

theorem isDerived_ofChainId (id : UInt64) : (ofChainId id).IsDerived := by
  rw [IsDerived, chainId_ofChainId]

theorem isDerived_standard : standard.IsDerived := rfl

/-- The standard upgrades are in force. -/
theorem IsDerived.isActive_eq (h : registry.IsDerived) : registry.isActive = standard.isActive := by
  rw [h]
  exact isActive_congr (fork_ofChainId _) (eips_ofChainId _)

/-- Signatures may be replay-protected. -/
theorem IsDerived.isActive_replay (h : registry.IsDerived) : registry.isActive 155 = true := by
  rw [h.isActive_eq]
  decide

/-- Of all derived registries, the standard one has chain id 1. -/
theorem IsDerived.eq_standard_iff (h : registry.IsDerived) :
    registry = standard ↔ registry.chainId = 1 := by
  constructor
  · rintro rfl
    rfl
  · intro hid
    rw [h, hid]
    rfl

end Registry

namespace Options

variable {o : Options} {registry : Registry} (ho : o.registry = none)

include ho

theorem resolve_none : o.resolve none = .ok .standard := by
  rw [resolve.eq_def, ho]

theorem resolve_some (found : Word) :
    o.resolve (some found) =
      match found.toUInt64? with
      | some id => .ok (.ofChainId id)
      | none => .error (.chainIdMismatch Registry.standard.chainId found) := by
  obtain ⟨supplied, freeze, unlimited⟩ := o
  obtain rfl : supplied = none := ho
  rfl

theorem resolve_ofUInt64 (id : UInt64) :
    o.resolve (some (Word.ofUInt64 id)) = .ok (.ofChainId id) := by
  have hid : (Word.ofUInt64 id).toUInt64? = some id := by
    rw [Word.toUInt64?, Word.toNat_ofUInt64, if_pos id.toNat_lt, UInt64.ofNat_toNat]
  rw [resolve_some ho, hid]

theorem isDerived_of_resolve {found : Option Word} (h : o.resolve found = .ok registry) :
    registry.IsDerived := by
  cases found with
  | none =>
      rw [resolve_none ho] at h
      rw [← Except.ok.inj h]
      exact Registry.isDerived_standard
  | some found =>
      rw [resolve_some ho] at h
      split at h
      · rw [← Except.ok.inj h]
        exact Registry.isDerived_ofChainId _
      · exact absurd h nofun

end Options

namespace Transaction

variable {t : Transaction} {registry : Registry} {o : Options}

/-- Whether the fields tell the chain. -/
def tellsChain (t : Transaction) : Bool :=
  t.kind.isTyped || t.signature.v.any fun v => 35 ≤ v

def derivedRegistry (t : Transaction) : Registry :=
  if t.tellsChain then t.registry else .standard

theorem tellsChain_of_isTyped (h : t.kind.isTyped = true) : t.tellsChain = true := by
  rw [tellsChain, h, Bool.true_or]

theorem tellsChain_of_legacy (h : t.kind = .legacy) :
    t.tellsChain = t.signature.v.any fun v => 35 ≤ v := by
  rw [tellsChain, h]
  rfl

theorem legacy_of_tellsChain_eq_false (h : t.tellsChain = false) : t.kind = .legacy := by
  obtain hlegacy | htyped := t.kind.eq_legacy_or_isTyped
  · exact hlegacy
  · rw [tellsChain_of_isTyped htyped] at h
    exact absurd h (by decide)

theorem committedChainId_of_isTyped {kind : Kind} (h : kind.isTyped = true) (d : Draft) :
    kind.committedChainId d = d.chainId := by
  cases kind with
  | legacy => exact absurd h (by decide)
  | accessList | feeMarket | priority => rfl

/-- The draft of a legacy transaction has no chain id but the one inside `v`. -/
theorem committedChainId_draft_of_legacy (h : t.kind = .legacy) :
    t.kind.committedChainId t.draft = Replay.chainId? t.signature.v := by
  obtain ⟨gasPrice, hterms⟩ := exists_terms_of_legacy h
  have hfield : t.draft.chainId = none := by
    rw [draft.eq_def, hterms]
  rw [h, Kind.committedChainId, hfield, Option.or_none, v_draft]

/-- The chain id that the draft of a valid transaction commits to is the one of its
registry, if there is one at all. -/
theorem committedChainId_draft (ht : t.Valid) :
    t.kind.committedChainId t.draft =
      if t.tellsChain then some (Word.ofUInt64 t.registry.chainId) else none := by
  obtain hlegacy | htyped := t.kind.eq_legacy_or_isTyped
  · rw [committedChainId_draft_of_legacy hlegacy, tellsChain_of_legacy hlegacy]
    cases hv : t.signature.v with
    | none => rfl
    | some v =>
        have hadmits : t.registry.AdmitsV v := by
          have hparity := ht.parity v hv
          rwa [hlegacy] at hparity
        simp only [hadmits.chainId?_eq, Option.any_some, decide_eq_true_eq]
  · rw [tellsChain_of_isTyped htyped, if_pos rfl, committedChainId_of_isTyped htyped,
      chainId_draft htyped, ht.chainId htyped, Option.map_some]

/-- The rules for a legacy transaction without replay protection look at nothing of the
registry but the upgrades in force. -/
theorem Valid.onRegistry (ht : t.Valid) (htells : t.tellsChain = false)
    (hactive : registry.isActive = t.registry.isActive) :
    ({ t with registry } : Transaction).Valid := by
  have hlegacy : t.kind = .legacy := legacy_of_tellsChain_eq_false htells
  obtain ⟨gasPrice, hterms⟩ := exists_terms_of_legacy hlegacy
  exact
    { upgrades := by
        change ∀ eip, t.kind.Needs eip → _
        rw [hlegacy]
        exact nofun
      chainId := by
        change t.kind.isTyped = true → _
        rw [hlegacy]
        intro htyped
        exact absurd htyped Bool.false_ne_true
      parity := by
        change ∀ v ∈ t.signature.v, t.kind.AdmitsV registry v
        intro v hv
        have hadmits := ht.parity v hv
        rw [tellsChain_of_legacy hlegacy, hv, Option.any_some, decide_eq_false_iff_not] at htells
        rw [hlegacy] at hadmits ⊢
        exact (Registry.AdmitsV.eq_of_not_le hadmits htells).imp_right .inl
      lowS := by
        intro s hs hrequired
        exact ht.lowS s hs (hactive ▸ hrequired)
      initCode := by
        intro hcreation hlimited hlimit
        exact ht.initCode hcreation hlimited (hactive ▸ hlimit)
      feeBound := ht.feeBound
      feeOrder := ht.feeOrder
      second := by
        change ∀ second ∈ t.secondSignature?, _
        rw [secondSignature?, hterms]
        intro second hsecond
        exact absurd hsecond (Option.not_mem_none second) }

/-- The transaction is one that construction under the options gives, if they name no
registry. -/
structure DerivedUnder (t : Transaction) (o : Options) : Prop where
  valid : t.Valid
  registry : t.registry.IsDerived
  frozen : t.frozen = o.freeze
  unlimitedInitCode : t.unlimitedInitCode = o.unlimitedInitCode
  uncached : t.uncached = t

theorem derivedUnder_of_build (ho : o.registry = none) {kind : Kind} {d : Draft}
    (h : kind.build d o = .ok t) : t.DerivedUnder o := by
  have hvalid : t.Valid := Kind.valid_of_build h
  obtain ⟨registry, hresolve, -, rfl⟩ := Kind.build_eq_ok_iff.mp h
  exact ⟨hvalid, Options.isDerived_of_resolve ho hresolve, rfl, rfl, rfl⟩

namespace DerivedUnder

variable (h : t.DerivedUnder o)

include h

theorem valid_onDerived : ({ t with registry := t.derivedRegistry } : Transaction).Valid := by
  cases htells : t.tellsChain with
  | false =>
      apply h.valid.onRegistry htells
      rw [derivedRegistry, htells, if_neg Bool.false_ne_true]
      exact h.registry.isActive_eq.symm
  | true =>
      rw [derivedRegistry, htells, if_pos rfl]
      exact h.valid

/-- The derived registry is what the options resolve to for the fields. -/
theorem resolve_draft (ho : o.registry = none) :
    o.resolve (t.kind.committedChainId t.draft) = .ok t.derivedRegistry := by
  rw [committedChainId_draft h.valid, derivedRegistry]
  cases t.tellsChain with
  | false => exact Options.resolve_none ho
  | true =>
      change o.resolve (some (Word.ofUInt64 t.registry.chainId)) = .ok t.registry
      rw [Options.resolve_ofUInt64 ho, ← h.registry]

/-- Building from the fields anew succeeds, but binds to the registry that the fields
themselves tell. -/
theorem build_draft (ho : o.registry = none) :
    t.kind.build t.draft o = .ok { t with registry := t.derivedRegistry } := by
  have hchain : t.kind.MatchesChain t.derivedRegistry t.draft := by
    apply matchesChain_draft
    intro htyped
    rw [derivedRegistry, tellsChain_of_isTyped htyped, if_pos rfl]
    exact h.valid.chainId htyped
  have hassemble : t.kind.assemble t.derivedRegistry o t.draft =
      { t with registry := t.derivedRegistry } := by
    rw [assemble_draft hchain, h.uncached, ← h.frozen, ← h.unlimitedInitCode]
  refine Kind.build_eq_ok_iff.mpr ⟨t.derivedRegistry, h.resolve_draft ho, ?_, hassemble⟩
  refine Kind.requireValid_iff.mpr ⟨hchain, ?_⟩
  rw [hassemble]
  exact h.valid_onDerived

/-- The same holds of its wire form, if that carries all fields. -/
theorem decode_encode (ho : o.registry = none) (hsettled : t.IsSettled)
    (hsize : t.encode.length < 2 ^ 64) {gate : Gate} (hgate : gate.require t.kind = .ok ()) :
    gate.decode t.encode o = .ok { t with registry := t.derivedRegistry } := by
  have hpayload : (Rlp.encodeAll t.rawValues).length < 2 ^ 64 :=
    Nat.lt_of_le_of_lt (Kind.length_encodeAll_le_frame _ _) hsize
  let u : Transaction := { t with registry := t.derivedRegistry }
  have hbuild : u.kind.build u.draft o = .ok u := h.build_draft ho
  exact Gate.decode_iff_encode.mpr ⟨hgate, rfl, hpayload, hsettled, hbuild⟩

end DerivedUnder

section Sign

variable {scheme : Scheme} {key : Bytes} {secondKey : Option Bytes} {u : Transaction}

theorem isSigned_of_sign (ht : t.Valid) (hsign : t.sign scheme key secondKey = .ok u) :
    u.isSigned = true := by
  obtain ⟨signature, v, second, rfl, hsecond, -⟩ := exists_resigned_of_sign ht hsign
  exact isSigned_resigned rfl hsecond

theorem DerivedUnder.of_sign (h : t.DerivedUnder o) (hsign : t.sign scheme key secondKey = .ok u) :
    u.DerivedUnder o := by
  have hbuilt : u.Built := built_of_sign hsign
  obtain ⟨signature, v, second, rfl, -, -⟩ := exists_resigned_of_sign h.valid hsign
  exact ⟨hbuilt.valid, h.registry, h.frozen, h.unlimitedInitCode, hbuilt.uncached_eq⟩

/-- Replay protection is in force in every derived registry, so the new `v` of a legacy
signature carries the chain id. -/
theorem tellsChain_of_sign (h : t.DerivedUnder o) (hsign : t.sign scheme key secondKey = .ok u) :
    u.tellsChain = true := by
  obtain ⟨signature, v, second, rfl, -, hv⟩ := exists_resigned_of_sign h.valid hsign
  obtain hlegacy | htyped := t.kind.eq_legacy_or_isTyped
  · have hlarge : 35 ≤ v := by
      rw [hv hlegacy h.registry.isActive_replay]
      exact Replay.le_encode_eip155 t.registry.chainId signature.toNat_word_lt
    have hresigned : (t.resigned (signature.withV v) second).kind = .legacy := by
      rw [kind_resigned, hlegacy]
    rw [tellsChain_of_legacy hresigned]
    exact decide_eq_true hlarge
  · apply tellsChain_of_isTyped
    rw [kind_resigned]
    exact htyped

end Sign

section Size

variable {signature : RecoverableSignature} {v : Word} {second : SignatureParts}

theorem rawValues_resigned_of_legacy (h : t.kind = .legacy) :
    (t.resigned (signature.withV v) second).rawValues =
      t.unsignedValues ++ [.ofWord v, .ofWord signature.r, .ofWord signature.s] := by
  have hsigned : (t.resigned (signature.withV v) second).isSigned = true :=
    isSigned_resigned rfl fun hpriority => absurd hpriority (Kind.ne_priority_of_legacy h)
  obtain ⟨gasPrice, hterms⟩ := exists_terms_of_legacy h
  rw [rawValues, if_pos hsigned, unsignedValues_resigned, kind_resigned, h, resigned, draft.eq_def,
    hterms]
  rfl

/-- The three components of a signature take at most 33 bytes each. -/
theorem length_encode_resigned_le (h : t.kind = .legacy) {size : Nat}
    (hsize : (Rlp.encodeAll t.unsignedValues).length ≤ size) :
    (t.resigned (signature.withV v) second).encode.length ≤
      Rlp.headerLength (size + 99) + (size + 99) := by
  have hv := Rlp.length_encode_ofWord_le v
  have hr := Rlp.length_encode_ofWord_le signature.r
  have hs := Rlp.length_encode_ofWord_le signature.s
  have hpayload : (Rlp.encodeAll (t.resigned (signature.withV v) second).rawValues).length ≤
      size + 99 := by
    simp only [rawValues_resigned_of_legacy h, Rlp.encodeAll_append, Rlp.encodeAll_cons,
      Rlp.encodeAll_nil, List.length_append, List.length_nil]
    omega
  have hheader := Rlp.headerLength_mono hpayload
  have hkind : (t.resigned (signature.withV v) second).kind = .legacy := by
    rw [kind_resigned, h]
  rw [encode, hkind, Kind.frame, Rlp.encodeList_eq_frame, Rlp.Shape.frame, List.length_append,
    Rlp.length_header]
  exact Nat.add_le_add hheader hpayload

end Size

end Transaction

/-- What is built under options without a registry and then signed is decoded from its
wire form to the very same transaction under those options, whichever chain id the
fields named and whatever the signature scheme is. -/
theorem Gate.decode_encode_of_sign {scheme : Scheme} {d : Draft} {o : Options}
    {t u : Transaction} {key : Bytes} {secondKey : Option Bytes} (ho : o.registry = none)
    (hbuild : permissive.build d o = .ok t) (hsign : t.sign scheme key secondKey = .ok u)
    (hsize : u.encode.length < 2 ^ 64) :
    permissive.decode u.encode o = .ok u := by
  obtain ⟨-, hbuild⟩ := Success.seq_iff.mp hbuild
  have ht : t.DerivedUnder o := Transaction.derivedUnder_of_build ho hbuild
  have hu : u.DerivedUnder o := ht.of_sign hsign
  have hsettled : u.IsSettled := .inl (Transaction.isSigned_of_sign ht.valid hsign)
  have hregistry : u.derivedRegistry = u.registry :=
    if_pos (Transaction.tellsChain_of_sign ht hsign)
  have hdecode := hu.decode_encode ho hsettled hsize (Gate.require_permissive u.kind)
  rw [hdecode, hregistry]

/-- A legacy transaction whose draft names the largest chain id, which after that is only told
by its `v`. -/
theorem Gate.decode_encode_of_sign_of_largest :
    let scheme := Secp256k1.scheme
    let largest : UInt64 := 0xffffffffffffffff
    let d : Draft := { chainId := some (Word.ofUInt64 largest) }
    let t := Kind.legacy.assemble (.ofChainId largest) {} d
    let bytes : Bytes := List.replicate 32 1
    permissive.build d {} = .ok t ∧
      ∃ u, t.sign scheme bytes none = .ok u ∧ u.registry.chainId = largest ∧
        permissive.decode u.encode {} = .ok u := by
  intro scheme largest d t bytes
  have hregular : scheme.IsRegularFor t.digestOfSign bytes := Secp256k1.isRegularFor_largest
  obtain ⟨key, hkey, hregular⟩ := hregular
  have hbuild : permissive.build d {} = .ok t := rfl
  have ht : t.Valid := Kind.valid_of_build (Success.seq_iff.mp hbuild).2
  have hsign := Transaction.signLegacy_eq_ok hregular.isNormal ht rfl (fun _ => by decide) hkey rfl
  rw [← Transaction.sign_of_legacy rfl none] at hsign
  obtain ⟨signature, v, second, hu, -⟩ := Transaction.exists_resigned_of_sign ht hsign
  have hunsigned : (Rlp.encodeAll t.unsignedValues).length ≤ 6 := by decide
  have hsize : (t.resigned (signature.withV v) second).encode.length < 2 ^ 64 :=
    Nat.lt_of_le_of_lt (Transaction.length_encode_resigned_le rfl hunsigned) (by decide)
  rw [hu] at hsign
  exact ⟨hbuild, _, hsign, rfl, decode_encode_of_sign rfl hbuild hsign hsize⟩

end TypedTx
