import TypedTx.Proofs.Transaction.Resigning

/-!
# Transactions of other chains

A typed transaction names its chain id in a field of its own, and a replay-protected
legacy signature names it inside `v`. The chain id is looked at before anything else
that could be wrong with a transaction, so a registry of another chain gives one and
the same refusal on every way in: an upgrade that the chain id is read under is missing,
or else the chain ids differ.
-/

namespace TypedTx

/-- Why a registry refuses what names the chain id `found` of another chain, if `eips`
are the upgrades that the chain id is read under. -/
def Registry.refusal (registry : Registry) (eips : List Nat) (found : Word) : Fault :=
  match eips.find? fun eip => !registry.isActive eip with
  | some missing => .unsupportedUpgrade missing
  | none => .chainIdMismatch registry.chainId found

namespace Kind

/-- The upgrades that the chain id of a transaction is read under. -/
def chainEips : Kind → List Nat
  | .legacy => [155]
  | .accessList => [2718, 2930]
  | .feeMarket | .priority => [2718, 1559]

/-- A draft names a chain id: inside the `v` of a legacy transaction, in a field of its
own otherwise. -/
def Names (kind : Kind) (d : Draft) (found : Word) : Prop :=
  match kind with
  | .legacy => Replay.chainId? d.v = some found
  | _ => d.chainId = some found

theorem names_of_isTyped {kind : Kind} {d : Draft} {found : Word} (h : kind.isTyped = true) :
    kind.Names d found ↔ d.chainId = some found := by
  cases kind with
  | legacy => exact absurd h (by decide)
  | accessList | feeMarket | priority => exact Iff.rfl

end Kind

/-- What a failure to build from a draft says of it. -/
def Draft.subject (d : Draft) (kind : Kind) : Subject :=
  .transaction kind.marker (d.nonce.getD 0) d.recipient

section Refusal

variable {registry : Registry} {eips : List Nat} {found : Word}

theorem Registry.refusal_of_active (h : ∀ eip ∈ eips, registry.isActive eip = true) :
    registry.refusal eips found = .chainIdMismatch registry.chainId found := by
  have hnone : eips.find? (fun eip => !registry.isActive eip) = none := by
    apply List.find?_eq_none.mpr
    intro eip heip
    simp [h eip heip]
  rw [refusal, hnone]

theorem Registry.refusal_of_inactive (h : ¬ ∀ eip ∈ eips, registry.isActive eip = true) :
    ∃ missing ∈ eips, registry.isActive missing = false ∧
      registry.refusal eips found = .unsupportedUpgrade missing := by
  cases hfind : eips.find? fun eip => !registry.isActive eip with
  | none =>
      refine absurd ?_ h
      intro eip heip
      simpa using List.find?_eq_none.mp hfind eip heip
  | some missing =>
      have hmem : missing ∈ eips := List.mem_of_find?_eq_some hfind
      have hinactive := List.find?_some hfind
      refine ⟨missing, hmem, by simpa using hinactive, ?_⟩
      rw [refusal, hfind]

variable (hne : found ≠ Word.ofUInt64 registry.chainId)

include hne

/-- Whatever would be required next, these two requirements refuse first. -/
theorem requireEips_requireChainId_of_ne (rest : Except Fault Unit) :
    (do requireEips registry eips; requireChainId registry (some found); rest) =
      .error (registry.refusal eips found) := by
  have hchain : requireChainId registry (some found) =
      .error (.chainIdMismatch registry.chainId found) := if_neg hne
  rw [requireEips, Registry.refusal, hchain]
  cases eips.find? fun eip => !registry.isActive eip with
  | none => rfl
  | some missing => rfl

theorem requireLegacyV_of_ne {v : Word} (h : Replay.chainId? (some v) = some found) :
    requireLegacyV registry v = .error (registry.refusal [155] found) := by
  rw [Replay.chainId?, Option.map_some] at h
  rw [requireLegacyV]
  cases hdecode : Replay.decode v with
  | error fault =>
      rw [hdecode] at h
      exact absurd h.symm (Option.some_ne_none found)
  | ok told =>
      obtain ⟨parity, id⟩ := told
      rw [hdecode] at h
      obtain rfl : id = some found := h
      exact requireEips_requireChainId_of_ne hne (requireParity "v" parity)

namespace Kind

variable {kind : Kind} {d : Draft} {o : Options}

theorem requireChain_of_ne (h : kind.Names d found) :
    kind.requireChain registry d = .error (registry.refusal kind.chainEips found) := by
  cases kind with
  | legacy =>
      obtain ⟨v, hv⟩ : ∃ v, d.v = some v := by
        cases hv : d.v with
        | none =>
            rw [Names, hv] at h
            exact absurd h nofun
        | some v => exact ⟨v, rfl⟩
      rw [Names, hv] at h
      change requireSome (requireLegacyV registry) d.v = _
      rw [hv]
      exact requireLegacyV_of_ne hne h
  | accessList | feeMarket | priority =>
      have hid : d.chainId = some found := h
      rw [requireChain.eq_def, hid]
      exact requireEips_requireChainId_of_ne hne (requireSome (requireParity "v") d.v)

/-- Building under a registry of another chain fails. -/
theorem build_of_ne (h : kind.Names d found) (ho : o.registry = some registry) :
    kind.build d o = .error ⟨registry.refusal kind.chainEips found, some (d.subject kind)⟩ := by
  have hresolve : o.resolve (kind.committedChainId d) = .ok registry := by
    rw [Options.resolve.eq_def, ho]
  rw [build, construct, hresolve]
  change Subject.annotate _ (kind.requireValid registry o d >>= _) = _
  rw [requireValid, requireChain_of_ne hne h]
  rfl

end Kind

end Refusal

namespace Transaction

variable {t : Transaction} {registry : Registry} {o : Options} {id : UInt64}

/-- Decoding a wire form builds from whatever of the draft is on the wire. -/
theorem decode_encode_eq_build {gate : Gate} (hgate : gate.require t.kind = .ok ())
    (hsize : t.encode.length < 2 ^ 64) :
    gate.decode t.encode o = t.kind.build (t.draft.readBack t.kind t.isSigned) o := by
  have hpayload : (Rlp.encodeAll t.rawValues).length < 2 ^ 64 :=
    Nat.lt_of_le_of_lt (Kind.length_encodeAll_le_frame _ _) hsize
  have hkind : Gate.kindOfBytes t.encode = .ok t.kind := Kind.kindOfBytes_frame hpayload
  have hitems : Draft.ofItems t.kind t.rawValues =
      .ok (t.draft.readBack t.kind t.isSigned) := by
    rw [rawValues_eq, Draft.ofItems_map_item]
  rw [Gate.decode, hkind]
  change (gate.require t.kind >>= _) = _
  rw [hgate]
  change t.kind.decode t.encode o = _
  rw [Kind.decode, unframe_encode hpayload]
  change t.kind.buildValues t.rawValues o = _
  rw [Kind.buildValues, hitems]
  rfl

theorem subject_draft (t : Transaction) : t.draft.subject t.kind = t.subject := by
  obtain ⟨nonce, gasLimit, recipient, value, data, terms, signature, bound, frozen, unlimited,
    hashCache, dataFeeCache⟩ := t
  cases terms <;> rfl

theorem subject_readBack_draft (t : Transaction) (signed : Bool) :
    (t.draft.readBack t.kind signed).subject t.kind = t.subject := by
  obtain ⟨nonce, gasLimit, recipient, value, data, terms, signature, bound, frozen, unlimited,
    hashCache, dataFeeCache⟩ := t
  cases terms <;> cases signed <;> rfl

theorem names_draft_of_isTyped (htyped : t.kind.isTyped = true) (hid : t.chainId? = some id) :
    t.kind.Names t.draft (Word.ofUInt64 id) := by
  rw [Kind.names_of_isTyped htyped, chainId_draft htyped, hid, Option.map_some]

theorem v_draft (t : Transaction) : t.draft.v = t.signature.v := by
  rw [draft.eq_def]
  cases t.terms <;> rfl

/-- The chain id inside a valid `v` is the one that the signature commits to. -/
theorem names_draft_of_legacy (ht : t.Valid) (hkind : t.kind = .legacy) {v : Word}
    (hv : t.signature.v = some v) (hlarge : 35 ≤ v) (hid : t.chainId? = some id) :
    t.kind.Names t.draft (Word.ofUInt64 id) := by
  have hreplay : t.replay = .eip155 := (replay_eq_ofV hv).trans (if_pos hlarge)
  rw [chainId?_of_legacy hkind, if_pos hreplay, Option.some.injEq] at hid
  have hadmits : t.registry.AdmitsV v := by
    have hparity := ht.parity v hv
    rwa [hkind] at hparity
  rw [hkind]
  change Replay.chainId? t.draft.v = _
  rw [v_draft, hv, hadmits.chainId?_eq, if_pos hlarge, hid]

/-- The transaction is typed, or it is a legacy one that is signed with replay
protection. -/
def IsChainBound (t : Transaction) : Prop :=
  t.kind.isTyped = true ∨ t.isSigned = true ∧ ∃ v, t.signature.v = some v ∧ 35 ≤ v

theorem names_draft (ht : t.Valid) (hbound : t.IsChainBound) (hid : t.chainId? = some id) :
    t.kind.Names t.draft (Word.ofUInt64 id) := by
  obtain hlegacy | htyped := t.kind.eq_legacy_or_isTyped
  · obtain htyped | ⟨-, v, hv, hlarge⟩ := hbound
    · rw [hlegacy] at htyped
      exact absurd htyped Bool.false_ne_true
    · exact names_draft_of_legacy ht hlegacy hv hlarge hid
  · exact names_draft_of_isTyped htyped hid

/-- A partial signature of a typed transaction is not on the wire, but its chain id is. -/
theorem names_readBack_draft (ht : t.Valid) (hbound : t.IsChainBound)
    (hid : t.chainId? = some id) :
    t.kind.Names (t.draft.readBack t.kind t.isSigned) (Word.ofUInt64 id) := by
  have hnames := names_draft ht hbound hid
  obtain htyped | ⟨hsigned, -⟩ := hbound
  · rw [Kind.names_of_isTyped htyped] at hnames ⊢
    rw [Kind.chainId_readBack htyped, hnames, Option.getD_some]
  · rwa [hsigned, readBack_of_isSigned hsigned]

/-- The failure of a transaction whose chain id another registry refuses. -/
def refusalOn (t : Transaction) (registry : Registry) (id : UInt64) : Failure :=
  t.failure (registry.refusal t.kind.chainEips (Word.ofUInt64 id))

theorem rebind_of_ne (ht : t.Valid) (hbound : t.IsChainBound) (hid : t.chainId? = some id)
    (hne : registry.chainId ≠ id) :
    t.rebind registry = .error (t.refusalOn registry id) := by
  have hword : Word.ofUInt64 id ≠ Word.ofUInt64 registry.chainId := fun h =>
    hne (Word.ofUInt64_inj h).symm
  have hbuild := Kind.build_of_ne hword (names_draft ht hbound hid)
    (o := { t.options with registry := some registry }) rfl
  rw [rebind, hbuild, subject_draft]
  rfl

theorem decode_encode_of_ne (ht : t.Valid) (hbound : t.IsChainBound) (hid : t.chainId? = some id)
    (hne : registry.chainId ≠ id) (hsize : t.encode.length < 2 ^ 64)
    (ho : o.registry = some registry) {gate : Gate} (hgate : gate.require t.kind = .ok ()) :
    gate.decode t.encode o = .error (t.refusalOn registry id) := by
  have hword : Word.ofUInt64 id ≠ Word.ofUInt64 registry.chainId := fun h =>
    hne (Word.ofUInt64_inj h).symm
  rw [decode_encode_eq_build hgate hsize,
    Kind.build_of_ne hword (names_readBack_draft ht hbound hid) ho, subject_readBack_draft]
  rfl

end Transaction

/-- A typed transaction, or a legacy one that is signed with replay protection, is
accepted by no registry of another chain, neither from its wire form nor by moving to
that registry. Both fail with the mismatch of the chain ids if the upgrades are active
that the chain id is read under, and else with one that is not. -/
theorem Reachable.refused_of_chainId_ne {scheme : Scheme} {t : Transaction}
    (h : Reachable scheme t) (hbound : t.IsChainBound) {id : UInt64} (hid : t.chainId? = some id)
    {registry : Registry} (hne : registry.chainId ≠ id) :
    ∃ fault,
      (t.encode.length < 2 ^ 64 → ∀ o : Options, o.registry = some registry →
        Gate.permissive.decode t.encode o = .error (t.failure fault)) ∧
      t.rebind registry = .error (t.failure fault) ∧
      ((∀ eip ∈ t.kind.chainEips, registry.isActive eip = true) →
        fault = .chainIdMismatch registry.chainId (Word.ofUInt64 id)) ∧
      ((¬ ∀ eip ∈ t.kind.chainEips, registry.isActive eip = true) →
        ∃ missing ∈ t.kind.chainEips, registry.isActive missing = false ∧
          fault = .unsupportedUpgrade missing) := by
  have ht : t.Valid := h.valid
  refine ⟨registry.refusal t.kind.chainEips (Word.ofUInt64 id), ?_, ?_, ?_, ?_⟩
  · intro hsize o ho
    exact Transaction.decode_encode_of_ne ht hbound hid hne hsize ho
      (Gate.require_permissive t.kind)
  · exact Transaction.rebind_of_ne ht hbound hid hne
  · exact Registry.refusal_of_active
  · exact Registry.refusal_of_inactive

/-- A legacy transaction that was signed for chain 1, on chain 5 before and after the
fork that brought replay protection. -/
theorem Reachable.refused_of_chainId_ne_of_signed :
    let d : Draft := { v := some 37, r := some 1, s := some 1 }
    let t := Kind.legacy.assemble .standard {} d
    let early := Registry.ofChain .goerli .homestead
    let late := Registry.ofChain .goerli .london
    Reachable Secp256k1.scheme t ∧ t.IsChainBound ∧ t.chainId? = some 1 ∧
      Gate.permissive.decode t.encode { registry := some early } =
        .error (t.failure (.unsupportedUpgrade 155)) ∧
      Gate.permissive.decode t.encode { registry := some late } =
        .error (t.failure (.chainIdMismatch 5 1)) ∧
      t.rebind late = .error (t.failure (.chainIdMismatch 5 1)) := by
  intro d t early late
  have hreach : Reachable Secp256k1.scheme t :=
    .build (show (Source.draftAs .legacy d).build {} = .ok t from rfl)
  have hbound : t.IsChainBound := .inr ⟨rfl, 37, rfl, by decide⟩
  have hid : t.chainId? = some 1 := rfl
  have hearly : early.chainId ≠ 1 := by decide
  have hlate : late.chainId ≠ 1 := by decide
  obtain ⟨fault, hdecode, -, -, hinactive⟩ :=
    Reachable.refused_of_chainId_ne hreach hbound hid hearly
  obtain ⟨missing, hmem, -, rfl⟩ := hinactive (by decide)
  obtain rfl : missing = 155 := List.mem_singleton.mp hmem
  obtain ⟨fault', hdecode', hrebind, hmismatch, -⟩ :=
    Reachable.refused_of_chainId_ne hreach hbound hid hlate
  obtain rfl := hmismatch (by decide)
  exact ⟨hreach, hbound, hid, hdecode (by decide) _ rfl, hdecode' (by decide) _ rfl, hrebind⟩

end TypedTx
