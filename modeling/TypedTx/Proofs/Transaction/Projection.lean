import TypedTx.Proofs.Document
import TypedTx.Proofs.Transaction.DerivedRegistry

/-!
# Projections onto fields and documents

The document of a transaction is read back to its draft, and whatever came off the wire
is built again from that draft under the same options. What came from a draft need not
be: a legacy transaction takes the chain id from its draft but does not give it back,
unless it is told by `v`. Without a registry in the options it is then bound to the
standard one, and an unsigned one has another signing message there.
-/

namespace TypedTx

/-- A gate builds from a draft what the kind builds that the draft names. -/
theorem Gate.build_of_kind {gate : Gate} {kind : Kind} {d : Draft} {o : Options}
    (hkind : d.kind = some kind) (hgate : gate.require kind = .ok ()) :
    gate.build d o = kind.build d o := by
  have hnamed : kindOfDraft d = kind := by rw [kindOfDraft, hkind, Option.getD_some]
  rw [build, hnamed]
  change (gate.require kind >>= _) = _
  rw [hgate]
  rfl

/-- It is the same to build a draft as the kind that it names or at the gate that admits
every kind. -/
theorem Gate.build_eq_of_mem {kind : Kind} {d : Draft} {o : Options}
    {build : Draft → Options → Except Failure Transaction} (hkind : d.kind = some kind)
    (hbuild : build ∈ [kind.build, permissive.build]) : build d o = kind.build d o := by
  rcases List.mem_pair.mp hbuild with rfl | rfl
  · rfl
  · exact build_of_kind hkind (require_permissive kind)

namespace Transaction

variable {t : Transaction} {registry : Registry} {o : Options}

theorem draft_document (t : Transaction) : t.document.draft = .ok t.draft :=
  Document.draft_ofDraft t.draft

theorem kind_draft (t : Transaction) : t.draft.kind = some t.kind := by
  rw [draft.eq_def]
  cases t.terms <;> rfl

/-- A gate builds from the draft of a transaction what the kind builds. -/
theorem gateBuild_draft {gate : Gate} (hgate : gate.require t.kind = .ok ()) :
    gate.build t.draft o = t.kind.build t.draft o :=
  Gate.build_of_kind t.kind_draft hgate

/-- The message of a replay-protected signature tells the chain id of the registry. -/
theorem chainId_eq_of_legacyMessage_eq
    (h : ({ t with registry } : Transaction).legacyMessage .eip155 = t.legacyMessage .eip155) :
    registry.chainId = t.registry.chainId := by
  -- The fields are the same on both sides, so only the chain ids are left to compare.
  have hpayload := Kind.encodeAll_eq_of_encodeList_eq h
  rw [Rlp.encodeAll_append, Rlp.encodeAll_append] at hpayload
  have htail := List.append_cancel_left hpayload
  have hsize : ∀ (id : UInt64), ∀ item ∈ [Rlp.Item.ofWord (Word.ofUInt64 id), .empty, .empty],
      item.payload.length < 2 ^ 64 := by
    intro id item hitem
    have hword := Rlp.length_payload_le (.ofWord (Word.ofUInt64 id))
    have hle := Rlp.length_encode_ofWord_le (Word.ofUInt64 id)
    simp only [List.mem_cons, List.not_mem_nil, or_false, or_self] at hitem
    obtain rfl | rfl := hitem
    · omega
    · decide
  have hvalues := Rlp.encodeAll_inj (hsize _) (hsize _) htail
  obtain ⟨hid, -⟩ := List.cons.inj hvalues
  exact Word.ofUInt64_inj (Word.toBytes_injective (Rlp.Item.bytes.inj hid))

/-- A signature that is there tells its mode, and without replay protection the message
says nothing of the registry. -/
theorem signingMessage_onRegistry (htells : t.tellsChain = false)
    (hv : t.signature.v.isSome = true) :
    ({ t with registry } : Transaction).signingMessage = t.signingMessage := by
  have hlegacy : t.kind = .legacy := legacy_of_tellsChain_eq_false htells
  obtain ⟨v, hv⟩ := Option.isSome_iff_exists.mp hv
  rw [tellsChain_of_legacy hlegacy, hv, Option.any_some, decide_eq_false_iff_not] at htells
  let u : Transaction := { t with registry }
  have hkind : u.kind = .legacy := hlegacy
  have hmode : Replay.ofV v = .unprotected := if_neg htells
  have hreplay : t.replay = _ := replay_eq_ofV hv
  have hreplay' : u.replay = _ := replay_eq_ofV hv
  change u.signingMessage = _
  rw [signingMessage_of_legacy hkind, signingMessage_of_legacy hlegacy, hreplay, hreplay', hmode]
  rfl

/-- The message of an unsigned transaction commits to the chain id wherever replay
protection is in force. -/
theorem chainId_eq_of_signingMessage_eq (hlegacy : t.kind = .legacy)
    (hv : t.signature.v = none) (hactive : t.registry.isActive 155 = true)
    (hmoved : registry.isActive 155 = true)
    (h : ({ t with registry } : Transaction).signingMessage = t.signingMessage) :
    registry.chainId = t.registry.chainId := by
  let u : Transaction := { t with registry }
  have hkind : u.kind = .legacy := hlegacy
  have hreplay : t.replay = .eip155 := by
    rw [replay, hv]
    exact if_pos hactive
  have hreplay' : u.replay = .eip155 := by
    rw [replay, show u.signature.v = none from hv]
    exact if_pos hmoved
  change u.signingMessage = _ at h
  rw [signingMessage_of_legacy hkind, signingMessage_of_legacy hlegacy, hreplay, hreplay'] at h
  exact chainId_eq_of_legacyMessage_eq h

theorem chainId_derivedRegistry_eq_iff :
    t.derivedRegistry.chainId = t.registry.chainId ↔
      t.tellsChain = true ∨ t.registry.chainId = 1 := by
  rw [derivedRegistry]
  cases t.tellsChain with
  | true => simp
  | false =>
      rw [if_neg Bool.false_ne_true, or_iff_right Bool.false_ne_true]
      exact eq_comm

theorem DerivedUnder.derivedRegistry_eq_iff (h : t.DerivedUnder o) :
    t.derivedRegistry = t.registry ↔ t.tellsChain = true ∨ t.registry.chainId = 1 := by
  rw [derivedRegistry]
  cases t.tellsChain with
  | true => simp
  | false =>
      rw [if_neg Bool.false_ne_true, or_iff_right Bool.false_ne_true, eq_comm]
      exact h.registry.eq_standard_iff

theorem isTyped_or_isSome_of_tellsChain (h : t.tellsChain = true) :
    t.kind.isTyped = true ∨ t.signature.v.isSome = true := by
  rw [tellsChain, Bool.or_eq_true] at h
  refine h.imp_right ?_
  cases t.signature.v with
  | none => exact fun h => absurd h Bool.false_ne_true
  | some v => exact fun _ => rfl

theorem DerivedUnder.signingMessage_eq_iff (h : t.DerivedUnder o) :
    ({ t with registry := t.derivedRegistry } : Transaction).signingMessage = t.signingMessage ↔
      t.kind.isTyped = true ∨ t.signature.v.isSome = true ∨ t.registry.chainId = 1 := by
  rw [← or_assoc]
  by_cases hkept : t.tellsChain = true ∨ t.registry.chainId = 1
  · rw [h.derivedRegistry_eq_iff.mpr hkept]
    exact iff_of_true rfl (hkept.imp_left isTyped_or_isSome_of_tellsChain)
  · obtain ⟨htells, hid⟩ := not_or.mp hkept
    rw [Bool.not_eq_true] at htells
    have hlegacy : t.kind = .legacy := legacy_of_tellsChain_eq_false htells
    have hstandard : t.derivedRegistry = .standard := by
      rw [derivedRegistry, htells, if_neg Bool.false_ne_true]
    have huntyped : ¬ Kind.legacy.isTyped = true := by decide
    rw [or_iff_left hid, hstandard, hlegacy, or_iff_right huntyped]
    constructor
    · intro hmessage
      by_contra hv
      rw [Option.not_isSome_iff_eq_none] at hv
      have hactive : t.registry.isActive 155 = true := h.registry.isActive_replay
      have hmoved := Registry.isDerived_standard.isActive_replay
      exact hid (chainId_eq_of_signingMessage_eq hlegacy hv hactive hmoved hmessage).symm
    · intro hv
      exact signingMessage_onRegistry htells hv

end Transaction

/-- Rebuilding from the projection of what was built under options without a registry
always succeeds, and changes nothing but the registry. The chain id is kept exactly if
the fields tell it or it is the standard one, and so is the signing message, except that
a `v` that tells no chain also keeps it. -/
theorem Gate.rebuild_keepsChain_iff {d : Draft} {o : Options} {t : Transaction}
    (ho : o.registry = none) (hbuild : permissive.build d o = .ok t) :
    let u : Transaction := { t with registry := t.derivedRegistry }
    t.document.draft = .ok t.draft ∧ permissive.build t.draft o = .ok u ∧
      (u.registry.chainId = t.registry.chainId ↔
        t.tellsChain = true ∨ t.registry.chainId = 1) ∧
      (u.signingMessage = t.signingMessage ↔
        t.kind.isTyped = true ∨ t.signature.v.isSome = true ∨ t.registry.chainId = 1) := by
  intro u
  obtain ⟨-, hbuild⟩ := Success.seq_iff.mp hbuild
  have ht : t.DerivedUnder o := Transaction.derivedUnder_of_build ho hbuild
  refine ⟨t.draft_document, ?_, Transaction.chainId_derivedRegistry_eq_iff,
    ht.signingMessage_eq_iff⟩
  rw [Transaction.gateBuild_draft (require_permissive t.kind)]
  exact ht.build_draft ho

/-- A legacy transaction that is signed with replay protection on chain 5. -/
theorem Gate.rebuild_keepsChain_iff_of_signed :
    let d : Draft := { v := some 45, r := some 1, s := some 1 }
    let t := Kind.legacy.assemble (.ofChainId 5) {} d
    let u : Transaction := { t with registry := t.derivedRegistry }
    permissive.build d {} = .ok t ∧ t.document.draft = .ok t.draft ∧
      permissive.build t.draft {} = .ok u ∧ u.registry.chainId = t.registry.chainId ∧
      u.signingMessage = t.signingMessage := by
  intro d t u
  have hbuild : permissive.build d {} = .ok t := rfl
  obtain ⟨hdocument, hrebuild, hchain, hmessage⟩ := rebuild_keepsChain_iff rfl hbuild
  exact ⟨hbuild, hdocument, hrebuild, hchain.mpr (.inl rfl), hmessage.mpr (.inr (.inl rfl))⟩

/-- An unsigned legacy transaction for chain 5 is rebuilt for chain 1, with another
signing message. -/
theorem Gate.exists_rebuild_on_other_chain :
    ∃ (d : Draft) (t u : Transaction), permissive.build d {} = .ok t ∧
      permissive.build t.draft {} = .ok u ∧ t.registry.chainId = 5 ∧ u.registry.chainId = 1 ∧
      u.signingMessage ≠ t.signingMessage := by
  let d : Draft := { chainId := some 5 }
  refine ⟨d, Kind.legacy.assemble (.ofChainId 5) {} d, Kind.legacy.assemble .standard {} d,
    rfl, rfl, rfl, rfl, ?_⟩
  decide +kernel

/-- Wire form, document and fields commute: what a gate decodes has a document that is
read back to its draft, and from that draft the gate builds the same transaction under
the same options. -/
theorem Gate.build_draft_of_decode {gate : Gate} {input : Bytes} {o : Options} {t : Transaction}
    (h : gate.decode input o = .ok t) :
    t.document.draft = .ok t.draft ∧ gate.build t.draft o = .ok t ∧ t.encode = input := by
  obtain ⟨hgate, hencode, -, -, hbuild⟩ := decode_iff_encode.mp h
  refine ⟨t.draft_document, ?_, hencode⟩
  rw [Transaction.gateBuild_draft hgate]
  exact hbuild

/-- An unsigned transaction on chain 5, with one account listed and a storage slot of it. -/
theorem Gate.build_draft_of_decode_of_listed :
    let input : Bytes :=
      [0x01, 0xf8, 0x41, 0x05, 0x80, 0x80, 0x80, 0x80, 0x80, 0x80, 0xf8, 0x38, 0xf7, 0x94] ++
      List.replicate 19 0x00 ++ [0x02, 0xe1, 0xa0] ++ List.replicate 31 0x00 ++ [0x03]
    let d : Draft :=
      { chainId := some 5, accessList := some [⟨Fixed.ofNat 20 2, [Fixed.ofNat 32 3]⟩] }
    let t := Kind.accessList.assemble (.ofChainId 5) {} d
    permissive.decode input {} = .ok t ∧ t.document.draft = .ok t.draft ∧
      permissive.build t.draft {} = .ok t ∧ t.encode = input := by
  intro input d t
  have h : permissive.decode input {} = .ok t := by decide +kernel
  exact ⟨h, build_draft_of_decode h⟩

end TypedTx
