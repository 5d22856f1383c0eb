import TypedTx.Proofs.Transaction.Wire

/-!
# What a signed message tells

A signing message frames the unsigned values, and behind them the chain id and two
empty values if it is that of a replay-protected legacy signature. The type bytes
are told apart from list headers and the list of values is determined by its wire
form. Since the number of unsigned values is fixed for a kind, the message tells the
kind, the chain id, the replay mode and every field but the signatures.

An unsigned legacy transaction just below 2⁶⁴ bytes has a signing message just above
it, where the first byte of the list header wraps around to zero. Zero is the type
byte of legacy transactions, which no typed message starts with.
-/

namespace TypedTx

namespace Rlp

/-- Behind the largest size that a reader accepts, the first byte of a list wraps
around. -/
theorem header_list_of_large {size : Nat} (hge : 2 ^ 64 ≤ size) (hlt : size < 256 ^ 9) :
    header 0xc0 size = 0x00 :: Bytes.ofNat size := by
  have hupper : (Bytes.ofNat size).length ≤ 9 := Bytes.length_ofNat_le_iff.mpr hlt
  have hlower : ¬ (Bytes.ofNat size).length ≤ 8 := by
    intro hle
    exact absurd (Bytes.length_ofNat_le_iff.mp hle) (Nat.not_lt.mpr hge)
  have hlength : (Bytes.ofNat size).length = 9 := by omega
  rw [header, if_neg (by omega)]
  dsimp only
  rw [hlength]
  rfl

theorem length_encode_le_of_bytes {bs : Bytes} (h : bs.length < 56) :
    (encode (.bytes bs)).length ≤ bs.length + 1 := by
  rw [encode, encodeBytes]
  split
  · exact Nat.le_succ _
  · rw [header, if_pos h, List.length_append, Nat.add_comm]
    exact Nat.le_refl _

theorem length_encode_ofWord_le (w : Word) : (encode (.ofWord w)).length ≤ 33 := by
  have hword := w.length_toBytes_le
  have hlt : w.toBytes.length < 56 := Nat.lt_of_le_of_lt hword (by decide)
  exact (length_encode_le_of_bytes hlt).trans (Nat.succ_le_succ hword)

end Rlp

namespace Kind

variable {kind k l : Kind} {xs ys : List Rlp.Item}

theorem marker_injective (h : k.marker = l.marker) : k = l :=
  Option.some.inj (by rw [← ofMarker?_marker k, h, ofMarker?_marker])

/-- No list starts with the type byte of a typed transaction. -/
theorem encodeList_ne_marker_cons {rest : Bytes} (htyped : kind.isTyped = true)
    (hsize : (Rlp.encodeAll xs).length < 256 ^ 9) :
    Rlp.encodeList xs ≠ kind.marker :: rest := by
  intro h
  rw [Rlp.encodeList_eq_frame, Rlp.Shape.frame] at h
  by_cases hlt : (Rlp.encodeAll xs).length < 2 ^ 64
  · obtain ⟨first, tail, hheader, hfirst⟩ := Rlp.exists_header_list hlt
    rw [hheader, List.cons_append] at h
    rw [(List.cons.inj h).1] at hfirst
    revert hfirst
    cases kind <;> decide
  · rw [Rlp.header_list_of_large (Nat.not_lt.mp hlt) hsize, List.cons_append] at h
    have hmarker := (List.cons.inj h).1
    revert htyped hmarker
    cases kind <;> decide

theorem encodeAll_eq_of_encodeList_eq (h : Rlp.encodeList xs = Rlp.encodeList ys) :
    Rlp.encodeAll xs = Rlp.encodeAll ys := by
  rw [Rlp.encodeList_eq_frame, Rlp.encodeList_eq_frame] at h
  exact Rlp.header_append_inj h

/-- A frame tells its kind and what it holds. -/
theorem frame_inj (hx : (Rlp.encodeAll xs).length < 256 ^ 9)
    (hy : (Rlp.encodeAll ys).length < 256 ^ 9) (h : k.frame xs = l.frame ys) :
    k = l ∧ Rlp.encodeAll xs = Rlp.encodeAll ys := by
  obtain rfl | hk := k.eq_legacy_or_isTyped <;> obtain rfl | hl := l.eq_legacy_or_isTyped
  · exact ⟨rfl, encodeAll_eq_of_encodeList_eq h⟩
  · rw [frame_of_isTyped hl] at h
    exact absurd h (encodeList_ne_marker_cons hl hx)
  · rw [frame_of_isTyped hk] at h
    exact absurd h.symm (encodeList_ne_marker_cons hk hy)
  · rw [frame_of_isTyped hk, frame_of_isTyped hl] at h
    obtain ⟨hmarker, hlist⟩ := List.cons.inj h
    exact ⟨marker_injective hmarker, encodeAll_eq_of_encodeList_eq hlist⟩

end Kind

theorem Draft.chainId_withoutSignatures (d : Draft) : d.withoutSignatures.chainId = d.chainId :=
  Quantities.get_clear_of_notMem (show Quantity.chainId ∉ Quantity.signatures by decide)

namespace Transaction

variable {t a b : Transaction}

/-- What a replay-protected legacy signature covers behind the fields. -/
def replayValues (t : Transaction) : List Rlp.Item :=
  match t.kind, t.chainId? with
  | .legacy, some id => [.ofWord (Word.ofUInt64 id), .empty, .empty]
  | _, _ => []

theorem exists_terms_of_legacy (h : t.kind = .legacy) :
    ∃ gasPrice, t.terms = .legacy gasPrice := by
  rw [kind] at h
  cases hterms : t.terms with
  | legacy gasPrice => exact ⟨gasPrice, rfl⟩
  | accessList | feeMarket | priority =>
      rw [hterms] at h
      exact absurd h nofun

theorem terms_ne_legacy (h : t.kind.isTyped = true) (gasPrice : Word) :
    t.terms ≠ .legacy gasPrice := by
  intro hterms
  rw [kind, hterms] at h
  exact absurd h Bool.false_ne_true

theorem signingMessage_of_legacy (h : t.kind = .legacy) :
    t.signingMessage = t.legacyMessage t.replay := by
  obtain ⟨gasPrice, hterms⟩ := exists_terms_of_legacy h
  rw [signingMessage, hterms]

theorem signingMessage_of_isTyped (h : t.kind.isTyped = true) :
    t.signingMessage = t.kind.frame t.unsignedValues := by
  rw [signingMessage]
  cases hterms : t.terms with
  | legacy gasPrice => exact absurd hterms (terms_ne_legacy h gasPrice)
  | accessList | feeMarket | priority => rfl

theorem chainId?_of_legacy (h : t.kind = .legacy) :
    t.chainId? = if t.replay = .eip155 then some t.registry.chainId else none := by
  obtain ⟨gasPrice, hterms⟩ := exists_terms_of_legacy h
  rw [chainId?, hterms]
  cases t.replay <;> rfl

theorem replayValues_of_isTyped (h : t.kind.isTyped = true) : t.replayValues = [] := by
  rw [replayValues]
  split
  · rename_i hlegacy _
    rw [hlegacy] at h
    exact absurd h Bool.false_ne_true
  · rfl

theorem signingMessage_eq (t : Transaction) :
    t.signingMessage = t.kind.frame (t.unsignedValues ++ t.replayValues) := by
  obtain hlegacy | htyped := t.kind.eq_legacy_or_isTyped
  · rw [signingMessage_of_legacy hlegacy, replayValues, chainId?_of_legacy hlegacy, hlegacy]
    cases t.replay with
    | eip155 => rfl
    | unprotected => exact congrArg Rlp.encodeList (List.append_nil _).symm
  · rw [signingMessage_of_isTyped htyped, replayValues_of_isTyped htyped, List.append_nil]

theorem length_encodeAll_unsignedValues_le (t : Transaction) :
    (Rlp.encodeAll t.unsignedValues).length ≤ t.encode.length := by
  refine Nat.le_trans ?_ (Kind.length_encodeAll_le_frame t.kind t.rawValues)
  rw [rawValues]
  split
  · rw [Rlp.encodeAll_append, List.length_append]
    exact Nat.le_add_right _ _
  · exact Nat.le_refl _

theorem replayValues_eq_nil_or (t : Transaction) :
    t.replayValues = [] ∨
      ∃ id, t.replayValues = [.ofWord (Word.ofUInt64 id), .empty, .empty] := by
  rw [replayValues]
  split
  · exact .inr ⟨_, rfl⟩
  · exact .inl rfl

theorem length_encodeAll_replayValues_le (t : Transaction) :
    (Rlp.encodeAll t.replayValues).length ≤ 35 := by
  obtain hnil | ⟨id, hvalues⟩ := t.replayValues_eq_nil_or
  · rw [hnil, Rlp.encodeAll_nil]
    exact Nat.zero_le _
  · have hid := Rlp.length_encode_ofWord_le (Word.ofUInt64 id)
    have hempty := Rlp.length_encode_le_of_bytes (show ([] : Bytes).length < 56 by decide)
    simp only [hvalues, Rlp.Item.empty, Rlp.encodeAll_cons, Rlp.encodeAll_nil,
      List.length_append, List.length_nil] at hempty ⊢
    omega

theorem length_payload_lt_of_signed (hsize : t.encode.length < 2 ^ 64) :
    ∀ item ∈ t.unsignedValues ++ t.replayValues, item.payload.length < 2 ^ 64 := by
  intro item hitem
  rcases List.mem_append.mp hitem with hmem | hmem
  · exact Rlp.length_payload_lt_of_mem hmem
      (Nat.lt_of_le_of_lt t.length_encodeAll_unsignedValues_le hsize)
  · exact Rlp.length_payload_lt_of_mem hmem
      (Nat.lt_of_le_of_lt t.length_encodeAll_replayValues_le (by decide))

theorem length_signed_lt (hsize : t.encode.length < 2 ^ 64) :
    (Rlp.encodeAll (t.unsignedValues ++ t.replayValues)).length < 256 ^ 9 := by
  have hunsigned := t.length_encodeAll_unsignedValues_le
  have hreplay := t.length_encodeAll_replayValues_le
  rw [Rlp.encodeAll_append, List.length_append]
  omega

theorem withoutSignatures_eq_of_unsignedValues_eq (hkind : a.kind = b.kind)
    (h : a.unsignedValues = b.unsignedValues) :
    a.draft.withoutSignatures = b.draft.withoutSignatures := by
  have ha : Draft.ofItems a.kind a.unsignedValues = .ok (a.draft.readBack a.kind false) :=
    Draft.ofItems_map_item false
  have hb : Draft.ofItems b.kind b.unsignedValues = .ok (b.draft.readBack b.kind false) :=
    Draft.ofItems_map_item false
  rw [hkind, h, hb] at ha
  rw [withoutSignatures_draft, withoutSignatures_draft, hkind]
  exact (Except.ok.inj ha).symm

theorem length_unsignedValues_eq (h : a.kind = b.kind) :
    a.unsignedValues.length = b.unsignedValues.length := by
  rw [unsignedValues, unsignedValues, List.length_map, List.length_map, h]

theorem chainId?_eq_of_withoutSignatures_eq (ha : a.kind.isTyped = true)
    (hb : b.kind.isTyped = true) (h : a.draft.withoutSignatures = b.draft.withoutSignatures) :
    a.chainId? = b.chainId? := by
  have hids : a.draft.withoutSignatures.chainId = b.draft.withoutSignatures.chainId := by
    rw [h]
  rw [Draft.chainId_withoutSignatures, Draft.chainId_withoutSignatures, chainId_draft ha,
    chainId_draft hb] at hids
  exact Option.map_injective (fun _ _ => Word.ofUInt64_inj) hids

theorem chainId?_eq_of_replayValues_eq (ha : a.kind = .legacy) (hb : b.kind = .legacy)
    (h : a.replayValues = b.replayValues) : a.chainId? = b.chainId? := by
  rw [replayValues, replayValues, ha, hb] at h
  cases hida : a.chainId? with
  | none =>
      cases hidb : b.chainId? with
      | none => rfl
      | some id => simp [hida, hidb] at h
  | some id =>
      cases hidb : b.chainId? with
      | none => simp [hida, hidb] at h
      | some id' =>
          simp only [hida, hidb, List.cons.injEq, and_true, Rlp.Item.ofWord,
            Rlp.Item.bytes.injEq] at h
          rw [Word.ofUInt64_inj (Word.toBytes_injective h)]

theorem replay_eq_of_chainId?_eq (ha : a.kind = .legacy) (hb : b.kind = .legacy)
    (h : a.chainId? = b.chainId?) : a.replay = b.replay := by
  rw [chainId?_of_legacy ha, chainId?_of_legacy hb] at h
  revert h
  cases a.replay <;> cases b.replay <;> simp

/-- Signed messages are separated: two transactions of any kinds, under any registries,
with the same signing message are of the same kind, commit to the same chain id in the
same replay mode and have the same fields apart from their signatures. -/
theorem eq_of_signingMessage_eq (ha : a.encode.length < 2 ^ 64) (hb : b.encode.length < 2 ^ 64)
    (h : a.signingMessage = b.signingMessage) :
    a.kind = b.kind ∧ a.chainId? = b.chainId? ∧
      (a.kind = .legacy → a.replay = b.replay) ∧
      a.draft.withoutSignatures = b.draft.withoutSignatures := by
  rw [signingMessage_eq, signingMessage_eq] at h
  obtain ⟨hkind, hpayload⟩ := Kind.frame_inj (length_signed_lt ha) (length_signed_lt hb) h
  have hvalues := Rlp.encodeAll_inj (length_payload_lt_of_signed ha)
    (length_payload_lt_of_signed hb) hpayload
  -- The layout of the kind fixes where the fields end.
  obtain ⟨hunsigned, hreplay⟩ := List.append_inj hvalues (length_unsignedValues_eq hkind)
  have hfields := withoutSignatures_eq_of_unsignedValues_eq hkind hunsigned
  have hchain : a.chainId? = b.chainId? := by
    obtain hlegacy | htyped := a.kind.eq_legacy_or_isTyped
    · exact chainId?_eq_of_replayValues_eq hlegacy (hkind ▸ hlegacy) hreplay
    · exact chainId?_eq_of_withoutSignatures_eq htyped (hkind ▸ htyped) hfields
  refine ⟨hkind, hchain, ?_, hfields⟩
  intro hlegacy
  exact replay_eq_of_chainId?_eq hlegacy (hkind ▸ hlegacy) hchain

/-- A legacy transaction before and after it was signed. -/
theorem eq_of_signingMessage_eq_of_signed :
    let a := Kind.legacy.assemble .standard {} {}
    let b := Kind.legacy.assemble .standard {} { v := some 37, r := some 1, s := some 1 }
    a.signingMessage = b.signingMessage ∧ a.kind = b.kind ∧ a.chainId? = b.chainId? ∧
      (a.kind = .legacy → a.replay = b.replay) ∧
      a.draft.withoutSignatures = b.draft.withoutSignatures := by
  intro a b
  have h : a.signingMessage = b.signingMessage := by decide +kernel
  exact ⟨h, eq_of_signingMessage_eq (by decide +kernel) (by decide +kernel) h⟩

end Transaction
end TypedTx
