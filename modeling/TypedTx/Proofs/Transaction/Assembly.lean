import TypedTx.Proofs.Draft.Layout
import TypedTx.Proofs.Transaction.Validity

/-!
# Drafts and the transactions assembled from them

A transaction is assembled again from its own draft, and a draft that was read off
the wire is the draft of the transaction assembled from it. The raw values of a
transaction are the items of its draft in the layout of its kind; they carry the
whole draft unless only some components of a signature are there.
-/

namespace TypedTx

namespace SignatureParts

variable {parts : SignatureParts}

theorem complete?_isSome_iff :
    parts.complete?.isSome = true ↔ ∃ v r s, parts = .ofWords v r s := by
  constructor
  · intro h
    match parts, h with
    | ⟨some v, some r, some s⟩, _ => exact ⟨v, r, s, rfl⟩
  · rintro ⟨v, r, s, rfl⟩
    rfl

theorem isAbsent_iff : parts.isAbsent = true ↔ parts = {} := by
  constructor
  · intro h
    match parts, h with
    | ⟨none, none, none⟩, _ => rfl
  · rintro rfl
    rfl

end SignatureParts

namespace Transaction

variable {t : Transaction} {registry : Registry} {o : Options}

/-- The transaction with nothing remembered. -/
def uncached (t : Transaction) : Transaction :=
  { t with hashCache := {}, dataFeeCache := {} }

/-- Whether no component of any signature is there. -/
def isBare (t : Transaction) : Bool :=
  t.signature.isAbsent && t.secondSignature?.all SignatureParts.isAbsent

theorem valid_uncached_iff : t.uncached.Valid ↔ t.Valid := by
  constructor
  · intro h
    exact h.withState t.frozen t.hashCache t.dataFeeCache
  · intro h
    exact h.withState t.frozen {} {}

/-- The chain id of a typed transaction is a field of its draft. -/
theorem chainId_draft (h : t.kind.isTyped = true) :
    t.draft.chainId = t.chainId?.map Word.ofUInt64 := by
  obtain ⟨nonce, gasLimit, recipient, value, data, terms, signature, bound, frozen, unlimited,
    hashCache, dataFeeCache⟩ := t
  cases terms with
  | legacy gasPrice => exact absurd h Bool.false_ne_true
  | accessList | feeMarket | priority => rfl

theorem matchesChain_draft (h : t.kind.isTyped = true → t.chainId? = some registry.chainId) :
    t.kind.MatchesChain registry t.draft := by
  intro htyped id hid
  rw [Option.mem_def, chainId_draft htyped, h htyped] at hid
  exact (Option.some.inj hid).symm

/-- A transaction is assembled from its own draft, under any registry of its chain. -/
theorem assemble_draft (h : t.kind.MatchesChain registry t.draft) :
    t.kind.assemble registry o t.draft =
      { t.uncached with
        registry, frozen := o.freeze, unlimitedInitCode := o.unlimitedInitCode } := by
  obtain ⟨nonce, gasLimit, recipient, value, data, terms, signature, bound, frozen, unlimited,
    hashCache, dataFeeCache⟩ := t
  cases terms with
  | legacy gasPrice => rfl
  | accessList id gasPrice list =>
      obtain rfl : id = registry.chainId := Word.ofUInt64_inj (h rfl _ rfl)
      rfl
  | feeMarket market =>
      obtain ⟨id, tip, cap, list⟩ := market
      obtain rfl : id = registry.chainId := Word.ofUInt64_inj (h rfl _ rfl)
      rfl
  | priority market second =>
      obtain ⟨id, tip, cap, list⟩ := market
      obtain rfl : id = registry.chainId := Word.ofUInt64_inj (h rfl _ rfl)
      rfl

/-- A valid transaction passes the requirements again that it passed when it was
built. -/
theorem build_draft (h : t.Valid) : t.kind.build t.draft t.options = .ok t.uncached := by
  have hchain : t.kind.MatchesChain t.registry t.draft := matchesChain_draft h.chainId
  have hassemble : t.kind.assemble t.registry t.options t.draft = t.uncached :=
    assemble_draft hchain
  refine Kind.build_eq_ok_iff.mpr ⟨t.registry, rfl, ?_, hassemble⟩
  exact Kind.requireValid_iff.mpr ⟨hchain, hassemble ▸ valid_uncached_iff.mpr h⟩

theorem rawValues_eq (t : Transaction) :
    t.rawValues = (t.kind.fields t.isSigned).map t.draft.item := by
  rw [rawValues, Kind.fields]
  split
  · rw [List.map_append]
    rfl
  · rfl

theorem isSigned_iff :
    t.isSigned = true ↔
      t.signature.complete?.isSome = true ∧
        ∀ second ∈ t.secondSignature?, second.complete?.isSome = true := by
  rw [isSigned, Bool.and_eq_true, Option.all_eq_true]
  rfl

theorem isBare_iff :
    t.isBare = true ↔
      t.signature.isAbsent = true ∧ ∀ second ∈ t.secondSignature?, second.isAbsent = true := by
  rw [isBare, Bool.and_eq_true, Option.all_eq_true]
  rfl

/-- The raw values of a signed transaction carry its whole draft. -/
theorem readBack_of_isSigned (h : t.isSigned = true) :
    t.draft.readBack t.kind true = t.draft := by
  obtain ⟨hfirst, hsecond⟩ := isSigned_iff.mp h
  obtain ⟨v, r, s, hfirst⟩ := SignatureParts.complete?_isSome_iff.mp hfirst
  obtain ⟨nonce, gasLimit, recipient, value, data, terms, signature, bound, frozen, unlimited,
    hashCache, dataFeeCache⟩ := t
  subst hfirst
  cases terms with
  | legacy | accessList | feeMarket => rfl
  | priority market second =>
      obtain ⟨pV, pR, pS, rfl⟩ := SignatureParts.complete?_isSome_iff.mp (hsecond second rfl)
      rfl

/-- So do those of a transaction without any component of a signature. -/
theorem readBack_of_isBare (h : t.isBare = true) :
    t.draft.readBack t.kind false = t.draft := by
  obtain ⟨hfirst, hsecond⟩ := isBare_iff.mp h
  obtain hfirst := SignatureParts.isAbsent_iff.mp hfirst
  obtain ⟨nonce, gasLimit, recipient, value, data, terms, signature, bound, frozen, unlimited,
    hashCache, dataFeeCache⟩ := t
  subst hfirst
  cases terms with
  | legacy | accessList | feeMarket => rfl
  | priority market second =>
      obtain rfl := SignatureParts.isAbsent_iff.mp (hsecond second rfl)
      rfl

theorem isSigned_of_isBare (h : t.isBare = true) : t.isSigned = false := by
  have hfirst := SignatureParts.isAbsent_iff.mp (isBare_iff.mp h).1
  rw [isSigned, hfirst]
  rfl

/-- What the unsigned values are read back to is the draft without its signatures. -/
theorem withoutSignatures_draft (t : Transaction) :
    t.draft.withoutSignatures = t.draft.readBack t.kind false := by
  obtain ⟨nonce, gasLimit, recipient, value, data, terms, signature, bound, frozen, unlimited,
    hashCache, dataFeeCache⟩ := t
  cases terms <;> rfl

end Transaction

namespace Kind

variable {kind : Kind} {registry : Registry} {o : Options} {d e : Draft} {signed : Bool}

theorem isSigned_assemble (h : d = d.readBack kind signed) :
    (kind.assemble registry o d).isSigned = signed := by
  rw [h]
  cases kind <;> cases signed <;> rfl

theorem isBare_assemble (h : d = d.readBack kind false) :
    (kind.assemble registry o d).isBare = true := by
  rw [h]
  cases kind <;> rfl

theorem chainId_readBack (h : kind.isTyped = true) :
    (e.readBack kind signed).chainId = some (e.chainId.getD 0) := by
  cases kind with
  | legacy => exact absurd h (by decide)
  | accessList | feeMarket | priority => cases signed <;> rfl

/-- The chain id is the one field that is taken from the registry. -/
theorem draft_assemble_of_isTyped (h : kind.isTyped = true) :
    (kind.assemble registry o (e.readBack kind signed)).draft =
      { e.readBack kind signed with chainId := some (Word.ofUInt64 registry.chainId) } := by
  cases kind with
  | legacy => exact absurd h (by decide)
  | accessList | feeMarket | priority => cases signed <;> rfl

theorem draft_assemble_readBack (h : kind.MatchesChain registry (e.readBack kind signed)) :
    (kind.assemble registry o (e.readBack kind signed)).draft = e.readBack kind signed := by
  obtain rfl | htyped := kind.eq_legacy_or_isTyped
  · cases signed <;> rfl
  · have hread : (e.readBack kind signed).chainId = some (e.chainId.getD 0) :=
      chainId_readBack htyped
    rw [draft_assemble_of_isTyped htyped, ← h htyped _ hread, ← hread]

/-- A draft off the wire is the draft of the transaction assembled from it. -/
theorem draft_assemble (h : d = d.readBack kind signed) (hchain : kind.MatchesChain registry d) :
    (kind.assemble registry o d).draft = d := by
  rw [h] at hchain
  have hdraft : (kind.assemble registry o (d.readBack kind signed)).draft = _ :=
    draft_assemble_readBack hchain
  rwa [← h] at hdraft

end Kind
end TypedTx
