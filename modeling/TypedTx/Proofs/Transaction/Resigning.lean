import TypedTx.Proofs.Transaction.SigningMessage
import TypedTx.Transaction.Signing

/-!
# Other signatures on the same fields

Writing signatures into the draft of a valid transaction and building anew succeeds
whenever the signatures follow the rules by themselves, and gives the transaction with
its signatures replaced. Nothing that a signature covers is changed by that, except
that the mode of a legacy signature is told by its new `v`.
-/

namespace TypedTx

theorem Kind.isTyped_of_priority {kind : Kind} (h : kind = .priority) : kind.isTyped = true := by
  rw [h]
  rfl

theorem Kind.ne_priority_of_legacy {kind : Kind} (h : kind = .legacy) : kind ≠ .priority := by
  rw [h]
  exact nofun

def Terms.withSecond (terms : Terms) (second : SignatureParts) : Terms :=
  match terms with
  | .priority market _ => .priority market second
  | terms => terms

namespace Transaction

variable {t : Transaction} {first second : SignatureParts} {registry : Registry} {o : Options}

/-- The transaction with other signatures and nothing remembered. -/
def resigned (t : Transaction) (first second : SignatureParts) : Transaction :=
  { t.uncached with signature := first, terms := t.terms.withSecond second }

@[simp] theorem kind_resigned : (t.resigned first second).kind = t.kind := by
  rw [kind, kind, resigned]
  cases t.terms <;> rfl

theorem subject_resigned : (t.resigned first second).subject = t.subject := by
  rw [subject, subject, kind_resigned]
  rfl

@[simp] theorem feeCap_resigned :
    (t.resigned first second).terms.feeCap = t.terms.feeCap := by
  rw [resigned]
  cases t.terms <;> rfl

@[simp] theorem market?_resigned :
    (t.resigned first second).terms.market? = t.terms.market? := by
  rw [resigned]
  cases t.terms <;> rfl

theorem secondSignature?_resigned :
    (t.resigned first second).secondSignature? =
      if t.kind = .priority then some second else none := by
  rw [secondSignature?, resigned, kind]
  cases t.terms <;> rfl

theorem chainId?_resigned (h : t.kind.isTyped = true) :
    (t.resigned first second).chainId? = t.chainId? := by
  rw [chainId?, chainId?, resigned]
  cases hterms : t.terms with
  | legacy gasPrice => exact absurd hterms (terms_ne_legacy h gasPrice)
  | accessList | feeMarket | priority => rfl

/-- No field that a signature covers is a component of a signature. -/
@[simp] theorem unsignedValues_resigned :
    (t.resigned first second).unsignedValues = t.unsignedValues := by
  obtain ⟨nonce, gasLimit, recipient, value, data, terms, signature, bound, frozen, unlimited,
    hashCache, dataFeeCache⟩ := t
  cases terms <;> rfl

/-- The signatures follow the rules for the fields of the transaction. -/
structure Admits (t : Transaction) (first second : SignatureParts) : Prop where
  parity : ∀ v ∈ first.v, t.kind.AdmitsV t.registry v
  lowS : ∀ s ∈ first.s, t.registry.AdmitsS s
  second : t.kind = .priority → second.IsSecondOf first t.registry

theorem Valid.resigned (h : t.Valid) (hadmits : t.Admits first second) :
    (t.resigned first second).Valid where
  upgrades := by
    rw [kind_resigned]
    exact h.upgrades
  chainId := by
    rw [kind_resigned]
    intro htyped
    rw [chainId?_resigned htyped]
    exact h.chainId htyped
  parity := by
    rw [kind_resigned]
    exact hadmits.parity
  lowS := hadmits.lowS
  initCode := h.initCode
  feeBound := by
    rw [feeCap_resigned]
    exact h.feeBound
  feeOrder := by
    rw [market?_resigned]
    exact h.feeOrder
  second := by
    intro other hother
    rw [secondSignature?_resigned, Option.mem_def, Option.ite_none_right_eq_some] at hother
    obtain ⟨hkind, hother⟩ := hother
    rw [← Option.some.inj hother]
    exact hadmits.second hkind

end Transaction

theorem Kind.assemble_withSignatures (kind : Kind) (registry : Registry) (o : Options) (d : Draft)
    (first second : SignatureParts) :
    kind.assemble registry o ((d.withSignature first).withSecondSignature second) =
      { kind.assemble registry o d with
        signature := first
        terms := (kind.terms registry d).withSecond second } := by
  cases kind <;> rfl

namespace Transaction

variable {t : Transaction} {first second : SignatureParts}

theorem assemble_withSignatures (h : t.Valid) :
    t.kind.assemble t.registry t.options
      ((t.draft.withSignature first).withSecondSignature second) = t.resigned first second := by
  have hassemble : t.kind.assemble t.registry t.options t.draft = t.uncached :=
    assemble_draft (matchesChain_draft h.chainId)
  have hterms : t.kind.terms t.registry t.draft = t.terms := congrArg Transaction.terms hassemble
  rw [Kind.assemble_withSignatures, hassemble, hterms]
  rfl

/-- Signatures that follow the rules are accepted. -/
theorem withSignatures_eq_ok (h : t.Valid) (hadmits : t.Admits first second) :
    t.withSignatures first second = .ok (t.resigned first second) := by
  have hassemble : t.kind.assemble t.registry t.options _ = t.resigned first second :=
    assemble_withSignatures h
  refine Kind.build_eq_ok_iff.mpr ⟨t.registry, rfl, ?_, hassemble⟩
  refine Kind.requireValid_iff.mpr ⟨matchesChain_draft h.chainId, ?_⟩
  rw [hassemble]
  exact h.resigned hadmits

/-- Whatever is accepted, only the signatures are replaced. -/
theorem eq_resigned_of_withSignatures {u : Transaction} (h : t.Valid)
    (hu : t.withSignatures first second = .ok u) : u = t.resigned first second := by
  obtain ⟨registry, hresolve, -, rfl⟩ := Kind.build_eq_ok_iff.mp hu
  obtain rfl : t.registry = registry := Except.ok.inj hresolve
  exact assemble_withSignatures h

theorem legacyMessage_resigned (mode : Replay) :
    (t.resigned first second).legacyMessage mode = t.legacyMessage mode := by
  rw [legacyMessage.eq_def, legacyMessage.eq_def, unsignedValues_resigned]
  rfl

theorem signingMessage_resigned_of_isTyped (h : t.kind.isTyped = true) :
    (t.resigned first second).signingMessage = t.signingMessage := by
  have hkind : (t.resigned first second).kind.isTyped = true := by
    rw [kind_resigned]
    exact h
  rw [signingMessage_of_isTyped hkind, signingMessage_of_isTyped h, kind_resigned,
    unsignedValues_resigned]

theorem signingHash_resigned_of_isTyped (h : t.kind.isTyped = true) :
    (t.resigned first second).signingHash = t.signingHash := by
  rw [signingHash, signingHash, signingMessage_resigned_of_isTyped h]

theorem replay_eq_ofV {v : Word} (h : t.signature.v = some v) : t.replay = Replay.ofV v := by
  rw [replay, h]

/-- The new `v` of a legacy signature tells which message it covers. -/
theorem signingMessage_resigned_of_legacy (h : t.kind = .legacy) {v : Word}
    (hv : first.v = some v) :
    (t.resigned first second).signingMessage = t.legacyMessage (Replay.ofV v) := by
  have hkind : (t.resigned first second).kind = .legacy := by
    rw [kind_resigned]
    exact h
  have hreplay : (t.resigned first second).replay = Replay.ofV v := replay_eq_ofV hv
  rw [signingMessage_of_legacy hkind, hreplay, legacyMessage_resigned]

theorem isSigned_resigned (hfirst : first.complete?.isSome = true)
    (hsecond : t.kind = .priority → second.complete?.isSome = true) :
    (t.resigned first second).isSigned = true := by
  refine isSigned_iff.mpr ⟨hfirst, ?_⟩
  intro other hother
  rw [secondSignature?_resigned, Option.mem_def, Option.ite_none_right_eq_some] at hother
  obtain ⟨hkind, hother⟩ := hother
  rw [← Option.some.inj hother]
  exact hsecond hkind

end Transaction
end TypedTx
