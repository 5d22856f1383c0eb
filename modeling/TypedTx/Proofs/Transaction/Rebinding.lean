import TypedTx.Proofs.Transaction.Projection

/-!
# Moving and building anew

Moving a transaction to another registry builds it anew from its draft, only to see
whether that succeeds: what is given back is a copy of the transaction, with its old
terms and most of what it remembers. Validation puts the chain id of the registry in
the place of the one that the draft names, but only after the two were found equal, and
what is remembered stays true of the copy. So the copy cannot be told from the
transaction that was built and dropped.
-/

namespace TypedTx
namespace Transaction

/-- Two transactions that give the same fields, wire form, messages and costs, whatever
they remember. -/
structure Agrees (t u : Transaction) : Prop where
  draft : t.draft = u.draft
  rawValues : t.rawValues = u.rawValues
  isSigned : t.isSigned = u.isSigned
  chainId? : t.chainId? = u.chainId?
  signingMessage : t.signingMessage = u.signingMessage
  encode : t.encode = u.encode
  hash : t.hash.1 = u.hash.1
  dataFee : t.dataFee.1 = u.dataFee.1
  intrinsicGas : t.intrinsicGas.1 = u.intrinsicGas.1
  upfrontCost : ∀ baseFee, t.upfrontCost baseFee = u.upfrontCost baseFee
  registry : t.registry = u.registry
  frozen : t.frozen = u.frozen

/-- Two attempts at a transaction that fail with the same failure, or give transactions
that agree. -/
inductive SameOutcome : Except Failure Transaction → Except Failure Transaction → Prop where
  | ok {t u : Transaction} : t.Agrees u → SameOutcome (.ok t) (.ok u)
  | error (failure : Failure) : SameOutcome (.error failure) (.error failure)

variable {t u : Transaction} {registry : Registry}

/-- If everything remembered is right, it does not show. -/
theorem agrees_of_uncached_eq (ht : t.Coherent) (hu : u.Coherent)
    (h : t.uncached = u.uncached) : t.Agrees u where
  draft := look_congr draft (fun _ => rfl) h
  rawValues := look_congr rawValues (fun _ => rfl) h
  isSigned := look_congr isSigned (fun _ => rfl) h
  chainId? := look_congr chainId? (fun _ => rfl) h
  signingMessage := look_congr signingMessage (fun _ => rfl) h
  encode := look_congr encode (fun _ => rfl) h
  hash := by
    rw [ht.hash_spec.1, hu.hash_spec.1]
    exact look_congr hashAfresh (fun _ => rfl) h
  dataFee := by
    rw [ht.dataFee_spec.1, hu.dataFee_spec.1]
    exact look_congr computeDataFee (fun _ => rfl) h
  intrinsicGas := by
    rw [ht.intrinsicGas_eq, hu.intrinsicGas_eq]
    exact look_congr intrinsicGasAfresh (fun _ => rfl) h
  upfrontCost baseFee := look_congr (fun v => v.upfrontCost baseFee) (fun _ => rfl) h
  registry := look_congr Transaction.registry (fun _ => rfl) h
  frozen := look_congr Transaction.frozen (fun _ => rfl) h

/-- The copy and the transaction that was built and dropped agree. -/
theorem sameOutcome_rebind (ht : t.Coherent) (registry : Registry) :
    SameOutcome (t.rebind registry)
      (t.kind.build t.draft { t.options with registry := some registry }) := by
  rw [rebind]
  cases hbuild : t.kind.build t.draft { t.options with registry := some registry } with
  | error failure => exact .error failure
  | ok fresh =>
      have hfresh : fresh = (t.bindTo registry).uncached := eq_uncached_bindTo_of_build hbuild
      have hcoherent : fresh.Coherent := by
        rw [hfresh]
        exact coherent_uncached _
      refine .ok (agrees_of_uncached_eq (ht.bindTo registry) hcoherent ?_)
      rw [hfresh]
      rfl

theorem bindTo_self (t : Transaction) : t.bindTo t.registry = t := by
  rw [bindTo, if_pos rfl]

/-- Both attempts succeed under the registry that the transaction is valid for. -/
theorem rebind_self (ht : t.Valid) : t.rebind t.registry = .ok t := by
  have hbuild : t.kind.build t.draft { t.options with registry := some t.registry } =
      .ok t.uncached := build_draft ht
  rw [rebind, hbuild, bindTo_self]
  rfl

end Transaction

/-- Moving a reachable transaction to any registry succeeds exactly when building it anew
from its own draft does, under that registry and its flags and whether as its own kind
or as the kind that the draft names. The failures are the same, and so are the
transactions as far as one can see. Under its own registry both succeed and give what
agrees with the transaction. -/
theorem Reachable.sameOutcome_rebind_build {scheme : Scheme} {t : Transaction}
    (h : Reachable scheme t) :
    ∀ build ∈ [t.kind.build, Gate.permissive.build],
      (∀ registry, Transaction.SameOutcome (t.rebind registry)
        (build t.draft { t.options with registry := some registry })) ∧
      ∃ moved fresh, t.rebind t.registry = .ok moved ∧
        build t.draft { t.options with registry := some t.registry } = .ok fresh ∧
        moved.Agrees t ∧ fresh.Agrees t := by
  intro build hbuild
  have hkind : ∀ o, build t.draft o = t.kind.build t.draft o :=
    fun _ => Gate.build_eq_of_mem t.kind_draft hbuild
  have hfresh : t.kind.build t.draft { t.options with registry := some t.registry } =
      .ok t.uncached := Transaction.build_draft h.valid
  simp only [hkind]
  refine ⟨Transaction.sameOutcome_rebind h.coherent, ?_⟩
  refine ⟨t, t.uncached, Transaction.rebind_self h.valid, hfresh, ?_, ?_⟩
  · exact Transaction.agrees_of_uncached_eq h.coherent h.coherent rfl
  · exact Transaction.agrees_of_uncached_eq t.coherent_uncached h.coherent rfl

/-- A transaction that remembers its data fee. -/
theorem Reachable.sameOutcome_rebind_build_of_asked :
    let t := (Kind.feeMarket.assemble .standard {} { data := some [0, 1] }).dataFee.2
    Reachable Secp256k1.scheme t ∧ t.dataFeeCache.slot.isSome = true ∧
      ∀ build ∈ [t.kind.build, Gate.permissive.build],
        (∀ registry, Transaction.SameOutcome (t.rebind registry)
          (build t.draft { t.options with registry := some registry })) ∧
        ∃ moved fresh, t.rebind t.registry = .ok moved ∧
          build t.draft { t.options with registry := some t.registry } = .ok fresh ∧
          moved.Agrees t ∧ fresh.Agrees t := by
  intro t
  have hbuild : Reachable Secp256k1.scheme
      (Kind.feeMarket.assemble .standard {} { data := some [0, 1] }) :=
    .build (show (Source.draftAs .feeMarket { data := some [0, 1] }).build {} = _ from rfl)
  have ht : Reachable Secp256k1.scheme t := .ask .dataFee hbuild
  exact ⟨ht, rfl, Reachable.sameOutcome_rebind_build ht⟩

end TypedTx
