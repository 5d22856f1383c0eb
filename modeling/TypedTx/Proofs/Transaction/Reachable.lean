import TypedTx.Curve.Ecdsa
import TypedTx.Proofs.Transaction.Assembly
import TypedTx.Session

/-!
# Reachable transactions

A transaction is reachable if it was built from outside data, made from a reachable
one by a change, or left behind by a question asked of a reachable one. Every
reachable transaction is valid for the registry it is bound to: most steps build
anew, and the others keep everything that validity speaks of, except that moving to
another registry checks the fields against it first.
-/

namespace TypedTx

/-- The transactions that finitely many operations lead to. -/
inductive Reachable (scheme : Scheme) : Transaction → Prop where
  | build {source : Source} {o : Options} {t : Transaction} :
      source.build o = .ok t → Reachable scheme t
  | change {t u : Transaction} (change : Change) :
      Reachable scheme t → t.apply scheme change = .ok u → Reachable scheme u
  | ask {t : Transaction} {α : Type} (query : Query α) :
      Reachable scheme t → Reachable scheme (t.answer scheme query).2

theorem Refusal.ofExcept_iff {α : Type} {x : Except Failure α} {a : α} :
    Refusal.ofExcept x = .ok a ↔ x = .ok a := by
  cases x <;> simp [Refusal.ofExcept]

def Transaction.Built (t : Transaction) : Prop :=
  ∃ (kind : Kind) (d : Draft) (o : Options), kind.build d o = .ok t

theorem Transaction.Built.valid {t : Transaction} (h : t.Built) : t.Valid := by
  obtain ⟨kind, d, o, h⟩ := h
  exact Kind.valid_of_build h

section Building

variable {scheme : Scheme} {gate : Gate} {kind : Kind} {t u : Transaction} {o : Options}
variable {values : List Rlp.Item} {input key secondKey : Bytes}

theorem Kind.built_of_buildValues (h : kind.buildValues values o = .ok t) : t.Built := by
  obtain ⟨d, -, h⟩ := buildValues_eq_ok_iff.mp h
  exact ⟨kind, d, o, h⟩

theorem Kind.built_of_decode (h : kind.decode input o = .ok t) : t.Built := by
  obtain ⟨values, -, h⟩ := decode_eq_ok_iff.mp h
  exact built_of_buildValues h

theorem Gate.built_of_build {d : Draft} (h : gate.build d o = .ok t) : t.Built := by
  obtain ⟨-, h⟩ := Success.seq_iff.mp h
  exact ⟨_, d, o, h⟩

theorem Gate.built_of_buildValues (h : gate.buildValues values kind o = .ok t) : t.Built :=
  Kind.built_of_buildValues (Success.seq_iff.mp h).2

theorem Gate.built_of_decode (h : gate.decode input o = .ok t) : t.Built := by
  obtain ⟨kind, -, h⟩ := Success.bind_iff.mp h
  exact Kind.built_of_decode (Success.seq_iff.mp h).2

theorem Source.built_of_build {source : Source} (h : source.build o = .ok t) : t.Built := by
  cases source with
  | draft gate d => exact Gate.built_of_build h
  | rawValues gate kind values => exact Gate.built_of_buildValues h
  | wire gate input => exact Gate.built_of_decode h
  | blockItem gate item =>
      cases item with
      | bytes input => exact Gate.built_of_decode h
      | list values => exact Gate.built_of_buildValues h
  | draftAs kind d => exact ⟨kind, d, o, h⟩
  | rawValuesAs kind values => exact Kind.built_of_buildValues h
  | wireAs kind input => exact Kind.built_of_decode h

namespace Transaction

theorem built_of_withSignatures {first second : SignatureParts}
    (h : t.withSignatures first second = .ok u) : u.Built :=
  ⟨_, _, _, h⟩

theorem exists_withSignatures_of_signLegacy {mode : Replay}
    (h : t.signLegacy scheme key mode = .ok u) :
    ∃ signature : RecoverableSignature,
      t.withSignatures
        (.ofWords (mode.encode t.registry.chainId (Word.ofNat signature.parity.toNat))
          signature.r signature.s)
        t.draft.secondSignature = .ok u := by
  obtain ⟨-, h⟩ := Success.refuse_iff.mp h
  obtain ⟨signature, -, h⟩ := Success.bind_iff.mp h
  exact ⟨signature, h⟩

theorem exists_withSignatures_of_signTyped (h : t.signTyped scheme key = .ok u) :
    ∃ signature : RecoverableSignature,
      t.withSignatures signature.parts t.draft.secondSignature = .ok u := by
  obtain ⟨signature, -, h⟩ := Success.bind_iff.mp h
  exact ⟨signature, h⟩

theorem exists_withSignatures_of_signBoth (h : t.signBoth scheme key secondKey = .ok u) :
    ∃ first second : RecoverableSignature,
      t.withSignatures first.parts second.parts = .ok u := by
  obtain ⟨-, h⟩ := Success.seq_iff.mp h
  obtain ⟨-, h⟩ := Success.seq_iff.mp h
  obtain ⟨first, -, h⟩ := Success.bind_iff.mp h
  obtain ⟨second, -, h⟩ := Success.bind_iff.mp h
  exact ⟨first, second, h⟩

theorem exists_withSignatures_of_sign {secondKey : Option Bytes}
    (h : t.sign scheme key secondKey = .ok u) :
    ∃ first second, t.withSignatures first second = .ok u := by
  unfold sign at h
  split at h
  · obtain ⟨signature, h⟩ := exists_withSignatures_of_signLegacy h
    exact ⟨_, _, h⟩
  · obtain ⟨signature, h⟩ := exists_withSignatures_of_signTyped h
    exact ⟨_, _, h⟩
  · obtain ⟨signature, h⟩ := exists_withSignatures_of_signTyped h
    exact ⟨_, _, h⟩
  · split at h
    · exact absurd h nofun
    · obtain ⟨first, second, h⟩ := exists_withSignatures_of_signBoth h
      exact ⟨_, _, h⟩

theorem built_of_signLegacy {mode : Replay} (h : t.signLegacy scheme key mode = .ok u) :
    u.Built := by
  obtain ⟨signature, h⟩ := exists_withSignatures_of_signLegacy h
  exact built_of_withSignatures h

theorem built_of_sign {secondKey : Option Bytes} (h : t.sign scheme key secondKey = .ok u) :
    u.Built := by
  obtain ⟨first, second, h⟩ := exists_withSignatures_of_sign h
  exact built_of_withSignatures h

theorem built_of_update {edit : Draft → Draft} (h : t.update edit = .ok u) : u.Built :=
  ⟨_, _, _, (Success.refuse_iff.mp h).2⟩

end Transaction

end Building

namespace Transaction

variable {scheme : Scheme} {t u : Transaction} {registry : Registry}

theorem valid_freeze (h : t.Valid) : t.freeze.Valid :=
  h.withState true t.hashCache t.dataFeeCache

theorem uncached_bindTo (t : Transaction) (registry : Registry) :
    (t.bindTo registry).uncached = { t.uncached with registry } := by
  rw [bindTo]
  split <;> rfl

/-- Building anew under another registry gives the transaction moved there, up to what
is remembered. -/
theorem eq_uncached_bindTo_of_build
    (h : t.kind.build t.draft { t.options with registry := some registry } = .ok u) :
    u = (t.bindTo registry).uncached := by
  obtain ⟨found, hresolve, hvalid, rfl⟩ := Kind.build_eq_ok_iff.mp h
  obtain rfl : registry = found := Except.ok.inj hresolve
  obtain ⟨hchain, -⟩ := Kind.requireValid_iff.mp hvalid
  rw [assemble_draft hchain, uncached_bindTo]
  rfl

/-- Moving to another registry keeps the old terms, but only after the draft passed
under the new one. -/
theorem valid_of_rebind (h : t.rebind registry = .ok u) : u.Valid := by
  obtain ⟨rebuilt, hbuild, h⟩ := Success.bind_iff.mp h
  rw [← Except.ok.inj h]
  refine valid_uncached_iff.mp ?_
  rw [← eq_uncached_bindTo_of_build hbuild]
  exact Kind.valid_of_build hbuild

theorem uncached_dataFee (t : Transaction) : t.dataFee.2.uncached = t.uncached := by
  rw [dataFee]
  split <;> rfl

/-- A question changes at most what is remembered. -/
theorem uncached_answer {α : Type} (query : Query α) :
    (t.answer scheme query).2.uncached = t.uncached := by
  cases query with
  | hash =>
      change t.hash.2.uncached = _
      rw [hash]
      split
      · split <;> rfl
      · rfl
  | dataFee => exact uncached_dataFee t
  | intrinsicGas => exact uncached_dataFee t
  | problems => exact uncached_dataFee t
  | isValid => exact uncached_dataFee t
  | view look => rfl

theorem eq_bindTo_of_rebind (h : t.rebind registry = .ok u) : u = t.bindTo registry := by
  obtain ⟨-, -, h⟩ := Success.bind_iff.mp h
  exact (Except.ok.inj h).symm

/-- A change builds anew, moves to another registry or freezes. -/
theorem apply_cases {change : Change} (h : t.apply scheme change = .ok u) :
    u.Built ∨ (∃ registry, t.rebind registry = .ok u) ∨ u = t.freeze := by
  cases change with
  | sign key secondKey => exact .inl (built_of_sign (Refusal.ofExcept_iff.mp h))
  | signLegacy key mode =>
      rw [apply] at h
      split at h
      · exact .inl (built_of_signLegacy (Refusal.ofExcept_iff.mp h))
      · exact absurd h nofun
  | update edit => exact .inl (built_of_update (Refusal.ofExcept_iff.mp h))
  | rebind registry => exact .inr (.inl ⟨registry, Refusal.ofExcept_iff.mp h⟩)
  | freeze => exact .inr (.inr (Except.ok.inj h).symm)
  | reparse gate o => exact .inl (Gate.built_of_decode (Refusal.ofExcept_iff.mp h))
  | rebuild gate o =>
      obtain ⟨d, -, h⟩ := Success.bind_iff.mp (Refusal.ofExcept_iff.mp h)
      exact .inl (Gate.built_of_build h)

/-- What one change makes of a valid transaction is valid. -/
theorem valid_of_apply {change : Change} (ht : t.Valid) (h : t.apply scheme change = .ok u) :
    u.Valid := by
  obtain hbuilt | ⟨registry, hrebind⟩ | rfl := apply_cases h
  · exact hbuilt.valid
  · exact valid_of_rebind hrebind
  · exact valid_freeze ht

theorem valid_answer {α : Type} (ht : t.Valid) (query : Query α) :
    (t.answer scheme query).2.Valid := by
  refine valid_uncached_iff.mp ?_
  rw [uncached_answer]
  exact valid_uncached_iff.mpr ht

end Transaction

theorem Reachable.valid {scheme : Scheme} {t : Transaction} (h : Reachable scheme t) :
    t.Valid := by
  induction h with
  | build h => exact (Source.built_of_build h).valid
  | change change _ h ih => exact Transaction.valid_of_apply ih h
  | ask query _ ih => exact Transaction.valid_answer ih query

/-- Every reachable transaction follows all construction rules of the registry it is
bound to, so its own draft builds it anew under that registry and its flags. -/
theorem Reachable.valid_and_build_draft {scheme : Scheme} {t : Transaction}
    (h : Reachable scheme t) :
    t.Valid ∧ t.kind.build t.draft t.options = .ok t.uncached :=
  ⟨h.valid, Transaction.build_draft h.valid⟩

/-- A signed fee market transaction that creates a contract and was moved to the fork which
brings the limit on init code. -/
theorem Reachable.valid_and_build_draft_of_rebind :
    let d : Draft :=
      { chainId := some 1, nonce := some 3, maxPriorityFeePerGas := some 2,
        maxFeePerGas := some 30, gasLimit := some 60000, data := some [0x60, 0x00],
        v := some 1, r := some 5, s := some 6 }
    let o : Options := { registry := some (Registry.standard.withFork .london) }
    let start := Kind.feeMarket.assemble (Registry.standard.withFork .london) o d
    let t := start.bindTo (Registry.standard.withFork .shanghai)
    Reachable Secp256k1.scheme t ∧ t.isSigned = true ∧ t.Valid ∧
      t.kind.build t.draft t.options = .ok t.uncached := by
  intro d o start t
  have hbuild : (Source.draftAs .feeMarket d).build o = .ok start := by decide +kernel
  have hrebind : start.rebind (Registry.standard.withFork .shanghai) = .ok t := by decide +kernel
  have hchange : start.apply Secp256k1.scheme
      (.rebind (Registry.standard.withFork .shanghai)) = .ok t := by
    rw [Transaction.apply, Refusal.ofExcept_iff, hrebind]
  have hreach : Reachable Secp256k1.scheme t := .change _ (.build hbuild) hchange
  exact ⟨hreach, rfl, Reachable.valid_and_build_draft hreach⟩

end TypedTx
