import TypedTx.Proofs.Transaction.Signing

/-!
# Signing again

What signing gives depends on the fields that a signature covers and on nothing that an
earlier signature left behind: the digest is computed from the other fields, and the new
signatures are written over the old ones. So signing a transaction that was signed before,
by whatever keys and in whatever mode, is signing it for the first time.

Both signatures of a priority transaction are of one digest, so the two keys change places
with the two signatures.
-/

namespace TypedTx

/-- The kind can be signed with these keys: both that a priority transaction needs are
there and are private keys. The others ignore the second. -/
structure Kind.AcceptsKeys (kind : Kind) (key : Bytes) (secondKey : Option Bytes) : Prop where
  key : ∃ secret, SecretKey.ofBytes key = .ok secret
  secondKey : kind = .priority →
    ∃ bytes ∈ secondKey, ∃ secret, SecretKey.ofBytes bytes = .ok secret

namespace Transaction

variable {scheme : Scheme} {t u : Transaction} {first second first' second' : SignatureParts}
variable {key key' : Bytes} {secondKey secondKey' : Option Bytes}

theorem withSignatures_resigned :
    (t.resigned first second).withSignatures first' second' = t.withSignatures first' second' := by
  obtain ⟨nonce, gasLimit, recipient, value, data, terms, signature, registry, frozen, unlimited,
    hashCache, dataFeeCache⟩ := t
  cases terms <;> rfl

/-- Only a priority transaction has a second signature in its fields. -/
theorem secondSignature_draft_of_ne_priority (h : t.kind ≠ .priority) :
    t.draft.secondSignature = {} := by
  rw [kind] at h
  rw [draft]
  cases hterms : t.terms with
  | legacy | accessList | feeMarket => rfl
  | priority market other =>
      rw [hterms] at h
      exact absurd rfl h

theorem secondSignature_draft_resigned (h : t.kind ≠ .priority) :
    (t.resigned first second).draft.secondSignature = t.draft.secondSignature := by
  have hresigned : (t.resigned first second).kind ≠ .priority := by
    rw [kind_resigned]
    exact h
  rw [secondSignature_draft_of_ne_priority hresigned, secondSignature_draft_of_ne_priority h]

theorem signLegacy_resigned (hkind : t.kind = .legacy) (mode : Replay) :
    (t.resigned first second).signLegacy scheme key mode = t.signLegacy scheme key mode := by
  have hregistry : (t.resigned first second).registry = t.registry := rfl
  rw [signLegacy, signLegacy, hregistry, legacyMessage_resigned, failure, failure,
    subject_resigned, secondSignature_draft_resigned (Kind.ne_priority_of_legacy hkind)]
  simp only [withSignatures_resigned]

theorem signTyped_resigned (htyped : t.kind.isTyped = true) (hkind : t.kind ≠ .priority) :
    (t.resigned first second).signTyped scheme key = t.signTyped scheme key := by
  rw [signTyped, signTyped, signingHash_resigned_of_isTyped htyped, subject_resigned,
    secondSignature_draft_resigned hkind]
  simp only [withSignatures_resigned]

theorem signBoth_resigned (hkind : t.kind = .priority) :
    (t.resigned first second).signBoth scheme key key' = t.signBoth scheme key key' := by
  rw [signBoth, signBoth, signingHash_resigned_of_isTyped (Kind.isTyped_of_priority hkind),
    subject_resigned]
  simp only [withSignatures_resigned]

/-- Whatever signatures a transaction carries, it is signed as if it had others. -/
theorem sign_resigned :
    (t.resigned first second).sign scheme key secondKey = t.sign scheme key secondKey := by
  have hresigned : (t.resigned first second).kind = t.kind := kind_resigned
  obtain hlegacy | htyped := t.kind.eq_legacy_or_isTyped
  · have hregistry : (t.resigned first second).registry = t.registry := rfl
    rw [sign_of_legacy (hresigned.trans hlegacy), sign_of_legacy hlegacy, hregistry,
      signLegacy_resigned hlegacy]
  · by_cases hkind : t.kind = .priority
    · cases secondKey with
      | none =>
          rw [sign_of_missing (hresigned.trans hkind), sign_of_missing hkind, failure, failure,
            subject_resigned]
      | some bytes =>
          rw [sign_of_priority (hresigned.trans hkind), sign_of_priority hkind,
            signBoth_resigned hkind]
    · rw [sign_of_single (by rwa [hresigned]) (by rwa [hresigned]), sign_of_single htyped hkind,
        signTyped_resigned htyped hkind]

theorem exists_sign_of_acceptsKeys (hnormal : ∀ digest key, (scheme.sign digest key).IsNormal)
    (ht : t.Valid) (hkeys : t.kind.AcceptsKeys key secondKey) :
    ∃ u, t.sign scheme key secondKey = .ok u := by
  obtain ⟨secret, hsecret⟩ := hkeys.key
  obtain hlegacy | htyped := t.kind.eq_legacy_or_isTyped
  · rw [sign_of_legacy hlegacy,
      signLegacy_eq_ok (hnormal _ secret) ht hlegacy Registry.isActive_of_mode hsecret rfl]
    exact ⟨_, rfl⟩
  · by_cases hkind : t.kind = .priority
    · obtain ⟨bytes, rfl, other, hother⟩ := hkeys.secondKey hkind
      rw [sign_of_priority hkind, signBoth_eq_ok (hnormal _) ht hkind hsecret hother rfl]
      exact ⟨_, rfl⟩
    · rw [sign_of_single htyped hkind,
        signTyped_eq_ok (hnormal _ secret) ht htyped hkind hsecret rfl]
      exact ⟨_, rfl⟩

/-- The transaction with its two signatures exchanged. -/
def swapSignatures (t : Transaction) : Transaction :=
  match t.terms with
  | .priority market second =>
      { t with signature := second, terms := .priority market t.signature }
  | _ => t

theorem swapSignatures_resigned (hkind : t.kind = .priority) :
    (t.resigned first second).swapSignatures = t.resigned second first := by
  obtain ⟨nonce, gasLimit, recipient, value, data, terms, signature, registry, frozen, unlimited,
    hashCache, dataFeeCache⟩ := t
  cases terms with
  | priority market other => rfl
  | legacy | accessList | feeMarket => cases hkind

/-- Among the fields nothing but the signatures is exchanged. -/
theorem draft_swapSignatures (hkind : t.kind = .priority) :
    t.swapSignatures.draft =
      (t.draft.withSignature t.draft.secondSignature).withSecondSignature t.draft.signature := by
  obtain ⟨nonce, gasLimit, recipient, value, data, terms, signature, registry, frozen, unlimited,
    hashCache, dataFeeCache⟩ := t
  cases terms with
  | priority market other => rfl
  | legacy | accessList | feeMarket => cases hkind

/-- The keys change places with the signatures. -/
theorem exists_signBoth_swap (hnormal : ∀ digest key, (scheme.sign digest key).IsNormal)
    (ht : t.Valid) (hkind : t.kind = .priority) {secret secret' : SecretKey}
    (hkey : SecretKey.ofBytes key = .ok secret) (hkey' : SecretKey.ofBytes key' = .ok secret') :
    ∃ u, t.signBoth scheme key key' = .ok u ∧ u.kind = .priority ∧
      t.signBoth scheme key' key = .ok u.swapSignatures := by
  rw [signBoth_eq_ok (hnormal _) ht hkind hkey hkey' rfl,
    signBoth_eq_ok (hnormal _) ht hkind hkey' hkey rfl]
  exact ⟨_, rfl, kind_resigned.trans hkind, congrArg _ (swapSignatures_resigned hkind).symm⟩

end Transaction

/-- Signing forgets earlier signatures. Every reachable transaction, whatever components of
signatures it carries, is signed with any keys that its kind accepts, and what is signed
after that with other keys is the very transaction that signing with these alone gives. The
same is true of a legacy transaction in all modes that the registry permits. Exchanging the
two keys of a priority transaction exchanges its two signatures and nothing else. -/
theorem Reachable.exists_sign_sign {scheme : Scheme} {t : Transaction} (h : Reachable scheme t)
    (hnormal : ∀ digest key, (scheme.sign digest key).IsNormal) {key key' : Bytes}
    {secondKey secondKey' : Option Bytes} (hkeys : t.kind.AcceptsKeys key secondKey)
    (hkeys' : t.kind.AcceptsKeys key' secondKey') :
    (∃ u w, t.sign scheme key secondKey = .ok u ∧ u.sign scheme key' secondKey' = .ok w ∧
      t.sign scheme key' secondKey' = .ok w) ∧
    (t.kind = .legacy → ∀ mode mode',
      (mode = .eip155 ∨ mode' = .eip155 → t.registry.isActive 155 = true) →
        ∃ u w, t.signLegacy scheme key mode = .ok u ∧ u.signLegacy scheme key' mode' = .ok w ∧
          t.signLegacy scheme key' mode' = .ok w) ∧
    (t.kind = .priority → ∀ other ∈ secondKey,
      ∃ u, t.sign scheme key (some other) = .ok u ∧
        t.sign scheme other (some key) = .ok u.swapSignatures ∧
        u.swapSignatures.draft =
          (u.draft.withSignature u.draft.secondSignature).withSecondSignature
            u.draft.signature) := by
  have ht : t.Valid := h.valid
  obtain ⟨secret, hsecret⟩ := hkeys.key
  obtain ⟨secret', hsecret'⟩ := hkeys'.key
  refine ⟨?_, ?_, ?_⟩
  · obtain ⟨u, hu⟩ := Transaction.exists_sign_of_acceptsKeys hnormal ht hkeys
    obtain ⟨w, hw⟩ := Transaction.exists_sign_of_acceptsKeys hnormal ht hkeys'
    obtain ⟨_, _, _, rfl, -⟩ := Transaction.exists_resigned_of_sign ht hu
    exact ⟨_, w, hu, Transaction.sign_resigned.trans hw, hw⟩
  · intro hkind mode mode' hmode
    have hu := Transaction.signLegacy_eq_ok (hnormal _ secret) ht hkind
      (fun heip155 => hmode (.inl heip155)) hsecret rfl
    have hw := Transaction.signLegacy_eq_ok (hnormal _ secret') ht hkind
      (fun heip155 => hmode (.inr heip155)) hsecret' rfl
    exact ⟨_, _, hu, (Transaction.signLegacy_resigned hkind mode').trans hw, hw⟩
  · intro hkind other hother
    obtain ⟨_, hmem, otherSecret, hotherSecret⟩ := hkeys.secondKey hkind
    obtain rfl := Option.mem_unique hother hmem
    obtain ⟨u, hu, hukind, hswap⟩ :=
      Transaction.exists_signBoth_swap hnormal ht hkind hsecret hotherSecret
    rw [← Transaction.sign_of_priority hkind] at hu hswap
    exact ⟨u, hu, hswap, Transaction.draft_swapSignatures hukind⟩

/-- A legacy and a priority transaction, both with parts of signatures. They are signed as by
the network's scheme. -/
theorem Reachable.exists_sign_sign_of_partial :
    let network := Secp256k1.scheme
    let scheme := network.checked
    let key : Bytes := List.replicate 32 1
    let other : Bytes := List.replicate 32 2
    let legacy := Kind.legacy.assemble .standard {} { v := some 27, s := some 5 }
    let priority :=
      Kind.priority.assemble .standard {} { gasLimit := some 21000, v := some 0, pS := some 5 }
    (Kind.legacy.AcceptsKeys key none ∧ Kind.legacy.AcceptsKeys other none ∧
      ∃ u w, legacy.sign scheme key none = .ok u ∧ u.sign scheme other none = .ok w ∧
        legacy.sign scheme other none = .ok w ∧ legacy.sign network key none = .ok u ∧
        legacy.sign network other none = .ok w) ∧
    (Kind.priority.AcceptsKeys key (some other) ∧
      ∃ u, priority.sign scheme key (some other) = .ok u ∧
        priority.sign scheme other (some key) = .ok u.swapSignatures ∧
        priority.sign network key (some other) = .ok u) := by
  intro network scheme key other legacy priority
  have hnormal : ∀ digest key, (scheme.sign digest key).IsNormal :=
    (Scheme.lawful_checked Secp256k1.scheme).isNormal_sign
  have hkey : ∃ secret, SecretKey.ofBytes key = .ok secret :=
    ⟨_, SecretKey.ofBytes_eq_ok rfl (by decide +kernel)⟩
  have hother : ∃ secret, SecretKey.ofBytes other = .ok secret :=
    ⟨_, SecretKey.ofBytes_eq_ok rfl (by decide +kernel)⟩
  have hlegacy : Reachable scheme legacy :=
    .build (show (Source.draftAs .legacy { v := some 27, s := some 5 }).build {} = _ from rfl)
  have hpriority : Reachable scheme priority :=
    .build (show (Source.draftAs .priority
      { gasLimit := some 21000, v := some 0, pS := some 5 }).build {} = _ from rfl)
  have hsingle : Kind.legacy.AcceptsKeys key none := ⟨hkey, nofun⟩
  have hsingle' : Kind.legacy.AcceptsKeys other none := ⟨hother, nofun⟩
  have hboth : Kind.priority.AcceptsKeys key (some other) := ⟨hkey, fun _ => ⟨other, rfl, hother⟩⟩
  refine ⟨⟨hsingle, hsingle', ?_⟩, hboth, ?_⟩
  · have hregular : network.IsRegularFor legacy.digestOfSign key :=
      Secp256k1.isRegularFor_legacy 1 (by decide)
    have hregular' : network.IsRegularFor legacy.digestOfSign other :=
      Secp256k1.isRegularFor_legacy 2 (by decide)
    have hagree : legacy.sign scheme key none = legacy.sign network key none :=
      Transaction.sign_checked hregular nofun
    have hagree' : legacy.sign scheme other none = legacy.sign network other none :=
      Transaction.sign_checked hregular' nofun
    obtain ⟨u, w, hu, hw, hother⟩ :=
      (Reachable.exists_sign_sign hlegacy hnormal hsingle hsingle').1
    exact ⟨u, w, hu, hw, hother, hagree.symm.trans hu, hagree'.symm.trans hother⟩
  · have hregular : network.IsRegularFor priority.digestOfSign key :=
      Secp256k1.isRegularFor_priority 1 (by decide)
    have hregular' : ∀ second, some other = some second →
        network.IsRegularFor priority.digestOfSign second := by
      rintro second ⟨⟩
      exact Secp256k1.isRegularFor_priority 2 (by decide)
    obtain ⟨-, -, hswap⟩ := Reachable.exists_sign_sign hpriority hnormal hboth hboth
    obtain ⟨u, hu, hw, -⟩ := hswap rfl other rfl
    have hagree := Transaction.sign_checked hregular hregular'
    exact ⟨u, hu, hw, hagree.symm.trans hu⟩

end TypedTx
