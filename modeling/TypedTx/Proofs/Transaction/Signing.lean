import TypedTx.Proofs.Replay
import TypedTx.Proofs.Scheme
import TypedTx.Proofs.Transaction.Resigning

/-!
# Signing and recovering the signer

Under a lawful scheme every valid transaction is signed by every key: the new signatures
follow the construction rules, and the signed transaction has the signing message that
was signed, in whichever mode and whatever signature was there before. So recovery sees
the digest that was signed.
-/

namespace TypedTx

/-- The mode that signing picks is one that the registry permits. -/
theorem Registry.isActive_of_mode {registry : Registry}
    (h : (if registry.isActive 155 then Replay.eip155 else .unprotected) = .eip155) :
    registry.isActive 155 = true := by
  by_contra hinactive
  rw [if_neg hinactive] at h
  exact absurd h nofun

namespace Transaction

variable {scheme : Scheme} {t u : Transaction} {digest : Digest} {key : SecretKey}

/-- The sender is whoever signed the digest, if the transaction still has it. -/
theorem senderKey_of_sign (hscheme : scheme.Lawful) {v : Word} (hsigned : u.isSigned = true)
    (hsignature : u.signature = (scheme.sign digest key).withV v)
    (hparity : u.parity? = some (scheme.sign digest key).parity)
    (hdigest : u.signingHash = digest) :
    u.senderKey scheme = .ok (scheme.publicKey key) := by
  have hcomplete : u.signature.complete? =
      some (v, (scheme.sign digest key).r, (scheme.sign digest key).s) := by
    rw [hsignature]
    rfl
  refine Success.annotate_iff.mpr ?_
  rw [recoverSender, hsigned, hcomplete]
  dsimp only
  rw [hparity]
  refine Success.seq_iff.mpr ⟨hscheme.requireLowS_sign digest key u.registry "s", ?_⟩
  rw [hdigest]
  exact hscheme.recoverAt_sign digest key

/-- So it is with either signature of a priority transaction. -/
theorem recoverPart_of_sign (hscheme : scheme.Lawful) (field : String)
    (hdigest : u.signingHash = digest) (key : SecretKey) :
    u.recoverPart scheme field ((scheme.sign digest key).word, (scheme.sign digest key).r,
      (scheme.sign digest key).s) = .ok (scheme.publicKey key) := by
  refine Success.seq_iff.mpr ⟨hscheme.requireLowS_sign digest key u.registry field, ?_⟩
  rw [RecoverableSignature.toUInt64?_word, hdigest]
  exact hscheme.recoverAt_sign digest key

theorem admitsV_of_isTyped {kind : Kind} (h : kind.isTyped = true) {registry : Registry} {v : Word}
    (hv : v ≤ 1) : kind.AdmitsV registry v := by
  cases kind with
  | legacy => exact absurd h (by decide)
  | accessList | feeMarket | priority => exact hv

section Rules

variable {signature : RecoverableSignature} (hnormal : signature.IsNormal)

include hnormal

theorem admits_withV {v : Word} {second : SignatureParts} (hv : t.kind.AdmitsV t.registry v)
    (hsecond : t.kind = .priority → second.IsSecondOf (signature.withV v) t.registry) :
    t.Admits (signature.withV v) second where
  parity := by
    intro found hfound
    rw [← Option.some.inj hfound]
    exact hv
  lowS := by
    intro s hs
    rw [← Option.some.inj hs]
    exact hnormal.admitsS t.registry
  second := hsecond

theorem admits_of_legacy {mode : Replay} (hkind : t.kind = .legacy)
    (hmode : mode = .eip155 → t.registry.isActive 155 = true) (second : SignatureParts) :
    t.Admits (signature.withV (mode.encode t.registry.chainId signature.word)) second := by
  apply admits_withV hnormal
  · rw [hkind]
    exact Replay.admitsV_encode hnormal.word_le_one hmode
  · intro hpriority
    exact absurd hpriority (Kind.ne_priority_of_legacy hkind)

theorem admits_of_isTyped (htyped : t.kind.isTyped = true) {second : SignatureParts}
    (hsecond : t.kind = .priority → second.IsSecondOf signature.parts t.registry) :
    t.Admits signature.parts second := by
  rw [RecoverableSignature.parts_eq_withV] at hsecond ⊢
  exact admits_withV hnormal (admitsV_of_isTyped htyped hnormal.word_le_one) hsecond

theorem isSecondOf_parts (first : RecoverableSignature) (registry : Registry) :
    signature.parts.IsSecondOf first.parts registry where
  together := rfl
  parity := by
    intro v hv
    rw [← Option.some.inj hv]
    exact hnormal.word_le_one
  lowS := by
    intro s hs
    rw [← Option.some.inj hs]
    exact hnormal.admitsS registry

end Rules

section Sign

variable {mode : Replay} {bytes secondBytes : Bytes} {second : SecretKey}

theorem annotate_signWithBytes (t : Transaction) (digest : Digest)
    (hkey : SecretKey.ofBytes bytes = .ok key) :
    t.subject.annotate (scheme.signWithBytes digest bytes) = .ok (scheme.sign digest key) :=
  Success.annotate_iff.mpr (Scheme.signWithBytes_eq_ok digest hkey)

theorem not_refused_of_mode (hmode : mode = .eip155 → t.registry.isActive 155 = true) :
    ¬ (mode = .eip155 && !t.registry.isActive 155) = true := by
  rw [Bool.and_eq_true, decide_eq_true_iff, Bool.not_eq_true']
  rintro ⟨heip155, hinactive⟩
  rw [hmode heip155] at hinactive
  exact absurd hinactive (by decide)

/-- Signing with a key is building anew under its signatures of the digest. -/
theorem signLegacy_eq_withSignatures (hmode : mode = .eip155 → t.registry.isActive 155 = true)
    (hkey : SecretKey.ofBytes bytes = .ok key)
    (hdigest : Keccak.hash (t.legacyMessage mode) = digest) :
    t.signLegacy scheme bytes mode =
      t.withSignatures
        ((scheme.sign digest key).withV
          (mode.encode t.registry.chainId (scheme.sign digest key).word))
        t.draft.secondSignature := by
  rw [signLegacy, if_neg (not_refused_of_mode hmode), hdigest]
  dsimp only
  rw [t.annotate_signWithBytes digest hkey]
  rfl

theorem signTyped_eq_withSignatures (hkey : SecretKey.ofBytes bytes = .ok key)
    (hdigest : t.signingHash = digest) :
    t.signTyped scheme bytes =
      t.withSignatures (scheme.sign digest key).parts t.draft.secondSignature := by
  rw [signTyped, hdigest, t.annotate_signWithBytes digest hkey]
  rfl

theorem signBoth_eq_withSignatures (hkey : SecretKey.ofBytes bytes = .ok key)
    (hsecond : SecretKey.ofBytes secondBytes = .ok second) (hdigest : t.signingHash = digest) :
    t.signBoth scheme bytes secondBytes =
      t.withSignatures (scheme.sign digest key).parts (scheme.sign digest second).parts := by
  rw [signBoth, requireKeyLength_of_ofBytes hkey, requireKeyLength_of_ofBytes hsecond, hdigest]
  dsimp only
  rw [t.annotate_signWithBytes digest hkey, t.annotate_signWithBytes digest hsecond]
  rfl

/-- A key signs a legacy transaction in every mode that the registry permits. -/
theorem signLegacy_eq_ok (hnormal : (scheme.sign digest key).IsNormal) (ht : t.Valid)
    (hkind : t.kind = .legacy) (hmode : mode = .eip155 → t.registry.isActive 155 = true)
    (hkey : SecretKey.ofBytes bytes = .ok key)
    (hdigest : Keccak.hash (t.legacyMessage mode) = digest) :
    t.signLegacy scheme bytes mode =
      .ok (t.resigned
        ((scheme.sign digest key).withV
          (mode.encode t.registry.chainId (scheme.sign digest key).word))
        t.draft.secondSignature) := by
  rw [signLegacy_eq_withSignatures hmode hkey hdigest]
  exact withSignatures_eq_ok ht (admits_of_legacy hnormal hkind hmode _)

theorem signTyped_eq_ok (hnormal : (scheme.sign digest key).IsNormal) (ht : t.Valid)
    (htyped : t.kind.isTyped = true) (hkind : t.kind ≠ .priority)
    (hkey : SecretKey.ofBytes bytes = .ok key) (hdigest : t.signingHash = digest) :
    t.signTyped scheme bytes =
      .ok (t.resigned (scheme.sign digest key).parts t.draft.secondSignature) := by
  rw [signTyped_eq_withSignatures hkey hdigest]
  apply withSignatures_eq_ok ht
  exact admits_of_isTyped hnormal htyped fun h => absurd h hkind

theorem signBoth_eq_ok (hnormal : ∀ key, (scheme.sign digest key).IsNormal) (ht : t.Valid)
    (hkind : t.kind = .priority) (hkey : SecretKey.ofBytes bytes = .ok key)
    (hsecond : SecretKey.ofBytes secondBytes = .ok second) (hdigest : t.signingHash = digest) :
    t.signBoth scheme bytes secondBytes =
      .ok (t.resigned (scheme.sign digest key).parts (scheme.sign digest second).parts) := by
  have htyped : t.kind.isTyped = true := Kind.isTyped_of_priority hkind
  rw [signBoth_eq_withSignatures hkey hsecond hdigest]
  apply withSignatures_eq_ok ht
  exact admits_of_isTyped (hnormal key) htyped fun _ =>
    isSecondOf_parts (hnormal second) (scheme.sign digest key) t.registry

end Sign

/-- `u` is `t` with complete signatures, the first of which `key` made. -/
structure SignedAs (scheme : Scheme) (t : Transaction) (key : SecretKey) (u : Transaction) :
    Prop where
  isSigned : u.isSigned = true
  kind : u.kind = t.kind
  unsignedValues : u.unsignedValues = t.unsignedValues
  registry : u.registry = t.registry
  frozen : u.frozen = t.frozen
  sender : u.senderKey scheme = .ok (scheme.publicKey key)

theorem signedAs_resigned (hscheme : scheme.Lawful) {v : Word} {second : SignatureParts}
    (hsecond : t.kind = .priority → second.complete?.isSome = true)
    (hparity : (t.resigned ((scheme.sign digest key).withV v) second).parity? =
      some (scheme.sign digest key).parity)
    (hmessage : Keccak.hash (t.resigned ((scheme.sign digest key).withV v) second).signingMessage =
      digest) :
    t.SignedAs scheme key (t.resigned ((scheme.sign digest key).withV v) second) := by
  have hsigned : (t.resigned ((scheme.sign digest key).withV v) second).isSigned = true :=
    isSigned_resigned rfl hsecond
  exact
    { isSigned := hsigned
      kind := kind_resigned
      unsignedValues := unsignedValues_resigned
      registry := rfl
      frozen := rfl
      sender := senderKey_of_sign hscheme hsigned rfl hparity hmessage }

theorem parity?_of_legacy (h : t.kind = .legacy) {v parity : Word} {id : Option Word}
    (hv : t.signature.v = some v) (hdecode : Replay.decode v = .ok (parity, id)) :
    t.parity? = parity.toUInt8? := by
  obtain ⟨gasPrice, hterms⟩ := exists_terms_of_legacy h
  rw [parity?, hterms, hv, Option.map_some, hdecode]

theorem parity?_of_isTyped (h : t.kind.isTyped = true) {v : Word} (hv : t.signature.v = some v) :
    t.parity? = v.toUInt8? := by
  rw [parity?]
  cases hterms : t.terms with
  | legacy gasPrice => exact absurd hterms (terms_ne_legacy h gasPrice)
  | accessList | feeMarket | priority => rw [hv, Option.bind_some]

/-- The `v` that was written for a mode tells the mode. -/
theorem replay_resigned_encode {signature : RecoverableSignature} (hword : signature.word ≤ 1)
    (mode : Replay) (id : UInt64) (second : SignatureParts) :
    (t.resigned (signature.withV (mode.encode id signature.word)) second).replay = mode :=
  (replay_eq_ofV rfl).trans (Replay.ofV_encode mode id hword)

/-- It tells the parity as well. -/
theorem parity?_resigned_encode {signature : RecoverableSignature} (hkind : t.kind = .legacy)
    (hword : signature.word ≤ 1) (mode : Replay) (id : UInt64) (second : SignatureParts) :
    (t.resigned (signature.withV (mode.encode id signature.word)) second).parity? =
      some signature.parity := by
  have hresigned :
      (t.resigned (signature.withV (mode.encode id signature.word)) second).kind = .legacy := by
    rw [kind_resigned, hkind]
  rw [parity?_of_legacy hresigned rfl (Replay.decode_encode mode id hword),
    RecoverableSignature.toUInt8?_word]

/-- So what is recovered from is what was signed. -/
theorem signedAs_of_legacy (hscheme : scheme.Lawful) (hkind : t.kind = .legacy) (mode : Replay)
    (hdigest : Keccak.hash (t.legacyMessage mode) = digest) (key : SecretKey)
    (second : SignatureParts) :
    let v := mode.encode t.registry.chainId (scheme.sign digest key).word
    t.SignedAs scheme key (t.resigned ((scheme.sign digest key).withV v) second) ∧
      (t.resigned ((scheme.sign digest key).withV v) second).replay = mode := by
  intro v
  have hword := (hscheme.isNormal_sign digest key).word_le_one
  have hmode : Replay.ofV v = mode := Replay.ofV_encode mode t.registry.chainId hword
  refine ⟨?_, replay_resigned_encode hword mode _ second⟩
  -- The message to recover from is told by the new `v` alone, whatever the old one was.
  apply signedAs_resigned hscheme
  · intro hpriority
    exact absurd hpriority (Kind.ne_priority_of_legacy hkind)
  · exact parity?_resigned_encode hkind hword mode _ second
  · rw [signingMessage_resigned_of_legacy hkind rfl, hmode]
    exact hdigest

theorem signedAs_of_isTyped (hscheme : scheme.Lawful) (htyped : t.kind.isTyped = true)
    (hdigest : t.signingHash = digest) (key : SecretKey) {second : SignatureParts}
    (hsecond : t.kind = .priority → second.complete?.isSome = true) :
    t.SignedAs scheme key (t.resigned (scheme.sign digest key).parts second) := by
  have hresigned : (t.resigned (scheme.sign digest key).parts second).kind.isTyped = true := by
    rw [kind_resigned]
    exact htyped
  apply signedAs_resigned hscheme hsecond
  · rw [← RecoverableSignature.parts_eq_withV, parity?_of_isTyped hresigned rfl]
    exact RecoverableSignature.toUInt8?_word _
  · rw [signingMessage_resigned_of_isTyped htyped]
    exact hdigest

theorem bothKeys_of_priority (hscheme : scheme.Lawful) (hkind : t.kind = .priority)
    (hdigest : t.signingHash = digest) (key second : SecretKey) :
    (t.resigned (scheme.sign digest key).parts (scheme.sign digest second).parts).bothKeys scheme =
      .ok (scheme.publicKey key, scheme.publicKey second) := by
  have htyped : t.kind.isTyped = true := Kind.isTyped_of_priority hkind
  let u := t.resigned (scheme.sign digest key).parts (scheme.sign digest second).parts
  have hsigned : u.isSigned = true := isSigned_resigned rfl fun _ => rfl
  have hfirst : u.signature.complete? = some ((scheme.sign digest key).word,
      (scheme.sign digest key).r, (scheme.sign digest key).s) := rfl
  have hsecond : u.secondSignature?.bind SignatureParts.complete? =
      some ((scheme.sign digest second).word, (scheme.sign digest second).r,
        (scheme.sign digest second).s) := by
    rw [secondSignature?_resigned, if_pos hkind]
    rfl
  have hmessage : u.signingHash = digest := by
    rw [← hdigest, signingHash, signingHash, signingMessage_resigned_of_isTyped htyped]
  change u.bothKeys scheme = _
  rw [bothKeys, hsigned, hfirst, hsecond]
  have hsender := recoverPart_of_sign hscheme "s" hmessage key
  have hother := recoverPart_of_sign hscheme "pS" hmessage second
  refine Success.annotate_iff.mpr (Success.bind_iff.mpr ⟨_, hsender, ?_⟩)
  exact Success.bind_iff.mpr ⟨_, hother, rfl⟩

section Sign

variable {bytes secondBytes : Bytes} {second : SecretKey}

theorem sign_of_legacy (hkind : t.kind = .legacy) (secondKey : Option Bytes) :
    t.sign scheme bytes secondKey =
      t.signLegacy scheme bytes (if t.registry.isActive 155 then .eip155 else .unprotected) := by
  obtain ⟨gasPrice, hterms⟩ := exists_terms_of_legacy hkind
  rw [sign.eq_def, hterms]

theorem sign_of_single (htyped : t.kind.isTyped = true) (hkind : t.kind ≠ .priority)
    (secondKey : Option Bytes) : t.sign scheme bytes secondKey = t.signTyped scheme bytes := by
  rw [kind] at hkind
  rw [sign.eq_def]
  cases hterms : t.terms with
  | legacy gasPrice => exact absurd hterms (terms_ne_legacy htyped gasPrice)
  | accessList | feeMarket => rfl
  | priority market other =>
      rw [hterms] at hkind
      exact absurd rfl hkind

theorem sign_of_priority (hkind : t.kind = .priority) :
    t.sign scheme bytes (some secondBytes) = t.signBoth scheme bytes secondBytes := by
  rw [kind] at hkind
  rw [sign.eq_def]
  cases hterms : t.terms with
  | priority market other => rfl
  | legacy | accessList | feeMarket =>
      rw [hterms] at hkind
      cases hkind

theorem sign_of_missing (hkind : t.kind = .priority) :
    t.sign scheme bytes none = .error (t.failure (.invalidKeyLength 0)) := by
  rw [kind] at hkind
  rw [sign.eq_def]
  cases hterms : t.terms with
  | priority market other => rfl
  | legacy | accessList | feeMarket =>
      rw [hterms] at hkind
      cases hkind

theorem exists_resigned_of_signLegacy (ht : t.Valid) {mode : Replay}
    (h : t.signLegacy scheme bytes mode = .ok u) :
    ∃ signature : RecoverableSignature, u = t.resigned
      (signature.withV (mode.encode t.registry.chainId signature.word))
      t.draft.secondSignature := by
  obtain ⟨signature, h⟩ := exists_withSignatures_of_signLegacy h
  exact ⟨signature, eq_resigned_of_withSignatures ht h⟩

theorem exists_resigned_of_signTyped (ht : t.Valid) (h : t.signTyped scheme bytes = .ok u) :
    ∃ signature : RecoverableSignature,
      u = t.resigned (signature.withV signature.word) t.draft.secondSignature := by
  obtain ⟨signature, h⟩ := exists_withSignatures_of_signTyped h
  exact ⟨signature, eq_resigned_of_withSignatures ht h⟩

theorem exists_resigned_of_signBoth (ht : t.Valid)
    (h : t.signBoth scheme bytes secondBytes = .ok u) :
    ∃ signature other : RecoverableSignature,
      u = t.resigned (signature.withV signature.word) other.parts := by
  obtain ⟨signature, other, h⟩ := exists_withSignatures_of_signBoth h
  exact ⟨signature, other, eq_resigned_of_withSignatures ht h⟩

/-- Signing replaces the signatures by complete ones, and the `v` of a legacy signature
is written in the mode that the registry asks for. Nothing is assumed of the scheme. -/
theorem exists_resigned_of_sign (ht : t.Valid) {secondKey : Option Bytes}
    (h : t.sign scheme bytes secondKey = .ok u) :
    ∃ (signature : RecoverableSignature) (v : Word) (second : SignatureParts),
      u = t.resigned (signature.withV v) second ∧
        (t.kind = .priority → second.complete?.isSome = true) ∧
        (t.kind = .legacy → t.registry.isActive 155 = true →
          v = Replay.encode .eip155 t.registry.chainId signature.word) := by
  rw [sign.eq_def] at h
  cases hterms : t.terms with
  | legacy gasPrice =>
      have hkind : t.kind = .legacy := congrArg Terms.kind hterms
      rw [hterms] at h
      obtain ⟨signature, hu⟩ := exists_resigned_of_signLegacy ht h
      refine ⟨signature, _, _, hu, ?_, ?_⟩
      · intro hpriority
        exact absurd hpriority (Kind.ne_priority_of_legacy hkind)
      · intro _ hactive
        rw [if_pos hactive]
  | accessList | feeMarket =>
      have hsingle : t.kind ≠ .priority := by
        rw [kind, hterms, Terms.kind]
        decide
      have htyped : t.kind ≠ .legacy := by
        rw [kind, hterms, Terms.kind]
        decide
      rw [hterms] at h
      obtain ⟨signature, hu⟩ := exists_resigned_of_signTyped ht h
      refine ⟨signature, _, _, hu, ?_, ?_⟩
      · intro hpriority
        exact absurd hpriority hsingle
      · intro hlegacy
        exact absurd hlegacy htyped
  | priority market other =>
      have hkind : t.kind = .priority := congrArg Terms.kind hterms
      rw [hterms] at h
      cases secondKey with
      | none => cases h
      | some secondBytes =>
          obtain ⟨signature, other, hu⟩ := exists_resigned_of_signBoth ht h
          refine ⟨signature, _, _, hu, fun _ => rfl, ?_⟩
          intro hlegacy
          exact absurd hkind (Kind.ne_priority_of_legacy hlegacy)

/-- A legacy transaction is signed in every mode that its registry permits. -/
theorem exists_signLegacy (hscheme : scheme.Lawful) (ht : t.Valid) (hkind : t.kind = .legacy)
    (hkey : SecretKey.ofBytes bytes = .ok key) {mode : Replay}
    (hmode : mode = .eip155 → t.registry.isActive 155 = true) :
    ∃ u, t.signLegacy scheme bytes mode = .ok u ∧ t.SignedAs scheme key u ∧ u.replay = mode :=
  ⟨_, signLegacy_eq_ok (hscheme.isNormal_sign _ key) ht hkind hmode hkey rfl,
    signedAs_of_legacy hscheme hkind mode rfl key _⟩

theorem exists_sign_of_legacy (hscheme : scheme.Lawful) (ht : t.Valid) (hkind : t.kind = .legacy)
    (hkey : SecretKey.ofBytes bytes = .ok key) (secondKey : Option Bytes) :
    ∃ u, t.sign scheme bytes secondKey = .ok u ∧ t.SignedAs scheme key u ∧
      u.replay = if t.registry.isActive 155 then .eip155 else .unprotected := by
  rw [sign_of_legacy hkind]
  exact exists_signLegacy hscheme ht hkind hkey Registry.isActive_of_mode

theorem exists_sign_of_single (hscheme : scheme.Lawful) (ht : t.Valid)
    (htyped : t.kind.isTyped = true) (hkind : t.kind ≠ .priority)
    (hkey : SecretKey.ofBytes bytes = .ok key) (secondKey : Option Bytes) :
    ∃ u, t.sign scheme bytes secondKey = .ok u ∧ t.SignedAs scheme key u := by
  rw [sign_of_single htyped hkind]
  refine ⟨_, signTyped_eq_ok (hscheme.isNormal_sign _ key) ht htyped hkind hkey rfl, ?_⟩
  exact signedAs_of_isTyped hscheme htyped rfl key fun h => absurd h hkind

/-- Both signatures of a priority transaction are of the same digest, and each is
recovered to the key that made it. -/
theorem exists_sign_of_priority (hscheme : scheme.Lawful) (ht : t.Valid)
    (hkind : t.kind = .priority) (hkey : SecretKey.ofBytes bytes = .ok key)
    (hsecond : SecretKey.ofBytes secondBytes = .ok second) :
    ∃ u, t.sign scheme bytes (some secondBytes) = .ok u ∧ t.SignedAs scheme key u ∧
      u.bothKeys scheme = .ok (scheme.publicKey key, scheme.publicKey second) := by
  have htyped : t.kind.isTyped = true := Kind.isTyped_of_priority hkind
  rw [sign_of_priority hkind]
  refine ⟨_, signBoth_eq_ok (hscheme.isNormal_sign _) ht hkind hkey hsecond rfl, ?_, ?_⟩
  · exact signedAs_of_isTyped hscheme htyped rfl key fun _ => rfl
  · exact bothKeys_of_priority hscheme hkind rfl key second

end Sign

end Transaction

namespace Transaction

variable {scheme : Scheme} {t : Transaction} {bytes : Bytes}

/-- The digest of the message that signing signs. It is not that of the signing message if
a `v` is there that tells another mode. -/
def digestOfSign (t : Transaction) : Digest :=
  match t.kind with
  | .legacy =>
      Keccak.hash (t.legacyMessage (if t.registry.isActive 155 then .eip155 else .unprotected))
  | _ => t.signingHash

theorem digestOfSign_of_legacy (h : t.kind = .legacy) :
    t.digestOfSign =
      Keccak.hash (t.legacyMessage (if t.registry.isActive 155 then .eip155 else .unprotected)) := by
  rw [digestOfSign, h]

theorem digestOfSign_of_isTyped (h : t.kind.isTyped = true) : t.digestOfSign = t.signingHash := by
  rw [digestOfSign]
  cases hkind : t.kind with
  | legacy => exact absurd (hkind ▸ h) (by decide)
  | accessList | feeMarket | priority => rfl

/-- Where a scheme is regular, what is checked signs as the scheme itself. -/
theorem sign_checked (hkey : scheme.IsRegularFor t.digestOfSign bytes) {secondKey : Option Bytes}
    (hsecond : ∀ second, secondKey = some second → scheme.IsRegularFor t.digestOfSign second) :
    t.sign scheme.checked bytes secondKey = t.sign scheme bytes secondKey := by
  have hfirst := Scheme.signWithBytes_checked hkey
  cases hkind : t.kind with
  | legacy =>
      rw [digestOfSign_of_legacy hkind] at hfirst
      simp only [sign_of_legacy hkind, signLegacy, hfirst]
  | accessList | feeMarket =>
      have htyped : t.kind.isTyped = true := by
        rw [hkind]
        rfl
      have hsingle : t.kind ≠ .priority := by
        rw [hkind]
        exact nofun
      rw [digestOfSign_of_isTyped htyped] at hfirst
      simp only [sign_of_single htyped hsingle, signTyped, hfirst]
  | priority =>
      have htyped : t.kind.isTyped = true := Kind.isTyped_of_priority hkind
      cases secondKey with
      | none => rw [sign_of_missing hkind, sign_of_missing hkind]
      | some second =>
          have hother := Scheme.signWithBytes_checked (hsecond second rfl)
          rw [digestOfSign_of_isTyped htyped] at hfirst hother
          simp only [sign_of_priority hkind, signBoth, hfirst, hother]

end Transaction

namespace Secp256k1

/-- Two keys sign a legacy transaction without any fields regularly. -/
theorem isRegularFor_legacy (fill : UInt8) (h : fill ∈ [1, 2]) :
    scheme.IsRegularFor (Kind.legacy.assemble .standard {} {}).digestOfSign
      (List.replicate 32 fill) := by
  revert fill
  decide +kernel

/-- The same for the chain with the largest id. -/
theorem isRegularFor_largest :
    scheme.IsRegularFor (Kind.legacy.assemble (.ofChainId 0xffffffffffffffff) {}
      { chainId := some (Word.ofUInt64 0xffffffffffffffff) }).digestOfSign
      (List.replicate 32 1) := by
  decide +kernel

theorem isRegularFor_accessList :
    scheme.IsRegularFor (Kind.accessList.assemble .standard {}
      { accessList := some [⟨Fixed.ofNat 20 2, [Fixed.ofNat 32 3]⟩] }).digestOfSign
      (List.replicate 32 1) := by
  decide +kernel

theorem isRegularFor_priority (fill : UInt8) (h : fill ∈ [1, 2]) :
    scheme.IsRegularFor (Kind.priority.assemble .standard {}
      { gasLimit := some 21000 }).digestOfSign (List.replicate 32 fill) := by
  revert fill
  decide +kernel

end Secp256k1

/-- Every reachable transaction is signed by every key, and by every pair of keys if it
needs two. The signed transaction has the same kind, unsigned values, registry and
freezing, its sender is the owner of the first key, and a legacy one is in the mode it
was signed in, which may be asked for if the registry permits it. -/
theorem Reachable.exists_sign {scheme : Scheme} (hscheme : scheme.Lawful) {t : Transaction}
    (h : Reachable scheme t) {bytes : Bytes} {key : SecretKey}
    (hkey : SecretKey.ofBytes bytes = .ok key) :
    match t.kind with
    | .legacy =>
        (∀ secondKey, ∃ u, t.sign scheme bytes secondKey = .ok u ∧ t.SignedAs scheme key u ∧
          u.replay = if t.registry.isActive 155 then .eip155 else .unprotected) ∧
        ∀ mode, (mode = .eip155 → t.registry.isActive 155 = true) →
          ∃ u, t.signLegacy scheme bytes mode = .ok u ∧ t.SignedAs scheme key u ∧ u.replay = mode
    | .accessList | .feeMarket =>
        ∀ secondKey, ∃ u, t.sign scheme bytes secondKey = .ok u ∧ t.SignedAs scheme key u
    | .priority =>
        ∀ secondBytes second, SecretKey.ofBytes secondBytes = .ok second →
          ∃ u, t.sign scheme bytes (some secondBytes) = .ok u ∧ t.SignedAs scheme key u ∧
            u.bothKeys scheme = .ok (scheme.publicKey key, scheme.publicKey second) := by
  have ht : t.Valid := h.valid
  cases hkind : t.kind with
  | legacy =>
      refine ⟨?_, ?_⟩
      · intro secondKey
        exact Transaction.exists_sign_of_legacy hscheme ht hkind hkey secondKey
      · intro mode hmode
        exact Transaction.exists_signLegacy hscheme ht hkind hkey hmode
  | accessList | feeMarket =>
      intro secondKey
      apply Transaction.exists_sign_of_single hscheme ht
      · rw [hkind]
        rfl
      · rw [hkind]
        exact nofun
      · exact hkey
  | priority =>
      intro secondBytes second hsecond
      exact Transaction.exists_sign_of_priority hscheme ht hkind hkey hsecond

/-- A legacy transaction with a stale `v` and a part of a signature, a transaction with
an access list and a priority transaction. They are signed as by the network's scheme. -/
theorem Reachable.exists_sign_of_checked :
    let network := Secp256k1.scheme
    let scheme := network.checked
    let bytes : Bytes := List.replicate 32 1
    let secondBytes : Bytes := List.replicate 32 2
    let key : SecretKey := ⟨bytes.toNat, by decide +kernel, by decide +kernel⟩
    let second : SecretKey := ⟨secondBytes.toNat, by decide +kernel, by decide +kernel⟩
    let accounts : AccessList := [⟨Fixed.ofNat 20 2, [Fixed.ofNat 32 3]⟩]
    let legacy := Kind.legacy.assemble .standard {} { v := some 27, s := some 5 }
    let listed := Kind.accessList.assemble .standard {} { accessList := some accounts }
    let priority := Kind.priority.assemble .standard {} { gasLimit := some 21000 }
    (∃ u, legacy.signLegacy scheme bytes .eip155 = .ok u ∧
      legacy.signLegacy network bytes .eip155 = .ok u ∧
      legacy.SignedAs scheme key u ∧ u.replay = .eip155) ∧
    (∃ u, listed.sign scheme bytes none = .ok u ∧ listed.sign network bytes none = .ok u ∧
      listed.SignedAs scheme key u) ∧
    ∃ u, priority.sign scheme bytes (some secondBytes) = .ok u ∧
      priority.sign network bytes (some secondBytes) = .ok u ∧ priority.SignedAs scheme key u ∧
      u.bothKeys scheme = .ok (scheme.publicKey key, scheme.publicKey second) := by
  intro network scheme bytes secondBytes key second accounts legacy listed priority
  have hscheme : scheme.Lawful := Scheme.lawful_checked network
  have hkey : SecretKey.ofBytes bytes = .ok key :=
    SecretKey.ofBytes_eq_ok rfl ⟨key.pos, key.lt_order⟩
  have hsecond : SecretKey.ofBytes secondBytes = .ok second :=
    SecretKey.ofBytes_eq_ok rfl ⟨second.pos, second.lt_order⟩
  have hlegacy : Reachable scheme legacy :=
    .build (show (Source.draftAs .legacy { v := some 27, s := some 5 }).build {} = _ from rfl)
  have hlisted : Reachable scheme listed :=
    .build (show (Source.draftAs .accessList { accessList := some accounts }).build {} = _ from rfl)
  have hpriority : Reachable scheme priority :=
    .build (show (Source.draftAs .priority { gasLimit := some 21000 }).build {} = _ from rfl)
  refine ⟨?_, ?_, ?_⟩
  · have hregular : network.IsRegularFor legacy.digestOfSign bytes :=
      Secp256k1.isRegularFor_legacy 1 (by decide)
    have hagree : legacy.sign scheme bytes none = legacy.sign network bytes none :=
      Transaction.sign_checked hregular nofun
    rw [Transaction.sign_of_legacy rfl, Transaction.sign_of_legacy rfl] at hagree
    obtain ⟨-, hsign⟩ := Reachable.exists_sign hscheme hlegacy hkey
    obtain ⟨u, hu, hsigned, hreplay⟩ := hsign .eip155 fun _ => by decide
    exact ⟨u, hu, hagree.symm.trans hu, hsigned, hreplay⟩
  · have hagree : listed.sign scheme bytes none = listed.sign network bytes none :=
      Transaction.sign_checked Secp256k1.isRegularFor_accessList nofun
    obtain ⟨u, hu, hsigned⟩ := Reachable.exists_sign hscheme hlisted hkey none
    exact ⟨u, hu, hagree.symm.trans hu, hsigned⟩
  · have hregular : network.IsRegularFor priority.digestOfSign bytes :=
      Secp256k1.isRegularFor_priority 1 (by decide)
    have hother : ∀ other, some secondBytes = some other →
        network.IsRegularFor priority.digestOfSign other := by
      rintro other ⟨⟩
      exact Secp256k1.isRegularFor_priority 2 (by decide)
    have hsign := Reachable.exists_sign hscheme hpriority hkey
    obtain ⟨u, hu, hsigned, hboth⟩ := hsign secondBytes second hsecond
    exact ⟨u, hu, (Transaction.sign_checked hregular hother).symm.trans hu, hsigned, hboth⟩

end TypedTx
