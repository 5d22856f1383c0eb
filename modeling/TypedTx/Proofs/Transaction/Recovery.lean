import TypedTx.Proofs.Transaction.SigningAgain
import TypedTx.Proofs.Transaction.Verification

/-!
# What recovery can answer

The two public keys of a priority transaction are recovered one after the other, and each
recovery looks at its own signature only. Whether the transaction is signed is the one
thing that both signatures have a say in: an unsigned transaction has no keys at all.

The rules of construction leave recovery nothing to refuse by itself. In a signed
transaction that is valid every `s` is low and every parity is 0 or 1, so each signature is
handed to the scheme with 27 or 28, and a failure is the scheme's.
-/

namespace TypedTx

/-- A `v` that is admitted can be read, and tells a parity. -/
theorem Registry.AdmitsV.exists_decode {registry : Registry} {v : Word}
    (h : registry.AdmitsV v) :
    ∃ parity id, Replay.decode v = .ok (parity, id) ∧ parity ≤ 1 := by
  by_cases hlarge : 35 ≤ v
  · refine ⟨_, _, Replay.decode_of_committed hlarge, ?_⟩
    rw [BitVec.le_def, BitVec.toNat_umod]
    exact Nat.le_of_lt_succ (Nat.mod_lt _ (by decide))
  · obtain rfl | rfl := h.eq_of_not_le hlarge
    · exact ⟨0, none, rfl, by decide⟩
    · exact ⟨1, none, rfl, by decide⟩

theorem Kind.le_one_of_admitsV {kind : Kind} {registry : Registry} {v : Word}
    (htyped : kind.isTyped = true) (h : kind.AdmitsV registry v) : v ≤ 1 := by
  cases kind with
  | legacy => exact absurd htyped (by decide)
  | accessList | feeMarket | priority => exact h

namespace Transaction

variable {scheme : Scheme} {t u : Transaction} {first second first' second' : SignatureParts}

theorem senderKey_of_unsigned (h : t.isSigned = false) :
    t.senderKey scheme = .error (t.failure .notSigned) := by
  rw [senderKey, recoverSender, h]
  rfl

theorem secondKey_of_unsigned (h : t.isSigned = false) :
    t.secondKey scheme = .error (t.failure .notSigned) := by
  rw [secondKey, h]
  rfl

theorem parity?_resigned_congr :
    (t.resigned first second).parity? = (t.resigned first second').parity? := by
  rw [parity?, parity?, resigned, resigned]
  cases t.terms <;> rfl

theorem senderKey_resigned_congr (hkind : t.kind = .priority)
    (hsigned : (t.resigned first second).isSigned = true)
    (hsigned' : (t.resigned first second').isSigned = true) :
    (t.resigned first second).senderKey scheme = (t.resigned first second').senderKey scheme := by
  have htyped : t.kind.isTyped = true := Kind.isTyped_of_priority hkind
  have hsignature : (t.resigned first second).signature = (t.resigned first second').signature :=
    rfl
  have hparity : (t.resigned first second).parity? = (t.resigned first second').parity? :=
    parity?_resigned_congr
  have hregistry : (t.resigned first second).registry = (t.resigned first second').registry := rfl
  rw [senderKey, senderKey, recoverSender, recoverSender, hsigned, hsigned', hsignature,
    hparity, hregistry, signingHash_resigned_of_isTyped htyped,
    signingHash_resigned_of_isTyped htyped, subject_resigned, subject_resigned]

theorem secondKey_resigned_congr (hkind : t.kind = .priority)
    (hsigned : (t.resigned first second).isSigned = true)
    (hsigned' : (t.resigned first' second).isSigned = true) :
    (t.resigned first second).secondKey scheme = (t.resigned first' second).secondKey scheme := by
  have htyped : t.kind.isTyped = true := Kind.isTyped_of_priority hkind
  have hregistry : (t.resigned first second).registry = (t.resigned first' second).registry := rfl
  simp only [secondKey, recoverPart, hsigned, hsigned', secondSignature?_resigned, hregistry,
    signingHash_resigned_of_isTyped htyped, subject_resigned]

/-- The key of either signature as a function of that signature alone, for the payload of
the transaction and as long as it is signed. -/
theorem exists_recover_each (scheme : Scheme) (hkind : t.kind = .priority) :
    ∃ recoverFirst recoverSecond : SignatureParts → Except Failure PublicKey,
      ∀ (u : Transaction) first second, u.uncached = t.resigned first second →
        u.senderKey scheme =
            (if u.isSigned then recoverFirst first else .error (t.failure .notSigned)) ∧
          u.secondKey scheme =
            if u.isSigned then recoverSecond second else .error (t.failure .notSigned) := by
  -- Beside a signature that is left out of account, any complete one will do.
  let other : SignatureParts := .ofWords 0 0 0
  refine ⟨fun first => (t.resigned first other).senderKey scheme,
    fun second => (t.resigned other second).secondKey scheme, ?_⟩
  intro u first second hu
  have hsigned : u.isSigned = (t.resigned first second).isSigned := by
    rw [← hu]
    rfl
  have hsender : u.senderKey scheme = (t.resigned first second).senderKey scheme := by
    rw [← hu]
    rfl
  have hsecond : u.secondKey scheme = (t.resigned first second).secondKey scheme := by
    rw [← hu]
    rfl
  rw [hsender, hsecond, hsigned]
  cases h : (t.resigned first second).isSigned with
  | false =>
      rw [senderKey_of_unsigned h, secondKey_of_unsigned h, failure, subject_resigned]
      exact ⟨rfl, rfl⟩
  | true =>
      obtain ⟨hfirst, hmem⟩ := isSigned_iff.mp h
      have hcomplete : second.complete?.isSome = true :=
        hmem second (by rw [secondSignature?_resigned, if_pos hkind]; rfl)
      exact ⟨senderKey_resigned_congr hkind h (isSigned_resigned hfirst fun _ => rfl),
        secondKey_resigned_congr hkind h (isSigned_resigned rfl fun _ => hcomplete)⟩

theorem bothKeys_eq_ok_iff (ht : t.Valid) (hkind : t.kind = .priority)
    {sender other : PublicKey} :
    t.bothKeys scheme = .ok (sender, other) ↔
      t.senderKey scheme = .ok sender ∧ t.secondKey scheme = .ok other := by
  rw [bothKeys_eq ht hkind]
  cases t.senderKey scheme <;> cases t.secondKey scheme <;> simp [bind, Except.bind]

theorem bothKeys_eq_error_iff (ht : t.Valid) (hkind : t.kind = .priority) {failure : Failure} :
    t.bothKeys scheme = .error failure ↔
      t.senderKey scheme = .error failure ∨
        (t.senderKey scheme).isOk = true ∧ t.secondKey scheme = .error failure := by
  rw [bothKeys_eq ht hkind]
  cases t.senderKey scheme <;> cases t.secondKey scheme <;>
    simp [bind, Except.bind, Except.isOk, Except.toBool]

/-- The outcome is the answer of the scheme for a signature of the digest with the given
parity, which is handed to it as 27 or 28. -/
structure Answers (scheme : Scheme) (t : Transaction) (parity : UInt64) (r s : Word)
    (outcome : Except Failure PublicKey) : Prop where
  v_eq : parity + 27 = 27 ∨ parity + 27 = 28
  no_wrap : (parity + 27).toNat = parity.toNat + 27
  call : outcome = t.subject.annotate (scheme.recoverAt t.signingHash (parity + 27) r s)
  answer : outcome =
    match scheme.recover t.signingHash (parity = 1) r s with
    | some key => .ok key
    | none => .error (t.failure .invalidSignature)

theorem answers_of_bit {parity : UInt64} (h : parity = 0 ∨ parity = 1) (r s : Word) :
    t.Answers scheme parity r s
      (t.subject.annotate (scheme.recoverAt t.signingHash (parity + 27) r s)) where
  v_eq := by
    obtain rfl | rfl := h
    · exact .inl rfl
    · exact .inr rfl
  no_wrap := by
    obtain rfl | rfl := h
    · rfl
    · rfl
  call := rfl
  answer := by
    rw [scheme.recoverAt_of_bit t.signingHash h]
    cases scheme.recover t.signingHash (parity = 1) r s <;> rfl

theorem Answers.eq_failure {parity : UInt64} {r s : Word} {outcome : Except Failure PublicKey}
    (h : t.Answers scheme parity r s outcome) {failure : Failure}
    (hfailure : outcome = .error failure) : failure = t.failure .invalidSignature := by
  have hanswer := h.answer
  rw [hfailure] at hanswer
  split at hanswer
  · cases hanswer
  · exact Except.error.inj hanswer

/-- What passed the rules is read as a parity, narrowed to a byte for the sender. -/
theorem exists_parity (ht : t.Valid) {v : Word} (hv : t.signature.v = some v) :
    ∃ parity : UInt8, t.parity? = some parity ∧
      (parity.toUInt64 = 0 ∨ parity.toUInt64 = 1) := by
  have hadmits : t.kind.AdmitsV t.registry v := ht.parity v hv
  have hword : ∃ w ≤ (1 : Word), t.parity? = w.toUInt8? := by
    obtain hlegacy | htyped := t.kind.eq_legacy_or_isTyped
    · rw [hlegacy] at hadmits
      obtain ⟨w, id, hdecode, hw⟩ := hadmits.exists_decode
      exact ⟨w, hw, parity?_of_legacy hlegacy hv hdecode⟩
    · exact ⟨v, Kind.le_one_of_admitsV htyped hadmits, parity?_of_isTyped htyped hv⟩
  obtain ⟨w, hw, hparity⟩ := hword
  rw [hparity]
  obtain rfl | rfl := Word.eq_zero_or_one hw
  · exact ⟨0, rfl, .inl rfl⟩
  · exact ⟨1, rfl, .inr rfl⟩

theorem exists_answers_senderKey (scheme : Scheme) (ht : t.Valid) (hsigned : t.isSigned = true) :
    ∃ parity v r s, t.signature = .ofWords v r s ∧ t.parity? = some parity ∧
      t.Answers scheme parity.toUInt64 r s (t.senderKey scheme) := by
  obtain ⟨hfirst, -⟩ := isSigned_iff.mp hsigned
  obtain ⟨v, r, s, hsignature⟩ := SignatureParts.complete?_isSome_iff.mp hfirst
  have hv : t.signature.v = some v := by
    rw [hsignature]
    rfl
  have hs : t.signature.s = some s := by
    rw [hsignature]
    rfl
  have hcomplete : t.signature.complete? = some (v, r, s) := by
    rw [hsignature]
    rfl
  obtain ⟨parity, hparity, hbit⟩ := exists_parity ht hv
  have hlow : requireLowS t.registry "s" s = .ok () := requireLowS_iff.mpr (ht.lowS s hs)
  have hrecover : t.recoverSender scheme =
      scheme.recoverAt t.signingHash (parity.toUInt64 + 27) r s := by
    rw [recoverSender, hsigned, hcomplete]
    dsimp only
    rw [hparity]
    dsimp only
    rw [hlow]
    rfl
  refine ⟨parity, v, r, s, hsignature, hparity, ?_⟩
  rw [senderKey, hrecover]
  exact answers_of_bit hbit r s

/-- In the other way of recovering, the parity is narrowed to eight bytes. -/
theorem exists_recoverPart_eq (scheme : Scheme) (t : Transaction) (field : String) {v s : Word}
    (hv : v ≤ 1) (hs : t.registry.AdmitsS s) (r : Word) :
    ∃ parity, v.toUInt64? = some parity ∧ (parity = 0 ∨ parity = 1) ∧
      t.recoverPart scheme field (v, r, s) =
        scheme.recoverAt t.signingHash (parity + 27) r s := by
  have hlow : requireLowS t.registry field s = .ok () := requireLowS_iff.mpr hs
  have hread : ∃ parity, v.toUInt64? = some parity ∧ (parity = 0 ∨ parity = 1) := by
    obtain rfl | rfl := Word.eq_zero_or_one hv
    · exact ⟨0, rfl, .inl rfl⟩
    · exact ⟨1, rfl, .inr rfl⟩
  obtain ⟨parity, hparity, hbit⟩ := hread
  refine ⟨parity, hparity, hbit, ?_⟩
  simp only [recoverPart, hlow, hparity]
  rfl

theorem exists_answers_of_priority (scheme : Scheme) (ht : t.Valid) (hkind : t.kind = .priority)
    (hsigned : t.isSigned = true) :
    (∃ parity v r s, t.signature = .ofWords v r s ∧ v.toUInt64? = some parity ∧
      t.Answers scheme parity r s (t.senderKey scheme)) ∧
    ∃ parity v r s, t.secondSignature? = some (.ofWords v r s) ∧ v.toUInt64? = some parity ∧
      t.Answers scheme parity r s (t.secondKey scheme) := by
  have htyped : t.kind.isTyped = true := Kind.isTyped_of_priority hkind
  obtain ⟨hfirst, hsecond⟩ := isSigned_iff.mp hsigned
  refine ⟨?_, ?_⟩
  · obtain ⟨v, r, s, hsignature⟩ := SignatureParts.complete?_isSome_iff.mp hfirst
    have hv : v ≤ 1 := by
      apply Kind.le_one_of_admitsV htyped
      exact ht.parity v (by rw [hsignature]; rfl)
    have hs : t.registry.AdmitsS s := ht.lowS s (by rw [hsignature]; rfl)
    obtain ⟨parity, hparity, hbit, hpart⟩ := exists_recoverPart_eq scheme t "s" hv hs r
    refine ⟨parity, v, r, s, hsignature, hparity, ?_⟩
    rw [senderKey, recoverSender_eq_recoverPart ht hkind hsigned hsignature, hpart]
    exact answers_of_bit hbit r s
  · obtain ⟨second, hmem⟩ := exists_second_of_priority hkind
    obtain ⟨v, r, s, rfl⟩ := SignatureParts.complete?_isSome_iff.mp (hsecond second hmem)
    have hrules := ht.second _ hmem
    obtain ⟨parity, hparity, hbit, hpart⟩ :=
      exists_recoverPart_eq scheme t "pS" (hrules.parity v rfl) (hrules.lowS s rfl) r
    refine ⟨parity, v, r, s, hmem, hparity, ?_⟩
    have hkey : t.secondKey scheme = t.subject.annotate (t.recoverPart scheme "pS" (v, r, s)) := by
      rw [secondKey, hsigned, hmem]
      rfl
    rw [hkey, hpart]
    exact answers_of_bit hbit r s

end Transaction
/-- Recovering both keys of a priority transaction succeeds if and only if both recoveries
do, with their keys, and fails as the first of them that fails. Each of them is a function
of its own signature as long as the transaction is signed, whatever the other signature is,
and refuses an unsigned one. -/
theorem Reachable.bothKeys_iff_each {scheme : Scheme} {t : Transaction} (h : Reachable scheme t)
    (hkind : t.kind = .priority) :
    (∀ sender other, t.bothKeys scheme = .ok (sender, other) ↔
      t.senderKey scheme = .ok sender ∧ t.secondKey scheme = .ok other) ∧
    (∀ failure, t.bothKeys scheme = .error failure ↔
      t.senderKey scheme = .error failure ∨
        (t.senderKey scheme).isOk = true ∧ t.secondKey scheme = .error failure) ∧
    ∃ recoverFirst recoverSecond : SignatureParts → Except Failure PublicKey,
      ∀ (u : Transaction) first second, u.uncached = t.resigned first second →
        u.senderKey scheme =
            (if u.isSigned then recoverFirst first else .error (t.failure .notSigned)) ∧
          u.secondKey scheme =
            if u.isSigned then recoverSecond second else .error (t.failure .notSigned) := by
  refine ⟨?_, ?_, ?_⟩
  · intro sender other
    exact Transaction.bothKeys_eq_ok_iff h.valid hkind
  · intro failure
    exact Transaction.bothKeys_eq_error_iff h.valid hkind
  · exact Transaction.exists_recover_each scheme hkind

/-- The first key is recovered and the second one is not, because its signature has `r = 0`.
So the failure of the second key is that of both. -/
theorem Reachable.bothKeys_iff_each_of_zero :
    let d : Draft :=
      { v := some 1, r := some 1, s := some 1, pV := some 0, pR := some 0, pS := some 1 }
    let t := Kind.priority.assemble .standard {} d
    let scheme := Secp256k1.scheme
    Reachable scheme t ∧ t.kind = .priority ∧ (t.senderKey scheme).isOk = true ∧
      t.secondKey scheme = .error (t.failure .invalidSignature) ∧
      t.bothKeys scheme = .error (t.failure .invalidSignature) := by
  intro d t scheme
  have hreach : Reachable scheme t :=
    .build (show (Source.draftAs .priority d).build {} = .ok t from rfl)
  have hfirst : (t.senderKey scheme).isOk = true := by decide +kernel
  have hsecond : t.secondKey scheme = .error (t.failure .invalidSignature) := by decide +kernel
  obtain ⟨-, herror, -⟩ := Reachable.bothKeys_iff_each hreach rfl
  exact ⟨hreach, rfl, hfirst, hsecond, (herror _).mpr (.inr ⟨hfirst, hsecond⟩)⟩

/-- Recovery of a signed transaction is the scheme's. Each signature is handed to it with 27
or 28, computed from the parity that the transaction tells without wrapping around, and the
outcome is the key that it finds or else an invalid signature. No other failure is possible,
neither for one key nor for both. -/
theorem Reachable.answers_of_isSigned {scheme : Scheme} {t : Transaction}
    (h : Reachable scheme t) (hsigned : t.isSigned = true) :
    ((∃ parity v r s, t.signature = .ofWords v r s ∧ t.parity? = some parity ∧
        t.Answers scheme parity.toUInt64 r s (t.senderKey scheme)) ∧
      ∀ failure, t.senderKey scheme = .error failure →
        failure = t.failure .invalidSignature) ∧
    (t.kind = .priority →
      (∃ parity v r s, t.signature = .ofWords v r s ∧ v.toUInt64? = some parity ∧
        t.Answers scheme parity r s (t.senderKey scheme)) ∧
      (∃ parity v r s, t.secondSignature? = some (.ofWords v r s) ∧ v.toUInt64? = some parity ∧
        t.Answers scheme parity r s (t.secondKey scheme)) ∧
      t.bothKeys scheme = (do
        let sender ← t.senderKey scheme
        let other ← t.secondKey scheme
        .ok (sender, other)) ∧
      ∀ failure, t.secondKey scheme = .error failure ∨ t.bothKeys scheme = .error failure →
        failure = t.failure .invalidSignature) := by
  have ht : t.Valid := h.valid
  obtain ⟨parity, v, r, s, hsignature, hparity, hsender⟩ :=
    Transaction.exists_answers_senderKey scheme ht hsigned
  refine ⟨⟨⟨parity, v, r, s, hsignature, hparity, hsender⟩, fun _ => hsender.eq_failure⟩, ?_⟩
  intro hkind
  obtain ⟨hfirst, parity', v', r', s', hmem, hparity', hsecond⟩ :=
    Transaction.exists_answers_of_priority scheme ht hkind hsigned
  refine ⟨hfirst, ⟨parity', v', r', s', hmem, hparity', hsecond⟩,
    Transaction.bothKeys_eq ht hkind, ?_⟩
  rintro failure (hfailure | hfailure)
  · exact hsecond.eq_failure hfailure
  · obtain hfailure | ⟨-, hfailure⟩ := (Transaction.bothKeys_eq_error_iff ht hkind).mp hfailure
    · exact hsender.eq_failure hfailure
    · exact hsecond.eq_failure hfailure

/-- A legacy transaction with the largest `s`, which is allowed before the rule on low
values, and a priority transaction whose second signature has `r = 0`. -/
theorem Reachable.answers_of_isSigned_of_high :
    let scheme := Secp256k1.scheme
    let registry := Registry.standard.withFork .chainstart
    let high : Draft := { v := some 28, r := some 1, s := some Word.max }
    let legacy := Kind.legacy.assemble registry { registry := some registry } high
    let zero : Draft :=
      { v := some 1, r := some 2, s := some 1, pV := some 0, pR := some 0, pS := some 1 }
    let priority := Kind.priority.assemble .standard {} zero
    (Reachable scheme legacy ∧ legacy.isSigned = true ∧
      (∃ parity v r s, legacy.signature = .ofWords v r s ∧ legacy.parity? = some parity ∧
        legacy.Answers scheme parity.toUInt64 r s (legacy.senderKey scheme)) ∧
      ∀ failure, legacy.senderKey scheme = .error failure →
        failure = legacy.failure .invalidSignature) ∧
    Reachable scheme priority ∧ priority.isSigned = true ∧ priority.kind = .priority ∧
      ∀ failure,
        priority.secondKey scheme = .error failure ∨ priority.bothKeys scheme = .error failure →
          failure = priority.failure .invalidSignature := by
  intro scheme registry high legacy zero priority
  have hlegacy : Reachable scheme legacy :=
    .build (show (Source.draftAs .legacy high).build { registry := some registry } = .ok legacy
      from rfl)
  have hpriority : Reachable scheme priority :=
    .build (show (Source.draftAs .priority zero).build {} = .ok priority from rfl)
  obtain ⟨hsender, -⟩ := Reachable.answers_of_isSigned hlegacy rfl
  obtain ⟨-, hboth⟩ := Reachable.answers_of_isSigned hpriority rfl
  exact ⟨⟨hlegacy, rfl, hsender⟩, hpriority, rfl, rfl, (hboth rfl).2.2.2⟩

end TypedTx
