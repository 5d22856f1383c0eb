import TypedTx.Proofs.Transaction.SigningAgain

/-!
# Keys that are refused

Signing fails for its keys alone. The rules of construction are applied to the signed copy
once more, but what was valid before stays valid under signatures of the scheme. So whether
signing fails, and as what, can be told from the keys and the kind.

A key is refused for its length or else as a number. Where two keys are needed, a missing
second key comes first, then both lengths in their order, and the numbers come last.
-/

namespace TypedTx

/-- The number is no private key: it is zero or not below the order of the curve. -/
def Bytes.IsOutOfRange (bs : Bytes) : Prop :=
  bs.toNat = 0 ∨ Secp256k1.order ≤ bs.toNat

theorem Bytes.isOutOfRange_iff {bs : Bytes} :
    bs.IsOutOfRange ↔ ¬ (0 < bs.toNat ∧ bs.toNat < Secp256k1.order) := by
  rw [IsOutOfRange]
  omega

section Keys

variable {scheme : Scheme} {key : Bytes} {fault : Fault}

theorem readKey_of_length_ne (h : key.length ≠ 32) :
    readKey key = .error (.invalidKeyLength key.length) := by
  rw [readKey, SecretKey.ofBytes, if_neg h]
  rfl

theorem readKey_of_isOutOfRange (hlength : key.length = 32) (h : key.IsOutOfRange) :
    readKey key = .error .invalidPrivateKey := by
  rw [readKey, SecretKey.ofBytes, if_pos hlength, dif_neg (Bytes.isOutOfRange_iff.mp h)]
  rfl

theorem exists_ofBytes (hlength : key.length = 32) (h : ¬ key.IsOutOfRange) :
    ∃ secret, SecretKey.ofBytes key = .ok secret :=
  ⟨_, SecretKey.ofBytes_eq_ok hlength (not_not.mp (mt Bytes.isOutOfRange_iff.mpr h))⟩

theorem Scheme.signWithBytes_of_refused (digest : Digest) (h : readKey key = .error fault) :
    scheme.signWithBytes digest key = .error fault := by
  rw [signWithBytes, h]
  rfl

end Keys

namespace Transaction

variable {scheme : Scheme} {t : Transaction} {key other : Bytes} {secondKey : Option Bytes}
variable {fault : Fault} {failure : Failure}

theorem signLegacy_of_refused {mode : Replay}
    (hmode : mode = .eip155 → t.registry.isActive 155 = true) (h : readKey key = .error fault) :
    t.signLegacy scheme key mode = .error (t.failure fault) := by
  rw [signLegacy, if_neg (not_refused_of_mode hmode)]
  dsimp only
  rw [Scheme.signWithBytes_of_refused _ h]
  rfl

theorem signTyped_of_refused (h : readKey key = .error fault) :
    t.signTyped scheme key = .error (t.failure fault) := by
  rw [signTyped, Scheme.signWithBytes_of_refused _ h]
  rfl

theorem sign_of_refused (hkind : t.kind ≠ .priority) (h : readKey key = .error fault) :
    t.sign scheme key secondKey = .error (t.failure fault) := by
  obtain hlegacy | htyped := t.kind.eq_legacy_or_isTyped
  · rw [sign_of_legacy hlegacy]
    exact signLegacy_of_refused Registry.isActive_of_mode h
  · rw [sign_of_single htyped hkind]
    exact signTyped_of_refused h

theorem sign_eq_error_iff_of_single (hnormal : ∀ digest key, (scheme.sign digest key).IsNormal)
    (ht : t.Valid) (hkind : t.kind ≠ .priority) :
    t.sign scheme key secondKey = .error failure ↔
      (key.length ≠ 32 ∧ failure = t.failure (.invalidKeyLength key.length)) ∨
        (key.length = 32 ∧ key.IsOutOfRange ∧ failure = t.failure .invalidPrivateKey) := by
  by_cases hlength : key.length = 32
  · by_cases hrange : key.IsOutOfRange
    · rw [sign_of_refused hkind (readKey_of_isOutOfRange hlength hrange), Except.error.injEq]
      simp [hlength, hrange, eq_comm]
    · obtain ⟨u, hu⟩ := exists_sign_of_acceptsKeys hnormal ht
        ⟨exists_ofBytes hlength hrange, fun h => absurd h hkind⟩
      rw [hu]
      simp [hlength, hrange]
  · rw [sign_of_refused hkind (readKey_of_length_ne hlength), Except.error.injEq]
    simp [hlength, eq_comm]

theorem signBoth_of_length_ne (h : key.length ≠ 32) :
    t.signBoth scheme key other = .error (t.failure (.invalidKeyLength key.length)) := by
  rw [signBoth, requireKeyLength, if_neg h]
  rfl

theorem signBoth_of_second_length_ne (hlength : key.length = 32) (h : other.length ≠ 32) :
    t.signBoth scheme key other = .error (t.failure (.invalidKeyLength other.length)) := by
  rw [signBoth, requireKeyLength, requireKeyLength, if_pos hlength, if_neg h]
  rfl

/-- The fault of a number does not say which of the keys it is. -/
theorem signBoth_of_isOutOfRange (hlength : key.length = 32) (hother : other.length = 32)
    (h : key.IsOutOfRange ∨ other.IsOutOfRange) :
    t.signBoth scheme key other = .error (t.failure .invalidPrivateKey) := by
  rw [signBoth, requireKeyLength, requireKeyLength, if_pos hlength, if_pos hother]
  dsimp only
  by_cases hrange : key.IsOutOfRange
  · rw [Scheme.signWithBytes_of_refused _ (readKey_of_isOutOfRange hlength hrange)]
    rfl
  · obtain ⟨secret, hsecret⟩ := exists_ofBytes hlength hrange
    have hrange' : other.IsOutOfRange := h.resolve_left hrange
    rw [Scheme.signWithBytes_eq_ok _ hsecret,
      Scheme.signWithBytes_of_refused _ (readKey_of_isOutOfRange hother hrange')]
    rfl

theorem sign_eq_error_iff_of_priority (hnormal : ∀ digest key, (scheme.sign digest key).IsNormal)
    (ht : t.Valid) (hkind : t.kind = .priority) :
    t.sign scheme key (some other) = .error failure ↔
      (key.length ≠ 32 ∧ failure = t.failure (.invalidKeyLength key.length)) ∨
        (key.length = 32 ∧ other.length ≠ 32 ∧
          failure = t.failure (.invalidKeyLength other.length)) ∨
        (key.length = 32 ∧ other.length = 32 ∧ (key.IsOutOfRange ∨ other.IsOutOfRange) ∧
          failure = t.failure .invalidPrivateKey) := by
  by_cases hlength : key.length = 32
  · by_cases hother : other.length = 32
    · by_cases hrange : key.IsOutOfRange ∨ other.IsOutOfRange
      · rw [sign_of_priority hkind, signBoth_of_isOutOfRange hlength hother hrange,
          Except.error.injEq]
        simp [hlength, hother, hrange, eq_comm]
      · obtain ⟨hkey, hsecond⟩ := not_or.mp hrange
        obtain ⟨u, hu⟩ := exists_sign_of_acceptsKeys hnormal ht
          ⟨exists_ofBytes hlength hkey, fun _ => ⟨other, rfl, exists_ofBytes hother hsecond⟩⟩
        rw [hu]
        simp [hlength, hother, hrange]
    · rw [sign_of_priority hkind, signBoth_of_second_length_ne hlength hother,
        Except.error.injEq]
      simp [hlength, hother, eq_comm]
  · rw [sign_of_priority hkind, signBoth_of_length_ne hlength, Except.error.injEq]
    simp [hlength, eq_comm]

theorem sign_none_eq_error_iff (hkind : t.kind = .priority) :
    t.sign scheme key none = .error failure ↔ failure = t.failure (.invalidKeyLength 0) := by
  rw [sign_of_missing hkind, Except.error.injEq, eq_comm]

/-- Every failure speaks of the transaction that was to be signed. -/
theorem exists_failure_of_sign (hnormal : ∀ digest key, (scheme.sign digest key).IsNormal)
    (ht : t.Valid) (h : t.sign scheme key secondKey = .error failure) :
    ∃ fault, failure = t.failure fault := by
  by_cases hkind : t.kind = .priority
  · cases secondKey with
    | none => exact ⟨_, (sign_none_eq_error_iff hkind).mp h⟩
    | some other =>
        obtain ⟨-, h⟩ | ⟨-, -, h⟩ | ⟨-, -, -, h⟩ :=
          (sign_eq_error_iff_of_priority hnormal ht hkind).mp h
        all_goals exact ⟨_, h⟩
  · obtain ⟨-, h⟩ | ⟨-, -, h⟩ := (sign_eq_error_iff_of_single hnormal ht hkind).mp h
    all_goals exact ⟨_, h⟩

end Transaction

/-- Signing a reachable transaction fails exactly for a key that is refused. If one key is
needed it is refused for its length or as a number, and a second key changes nothing. If
two are needed, the second one may be missing, whatever the first one is. If it is there,
the first of the two that has a wrong length is reported, even if the other one is no
private key, and only then the numbers are looked at. Every failure names the transaction. -/
theorem Reachable.sign_eq_error_iff {scheme : Scheme} {t : Transaction} (h : Reachable scheme t)
    (hnormal : ∀ digest key, (scheme.sign digest key).IsNormal) (key : Bytes) :
    (t.kind ≠ .priority → ∀ secondKey failure,
      t.sign scheme key secondKey = .error failure ↔
        (key.length ≠ 32 ∧ failure = t.failure (.invalidKeyLength key.length)) ∨
          (key.length = 32 ∧ key.IsOutOfRange ∧ failure = t.failure .invalidPrivateKey)) ∧
    (t.kind = .priority →
      (∀ failure, t.sign scheme key none = .error failure ↔
        failure = t.failure (.invalidKeyLength 0)) ∧
      ∀ other failure, t.sign scheme key (some other) = .error failure ↔
        (key.length ≠ 32 ∧ failure = t.failure (.invalidKeyLength key.length)) ∨
          (key.length = 32 ∧ other.length ≠ 32 ∧
            failure = t.failure (.invalidKeyLength other.length)) ∨
          (key.length = 32 ∧ other.length = 32 ∧ (key.IsOutOfRange ∨ other.IsOutOfRange) ∧
            failure = t.failure .invalidPrivateKey)) ∧
    ∀ secondKey failure, t.sign scheme key secondKey = .error failure →
      failure.message = failure.fault.message ++ " (" ++ t.subject.text ++ ")" := by
  have ht : t.Valid := h.valid
  refine ⟨?_, ?_, ?_⟩
  · intro hkind secondKey failure
    exact Transaction.sign_eq_error_iff_of_single hnormal ht hkind
  · intro hkind
    refine ⟨?_, ?_⟩
    · intro failure
      exact Transaction.sign_none_eq_error_iff hkind
    · intro other failure
      exact Transaction.sign_eq_error_iff_of_priority hnormal ht hkind
  · intro secondKey failure hsign
    obtain ⟨fault, rfl⟩ := Transaction.exists_failure_of_sign hnormal ht hsign
    rfl

/-- A legacy transaction with a key that is too short and with a good one, which signs as by
the network's scheme, and a priority transaction whose first key is zero while the second one
is too short, or is missing. -/
theorem Reachable.sign_eq_error_iff_of_zero :
    let network := Secp256k1.scheme
    let scheme := network.checked
    let zero : Bytes := List.replicate 32 0
    let good : Bytes := List.replicate 32 1
    let legacy := Kind.legacy.assemble .standard {} { v := some 27, s := some 5 }
    let priority := Kind.priority.assemble .standard {} { gasLimit := some 21000 }
    legacy.sign scheme [1, 2] none = .error (legacy.failure (.invalidKeyLength 2)) ∧
    (∀ secondKey failure, legacy.sign scheme good secondKey ≠ .error failure) ∧
    (∃ u, legacy.sign scheme good none = .ok u ∧ legacy.sign network good none = .ok u) ∧
    priority.sign scheme zero (some [7]) = .error (priority.failure (.invalidKeyLength 1)) ∧
    priority.sign scheme zero (some good) = .error (priority.failure .invalidPrivateKey) ∧
    priority.sign scheme zero none = .error (priority.failure (.invalidKeyLength 0)) := by
  intro network scheme zero good legacy priority
  have hnormal : ∀ digest key, (scheme.sign digest key).IsNormal :=
    (Scheme.lawful_checked Secp256k1.scheme).isNormal_sign
  have hlegacy : Reachable scheme legacy :=
    .build (show (Source.draftAs .legacy { v := some 27, s := some 5 }).build {} = _ from rfl)
  have hpriority : Reachable scheme priority :=
    .build (show (Source.draftAs .priority { gasLimit := some 21000 }).build {} = _ from rfl)
  have hzero : zero.IsOutOfRange := .inl (by decide +kernel)
  have hgood : ¬ good.IsOutOfRange := by
    rw [Bytes.isOutOfRange_iff, not_not]
    decide +kernel
  have hnever : ∀ secondKey failure, legacy.sign scheme good secondKey ≠ .error failure := by
    intro secondKey failure hsign
    have hsingle := (Reachable.sign_eq_error_iff hlegacy hnormal good).1 (by decide)
    obtain ⟨hlength, -⟩ | ⟨-, hrange, -⟩ := (hsingle secondKey failure).mp hsign
    · exact hlength rfl
    · exact hgood hrange
  obtain ⟨hmissing, hboth⟩ := (Reachable.sign_eq_error_iff hpriority hnormal zero).2.1 rfl
  refine ⟨?_, hnever, ?_, ?_, ?_, ?_⟩
  · have hsingle := (Reachable.sign_eq_error_iff hlegacy hnormal [1, 2]).1 (by decide)
    exact (hsingle none _).mpr (.inl ⟨by decide, rfl⟩)
  · have hregular : network.IsRegularFor legacy.digestOfSign good :=
      Secp256k1.isRegularFor_legacy 1 (by decide)
    have hagree : legacy.sign scheme good none = legacy.sign network good none :=
      Transaction.sign_checked hregular nofun
    cases hsign : legacy.sign scheme good none with
    | ok u => exact ⟨u, rfl, hagree.symm.trans hsign⟩
    | error failure => exact absurd hsign (hnever none failure)
  · exact (hboth [7] _).mpr (.inr (.inl ⟨rfl, by decide, rfl⟩))
  · exact (hboth good _).mpr (.inr (.inr ⟨rfl, rfl, .inl hzero, rfl⟩))
  · exact (hmissing _).mpr rfl

end TypedTx
