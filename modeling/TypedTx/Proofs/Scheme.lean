import TypedTx.Proofs.Transaction.Validity
import TypedTx.Transaction.Recovery

/-!
# Lawful signature schemes

A signature scheme is lawful if a signature is low, has parity 0 or 1 and is recovered
from its own digest to the public key of the signer.

Whether a scheme is lawful on one digest and key can be computed. So every scheme is
turned into a lawful one that agrees with it wherever it is lawful already, and for a
given transaction and key the two are compared by computing the signature.
-/

namespace TypedTx

structure Scheme.Lawful (scheme : Scheme) : Prop where
  parity_le_one : ∀ digest key, (scheme.sign digest key).parity ≤ 1
  s_le_halfOrder : ∀ digest key, (scheme.sign digest key).s ≤ Secp256k1.halfOrder
  recover_sign : ∀ digest key,
    scheme.recover digest ((scheme.sign digest key).parity = 1) (scheme.sign digest key).r
      (scheme.sign digest key).s = some (scheme.publicKey key)

namespace RecoverableSignature

variable {signature : RecoverableSignature}

/-- The parity as a word, which is how signing writes it. -/
abbrev word (signature : RecoverableSignature) : Word :=
  Word.ofNat signature.parity.toNat

/-- The components of the signature behind a given `v`. -/
def withV (signature : RecoverableSignature) (v : Word) : SignatureParts :=
  .ofWords v signature.r signature.s

theorem parts_eq_withV (signature : RecoverableSignature) :
    signature.parts = signature.withV signature.word := rfl

theorem toNat_word (signature : RecoverableSignature) :
    signature.word.toNat = signature.parity.toNat :=
  Word.toNat_ofNat_of_lt (Nat.lt_trans signature.parity.toNat_lt (by decide))

theorem toNat_word_lt (signature : RecoverableSignature) : signature.word.toNat < 256 := by
  rw [toNat_word]
  exact signature.parity.toNat_lt

theorem toUInt8?_word (signature : RecoverableSignature) :
    signature.word.toUInt8? = some signature.parity := by
  rw [Word.toUInt8?, toNat_word, if_pos signature.parity.toNat_lt, UInt8.ofNat_toNat]

theorem toUInt64?_word (signature : RecoverableSignature) :
    signature.word.toUInt64? = some signature.parity.toUInt64 := by
  have hlt : signature.parity.toNat < UInt64.size :=
    Nat.lt_trans signature.parity.toNat_lt (by decide)
  rw [Word.toUInt64?, toNat_word, if_pos hlt, Option.some.injEq, ← UInt64.toNat_inj,
    UInt64.toNat_ofNat_of_lt' hlt, UInt8.toNat_toUInt64]

/-- The form of a signature that the rules ask for. -/
structure IsNormal (signature : RecoverableSignature) : Prop where
  parity_le_one : signature.parity ≤ 1
  s_le_halfOrder : signature.s ≤ Secp256k1.halfOrder

namespace IsNormal

variable (h : signature.IsNormal)

include h

theorem word_le_one : signature.word ≤ 1 := by
  have hle : signature.parity.toNat ≤ 1 := UInt8.le_iff_toNat_le.mp h.parity_le_one
  apply BitVec.le_def.mpr
  rw [toNat_word]
  exact hle

theorem admitsS (registry : Registry) : registry.AdmitsS signature.s :=
  fun _ => h.s_le_halfOrder

end IsNormal

end RecoverableSignature

section Keys

variable {scheme : Scheme} {bytes : Bytes} {key : SecretKey}

theorem SecretKey.length_of_ofBytes (h : SecretKey.ofBytes bytes = .ok key) :
    bytes.length = 32 := by
  rw [ofBytes, Success.admit_iff] at h
  exact h.1

theorem SecretKey.ofBytes_eq_ok (hlength : bytes.length = 32)
    (hrange : 0 < bytes.toNat ∧ bytes.toNat < Secp256k1.order) :
    SecretKey.ofBytes bytes = .ok ⟨bytes.toNat, hrange.1, hrange.2⟩ := by
  rw [ofBytes, if_pos hlength, dif_pos hrange]

theorem requireKeyLength_of_ofBytes (h : SecretKey.ofBytes bytes = .ok key) :
    requireKeyLength bytes = .ok () :=
  if_pos (SecretKey.length_of_ofBytes h)

theorem Scheme.signWithBytes_eq_ok (digest : Digest) (h : SecretKey.ofBytes bytes = .ok key) :
    scheme.signWithBytes digest bytes = .ok (scheme.sign digest key) := by
  have hread : readKey bytes = .ok key := Success.mapError_iff.mpr h
  rw [signWithBytes, hread]
  rfl

end Keys

theorem parity_eq_zero_or_one {parity : UInt8} (h : parity ≤ 1) : parity = 0 ∨ parity = 1 := by
  have hle : parity.toNat ≤ 1 := UInt8.le_iff_toNat_le.mp h
  rw [← UInt8.toNat_inj, ← UInt8.toNat_inj]
  change parity.toNat = 0 ∨ parity.toNat = 1
  omega

/-- The two parities are written as 27 and 28. -/
theorem Scheme.recoverAt_of_bit (scheme : Scheme) (digest : Digest) {parity : UInt64}
    (h : parity = 0 ∨ parity = 1) (r s : Word) :
    scheme.recoverAt digest (parity + 27) r s =
      match scheme.recover digest (parity = 1) r s with
      | some key => .ok key
      | none => .error .invalidSignature := by
  obtain rfl | rfl := h
  · rfl
  · rfl

theorem Scheme.recoverAt_of_le_one (scheme : Scheme) (digest : Digest) {parity : UInt8}
    (h : parity ≤ 1) (r s : Word) :
    scheme.recoverAt digest (parity.toUInt64 + 27) r s =
      match scheme.recover digest (parity = 1) r s with
      | some key => .ok key
      | none => .error .invalidSignature := by
  obtain rfl | rfl := parity_eq_zero_or_one h
  · exact scheme.recoverAt_of_bit digest (.inl rfl) r s
  · exact scheme.recoverAt_of_bit digest (.inr rfl) r s

namespace Scheme.Lawful

variable {scheme : Scheme} (hscheme : scheme.Lawful) (digest : Digest) (key : SecretKey)

include hscheme

theorem recoverAt_sign :
    scheme.recoverAt digest ((scheme.sign digest key).parity.toUInt64 + 27)
      (scheme.sign digest key).r (scheme.sign digest key).s = .ok (scheme.publicKey key) := by
  rw [scheme.recoverAt_of_le_one digest (hscheme.parity_le_one digest key),
    hscheme.recover_sign digest key]

theorem isNormal_sign : (scheme.sign digest key).IsNormal :=
  ⟨hscheme.parity_le_one digest key, hscheme.s_le_halfOrder digest key⟩

theorem requireLowS_sign (registry : Registry) (field : String) :
    requireLowS registry field (scheme.sign digest key).s = .ok () :=
  requireLowS_iff.mpr ((hscheme.isNormal_sign digest key).admitsS registry)

end Scheme.Lawful

namespace Scheme

/-- A signature that is low, has parity 0 or 1, and is recovered to its signer. -/
def IsRegular (scheme : Scheme) (digest : Digest) (key : SecretKey) : Prop :=
  (scheme.sign digest key).parity ≤ 1 ∧ (scheme.sign digest key).s ≤ Secp256k1.halfOrder ∧
    (scheme.sign digest key).s ≠ 0 ∧
    scheme.recover digest ((scheme.sign digest key).parity = 1) (scheme.sign digest key).r
      (scheme.sign digest key).s = some (scheme.publicKey key)

instance (scheme : Scheme) (digest : Digest) (key : SecretKey) :
    Decidable (scheme.IsRegular digest key) :=
  inferInstanceAs (Decidable (_ ∧ _ ∧ _ ∧ _))

/-- The scheme, but a signature that is not regular is replaced by one whose `s` is
zero and whose `r` is the private key itself. Where the scheme is regular, which can be
decided for each digest and key, nothing changes. -/
def checked (scheme : Scheme) : Scheme where
  publicKey := scheme.publicKey
  sign digest key :=
    if scheme.IsRegular digest key then scheme.sign digest key
    else ⟨0, Word.ofNat key.scalar, 0⟩
  recover digest odd r s :=
    if s = 0 then
      if h : 0 < r.toNat ∧ r.toNat < Secp256k1.order then
        some (scheme.publicKey ⟨r.toNat, h.1, h.2⟩)
      else none
    else scheme.recover digest odd r s

variable {scheme : Scheme} {digest : Digest} {key : SecretKey}

theorem sign_checked_of_isRegular (h : scheme.IsRegular digest key) :
    scheme.checked.sign digest key = scheme.sign digest key :=
  if_pos h

/-- Bytes that are a private key whose signature of the digest is regular. -/
def IsRegularFor (scheme : Scheme) (digest : Digest) (bytes : Bytes) : Prop :=
  ∃ key, SecretKey.ofBytes bytes = .ok key ∧ scheme.IsRegular digest key

instance (scheme : Scheme) (digest : Digest) (bytes : Bytes) :
    Decidable (scheme.IsRegularFor digest bytes) :=
  match h : SecretKey.ofBytes bytes with
  | .ok key => decidable_of_iff (scheme.IsRegular digest key) (by simp [IsRegularFor, h])
  | .error _ => isFalse (by simp [IsRegularFor, h])

theorem IsRegular.isNormal (h : scheme.IsRegular digest key) :
    (scheme.sign digest key).IsNormal :=
  ⟨h.1, h.2.1⟩

theorem signWithBytes_checked {bytes : Bytes} (h : scheme.IsRegularFor digest bytes) :
    scheme.checked.signWithBytes digest bytes = scheme.signWithBytes digest bytes := by
  obtain ⟨key, hkey, hregular⟩ := h
  rw [signWithBytes_eq_ok digest hkey, signWithBytes_eq_ok digest hkey,
    sign_checked_of_isRegular hregular]

theorem sign_checked_of_not_isRegular (h : ¬ scheme.IsRegular digest key) :
    scheme.checked.sign digest key = ⟨0, Word.ofNat key.scalar, 0⟩ :=
  if_neg h

theorem toNat_ofNat_scalar (key : SecretKey) : (Word.ofNat key.scalar).toNat = key.scalar :=
  Word.toNat_ofNat_of_lt (Nat.lt_trans key.lt_order (by decide))

theorem recover_checked_scalar (scheme : Scheme) (digest : Digest) (odd : Bool) (key : SecretKey) :
    scheme.checked.recover digest odd (Word.ofNat key.scalar) 0 = some (scheme.publicKey key) := by
  have hscalar := toNat_ofNat_scalar key
  have hrange : 0 < (Word.ofNat key.scalar).toNat ∧
      (Word.ofNat key.scalar).toNat < Secp256k1.order := by
    rw [hscalar]
    exact ⟨key.pos, key.lt_order⟩
  change (if _ : _ ∧ _ then _ else _) = _
  rw [dif_pos hrange]
  congr 2
  cases key
  congr

/-- What is checked is lawful. -/
theorem lawful_checked (scheme : Scheme) : scheme.checked.Lawful where
  parity_le_one := by
    intro digest key
    by_cases h : scheme.IsRegular digest key
    · rw [sign_checked_of_isRegular h]
      exact h.1
    · rw [sign_checked_of_not_isRegular h]
      exact show (0 : UInt8) ≤ 1 by decide
  s_le_halfOrder := by
    intro digest key
    by_cases h : scheme.IsRegular digest key
    · rw [sign_checked_of_isRegular h]
      exact h.2.1
    · rw [sign_checked_of_not_isRegular h]
      exact show (0 : Word) ≤ Secp256k1.halfOrder by decide
  recover_sign := by
    intro digest key
    by_cases h : scheme.IsRegular digest key
    · rw [sign_checked_of_isRegular h]
      exact (if_neg h.2.2.1).trans h.2.2.2
    · rw [sign_checked_of_not_isRegular h]
      exact recover_checked_scalar scheme digest _ key

end Scheme

end TypedTx
