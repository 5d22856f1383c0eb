import TypedTx.Proofs.Transaction.Projection
import TypedTx.Proofs.Transaction.Signing

/-!
# Signing outside

A device that holds the keys is given the digest to sign, and the signatures that it
returns are written into the fields by the caller. For a transaction without any
component of a signature this is what signing does by itself. The point is the `v` of a
legacy signature: the caller takes its form from the chain id that the transaction says
it commits to, which follows the mode of the digest, whereas signing picks the mode from
the registry. The two modes are the same as long as no `v` is there.
-/

namespace TypedTx
namespace Transaction

variable {scheme : Scheme} {t : Transaction} {key other : SecretKey} {bytes secondBytes : Bytes}

/-- What a signing device is given. -/
def digestToSign (t : Transaction) : Digest :=
  ⟨t.messageToSign true, t.signingHash.2⟩

/-- The `v` under which the caller writes a signature: the parity, or for a legacy
transaction one that carries the chain id it commits to, if there is one. -/
def externalV (t : Transaction) (signature : RecoverableSignature) : Word :=
  match t.kind with
  | .legacy =>
      match t.chainId? with
      | some chainId => signature.word + 35 + 2 * Word.ofUInt64 chainId
      | none => signature.word + 27
  | _ => signature.word

/-- The fields of a transaction with signatures from outside filled in. -/
def filled (t : Transaction) (first : RecoverableSignature)
    (second : Option RecoverableSignature) : Draft :=
  let d := t.draft.withSignature (first.withV (t.externalV first))
  match second with
  | none => d
  | some second => d.withSecondSignature (second.withV second.word)

theorem digestToSign_eq (t : Transaction) : t.digestToSign = t.signingHash := rfl

theorem kind_filled (t : Transaction) (first : RecoverableSignature)
    (second : Option RecoverableSignature) : (t.filled first second).kind = some t.kind := by
  cases second <;> exact t.kind_draft

/-- Without a `v` the mode of the digest is the one that signing picks. -/
theorem replay_of_isBare (h : t.isBare = true) :
    t.replay = if t.registry.isActive 155 then .eip155 else .unprotected := by
  have hfirst : t.signature = {} := SignatureParts.isAbsent_iff.mp (isBare_iff.mp h).1
  rw [replay, hfirst]

theorem isActive_of_replay (h : t.isBare = true) (hmode : t.replay = .eip155) :
    t.registry.isActive 155 = true := by
  rw [replay_of_isBare h] at hmode
  exact Registry.isActive_of_mode hmode

/-- The caller writes the `v` of the mode that the digest is in. -/
theorem externalV_of_legacy (h : t.kind = .legacy) (signature : RecoverableSignature) :
    t.externalV signature = t.replay.encode t.registry.chainId signature.word := by
  rw [externalV, h, chainId?_of_legacy h]
  cases t.replay with
  | unprotected => rfl
  | eip155 =>
      change _ + 35 + 2 * _ = _ + 35 + _ * 2
      rw [BitVec.mul_comm]

theorem externalV_of_isTyped (h : t.kind.isTyped = true) (signature : RecoverableSignature) :
    t.externalV signature = signature.word := by
  rw [externalV]
  cases hkind : t.kind with
  | legacy => simp [hkind, Kind.isTyped] at h
  | accessList | feeMarket | priority => rfl

section Filled

variable (hkey : SecretKey.ofBytes bytes = .ok key)

include hkey

theorem sign_eq_filled_of_legacy (hkind : t.kind = .legacy) (hbare : t.isBare = true)
    (secondKey : Option Bytes) :
    t.sign scheme bytes secondKey =
      t.kind.build (t.filled (scheme.sign t.digestToSign key) none) t.options := by
  have hdigest : Keccak.hash (t.legacyMessage t.replay) = t.digestToSign := by
    rw [digestToSign_eq, signingHash, signingMessage_of_legacy hkind]
  -- The mode picked from the registry is the mode of the digest, and `v` is written in it.
  rw [sign_of_legacy hkind, ← replay_of_isBare hbare,
    signLegacy_eq_withSignatures (isActive_of_replay hbare) hkey hdigest,
    ← externalV_of_legacy hkind]
  rfl

theorem sign_eq_filled_of_single (htyped : t.kind.isTyped = true) (hkind : t.kind ≠ .priority)
    (secondKey : Option Bytes) :
    t.sign scheme bytes secondKey =
      t.kind.build (t.filled (scheme.sign t.digestToSign key) none) t.options := by
  rw [sign_of_single htyped hkind, signTyped_eq_withSignatures hkey t.digestToSign_eq.symm,
    RecoverableSignature.parts_eq_withV, ← externalV_of_isTyped htyped]
  rfl

theorem sign_eq_filled_of_priority (hkind : t.kind = .priority)
    (hsecond : SecretKey.ofBytes secondBytes = .ok other) :
    t.sign scheme bytes (some secondBytes) =
      t.kind.build (t.filled (scheme.sign t.digestToSign key)
        (some (scheme.sign t.digestToSign other))) t.options := by
  have htyped : t.kind.isTyped = true := Kind.isTyped_of_priority hkind
  rw [sign_of_priority hkind, signBoth_eq_withSignatures hkey hsecond t.digestToSign_eq.symm,
    RecoverableSignature.parts_eq_withV, ← externalV_of_isTyped htyped]
  rfl

end Filled

section Success

variable (hnormal : ∀ digest key, (scheme.sign digest key).IsNormal) (ht : t.Valid)
variable (hkey : SecretKey.ofBytes bytes = .ok key)

include hnormal ht hkey

theorem exists_sign_eq_filled_of_ne_priority (hkind : t.kind ≠ .priority)
    (hbare : t.isBare = true) (secondKey : Option Bytes) :
    ∃ u, t.sign scheme bytes secondKey = .ok u ∧
      t.kind.build (t.filled (scheme.sign t.digestToSign key) none) t.options = .ok u := by
  obtain hlegacy | htyped := t.kind.eq_legacy_or_isTyped
  · rw [← sign_eq_filled_of_legacy hkey hlegacy hbare secondKey, sign_of_legacy hlegacy,
      signLegacy_eq_ok (hnormal _ key) ht hlegacy Registry.isActive_of_mode hkey rfl]
    exact ⟨_, rfl, rfl⟩
  · rw [← sign_eq_filled_of_single hkey htyped hkind secondKey, sign_of_single htyped hkind,
      signTyped_eq_ok (hnormal _ key) ht htyped hkind hkey rfl]
    exact ⟨_, rfl, rfl⟩

theorem exists_sign_eq_filled_of_priority (hkind : t.kind = .priority)
    (hsecond : SecretKey.ofBytes secondBytes = .ok other) :
    ∃ u, t.sign scheme bytes (some secondBytes) = .ok u ∧
      t.kind.build (t.filled (scheme.sign t.digestToSign key)
        (some (scheme.sign t.digestToSign other))) t.options = .ok u := by
  rw [← sign_eq_filled_of_priority hkey hkind hsecond, sign_of_priority hkind,
    signBoth_eq_ok (hnormal _) ht hkind hkey hsecond rfl]
  exact ⟨_, rfl, rfl⟩

end Success

end Transaction

/-- A reachable transaction without any component of a signature is signed outside as it
is signed by itself. A key, or two keys for a priority transaction, sign the digest that
a device is given; what building the filled in fields gives, as the transaction's own
kind or as the kind that they name, under its registry and flags, is the very
transaction that signing with the keys gives. -/
theorem Reachable.exists_sign_eq_filled {scheme : Scheme} {t : Transaction}
    (h : Reachable scheme t) (hbare : t.isBare = true)
    (hnormal : ∀ digest key, (scheme.sign digest key).IsNormal) {bytes : Bytes}
    {key : SecretKey} (hkey : SecretKey.ofBytes bytes = .ok key) :
    ∃ first, scheme.signWithBytes t.digestToSign bytes = .ok first ∧
      ∀ build ∈ [t.kind.build, Gate.permissive.build],
        match t.kind with
        | .legacy | .accessList | .feeMarket =>
            ∀ secondKey, ∃ u, t.sign scheme bytes secondKey = .ok u ∧
              build (t.filled first none) t.options = .ok u
        | .priority =>
            ∀ secondBytes second, SecretKey.ofBytes secondBytes = .ok second →
              ∃ other u, scheme.signWithBytes t.digestToSign secondBytes = .ok other ∧
                t.sign scheme bytes (some secondBytes) = .ok u ∧
                build (t.filled first (some other)) t.options = .ok u := by
  have ht : t.Valid := h.valid
  refine ⟨_, Scheme.signWithBytes_eq_ok t.digestToSign hkey, ?_⟩
  intro build hbuild
  have hkind : ∀ first second,
      build (t.filled first second) t.options = t.kind.build (t.filled first second) t.options :=
    fun first second => Gate.build_eq_of_mem (t.kind_filled first second) hbuild
  have hsingle : t.kind ≠ .priority → ∀ secondKey, ∃ u, t.sign scheme bytes secondKey = .ok u ∧
      build (t.filled (scheme.sign t.digestToSign key) none) t.options = .ok u := by
    intro hkind' secondKey
    rw [hkind]
    exact Transaction.exists_sign_eq_filled_of_ne_priority hnormal ht hkey hkind' hbare secondKey
  cases hpriority : t.kind with
  | legacy | accessList | feeMarket =>
      apply hsingle
      rw [hpriority]
      exact nofun
  | priority =>
      intro secondBytes second hsecond
      obtain ⟨u, hsign, hfilled⟩ :=
        Transaction.exists_sign_eq_filled_of_priority hnormal ht hkey hpriority hsecond
      have hother : scheme.signWithBytes t.digestToSign secondBytes = .ok _ :=
        Scheme.signWithBytes_eq_ok t.digestToSign hsecond
      exact ⟨_, u, hother, hsign, (hkind _ _).trans hfilled⟩

/-- A legacy transaction that takes its chain id into `v`, and a priority transaction. They are
signed as by the network's scheme. -/
theorem Reachable.exists_sign_eq_filled_of_checked :
    let network := Secp256k1.scheme
    let scheme := network.checked
    let bytes : Bytes := List.replicate 32 1
    let secondBytes : Bytes := List.replicate 32 2
    let legacy := Kind.legacy.assemble .standard {} {}
    let priority := Kind.priority.assemble .standard {} { gasLimit := some 21000 }
    (legacy.isBare = true ∧ legacy.chainId? = some 1 ∧
      ∃ first u, scheme.signWithBytes legacy.digestToSign bytes = .ok first ∧
        legacy.sign scheme bytes none = .ok u ∧ legacy.sign network bytes none = .ok u ∧
        Gate.permissive.build (legacy.filled first none) legacy.options = .ok u) ∧
    priority.isBare = true ∧
      ∃ first other u, scheme.signWithBytes priority.digestToSign bytes = .ok first ∧
        scheme.signWithBytes priority.digestToSign secondBytes = .ok other ∧
        priority.sign scheme bytes (some secondBytes) = .ok u ∧
        priority.sign network bytes (some secondBytes) = .ok u ∧
        Gate.permissive.build (priority.filled first (some other)) priority.options = .ok u := by
  intro network scheme bytes secondBytes legacy priority
  let key : SecretKey := ⟨bytes.toNat, by decide +kernel, by decide +kernel⟩
  let second : SecretKey := ⟨secondBytes.toNat, by decide +kernel, by decide +kernel⟩
  have hnormal : ∀ digest key, (scheme.sign digest key).IsNormal :=
    (Scheme.lawful_checked Secp256k1.scheme).isNormal_sign
  have hkey : SecretKey.ofBytes bytes = .ok key :=
    SecretKey.ofBytes_eq_ok rfl ⟨key.pos, key.lt_order⟩
  have hsecond : SecretKey.ofBytes secondBytes = .ok second :=
    SecretKey.ofBytes_eq_ok rfl ⟨second.pos, second.lt_order⟩
  have hlegacy : Reachable scheme legacy :=
    .build (show (Source.draftAs .legacy {}).build {} = _ from rfl)
  have hpriority : Reachable scheme priority :=
    .build (show (Source.draftAs .priority { gasLimit := some 21000 }).build {} = _ from rfl)
  refine ⟨⟨rfl, rfl, ?_⟩, rfl, ?_⟩
  · have hregular : network.IsRegularFor legacy.digestOfSign bytes :=
      Secp256k1.isRegularFor_legacy 1 (by decide)
    obtain ⟨first, hfirst, hbuild⟩ :=
      Reachable.exists_sign_eq_filled hlegacy rfl hnormal hkey
    obtain ⟨u, hsign, hfilled⟩ := hbuild Gate.permissive.build (by simp) none
    have hagree : legacy.sign scheme bytes none = legacy.sign network bytes none :=
      Transaction.sign_checked hregular (by rintro other ⟨⟩)
    exact ⟨first, u, hfirst, hsign, hagree.symm.trans hsign, hfilled⟩
  · have hregular : network.IsRegularFor priority.digestOfSign bytes :=
      Secp256k1.isRegularFor_priority 1 (by decide)
    have hregular' : ∀ other, some secondBytes = some other →
        network.IsRegularFor priority.digestOfSign other := by
      rintro other ⟨⟩
      exact Secp256k1.isRegularFor_priority 2 (by decide)
    obtain ⟨first, hfirst, hbuild⟩ :=
      Reachable.exists_sign_eq_filled hpriority rfl hnormal hkey
    obtain ⟨other, u, hother, hsign, hfilled⟩ :=
      hbuild Gate.permissive.build (by simp) secondBytes second hsecond
    have hagree := Transaction.sign_checked hregular hregular'
    exact ⟨first, other, u, hfirst, hother, hsign, hagree.symm.trans hsign, hfilled⟩

end TypedTx
