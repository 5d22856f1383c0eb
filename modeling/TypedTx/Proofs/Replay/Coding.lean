import TypedTx.Proofs.Transaction.Signing

/-!
# What `v` tells

Neither reading nor writing the `v` of a legacy signature wraps around. Whatever signing
writes into a transaction is told back by each reader of `v`: by the decoder, by the rule
that checks it against the registry, and by the mode, the chain id and the parity of the
transaction.
-/

namespace TypedTx.Replay

variable {parity : Word}

/-- Neither difference that reading takes is below zero. -/
structure ReadsWithoutWrap (v : Word) : Prop where
  bare : v = 27 ∨ v = 28 → v.usubOverflow 27 = false
  committed : 35 ≤ v → v.usubOverflow 35 = false

theorem usubOverflow_eq_false {a b : Word} (h : b ≤ a) : a.usubOverflow b = false :=
  decide_eq_false (Nat.not_lt.mpr (BitVec.le_def.mp h))

theorem readsWithoutWrap (v : Word) : ReadsWithoutWrap v where
  bare := by
    intro hbare
    apply usubOverflow_eq_false
    rcases hbare with rfl | rfl <;> decide
  committed := usubOverflow_eq_false

/-- No sum and no product that writing takes exceeds a word. -/
def WritesWithoutWrap (mode : Replay) (id : UInt64) (parity : Word) : Prop :=
  match mode with
  | .eip155 =>
      parity.uaddOverflow 35 = false ∧ (Word.ofUInt64 id).umulOverflow 2 = false ∧
        (parity + 35).uaddOverflow (Word.ofUInt64 id * 2) = false
  | .unprotected => parity.uaddOverflow 27 = false

theorem uaddOverflow_eq_false {a b : Word} (h : a.toNat + b.toNat < 2 ^ 256) :
    a.uaddOverflow b = false :=
  decide_eq_false (Nat.not_le.mpr h)

theorem umulOverflow_eq_false {a b : Word} (h : a.toNat * b.toNat < 2 ^ 256) :
    a.umulOverflow b = false :=
  decide_eq_false (Nat.not_le.mpr h)

theorem writesWithoutWrap (mode : Replay) (id : UInt64) (hparity : parity.toNat < 256) :
    WritesWithoutWrap mode id parity := by
  have hid := id.toNat_lt
  have hchain : (Word.ofUInt64 id).toNat = id.toNat := Word.toNat_ofUInt64 id
  have htwo : (2 : Word).toNat = 2 := rfl
  have hoffset : (35 : Word).toNat = 35 := rfl
  cases mode with
  | unprotected =>
      apply uaddOverflow_eq_false
      change parity.toNat + 27 < 2 ^ 256
      omega
  | eip155 =>
      have hsum : (parity + 35).toNat = parity.toNat + 35 := by
        rw [BitVec.toNat_add, hoffset]
        omega
      have hproduct : (Word.ofUInt64 id * 2).toNat = id.toNat * 2 := by
        rw [BitVec.toNat_mul, hchain, htwo]
        omega
      refine ⟨uaddOverflow_eq_false ?_, umulOverflow_eq_false ?_, uaddOverflow_eq_false ?_⟩
      · rw [hoffset]
        omega
      · rw [hchain, htwo]
        omega
      · rw [hsum, hproduct]
        omega

/-- Signatures are recovered with a parity below 4. What is written for the upper two is
not admitted by the registry that it was written for. -/
theorem le_one_of_admitsV_encode {mode : Replay} {registry : Registry} (hparity : parity.toNat < 4)
    (h : registry.AdmitsV (mode.encode registry.chainId parity)) : parity ≤ 1 := by
  have hbyte : parity.toNat < 256 := Nat.lt_trans hparity (by decide)
  obtain ⟨told, htold, hcode⟩ := h.exists_toNat_eq
  apply BitVec.le_def.mpr
  change parity.toNat ≤ 1
  cases mode with
  | eip155 =>
      rw [toNat_encode_eip155 registry.chainId hbyte] at hcode
      omega
  | unprotected =>
      rw [toNat_encode_unprotected registry.chainId hbyte] at hcode
      omega

end Replay

namespace Transaction

variable {scheme : Scheme} {t u : Transaction} {mode : Replay} {bytes : Bytes}

/-- In `u`, `v` is what signing `t` in the mode writes for the parity, and every reader
of it tells the mode, the chain id and the parity again. -/
structure TellsBack (t : Transaction) (mode : Replay) (parity : UInt8) (u : Transaction) :
    Prop where
  registry : u.registry = t.registry
  v : u.signature.v = some (mode.encode t.registry.chainId (Word.ofNat parity.toNat))
  decoded : ∀ v ∈ u.signature.v,
    Replay.decode v = .ok (Word.ofNat parity.toNat, mode.committed t.registry.chainId)
  admitted : ∀ v ∈ u.signature.v, requireLegacyV t.registry v = .ok ()
  replay : u.replay = mode
  chainId? : u.chainId? = if mode = .eip155 then some t.registry.chainId else none
  parity? : u.parity? = some parity

/-- The mode of a signature that was made is one that the registry permits. -/
theorem isActive_of_signLegacy (h : t.signLegacy scheme bytes mode = .ok u) :
    mode = .eip155 → t.registry.isActive 155 = true := by
  rintro rfl
  have hpermitted := (Success.refuse_iff.mp h).1
  simpa using hpermitted

theorem tellsBack_resigned {signature : RecoverableSignature} (hkind : t.kind = .legacy)
    (hword : signature.word ≤ 1) (hmode : mode = .eip155 → t.registry.isActive 155 = true)
    (second : SignatureParts) :
    t.TellsBack mode signature.parity
      (t.resigned (signature.withV (mode.encode t.registry.chainId signature.word)) second) where
  registry := rfl
  v := rfl
  decoded := by
    intro v hv
    rw [← Option.some.inj hv]
    exact Replay.decode_encode mode t.registry.chainId hword
  admitted := by
    intro v hv
    rw [← Option.some.inj hv]
    exact requireLegacyV_iff.mpr (Replay.admitsV_encode hword hmode)
  replay := replay_resigned_encode hword mode _ second
  chainId? := by
    rw [chainId?_of_legacy (kind_resigned.trans hkind), replay_resigned_encode hword mode _ second]
    rfl
  parity? := parity?_resigned_encode hkind hword mode _ second

/-- If signing succeeds, what it wrote is told back. The signature need not be normal:
building refuses what would be misread. -/
theorem tellsBack_of_signLegacy (ht : t.Valid) (hkind : t.kind = .legacy) {key : SecretKey}
    (hkey : SecretKey.ofBytes bytes = .ok key) (hu : t.signLegacy scheme bytes mode = .ok u)
    (hparity : (scheme.sign (Keccak.hash (t.legacyMessage mode)) key).parity < 4) :
    t.TellsBack mode (scheme.sign (Keccak.hash (t.legacyMessage mode)) key).parity u := by
  have hmode := isActive_of_signLegacy hu
  have hbuilt : u.Valid := (built_of_signLegacy hu).valid
  rw [signLegacy_eq_withSignatures hmode hkey rfl] at hu
  obtain rfl := eq_resigned_of_withSignatures ht hu
  have hadmits := hbuilt.parity _ rfl
  rw [kind_resigned, hkind] at hadmits
  apply tellsBack_resigned hkind _ hmode
  apply Replay.le_one_of_admitsV_encode _ hadmits
  rw [RecoverableSignature.toNat_word]
  exact UInt8.lt_iff_toNat_lt.mp hparity

end Transaction

/-- A parity and an optional chain id are read from `v` exactly if `v` is the number that
stands for them, `v` is refused exactly if it is below 27 or from 29 to 34, and nothing
wraps around. If the number fits in a word, they are read from this word only.

What is written for a parity and a 64-bit chain id is their number in either mode. It is
read back, and a registry of that chain id admits it if it permits the mode. So every key
signs a reachable legacy transaction in every mode that its registry permits, and each
reader tells what was written. If the signature is not known to be normal but its parity
is one that may be recovered with, signing may fail, and otherwise it is told back. -/
theorem Replay.decode_exact_and_tellsBack :
    (∀ v,
      (∀ parity id, decode v = .ok (parity, id) ↔ parity ≤ 1 ∧ v.toNat = code parity id) ∧
      (∀ fault, decode v = .error fault ↔
        (v.toNat < 27 ∨ 29 ≤ v.toNat ∧ v.toNat ≤ 34) ∧ fault = .invalidSignatureParity "v" v) ∧
      ReadsWithoutWrap v) ∧
    (∀ parity ≤ 1, ∀ id, code parity id < 2 ^ 256 → ∃! v, decode v = .ok (parity, id)) ∧
    (∀ (mode : Replay) (id : UInt64), ∀ parity ≤ 1,
      WritesWithoutWrap mode id parity ∧
      (mode.encode id parity).toNat = code parity (mode.committed id) ∧
      decode (mode.encode id parity) = .ok (parity, mode.committed id) ∧
      ∀ registry : Registry, registry.chainId = id →
        (mode = .eip155 → registry.isActive 155 = true) →
          requireLegacyV registry (mode.encode id parity) = .ok ()) ∧
    ∀ (scheme : Scheme) (t : Transaction), Reachable scheme t → t.kind = .legacy →
      ∀ (bytes : Bytes) (key : SecretKey), SecretKey.ofBytes bytes = .ok key → ∀ mode : Replay,
        let signature := scheme.sign (Keccak.hash (t.legacyMessage mode)) key
        (signature.IsNormal → (mode = .eip155 → t.registry.isActive 155 = true) →
          ∃ u, t.signLegacy scheme bytes mode = .ok u ∧ t.TellsBack mode signature.parity u) ∧
        (signature.parity < 4 → ∀ u, t.signLegacy scheme bytes mode = .ok u →
          t.TellsBack mode signature.parity u) := by
  refine ⟨?_, ?_, ?_, ?_⟩
  · intro v
    exact ⟨fun _ _ => decode_eq_ok_iff, fun _ => decode_eq_error_iff, readsWithoutWrap v⟩
  · intro parity hparity id hfits
    exact existsUnique_decode hparity hfits
  · intro mode id parity hparity
    have hbyte := toNat_lt_of_le_one hparity
    refine ⟨writesWithoutWrap mode id hbyte, toNat_encode mode id hbyte,
      decode_encode mode id hparity, ?_⟩
    rintro registry rfl hmode
    exact requireLegacyV_iff.mpr (admitsV_encode hparity hmode)
  · intro scheme t ht hkind bytes key hkey mode signature
    refine ⟨?_, ?_⟩
    · intro hnormal hmode
      have hsign := Transaction.signLegacy_eq_ok hnormal ht.valid hkind hmode hkey rfl
      exact ⟨_, hsign, Transaction.tellsBack_resigned hkind hnormal.word_le_one hmode _⟩
    · intro hparity u hu
      exact Transaction.tellsBack_of_signLegacy ht.valid hkind hkey hu hparity

/-- The largest chain id, which the transaction names itself. -/
theorem Replay.decode_exact_and_tellsBack_of_largest :
    let scheme := Secp256k1.scheme
    let bytes : Bytes := List.replicate 32 1
    let largest : UInt64 := 0xffffffffffffffff
    let t := Kind.legacy.assemble (.ofChainId largest) {} { chainId := some (Word.ofUInt64 largest) }
    (∃! v, decode v = .ok (1, some (Word.ofUInt64 largest))) ∧
    requireLegacyV t.registry (Replay.eip155.encode largest 1) = .ok () ∧
    ∃ key u, SecretKey.ofBytes bytes = .ok key ∧ t.signLegacy scheme bytes .eip155 = .ok u ∧
      t.TellsBack .eip155 (scheme.sign (Keccak.hash (t.legacyMessage .eip155)) key).parity u := by
  intro scheme bytes largest t
  have hregular : scheme.IsRegularFor (Keccak.hash (t.legacyMessage .eip155)) bytes :=
    Secp256k1.isRegularFor_largest
  obtain ⟨key, hkey, hregular⟩ := hregular
  have hnormal : (scheme.sign (Keccak.hash (t.legacyMessage .eip155)) key).IsNormal :=
    hregular.isNormal
  have ht : Reachable scheme t :=
    .build (show (Source.draftAs .legacy { chainId := some (Word.ofUInt64 largest) }).build {} = _
      from rfl)
  have hactive : t.registry.isActive 155 = true := by decide
  obtain ⟨-, hunique, hwrite, hsign⟩ := Replay.decode_exact_and_tellsBack
  have hsigned := hsign scheme t ht rfl bytes key hkey .eip155
  refine ⟨hunique 1 (by decide) _ (by decide), ?_, ?_⟩
  · exact (hwrite .eip155 largest 1 (by decide)).2.2.2 t.registry rfl fun _ => hactive
  · obtain ⟨u, hu, -⟩ := hsigned.1 hnormal fun _ => hactive
    have hlt := UInt8.lt_of_le_of_lt hnormal.parity_le_one (show (1 : UInt8) < 4 by decide)
    exact ⟨key, u, hkey, hu, hsigned.2 hlt u hu⟩

end TypedTx
