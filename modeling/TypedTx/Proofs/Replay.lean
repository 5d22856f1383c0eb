import TypedTx.Proofs.Transaction.Rules

/-!
# The `v` of a legacy signature

The `v` of a legacy signature is a number that stands for a parity and, if the signature
commits to one, a chain id. Reading gives the pair that the number stands for, and
refuses what stands for none.

The `v` that is written for a parity and a mode never wraps around, is read back to
both, and is admitted by the registry that it was written for, as long as signatures
may be replay-protected there at all.
-/

namespace TypedTx.Replay

theorem toNat_le_one {parity : Word} (hparity : parity ≤ 1) : parity.toNat ≤ 1 :=
  BitVec.le_def.mp hparity

section Reading

variable {v parity parity' : Word} {id id' : Option Word}

/-- The number that stands for a parity and, if it is told, a chain id. -/
def code (parity : Word) : Option Word → Nat
  | none => 27 + parity.toNat
  | some id => 35 + 2 * id.toNat + parity.toNat

/-- The numbers that stand for nothing. -/
def IsUncoded (v : Word) : Prop :=
  v.toNat < 27 ∨ 29 ≤ v.toNat ∧ v.toNat ≤ 34

theorem code_inj (hparity : parity ≤ 1) (hparity' : parity' ≤ 1)
    (h : code parity id = code parity' id') : parity = parity' ∧ id = id' := by
  have hle := toNat_le_one hparity
  have hle' := toNat_le_one hparity'
  cases id with
  | none =>
      cases id' with
      | none => exact ⟨BitVec.eq_of_toNat_eq (Nat.add_left_cancel h), rfl⟩
      | some id' =>
          simp only [code] at h
          omega
  | some id =>
      cases id' with
      | none =>
          simp only [code] at h
          omega
      | some id' =>
          simp only [code] at h
          have hid : id = id' := BitVec.eq_of_toNat_eq (by omega)
          exact ⟨BitVec.eq_of_toNat_eq (by omega), congrArg some hid⟩

theorem not_isUncoded_of_code (hparity : parity ≤ 1) (h : v.toNat = code parity id) :
    ¬ IsUncoded v := by
  have hle := toNat_le_one hparity
  rw [IsUncoded]
  cases id with
  | none =>
      simp only [code] at h
      omega
  | some id =>
      simp only [code] at h
      omega

/-- Every word stands for what is read from it, or is refused. -/
theorem decode_cases (v : Word) :
    (∃ parity id, parity ≤ 1 ∧ v.toNat = code parity id ∧ decode v = .ok (parity, id)) ∨
      IsUncoded v ∧ decode v = .error (.invalidSignatureParity "v" v) := by
  by_cases hbare : v = 27 ∨ v = 28
  · refine .inl ⟨v - 27, none, ?_, ?_, decode_of_bare hbare⟩
    · rcases hbare with rfl | rfl <;> decide
    · rcases hbare with rfl | rfl <;> rfl
  · by_cases hlarge : 35 ≤ v
    · have hle : 35 ≤ v.toNat := BitVec.le_def.mp hlarge
      have hlast := toNat_parity_of_committed hlarge
      have hchain := toNat_chainId_of_committed hlarge
      refine .inl ⟨(v - 35) % 2, some ((v - 35) / 2), ?_, ?_, decode_of_committed hlarge⟩
      · apply BitVec.le_def.mpr
        rw [hlast]
        exact Nat.le_of_lt_succ (Nat.mod_lt _ (by decide))
      · rw [code, hchain, hlast]
        omega
    · refine .inr ⟨?_, decode_of_neither hbare hlarge⟩
      have hlt : v.toNat < 35 := Nat.not_le.mp hlarge
      rw [← BitVec.toNat_inj, ← BitVec.toNat_inj] at hbare
      change ¬ (v.toNat = 27 ∨ v.toNat = 28) at hbare
      rw [IsUncoded]
      omega

theorem decode_eq_ok_iff :
    decode v = .ok (parity, id) ↔ parity ≤ 1 ∧ v.toNat = code parity id := by
  obtain ⟨told, chain, hle, hv, hdecode⟩ | ⟨huncoded, hdecode⟩ := decode_cases v
  · rw [hdecode, Except.ok.injEq, Prod.mk.injEq]
    constructor
    · rintro ⟨rfl, rfl⟩
      exact ⟨hle, hv⟩
    · rintro ⟨hparity, hcode⟩
      exact code_inj hle hparity (hv.symm.trans hcode)
  · rw [hdecode]
    refine ⟨nofun, ?_⟩
    rintro ⟨hparity, hcode⟩
    exact absurd huncoded (not_isUncoded_of_code hparity hcode)

example : decode 38 = .ok (1, some 1) := by decide

theorem decode_eq_error_iff {fault : Fault} :
    decode v = .error fault ↔ IsUncoded v ∧ fault = .invalidSignatureParity "v" v := by
  obtain ⟨told, chain, hle, hv, hdecode⟩ | ⟨huncoded, hdecode⟩ := decode_cases v
  · rw [hdecode]
    refine ⟨nofun, ?_⟩
    rintro ⟨huncoded, -⟩
    exact absurd huncoded (not_isUncoded_of_code hle hv)
  · rw [hdecode, Except.error.injEq, and_iff_right huncoded]
    exact eq_comm

/-- A number that fits in a word is the only `v` that its pair is read from. -/
theorem existsUnique_decode (hparity : parity ≤ 1) (hfits : code parity id < 2 ^ 256) :
    ∃! v, decode v = .ok (parity, id) := by
  have hcode : (Word.ofNat (code parity id)).toNat = code parity id :=
    Word.toNat_ofNat_of_lt hfits
  refine ⟨Word.ofNat (code parity id), decode_eq_ok_iff.mpr ⟨hparity, hcode⟩, ?_⟩
  intro v hdecode
  apply BitVec.eq_of_toNat_eq
  rw [hcode]
  exact (decode_eq_ok_iff.mp hdecode).2

end Reading

section Writing

variable {mode : Replay} {id : UInt64} {parity : Word}

/-- The chain id that a signature in a mode tells. -/
def committed (mode : Replay) (id : UInt64) : Option Word :=
  match mode with
  | .eip155 => some (Word.ofUInt64 id)
  | .unprotected => none

/-- Nothing wraps around for a parity of one byte, whether or not it is a bit. -/
theorem toNat_encode_eip155 (id : UInt64) (hparity : parity.toNat < 256) :
    (encode .eip155 id parity).toNat = 35 + 2 * id.toNat + parity.toNat := by
  have hid := id.toNat_lt
  have hoffset : (35 : Word).toNat = 35 := rfl
  have htwo : (2 : Word).toNat = 2 := rfl
  have hchain : (Word.ofUInt64 id).toNat = id.toNat := Word.toNat_ofUInt64 id
  simp only [encode, BitVec.toNat_add, BitVec.toNat_mul, hoffset, htwo, hchain]
  omega

theorem toNat_encode_unprotected (id : UInt64) (hparity : parity.toNat < 256) :
    (encode .unprotected id parity).toNat = 27 + parity.toNat := by
  have hoffset : (27 : Word).toNat = 27 := rfl
  simp only [encode, BitVec.toNat_add, hoffset]
  omega

/-- What is written is the number of the parity and of the chain id, if it is told. -/
theorem toNat_encode (mode : Replay) (id : UInt64) (hparity : parity.toNat < 256) :
    (mode.encode id parity).toNat = code parity (mode.committed id) := by
  cases mode with
  | unprotected => exact toNat_encode_unprotected id hparity
  | eip155 => rw [toNat_encode_eip155 id hparity, committed, code, Word.toNat_ofUInt64]

theorem le_encode_eip155 (id : UInt64) (hparity : parity.toNat < 256) :
    35 ≤ encode .eip155 id parity := by
  have hv := toNat_encode_eip155 id hparity
  apply BitVec.le_def.mpr
  change 35 ≤ _
  omega

theorem toNat_lt_of_le_one (hparity : parity ≤ 1) : parity.toNat < 256 :=
  Nat.lt_of_le_of_lt (toNat_le_one hparity) (by decide)

theorem encode_unprotected_eq (id : UInt64) (hparity : parity ≤ 1) :
    encode .unprotected id parity = 27 ∨ encode .unprotected id parity = 28 := by
  have hle := toNat_le_one hparity
  have hv := toNat_encode_unprotected id (toNat_lt_of_le_one hparity)
  obtain hzero | hone : parity.toNat = 0 ∨ parity.toNat = 1 := by omega
  · left
    apply BitVec.eq_of_toNat_eq
    rw [hv, hzero]
    rfl
  · right
    apply BitVec.eq_of_toNat_eq
    rw [hv, hone]
    rfl

/-- What was written is read back. -/
theorem decode_encode (mode : Replay) (id : UInt64) (hparity : parity ≤ 1) :
    decode (mode.encode id parity) = .ok (parity, mode.committed id) :=
  decode_eq_ok_iff.mpr ⟨hparity, toNat_encode mode id (toNat_lt_of_le_one hparity)⟩

theorem ofV_encode (mode : Replay) (id : UInt64) (hparity : parity ≤ 1) :
    ofV (mode.encode id parity) = mode := by
  cases mode with
  | eip155 => exact if_pos (le_encode_eip155 id (toNat_lt_of_le_one hparity))
  | unprotected =>
      have hsmall : ¬ 35 ≤ encode .unprotected id parity := by
        rcases encode_unprotected_eq id hparity with h | h
        · rw [h]
          decide
        · rw [h]
          decide
      exact if_neg hsmall

/-- The registry that a `v` was written for admits it. -/
theorem admitsV_encode {registry : Registry} (hparity : parity ≤ 1)
    (hmode : mode = .eip155 → registry.isActive 155 = true) :
    registry.AdmitsV (mode.encode registry.chainId parity) := by
  cases mode with
  | eip155 =>
      have hv := toNat_encode_eip155 registry.chainId (toNat_lt_of_le_one hparity)
      exact .inr (.inr ⟨hmode rfl, parity.toNat, toNat_le_one hparity, hv⟩)
  | unprotected =>
      obtain h27 | h28 := encode_unprotected_eq registry.chainId hparity
      · exact .inl h27
      · exact .inr (.inl h28)

end Writing

end TypedTx.Replay
