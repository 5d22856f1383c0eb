import TypedTx.Proofs.BigEndian
import TypedTx.Proofs.Success
import TypedTx.Transaction.Rules

/-!
# What the rules demand

Each construction rule succeeds exactly when its condition holds. The conditions
are about numbers and lengths and do not mention the order in which rules are
checked or the faults that they report.
-/

namespace TypedTx

variable {registry : Registry}

theorem requireSome_iff {α : Type} {require : α → Except Fault Unit} {x : Option α} :
    requireSome require x = .ok () ↔ ∀ a ∈ x, require a = .ok () := by
  cases x <;> simp [requireSome]

theorem requireEips_iff {eips : List Nat} :
    requireEips registry eips = .ok () ↔ ∀ eip ∈ eips, registry.isActive eip = true := by
  have hnone : eips.find? (fun eip => !registry.isActive eip) = none ↔ _ := List.find?_eq_none
  simp only [Bool.not_eq_true', Bool.not_eq_false] at hnone
  rw [requireEips, ← hnone]
  cases eips.find? fun eip => !registry.isActive eip <;> simp

theorem requireChainId_some_iff {found : Word} :
    requireChainId registry (some found) = .ok () ↔ found = Word.ofUInt64 registry.chainId := by
  rw [requireChainId, Success.admit_iff, and_iff_left rfl]

theorem requireChainId_iff {id : Option Word} :
    requireChainId registry id = .ok () ↔ ∀ found ∈ id, found = Word.ofUInt64 registry.chainId := by
  cases id with
  | none => simp [requireChainId]
  | some found =>
      rw [requireChainId_some_iff]
      simp

theorem requireParity_iff {field : String} {v : Word} :
    requireParity field v = .ok () ↔ v ≤ 1 := by
  rw [requireParity, Success.refuse_iff, BitVec.not_lt]
  simp

theorem requireLowS_iff {field : String} {s : Word} :
    requireLowS registry field s = .ok () ↔
      (registry.isActive 2 = true → s ≤ Secp256k1.halfOrder) := by
  rw [requireLowS, Success.refuse_iff, Bool.and_eq_true, decide_eq_true_iff, not_and, BitVec.not_lt]
  simp

theorem requireFeeBound_iff {gasLimit fee : Word} {name : String} :
    requireFeeBound gasLimit fee name = .ok () ↔ gasLimit.toNat * fee.toNat < 2 ^ 256 := by
  have hoverflow : gasLimit.umulOverflow fee = true ↔ 2 ^ 256 ≤ gasLimit.toNat * fee.toNat :=
    decide_eq_true_iff
  rw [← Nat.not_le, ← hoverflow, requireFeeBound, Word.mul?]
  cases gasLimit.umulOverflow fee with
  | false => simp
  | true => simp

theorem requireFeeOrder_iff {maxFee maxPriorityFee : Word} :
    requireFeeOrder maxFee maxPriorityFee = .ok () ↔ maxPriorityFee ≤ maxFee := by
  rw [requireFeeOrder, Success.refuse_iff, BitVec.not_lt]
  simp

theorem requireBothSets_iff {first second : SignatureParts} :
    requireBothSets first second = .ok () ↔ first.isAbsent = second.isAbsent := by
  rw [requireBothSets]
  cases first.isAbsent <;> cases second.isAbsent <;> simp

theorem requireInitCode_iff {o : Options} {d : Draft} :
    requireInitCode registry o d = .ok () ↔
      (d.recipient = none → o.unlimitedInitCode = false → registry.isActive 3860 = true →
        (d.data.getD []).length ≤ 49152) := by
  rw [requireInitCode, Registry.gas]
  cases d.recipient with
  | some address => simp
  | none =>
      cases o.unlimitedInitCode with
      | true => simp
      | false =>
          cases registry.isActive 3860 with
          | false => simp
          | true => simp

/-- A `v` that a legacy signature may have: 27 and 28 always, and one that commits to
the chain id of the registry once signatures may do so. -/
def Registry.AdmitsV (registry : Registry) (v : Word) : Prop :=
  v = 27 ∨ v = 28 ∨
    registry.isActive 155 = true ∧
      ∃ parity ≤ 1, v.toNat = 35 + 2 * registry.chainId.toNat + parity

namespace Replay

theorem decode_of_bare {v : Word} (h : v = 27 ∨ v = 28) : decode v = .ok (v - 27, none) := by
  rw [decode, if_pos h]

theorem decode_of_committed {v : Word} (h : 35 ≤ v) :
    decode v = .ok ((v - 35) % 2, some ((v - 35) / 2)) := by
  have hbare : ¬ (v = 27 ∨ v = 28) := by
    rintro (rfl | rfl) <;> exact absurd h (by decide)
  rw [decode, if_neg hbare, if_pos h]

theorem decode_of_neither {v : Word} (hbare : ¬ (v = 27 ∨ v = 28)) (hlarge : ¬ 35 ≤ v) :
    decode v = .error (.invalidSignatureParity "v" v) := by
  rw [decode, if_neg hbare, if_neg hlarge]

section Committed

variable {v : Word} (h : 35 ≤ v)

include h

theorem toNat_sub_35 : (v - 35).toNat = v.toNat - 35 :=
  BitVec.toNat_sub_of_le h

theorem toNat_parity_of_committed : ((v - 35) % 2).toNat = (v.toNat - 35) % 2 := by
  rw [BitVec.toNat_umod, toNat_sub_35 h]
  rfl

theorem toNat_chainId_of_committed : ((v - 35) / 2).toNat = (v.toNat - 35) / 2 := by
  rw [BitVec.toNat_udiv, toNat_sub_35 h]
  rfl

end Committed

/-- The chain id that is told by a `v` from 35 on. -/
theorem committed_eq_iff {v : Word} (h : 35 ≤ v) (id : UInt64) :
    (v - 35) / 2 = Word.ofUInt64 id ↔ ∃ parity ≤ 1, v.toNat = 35 + 2 * id.toNat + parity := by
  have hle : 35 ≤ v.toNat := BitVec.le_def.mp h
  rw [← BitVec.toNat_inj, toNat_chainId_of_committed h, Word.toNat_ofUInt64]
  constructor
  · intro heq
    exact ⟨(v.toNat - 35) % 2, by omega, by omega⟩
  · rintro ⟨parity, hparity, heq⟩
    omega

end Replay

/-- Below 35, only 27 and 28 are admitted. -/
theorem Registry.AdmitsV.eq_of_not_le {v : Word} (h : registry.AdmitsV v) (hsmall : ¬ 35 ≤ v) :
    v = 27 ∨ v = 28 := by
  obtain h27 | h28 | ⟨-, parity, -, hv⟩ := h
  · exact .inl h27
  · exact .inr h28
  · refine absurd (BitVec.le_def.mpr ?_) hsmall
    change 35 ≤ v.toNat
    omega

/-- Whatever is admitted is the number of a parity, with or without the chain id. -/
theorem Registry.AdmitsV.exists_toNat_eq {v : Word} (h : registry.AdmitsV v) :
    ∃ parity ≤ 1, v.toNat = 27 + parity ∨ v.toNat = 35 + 2 * registry.chainId.toNat + parity := by
  obtain rfl | rfl | ⟨-, parity, hparity, hv⟩ := h
  · exact ⟨0, by decide, .inl rfl⟩
  · exact ⟨1, by decide, .inl rfl⟩
  · exact ⟨parity, hparity, .inr hv⟩

/-- A `v` that is admitted tells the chain id of the registry, or none. -/
theorem Registry.AdmitsV.chainId?_eq {v : Word} (h : registry.AdmitsV v) :
    Replay.chainId? (some v) =
      if 35 ≤ v then some (Word.ofUInt64 registry.chainId) else none := by
  rw [Replay.chainId?, Option.map_some]
  by_cases hlarge : 35 ≤ v
  · have htold : (v - 35) / 2 = Word.ofUInt64 registry.chainId := by
      rw [Replay.committed_eq_iff hlarge]
      -- 27 and 28 are not among the large ones.
      obtain rfl | rfl | ⟨-, hchain⟩ := h
      · exact absurd hlarge (by decide)
      · exact absurd hlarge (by decide)
      · exact hchain
    rw [if_pos hlarge, Replay.decode_of_committed hlarge, htold]
  · rw [if_neg hlarge, Replay.decode_of_bare (h.eq_of_not_le hlarge)]

theorem requireLegacyV_iff {v : Word} :
    requireLegacyV registry v = .ok () ↔ registry.AdmitsV v := by
  by_cases hbare : v = 27 ∨ v = 28
  · have hparity : requireParity "v" (v - 27) = .ok () :=
      requireParity_iff.mpr (by rcases hbare with rfl | rfl <;> decide)
    rw [requireLegacyV, Replay.decode_of_bare hbare]
    constructor
    · intro _
      exact hbare.imp_right .inl
    · intro _
      exact hparity
  · by_cases hlarge : 35 ≤ v
    · have hparity : requireParity "v" ((v - 35) % 2) = .ok () := by
        rw [requireParity_iff, BitVec.le_def, Replay.toNat_parity_of_committed hlarge]
        exact Nat.le_of_lt_succ (Nat.mod_lt _ (by decide))
      have hchain : requireLegacyV registry v = .ok () ↔
          requireEips registry [155] = .ok () ∧
            requireChainId registry (some ((v - 35) / 2)) = .ok () := by
        rw [requireLegacyV, Replay.decode_of_committed hlarge]
        change (requireEips registry [155] >>= fun _ => _) = _ ↔ _
        rw [Success.seq_iff, Success.seq_iff, hparity, and_iff_left rfl]
      obtain ⟨h27, h28⟩ := not_or.mp hbare
      rw [hchain, requireEips_iff, requireChainId_some_iff, List.forall_mem_singleton,
        Registry.AdmitsV, or_iff_right h27, or_iff_right h28, ← Replay.committed_eq_iff hlarge]
    · -- Between the two ranges nothing can be read.
      rw [requireLegacyV, Replay.decode_of_neither hbare hlarge]
      refine ⟨nofun, ?_⟩
      rintro (h | h | ⟨-, parity, -, h⟩)
      · exact absurd (.inl h) hbare
      · exact absurd (.inr h) hbare
      · have hle : 35 ≤ v.toNat := by omega
        exact absurd hle hlarge

end TypedTx
