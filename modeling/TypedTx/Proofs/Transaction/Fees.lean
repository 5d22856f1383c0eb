import TypedTx.Proofs.Transaction.Reachable

/-!
# What the sender pays

The price of a unit of gas at a base fee is the gas price or, on a fee market, the base
fee and the highest tip as far as the fee cap goes. It is never above the fee cap, and a
valid transaction can pay its fee cap for all of its gas, so the product of gas and price
does not wrap. The tip is what the price leaves above the base fee: the two are computed
apart, one by stopping at the largest word and one by subtraction, and they add up.
-/

namespace TypedTx

namespace Word

theorem toNat_saturatingAdd (a b : Word) :
    (a.saturatingAdd b).toNat = min (2 ^ 256 - 1) (a.toNat + b.toNat) := by
  rw [saturatingAdd, BitVec.uaddOverflow]
  by_cases hwrap : 2 ^ 256 ≤ a.toNat + b.toNat
  · rw [if_pos (decide_eq_true hwrap), max, BitVec.toNat_allOnes]
    omega
  · rw [if_neg (by simpa using hwrap), BitVec.toNat_add]
    omega

theorem sub?_of_le {a b : Word} (h : b ≤ a) : a.sub? b = some (a - b) :=
  if_pos h

theorem sub?_of_lt {a b : Word} (h : a < b) : a.sub? b = none :=
  if_neg (BitVec.not_le.mpr h)

theorem toNat_ite_le (a b : Word) : (if a ≤ b then a else b).toNat = min a.toNat b.toNat := by
  split
  · rename_i hle
    exact (Nat.min_eq_left (BitVec.le_def.mp hle)).symm
  · rename_i hle
    exact (Nat.min_eq_right (Nat.le_of_not_le hle)).symm

end Word

/-- What a unit of gas costs on a fee market: the base fee and the highest tip, as far as
the fee cap goes. -/
def MarketTerms.gasPriceAt (market : MarketTerms) (baseFee : Word) : Word :=
  let offered := baseFee.saturatingAdd market.maxPriorityFeePerGas
  if offered ≤ market.maxFeePerGas then offered else market.maxFeePerGas

theorem MarketTerms.toNat_gasPriceAt (market : MarketTerms) (baseFee : Word) :
    (market.gasPriceAt baseFee).toNat =
      min (baseFee.toNat + market.maxPriorityFeePerGas.toNat) market.maxFeePerGas.toNat := by
  -- The fee cap is a word, so stopping at the largest word makes no difference.
  have hcap := market.maxFeePerGas.isLt
  rw [gasPriceAt, Word.toNat_ite_le, Word.toNat_saturatingAdd]
  omega

namespace Terms

def gasPriceAt (terms : Terms) (baseFee : Word) : Word :=
  match terms with
  | .legacy gasPrice => gasPrice
  | .accessList _ gasPrice _ => gasPrice
  | .feeMarket market | .priority market _ => market.gasPriceAt baseFee

theorem gasPriceAt_le_feeCap (terms : Terms) (baseFee : Word) :
    (terms.gasPriceAt baseFee).toNat ≤ terms.feeCap.toNat := by
  cases terms with
  | legacy | accessList => exact Nat.le_refl _
  | feeMarket market | priority market second =>
      change (market.gasPriceAt baseFee).toNat ≤ market.maxFeePerGas.toNat
      rw [market.toNat_gasPriceAt]
      exact Nat.min_le_right _ _

/-- Above the fee cap, the base fee alone exhausts it. -/
theorem gasPriceAt_of_feeCap_lt {terms : Terms} {baseFee : Word} (h : terms.feeCap < baseFee) :
    (terms.gasPriceAt baseFee).toNat = terms.feeCap.toNat := by
  cases terms with
  | legacy | accessList => rfl
  | feeMarket market | priority market second =>
      have hlt : market.maxFeePerGas.toNat < baseFee.toNat := BitVec.lt_def.mp h
      change (market.gasPriceAt baseFee).toNat = market.maxFeePerGas.toNat
      rw [market.toNat_gasPriceAt]
      omega

/-- The tip that the room between the base fee and the fee cap leaves. -/
def tipWithin (terms : Terms) (headroom : Word) : Word :=
  match terms with
  | .legacy _ | .accessList .. => headroom
  | .feeMarket market | .priority market _ =>
      if headroom ≤ market.maxPriorityFeePerGas then headroom else market.maxPriorityFeePerGas

/-- The base fee and the tip are the price. -/
theorem toNat_add_tipWithin {terms : Terms} {baseFee : Word} (h : baseFee ≤ terms.feeCap) :
    baseFee.toNat + (terms.tipWithin (terms.feeCap - baseFee)).toNat =
      (terms.gasPriceAt baseFee).toNat := by
  have hle : baseFee.toNat ≤ terms.feeCap.toNat := BitVec.le_def.mp h
  have hroom : (terms.feeCap - baseFee).toNat = terms.feeCap.toNat - baseFee.toNat :=
    BitVec.toNat_sub_of_le h
  cases terms with
  | legacy gasPrice | accessList chainId gasPrice list =>
      change baseFee.toNat + (gasPrice - baseFee).toNat = gasPrice.toNat
      exact (congrArg _ hroom).trans (Nat.add_sub_cancel' hle)
  | feeMarket market | priority market second =>
      rw [feeCap] at hle hroom
      rw [tipWithin, feeCap, gasPriceAt, Word.toNat_ite_le, market.toNat_gasPriceAt, hroom]
      omega

end Terms

namespace Transaction

variable {t : Transaction} {baseFee : Word}

theorem priorityFee_eq (t : Transaction) (baseFee : Word) :
    t.priorityFee baseFee =
      match t.terms.feeCap.sub? baseFee with
      | some headroom => .ok (t.terms.tipWithin headroom)
      | none => .error (t.failure (.feeCapTooLow t.terms.feeCap baseFee)) := by
  rw [priorityFee]
  cases t.terms with
  | legacy gasPrice | accessList chainId gasPrice list =>
      dsimp only [Terms.feeCap]
      cases gasPrice.sub? baseFee <;> rfl
  | feeMarket market | priority market second =>
      dsimp only [Terms.feeCap]
      cases market.maxFeePerGas.sub? baseFee <;> rfl

theorem priorityFee_of_feeCap_lt (h : t.terms.feeCap < baseFee) :
    t.priorityFee baseFee = .error (t.failure (.feeCapTooLow t.terms.feeCap baseFee)) := by
  rw [priorityFee_eq, Word.sub?_of_lt h]

theorem priorityFee_of_le_feeCap (h : baseFee ≤ t.terms.feeCap) :
    t.priorityFee baseFee = .ok (t.terms.tipWithin (t.terms.feeCap - baseFee)) := by
  rw [priorityFee_eq, Word.sub?_of_le h]

theorem priorityFee_eq_ok_iff {tip : Word} :
    t.priorityFee baseFee = .ok tip ↔
      baseFee ≤ t.terms.feeCap ∧ t.terms.tipWithin (t.terms.feeCap - baseFee) = tip := by
  by_cases hcap : baseFee ≤ t.terms.feeCap
  · rw [priorityFee_of_le_feeCap hcap, and_iff_right hcap, Except.ok.injEq]
  · rw [priorityFee_of_feeCap_lt (BitVec.not_le.mp hcap)]
    exact ⟨nofun, fun h => absurd h.1 hcap⟩

theorem upfrontCost_eq (t : Transaction) (baseFee : Word) :
    t.upfrontCost baseFee = (t.gasLimit * t.terms.gasPriceAt baseFee).saturatingAdd t.value := by
  rw [upfrontCost]
  cases t.terms with
  | legacy | accessList | feeMarket | priority => rfl

theorem Valid.toNat_gasLimit_mul (h : t.Valid) (baseFee : Word) :
    (t.gasLimit * t.terms.gasPriceAt baseFee).toNat =
      t.gasLimit.toNat * (t.terms.gasPriceAt baseFee).toNat := by
  have hle : t.gasLimit.toNat * (t.terms.gasPriceAt baseFee).toNat ≤ 2 ^ 256 - 1 :=
    (Nat.mul_le_mul_left _ (t.terms.gasPriceAt_le_feeCap baseFee)).trans h.feeBound
  rw [BitVec.toNat_mul]
  exact Nat.mod_eq_of_lt (Nat.lt_of_le_sub_one (by decide) hle)

theorem Valid.toNat_upfrontCost (h : t.Valid) (baseFee : Word) :
    (t.upfrontCost baseFee).toNat =
      min (2 ^ 256 - 1)
        (t.gasLimit.toNat * (t.terms.gasPriceAt baseFee).toNat + t.value.toNat) := by
  rw [upfrontCost_eq, Word.toNat_saturatingAdd, h.toNat_gasLimit_mul]

end Transaction

/-- At every base fee, a tip is refused exactly if the base fee is above the fee cap, and
else the base fee and the tip are the price of the gas. The sender pays that price for all
gas, or the fee cap where no tip is left, and the value besides. All of it is exact up to
the largest word, since the product of gas and price does not wrap. -/
theorem Reachable.priorityFee_upfrontCost {scheme : Scheme} {t : Transaction}
    (h : Reachable scheme t) (baseFee : Word) :
    (∀ failure, t.priorityFee baseFee = .error failure ↔
      t.terms.feeCap < baseFee ∧ failure = t.failure (.feeCapTooLow t.terms.feeCap baseFee)) ∧
    (∀ tip, t.priorityFee baseFee = .ok tip →
      baseFee.toNat + tip.toNat = (t.terms.gasPriceAt baseFee).toNat ∧
      (t.upfrontCost baseFee).toNat =
        min (2 ^ 256 - 1)
          (t.gasLimit.toNat * (baseFee.toNat + tip.toNat) + t.value.toNat)) ∧
    (t.terms.feeCap < baseFee →
      (t.upfrontCost baseFee).toNat =
        min (2 ^ 256 - 1) (t.gasLimit.toNat * t.terms.feeCap.toNat + t.value.toNat)) ∧
    t.upfrontCost baseFee = (t.gasLimit * t.terms.gasPriceAt baseFee).saturatingAdd t.value ∧
    (t.gasLimit * t.terms.gasPriceAt baseFee).toNat =
      t.gasLimit.toNat * (t.terms.gasPriceAt baseFee).toNat := by
  have hcost := h.valid.toNat_upfrontCost baseFee
  refine ⟨?_, ?_, ?_, t.upfrontCost_eq baseFee, h.valid.toNat_gasLimit_mul baseFee⟩
  · intro failure
    by_cases hcap : t.terms.feeCap < baseFee
    · rw [Transaction.priorityFee_of_feeCap_lt hcap, and_iff_right hcap, Except.error.injEq]
      exact eq_comm
    · rw [Transaction.priorityFee_of_le_feeCap (BitVec.not_lt.mp hcap)]
      exact ⟨nofun, fun h => absurd h.1 hcap⟩
  · intro tip htip
    obtain ⟨hcap, rfl⟩ := Transaction.priorityFee_eq_ok_iff.mp htip
    have hprice := Terms.toNat_add_tipWithin hcap
    exact ⟨hprice, hprice ▸ hcost⟩
  · intro hcap
    rw [hcost, Terms.gasPriceAt_of_feeCap_lt hcap]

/-- A fee market with a cap of 100 and a tip of 3 at most, at a base fee that leaves a part
of the tip, and at the highest base fee. -/
theorem Reachable.priorityFee_upfrontCost_of_market :
    let d : Draft :=
      { gasLimit := some 30000, maxFeePerGas := some 100, maxPriorityFeePerGas := some 3,
        value := some 7 }
    let t := Kind.feeMarket.assemble .standard {} d
    Reachable Secp256k1.scheme t ∧
      t.priorityFee 99 = .ok 1 ∧ (t.upfrontCost 99).toNat = 30000 * (99 + 1) + 7 ∧
      t.priorityFee Word.max = .error (t.failure (.feeCapTooLow 100 Word.max)) ∧
      (t.upfrontCost Word.max).toNat = 30000 * 100 + 7 := by
  intro d t
  have hbuild : (Source.draftAs .feeMarket d).build {} = .ok t := by decide +kernel
  have hreach : Reachable Secp256k1.scheme t := .build hbuild
  have hlow : t.priorityFee 99 = .ok 1 := by decide
  obtain ⟨-, htip, -⟩ := hreach.priorityFee_upfrontCost 99
  obtain ⟨hfail, -, hcap, -⟩ := hreach.priorityFee_upfrontCost Word.max
  have hhigh : t.terms.feeCap < Word.max := by decide
  refine ⟨hreach, hlow, ?_, (hfail _).mpr ⟨hhigh, rfl⟩, ?_⟩
  · exact (htip 1 hlow).2.trans (by decide +kernel)
  · exact (hcap hhigh).trans (by decide +kernel)

end TypedTx
