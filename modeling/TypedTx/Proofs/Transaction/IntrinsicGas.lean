import Mathlib.Algebra.Order.Floor.Div
import TypedTx.Proofs.Transaction.Caches
import TypedTx.Proofs.Transaction.Verification

/-!
# The gas needed before a transaction runs

The gas is a sum of prices over the bytes of the data, the accounts listed and their storage
keys. It is computed on words, so first of all it is right modulo `2 ^ 256`. Counts of things
that are held in memory have 64 bits, and no product or sum of them with a price comes near
the largest word. So it is right as a natural number.

The reported problem with the gas limit compares the limit with this number.
-/

namespace TypedTx

theorem AccessList.storageKeyCount_eq_sum (list : AccessList) :
    storageKeyCount list = (list.map fun entry => entry.storageKeys.length).sum :=
  List.length_flatMap

namespace Transaction

variable {scheme : Scheme} {t : Transaction}

/-- The accounts whose access is paid for. -/
def listed (t : Transaction) : AccessList :=
  t.accessList?.getD []

/-- The number of storage keys under them, each as often as it is listed. -/
def listedKeys (t : Transaction) : Nat :=
  (t.listed.map fun entry => entry.storageKeys.length).sum

/-- What the data and the listed accounts cost. -/
def dataCost (t : Transaction) : Nat :=
  4 * t.data.countP (· == 0) +
    (if t.registry.isActive 2028 then 16 else 68) * t.data.countP (· != 0) +
    2400 * t.listed.length + 1900 * t.listedKeys

/-- What it costs in addition to create a contract. -/
def creationCost (t : Transaction) : Nat :=
  (if t.registry.isActive 2 then 32000 else 0) +
    if t.registry.isActive 3860 then 2 * (t.data.length ⌈/⌉ 32) else 0

/-- What a transaction costs before it runs. -/
def gasNeeded (t : Transaction) : Nat :=
  21000 + t.dataCost + if t.recipient = none then t.creationCost else 0

/-- What is counted is held in memory. -/
structure CountsFit (t : Transaction) : Prop where
  data : t.data.length < 2 ^ 64
  listed : t.listed.length < 2 ^ 64
  listedKeys : t.listedKeys < 2 ^ 64

theorem length_data (t : Transaction) :
    t.data.length = t.data.countP (· == 0) + t.data.countP (· != 0) := by
  rw [List.length_eq_countP_add_countP (· == 0)]
  congr 1
  apply List.countP_congr
  simp

/-- A transaction that cannot list accounts pays for an empty list. -/
theorem computeDataFee_eq_add (t : Transaction) :
    t.computeDataFee =
      Word.ofNat (t.data.countP (· == 0)) * Word.ofNat t.registry.gas.zeroByte +
        Word.ofNat (t.data.countP (· != 0)) * Word.ofNat t.registry.gas.nonZeroByte +
        (Word.ofNat t.listed.length * Word.ofNat t.registry.gas.address +
          Word.ofNat t.listedKeys * Word.ofNat t.registry.gas.storageKey) := by
  rw [computeDataFee, length_data, Nat.add_sub_cancel_left, listedKeys, listed]
  cases t.accessList? with
  | none => exact (BitVec.add_zero _).symm
  | some list =>
      rw [Option.getD_some, ← AccessList.storageKeyCount_eq_sum]

/-- Up to the width of a word the computed data fee is the sum of the prices. -/
theorem computeDataFee_eq_ofNat (t : Transaction) : t.computeDataFee = Word.ofNat t.dataCost := by
  have hcost : t.dataCost =
      t.data.countP (· == 0) * t.registry.gas.zeroByte +
        t.data.countP (· != 0) * t.registry.gas.nonZeroByte +
        (t.listed.length * t.registry.gas.address +
          t.listedKeys * t.registry.gas.storageKey) := by
    rw [dataCost, Registry.gas]
    ring
  rw [computeDataFee_eq_add, hcost]
  simp only [Word.ofNat_add, Word.ofNat_mul]

theorem gasWithDataFee_ofNat (t : Transaction) (cost : Nat) :
    t.gasWithDataFee (Word.ofNat cost) =
      Word.ofNat (21000 + cost + if t.recipient = none then t.creationCost else 0) := by
  have hcreation : t.creationCost =
      t.registry.gas.creation + t.data.length ⌈/⌉ 32 * t.registry.gas.initCodeWord := by
    rw [creationCost, Registry.gas]
    split_ifs <;> ring
  rw [gasWithDataFee, isCreation]
  cases t.recipient with
  | none =>
      rw [Option.isNone_none, if_pos rfl, if_pos rfl, hcreation]
      simp only [Word.ofNat_add, Word.ofNat_mul, Nat.ceilDiv_eq_add_pred_div]
      rfl
  | some address =>
      rw [Option.isNone_some, if_neg Bool.false_ne_true, if_neg (Option.some_ne_none address),
        Nat.add_zero, Word.ofNat_add]
      rfl

theorem intrinsicGasAfresh_eq_ofNat (t : Transaction) :
    t.intrinsicGasAfresh = Word.ofNat t.gasNeeded := by
  rw [intrinsicGasAfresh, computeDataFee_eq_ofNat, gasWithDataFee_ofNat, gasNeeded]

theorem dataCost_le_gasNeeded (t : Transaction) : t.dataCost ≤ t.gasNeeded := by
  rw [gasNeeded]
  omega

namespace CountsFit

variable (h : t.CountsFit)

include h

theorem dataCost_lt : t.dataCost < 2 ^ 80 := by
  obtain ⟨hdata, hlisted, hkeys⟩ := h
  rw [length_data] at hdata
  rw [dataCost]
  split <;> omega

theorem gasNeeded_lt : t.gasNeeded < 2 ^ 256 := by
  have hcost := h.dataCost_lt
  have hdata := h.data
  rw [gasNeeded, creationCost, Nat.ceilDiv_eq_add_pred_div]
  split_ifs <;> omega

end CountsFit

theorem gasLimitTooLow_mem_problems_iff {given needed : Word} :
    .gasLimitTooLow given needed ∈ (t.problems scheme).1 ↔
      given = t.gasLimit ∧ needed = t.intrinsicGas.1 ∧
        t.gasLimit.toNat < t.intrinsicGas.1.toNat := by
  rw [mem_problems_iff]
  constructor
  · rintro (⟨-, hsignature⟩ | ⟨hlow, hreport⟩)
    · exact absurd hsignature nofun
    · obtain ⟨hgiven, hneeded⟩ := TransactionProblem.gasLimitTooLow.inj hreport
      exact ⟨hgiven, hneeded, BitVec.lt_def.mp hlow⟩
  · rintro ⟨rfl, rfl, hlow⟩
    exact .inr ⟨BitVec.lt_def.mpr hlow, rfl⟩

/-- The wording of the report. -/
def lowLimitText (t : Transaction) (needed : Word) : String :=
  "gasLimit is too low. given " ++ t.gasLimit.decimal ++ ", need at least " ++ needed.decimal

theorem lowLimitText_mem_problems_iff :
    t.lowLimitText t.intrinsicGas.1 ∈ (t.problems scheme).1.map TransactionProblem.message ↔
      t.gasLimit.toNat < t.intrinsicGas.1.toNat := by
  rw [List.mem_map]
  constructor
  · rintro ⟨problem, hmem, htext⟩
    cases problem with
    | invalidSignature =>
        have hsame : TransactionProblem.message (.gasLimitTooLow t.gasLimit t.intrinsicGas.1) =
            "invalid signature" := htext.symm
        exact absurd (TransactionProblem.message_eq_iff.mp hsame) nofun
    | gasLimitTooLow given needed => exact (gasLimitTooLow_mem_problems_iff.mp hmem).2.2
  · intro hlow
    exact ⟨_, gasLimitTooLow_mem_problems_iff.mpr ⟨rfl, rfl, hlow⟩, rfl⟩

theorem listed_of_legacy (h : t.kind = .legacy) : t.listed = [] := by
  obtain ⟨gasPrice, hterms⟩ := exists_terms_of_legacy h
  rw [listed, accessList?, hterms]
  rfl

/-- A legacy transaction leaves out the accounts that its draft lists. -/
theorem listed_assemble (kind : Kind) (registry : Registry) (o : Options) (d : Draft) :
    (kind.assemble registry o d).listed = if kind = .legacy then [] else d.accessList.getD [] := by
  cases kind <;> rfl

end Transaction

/-- The data fee and the gas of a reachable transaction are the sums of the prices, remembered
or not, first up to the width of a word. Sums of counts that have 64 bits are far below that
width, so there the two are right as natural numbers, and the gas limit is reported if and
only if it is below the gas. Data, recipient and listed accounts are those of the draft that
was built, but a legacy transaction lists none, whatever its draft lists. -/
theorem Reachable.intrinsicGas_eq_gasNeeded {scheme : Scheme} {t : Transaction}
    (h : Reachable scheme t) :
    (t.dataFee.1 = Word.ofNat t.dataCost ∧ t.intrinsicGas.1 = Word.ofNat t.gasNeeded) ∧
    (t.CountsFit → t.gasNeeded < 2 ^ 256) ∧
    (t.gasNeeded < 2 ^ 256 →
      t.dataFee.1.toNat = t.dataCost ∧ t.intrinsicGas.1.toNat = t.gasNeeded ∧
        (t.lowLimitText (Word.ofNat t.gasNeeded) ∈
            (t.problems scheme).1.map TransactionProblem.message ↔
          t.gasLimit.toNat < t.gasNeeded)) ∧
    (∀ given needed, .gasLimitTooLow given needed ∈ (t.problems scheme).1 ↔
      given = t.gasLimit ∧ needed = t.intrinsicGas.1 ∧
        t.gasLimit.toNat < t.intrinsicGas.1.toNat) ∧
    (t.kind = .legacy → t.listed = []) ∧
    ∀ kind d o, Kind.build kind d o = .ok t →
      t.data = d.data.getD [] ∧ t.recipient = d.recipient ∧
        t.listed = if kind = .legacy then [] else d.accessList.getD [] := by
  have hfee : t.dataFee.1 = Word.ofNat t.dataCost := by
    rw [h.coherent.dataFee_spec.1, Transaction.computeDataFee_eq_ofNat]
  have hgas : t.intrinsicGas.1 = Word.ofNat t.gasNeeded := by
    rw [h.coherent.intrinsicGas_eq, Transaction.intrinsicGasAfresh_eq_ofNat]
  refine ⟨⟨hfee, hgas⟩, Transaction.CountsFit.gasNeeded_lt, ?_, ?_, ?_, ?_⟩
  · intro hlt
    have hneeded : t.intrinsicGas.1.toNat = t.gasNeeded := by
      rw [hgas, Word.toNat_ofNat_of_lt hlt]
    refine ⟨?_, hneeded, ?_⟩
    · rw [hfee, Word.toNat_ofNat_of_lt (t.dataCost_le_gasNeeded.trans_lt hlt)]
    · rw [← hgas, Transaction.lowLimitText_mem_problems_iff, hneeded]
  · intro given needed
    exact Transaction.gasLimitTooLow_mem_problems_iff
  · exact Transaction.listed_of_legacy
  · intro kind d o hbuild
    obtain ⟨registry, -, -, rfl⟩ := Kind.build_eq_ok_iff.mp hbuild
    exact ⟨rfl, rfl, Transaction.listed_assemble kind registry o d⟩

/-- A contract creation that lists one account with the same key twice, and a legacy
transaction with the same fields. -/
theorem Reachable.intrinsicGas_eq_gasNeeded_of_creation :
    let d : Draft :=
      { data := some [0, 1, 2], gasLimit := some 59237
        accessList := some [⟨⟨List.replicate 20 0, rfl⟩,
          [⟨List.replicate 32 1, rfl⟩, ⟨List.replicate 32 1, rfl⟩]⟩] }
    let listed := Kind.accessList.assemble .standard {} d
    let legacy := Kind.legacy.assemble .standard {} d
    (listed.CountsFit ∧ listed.dataFee.1.toNat = 6236 ∧ listed.intrinsicGas.1.toNat = 59238 ∧
      listed.lowLimitText 59238 ∈
        (listed.problems Secp256k1.scheme).1.map TransactionProblem.message) ∧
    legacy.CountsFit ∧ legacy.dataFee.1.toNat = 36 ∧ legacy.intrinsicGas.1.toNat = 53038 := by
  intro d listed legacy
  have hlisted : Reachable Secp256k1.scheme listed :=
    .build (show (Source.draftAs .accessList d).build {} = _ from rfl)
  have hlegacy : Reachable Secp256k1.scheme legacy :=
    .build (show (Source.draftAs .legacy d).build {} = _ from rfl)
  have hfit : listed.CountsFit := ⟨by decide, by decide, by decide⟩
  have hfit' : legacy.CountsFit := ⟨by decide, by decide, by decide⟩
  have hneeded : listed.gasNeeded = 59238 := by
    rw [Transaction.gasNeeded, Transaction.creationCost, Nat.ceilDiv_eq_add_pred_div]
    decide
  have hneeded' : legacy.gasNeeded = 53038 := by
    rw [Transaction.gasNeeded, Transaction.creationCost, Nat.ceilDiv_eq_add_pred_div]
    decide
  obtain ⟨-, hlt, hexact, -⟩ := Reachable.intrinsicGas_eq_gasNeeded hlisted
  obtain ⟨-, hlt', hexact', -⟩ := Reachable.intrinsicGas_eq_gasNeeded hlegacy
  obtain ⟨hfee, hgas, hreport⟩ := hexact (hlt hfit)
  obtain ⟨hfee', hgas', -⟩ := hexact' (hlt' hfit')
  rw [hneeded] at hgas hreport
  rw [hneeded'] at hgas'
  exact ⟨⟨hfit, hfee, hgas, hreport.mpr (by decide)⟩, hfit', hfee', hgas'⟩

end TypedTx
