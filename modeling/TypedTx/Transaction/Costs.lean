import TypedTx.Transaction.Recovery

/-!
# Costs, hashes and validity

The gas that a transaction needs before it runs, what its sender pays at a given
base fee, its hash, and what is wrong with it. Reading the hash or the data fee
of a frozen transaction fills its cache, so these readers return the
transaction as well.
-/

namespace TypedTx

inductive Feature where
  | replayProtection
  | feeMarket
  | typedTransaction
  | accessLists
deriving DecidableEq, Repr

/-- The number of the upgrade that brought a feature. -/
def Feature.eip : Feature → Nat
  | .replayProtection => 155
  | .feeMarket => 1559
  | .typedTransaction => 2718
  | .accessLists => 2930

inductive TransactionProblem where
  | invalidSignature
  | gasLimitTooLow (given needed : Word)
deriving DecidableEq, Repr

def TransactionProblem.message : TransactionProblem → String
  | .invalidSignature => "invalid signature"
  | .gasLimitTooLow given needed =>
      "gasLimit is too low. given " ++ given.decimal ++ ", need at least " ++ needed.decimal

namespace Transaction

def computeDataFee (t : Transaction) : Word :=
  let gas := t.registry.gas
  let zeros := t.data.countP (· == 0)
  let nonZeros := t.data.length - zeros
  let dataCost := Word.ofNat zeros * Word.ofNat gas.zeroByte +
    Word.ofNat nonZeros * Word.ofNat gas.nonZeroByte
  match t.accessList? with
  | none => dataCost
  | some list =>
      dataCost + (Word.ofNat list.length * Word.ofNat gas.address +
        Word.ofNat (AccessList.storageKeyCount list) * Word.ofNat gas.storageKey)

/-- The gas needed before the transaction runs, given the data fee. -/
def gasWithDataFee (t : Transaction) (dataFee : Word) : Word :=
  let gas := t.registry.gas
  let base := Word.ofNat gas.transaction + dataFee
  if t.isCreation then
    let words := (t.data.length + 31) / 32
    base + (Word.ofNat gas.creation + Word.ofNat words * Word.ofNat gas.initCodeWord)
  else base

def dataFee (t : Transaction) : Word × Transaction :=
  if t.frozen then
    let (fee, dataFeeCache) := t.dataFeeCache.read t.registry.fork fun _ => t.computeDataFee
    (fee, { t with dataFeeCache })
  else (t.computeDataFee, t)

/-- The gas needed before the transaction runs. -/
def intrinsicGas (t : Transaction) : Word × Transaction :=
  let (fee, t) := t.dataFee
  (t.gasWithDataFee fee, t)

/-- What the sender pays at most at a base fee: gas limit times price, plus the
value, but never more than the largest word. -/
def upfrontCost (t : Transaction) (baseFee : Word) : Word :=
  let price := match t.terms with
    | .legacy gasPrice => gasPrice
    | .accessList _ gasPrice _ => gasPrice
    | .feeMarket market | .priority market _ =>
        let offered := baseFee.saturatingAdd market.maxPriorityFeePerGas
        if offered ≤ market.maxFeePerGas then offered else market.maxFeePerGas
  (t.gasLimit * price).saturatingAdd t.value

/-- What the block producer gets per gas at a base fee. -/
def priorityFee (t : Transaction) (baseFee : Word) : Except Failure Word :=
  let above (cap : Word) : Except Failure Word :=
    match cap.sub? baseFee with
    | some rest => .ok rest
    | none => .error (t.failure (.feeCapTooLow cap baseFee))
  match t.terms with
  | .legacy gasPrice => above gasPrice
  | .accessList _ gasPrice _ => above gasPrice
  | .feeMarket market | .priority market _ => do
      let headroom ← above market.maxFeePerGas
      .ok (if headroom ≤ market.maxPriorityFeePerGas then headroom
        else market.maxPriorityFeePerGas)

def hash (t : Transaction) : Except Failure Digest × Transaction :=
  if t.isSigned then
    if t.frozen then
      let (digest, hashCache) := t.hashCache.read t.registry.fork fun _ => Keccak.hash t.encode
      (.ok digest, { t with hashCache })
    else (.ok (Keccak.hash t.encode), t)
  else (.error (t.failure .notSigned), t)

def problems (scheme : Scheme) (t : Transaction) : List TransactionProblem × Transaction :=
  let (needed, t') := t.intrinsicGas
  ((if t.isSigned && !t.verifies scheme then [.invalidSignature] else []) ++
    (if t.gasLimit < needed then [.gasLimitTooLow t.gasLimit needed] else []), t')

def isValid (scheme : Scheme) (t : Transaction) : Bool × Transaction :=
  let (problems, t) := t.problems scheme
  (problems.isEmpty, t)

def supports (t : Transaction) (feature : Feature) : Bool :=
  match t.terms, feature with
  | .legacy _, .replayProtection => t.registry.isActive 155
  | .legacy _, _ => false
  | .accessList .., .feeMarket => false
  | _, _ => true

end Transaction
end TypedTx
