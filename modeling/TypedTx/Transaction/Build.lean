import TypedTx.Transaction.Rules

/-!
# Building transactions

A transaction is built from a draft, from raw values or from wire bytes of a
known kind. All ways lead through `Kind.construct`, which applies the rules in a
fixed order and fails with the first one that is broken.
-/

namespace TypedTx
namespace Kind

/-- The chain id that a draft commits to as a transaction of the kind. -/
def committedChainId (kind : Kind) (d : Draft) : Option Word :=
  match kind with
  | .legacy => (Replay.chainId? d.v).or d.chainId
  | _ => d.chainId

/-- The fee cap, and its name. -/
def feeCap (kind : Kind) (d : Draft) : Word × String :=
  match kind with
  | .legacy | .accessList => (d.gasPrice.getD 0, "gasPrice")
  | .feeMarket | .priority => (d.maxFeePerGas.getD 0, "maxFeePerGas")

def requireChain (kind : Kind) (registry : Registry) (d : Draft) : Except Fault Unit := do
  requireEips registry kind.requiredEips
  match kind with
  | .legacy => requireSome (requireLegacyV registry) d.v
  | _ => do
      requireChainId registry d.chainId
      requireSome (requireParity "v") d.v

def requireFees (kind : Kind) (d : Draft) : Except Fault Unit := do
  let (fee, name) := kind.feeCap d
  requireFeeBound (d.gasLimit.getD 0) fee name
  match kind with
  | .legacy | .accessList => .ok ()
  | .feeMarket | .priority =>
      requireFeeOrder (d.maxFeePerGas.getD 0) (d.maxPriorityFeePerGas.getD 0)

def requireSecond (kind : Kind) (registry : Registry) (d : Draft) : Except Fault Unit :=
  match kind with
  | .priority => do
      requireBothSets d.signature d.secondSignature
      requireSome (requireParity "pV") d.pV
      requireSome (requireLowS registry "pS") d.pS
  | _ => .ok ()

/-- All requirements on a draft, given the registry. -/
def requireValid (kind : Kind) (registry : Registry) (o : Options) (d : Draft) :
    Except Fault Unit := do
  kind.requireChain registry d
  requireInitCode registry o d
  requireSome (requireLowS registry "s") d.s
  kind.requireFees d
  kind.requireSecond registry d

/-- The terms that a draft gives. The chain id is always the registry's. -/
def terms (kind : Kind) (registry : Registry) (d : Draft) : Terms :=
  let market : MarketTerms :=
    { chainId := registry.chainId
      maxPriorityFeePerGas := d.maxPriorityFeePerGas.getD 0
      maxFeePerGas := d.maxFeePerGas.getD 0
      accessList := d.accessList.getD [] }
  match kind with
  | .legacy => .legacy (d.gasPrice.getD 0)
  | .accessList => .accessList registry.chainId (d.gasPrice.getD 0) (d.accessList.getD [])
  | .feeMarket => .feeMarket market
  | .priority => .priority market d.secondSignature

/-- The transaction that a valid draft gives. Absent numbers become zero. -/
def assemble (kind : Kind) (registry : Registry) (o : Options) (d : Draft) : Transaction where
  nonce := d.nonce.getD 0
  gasLimit := d.gasLimit.getD 0
  recipient := d.recipient
  value := d.value.getD 0
  data := d.data.getD []
  terms := kind.terms registry d
  signature := d.signature
  registry := registry
  frozen := o.freeze
  unlimitedInitCode := o.unlimitedInitCode

def construct (kind : Kind) (d : Draft) (o : Options) : Except Fault Transaction := do
  let registry ← o.resolve (kind.committedChainId d)
  kind.requireValid registry o d
  .ok (kind.assemble registry o d)

/-- Build a transaction of the kind from a draft, whatever kind the draft
names. -/
def build (kind : Kind) (d : Draft) (o : Options) : Except Failure Transaction :=
  (Subject.transaction kind.marker (d.nonce.getD 0) d.recipient).annotate (kind.construct d o)

def buildValues (kind : Kind) (values : List Rlp.Item) (o : Options) :
    Except Failure Transaction := do
  let d ← (Subject.kind kind.marker).annotate (Draft.ofItems kind values)
  kind.build d o

def unframe (kind : Kind) (input : Bytes) : Except Fault (List Rlp.Item) :=
  match kind, input with
  | .legacy, input => (Rlp.decodeList input).mapError .malformedEncoding
  | _, [] => .error (.malformedEncoding (.header .inputTooShort))
  | kind, found :: payload =>
      if found = kind.marker then (Rlp.decodeList payload).mapError .malformedEncoding
      else .error (.wrongTransactionType kind.marker found)

def decode (kind : Kind) (input : Bytes) (o : Options) : Except Failure Transaction := do
  let values ← (Subject.kind kind.marker).annotate (kind.unframe input)
  kind.buildValues values o

end Kind

namespace Transaction

/-- Edit the fields and validate anew. A frozen transaction refuses. -/
def update (t : Transaction) (edit : Draft → Draft) : Except Failure Transaction :=
  if t.frozen then .error (t.failure .frozen) else t.kind.build (edit t.draft) t.options

/-- The transaction under another registry. Its caches are keyed by the fork, and
dropped when the explicit upgrades differ. -/
def bindTo (t : Transaction) (registry : Registry) : Transaction :=
  if t.registry.eips = registry.eips then { t with registry }
  else { t with registry, hashCache := {}, dataFeeCache := {} }

/-- Move to another registry, which the transaction must be valid on. -/
def rebind (t : Transaction) (registry : Registry) : Except Failure Transaction := do
  let _ ← t.kind.build t.draft { t.options with registry := some registry }
  .ok (t.bindTo registry)

end Transaction
end TypedTx
