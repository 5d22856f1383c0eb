import TypedTx.Draft.Layout
import TypedTx.Registry.Basic
import TypedTx.Replay
import TypedTx.Signature

/-!
# Transactions

A transaction holds the fields common to all kinds, the terms of its kind, its
signatures and the registry that it was validated against. Its wire form is
derived from its draft by the layout of its kind.

A frozen transaction refuses updates and remembers its hash and its data fee,
each together with the fork it was computed under.
-/

namespace TypedTx

/-- How a transaction is built. -/
structure Options where
  /-- The registry to validate against. Without one it is derived from the chain
  id of the transaction. -/
  registry : Option Registry := none
  /-- Whether the transaction refuses updates. -/
  freeze : Bool := true
  /-- Whether the limit on the size of initcode is waived. -/
  unlimitedInitCode : Bool := false
deriving DecidableEq, Repr

/-- A value remembered together with the fork it was computed under. -/
structure ForkCache (α : Type) where
  slot : Option (Fork × α) := none
deriving DecidableEq, Repr

/-- The remembered value, if it belongs to `fork`, or else a new one, which is
then remembered. -/
def ForkCache.read {α : Type} (cache : ForkCache α) (fork : Fork) (compute : Unit → α) :
    α × ForkCache α :=
  match cache.slot with
  | some (known, value) =>
      if known = fork then (value, cache)
      else
        let value := compute ()
        (value, ⟨some (fork, value)⟩)
  | none =>
      let value := compute ()
      (value, ⟨some (fork, value)⟩)

/-- The fees of a fee market transaction, with its chain id and access list. -/
structure MarketTerms where
  chainId : UInt64
  maxPriorityFeePerGas : Word
  maxFeePerGas : Word
  accessList : AccessList
deriving DecidableEq, Repr

/-- What the kinds of transactions do not have in common. -/
inductive Terms where
  | legacy (gasPrice : Word)
  | accessList (chainId : UInt64) (gasPrice : Word) (accessList : AccessList)
  | feeMarket (market : MarketTerms)
  | priority (market : MarketTerms) (second : SignatureParts)
deriving DecidableEq, Repr

def Terms.kind : Terms → Kind
  | .legacy _ => .legacy
  | .accessList .. => .accessList
  | .feeMarket _ => .feeMarket
  | .priority .. => .priority

/-- The wire form of values of a kind: behind the type byte, if it is typed. -/
def Kind.frame (kind : Kind) (values : List Rlp.Item) : Bytes :=
  match kind with
  | .legacy => Rlp.encodeList values
  | _ => kind.marker :: Rlp.encodeList values

/-- A validated transaction. -/
structure Transaction where
  nonce : Word
  gasLimit : Word
  /-- The recipient. Without one the transaction creates a contract. -/
  recipient : Option Address
  value : Word
  data : Bytes
  terms : Terms
  signature : SignatureParts
  registry : Registry
  frozen : Bool
  unlimitedInitCode : Bool
  hashCache : ForkCache Digest := {}
  dataFeeCache : ForkCache Word := {}
deriving DecidableEq, Repr

namespace Transaction

/-- The kind of a transaction. -/
def kind (t : Transaction) : Kind := t.terms.kind

def accessList? (t : Transaction) : Option AccessList :=
  match t.terms with
  | .legacy _ => none
  | .accessList _ _ list => some list
  | .feeMarket market => some market.accessList
  | .priority market _ => some market.accessList

def secondSignature? (t : Transaction) : Option SignatureParts :=
  match t.terms with
  | .priority _ second => some second
  | _ => none

def isCreation (t : Transaction) : Bool := t.recipient.isNone

/-- The options that reproduce registry and flags. -/
def options (t : Transaction) : Options :=
  ⟨some t.registry, t.frozen, t.unlimitedInitCode⟩

def subject (t : Transaction) : Subject :=
  .transaction t.kind.marker t.nonce t.recipient

def failure (t : Transaction) (fault : Fault) : Failure :=
  ⟨fault, some t.subject⟩

/-- The fields of a transaction. A legacy transaction has no field for its chain
id. -/
def draft (t : Transaction) : Draft :=
  let base : Draft :=
    { kind := some t.kind
      nonce := some t.nonce
      gasLimit := some t.gasLimit
      recipient := t.recipient
      value := some t.value
      data := some t.data
      v := t.signature.v
      r := t.signature.r
      s := t.signature.s }
  let withMarket (market : MarketTerms) : Draft :=
    { base with
      chainId := some (Word.ofUInt64 market.chainId)
      maxPriorityFeePerGas := some market.maxPriorityFeePerGas
      maxFeePerGas := some market.maxFeePerGas
      accessList := some market.accessList }
  match t.terms with
  | .legacy gasPrice => { base with gasPrice := some gasPrice }
  | .accessList chainId gasPrice list =>
      { base with
        chainId := some (Word.ofUInt64 chainId)
        gasPrice := some gasPrice
        accessList := some list }
  | .feeMarket market => withMarket market
  | .priority market second => (withMarket market).withSecondSignature second

/-- Whether all components of all signatures are present. -/
def isSigned (t : Transaction) : Bool :=
  t.signature.complete?.isSome &&
    (t.secondSignature?.all fun second => second.complete?.isSome)

/-- The values that a signature covers, in wire order. -/
def unsignedValues (t : Transaction) : List Rlp.Item :=
  t.kind.layout.map t.draft.item

/-- All values in wire order, with the signatures if they are complete. -/
def rawValues (t : Transaction) : List Rlp.Item :=
  if t.isSigned then t.unsignedValues ++ t.kind.signatureLayout.map t.draft.item
  else t.unsignedValues

def encode (t : Transaction) : Bytes :=
  t.kind.frame t.rawValues

/-- The mode of the signature of a legacy transaction, or else the mode that a
new one would have. -/
def replay (t : Transaction) : Replay :=
  match t.signature.v with
  | some v => Replay.ofV v
  | none => if t.registry.isActive 155 then .eip155 else .unprotected

/-- The message that a legacy signature in the given mode covers. -/
def legacyMessage (t : Transaction) (mode : Replay) : Bytes :=
  match mode with
  | .eip155 =>
      Rlp.encodeList (t.unsignedValues ++
        [.ofWord (Word.ofUInt64 t.registry.chainId), .empty, .empty])
  | .unprotected => Rlp.encodeList t.unsignedValues

def signingMessage (t : Transaction) : Bytes :=
  match t.terms with
  | .legacy _ => t.legacyMessage t.replay
  | _ => t.kind.frame t.unsignedValues

def signingHash (t : Transaction) : Digest :=
  Keccak.hash t.signingMessage

/-- What a signing device is given: the digest, or the message if the device
hashes on its own. -/
def messageToSign (t : Transaction) (hashed : Bool) : Bytes :=
  if hashed then t.signingHash.1 else t.signingMessage

/-- The chain id that the signature commits to, if any. -/
def chainId? (t : Transaction) : Option UInt64 :=
  match t.terms with
  | .legacy _ =>
      match t.replay with
      | .eip155 => some t.registry.chainId
      | .unprotected => none
  | .accessList chainId _ _ => some chainId
  | .feeMarket market => some market.chainId
  | .priority market _ => some market.chainId

/-- The parity that the first signature tells, if it fits in a byte. -/
def parity? (t : Transaction) : Option UInt8 :=
  match t.terms with
  | .legacy _ =>
      match t.signature.v.map Replay.decode with
      | some (.ok (parity, _)) => parity.toUInt8?
      | _ => none
  | _ => t.signature.v.bind Word.toUInt8?

/-- Refuse updates from now on. -/
def freeze (t : Transaction) : Transaction :=
  { t with frozen := true }

end Transaction
end TypedTx
