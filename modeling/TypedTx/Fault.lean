import TypedTx.Hash.Keccak
import TypedTx.Hex
import TypedTx.Registry.Fork
import TypedTx.Rlp.Decode

/-!
# Faults and failures

A fault is the cause of a refusal. A failure is a fault together with its
subject, the little that is known of the transaction it concerns. The message of
a failure ends with the subject in parentheses.
-/

namespace TypedTx

/-- Why a transaction, a field or a signature is refused. -/
inductive Fault where
  | malformedEncoding (fault : Rlp.Fault)
  | wrongTransactionType (expected found : UInt8)
  | unsupportedTransactionType (marker : UInt8)
  | wrongFieldCount (unsigned signed found : Nat)
  | invalidFieldEncoding (field : String)
  | invalidFieldShape (field : String)
  | invalidFieldLength (field : String) (expected found : Nat)
  | integerOverflow (field : String)
  | feeOrderingViolation (maxFee maxPriorityFee : Word)
  | feeCapTooLow (feeCap baseFee : Word)
  | invalidSignatureParity (field : String) (value : Word)
  | highSSignature (field : String)
  | invalidKeyLength (found : Nat)
  | invalidPrivateKey
  | invalidSignature
  | notSigned
  | missingSignatureSet (fields : String)
  | unsupportedUpgrade (eip : Nat)
  | chainIdMismatch (expected : UInt64) (found : Word)
  | initCodeSizeExceeded (size limit : Nat)
  | frozen
  | registry (fault : RegistryFault)
deriving DecidableEq, Repr

/-- A byte as two hexadecimal digits behind `0x`. -/
def byteText (b : UInt8) : String :=
  Hex.text [b]

def Fault.message : Fault → String
  | .malformedEncoding fault => s!"malformed encoding: {fault.message}"
  | .wrongTransactionType expected found =>
      "wrong transaction type: expected " ++ byteText expected ++ ", found " ++ byteText found
  | .unsupportedTransactionType marker => "unsupported transaction type " ++ byteText marker
  | .wrongFieldCount unsigned signed found =>
      s!"invalid number of fields: expected {unsigned} (unsigned) or {signed} (signed), " ++
        s!"found {found}"
  | .invalidFieldEncoding field => s!"invalid encoding of field {field}"
  | .invalidFieldShape field => s!"invalid shape of field {field}"
  | .invalidFieldLength field expected found =>
      s!"field {field} must be {expected} bytes, found {found}"
  | .integerOverflow field => s!"integer overflow in {field}: value exceeds 2^256 - 1"
  | .feeOrderingViolation maxFee maxPriorityFee =>
      "maxFeePerGas " ++ maxFee.decimal ++ " is below maxPriorityFeePerGas " ++
        maxPriorityFee.decimal
  | .feeCapTooLow feeCap baseFee =>
      "base fee " ++ baseFee.decimal ++ " exceeds fee cap " ++ feeCap.decimal
  | .invalidSignatureParity field value =>
      "invalid signature parity " ++ field ++ "=" ++ value.decimal
  | .highSSignature field => s!"{field} is above half the curve order"
  | .invalidKeyLength found => s!"private key must be 32 bytes, got {found}"
  | .invalidPrivateKey => "private key is not a valid secp256k1 scalar"
  | .invalidSignature => "invalid signature"
  | .notSigned => "transaction is not signed"
  | .missingSignatureSet fields => s!"signature set ({fields}) missing"
  | .unsupportedUpgrade eip => s!"EIP-{eip} is not activated"
  | .chainIdMismatch expected found =>
      "chain id mismatch: registry has " ++ toString expected.toNat ++ ", transaction has " ++
        found.decimal
  | .initCodeSizeExceeded size limit => s!"initcode size {size} exceeds limit {limit}"
  | .frozen => "transaction is frozen"
  | .registry fault => fault.message

/-- The digits of an address behind `0x`, where the letters are capital whose
digit in the hash of the lower-case digits is 8 or more. -/
def Address.checksummed (address : Address) : String :=
  let digits := Hex.encode address.1
  let hash := Hex.encode (Keccak.hash (digits.map fun c => UInt8.ofNat c.toNat)).1
  "0x" ++ String.ofList ((digits.zip hash).map fun (c, h) =>
    if '8' ≤ h then c.toUpper else c)

inductive Subject where
  | kind (marker : UInt8)
  | transaction (marker : UInt8) (nonce : Word) (recipient : Option Address)
deriving DecidableEq, Repr

def Subject.text : Subject → String
  | .kind marker => "type=" ++ toString marker.toNat
  | .transaction marker nonce recipient =>
      "type=" ++ toString marker.toNat ++ " nonce=" ++ nonce.decimal ++
        (match recipient with
          | some address => " to=" ++ address.checksummed
          | none => "")

/-- A fault and the transaction it concerns, as far as that is known. -/
structure Failure where
  fault : Fault
  subject : Option Subject
deriving DecidableEq, Repr

def Failure.message (failure : Failure) : String :=
  match failure.subject with
  | some subject => failure.fault.message ++ " (" ++ subject.text ++ ")"
  | none => failure.fault.message

/-- A fault about which nothing more is known. -/
def Fault.bare (fault : Fault) : Failure := ⟨fault, none⟩

/-- Name the subject of the faults of a result. -/
def Subject.annotate {α : Type} (subject : Subject) : Except Fault α → Except Failure α
  | .ok a => .ok a
  | .error fault => .error ⟨fault, some subject⟩

end TypedTx
