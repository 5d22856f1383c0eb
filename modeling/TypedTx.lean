import TypedTx.Curve.Ecdsa
import TypedTx.Document.Fork
import TypedTx.Registry.Settings
import TypedTx.Session
import TypedTx.Proofs.BigEndian
import TypedTx.Proofs.Registry.Upgrades
import TypedTx.Proofs.Registry.Derivation
import TypedTx.Proofs.Registry.Settings
import TypedTx.Proofs.Rlp.Frame
import TypedTx.Proofs.Rlp.Codec
import TypedTx.Proofs.AccessList
import TypedTx.Proofs.AccessList.Grammar
import TypedTx.Proofs.AccessList.FirstFault
import TypedTx.Proofs.Draft.Layout
import TypedTx.Proofs.Draft.Number
import TypedTx.Proofs.Transaction.Rules
import TypedTx.Proofs.Transaction.Validity
import TypedTx.Proofs.Transaction.Assembly
import TypedTx.Proofs.Transaction.Reachable
import TypedTx.Proofs.Transaction.Fees
import TypedTx.Proofs.Transaction.Wire
import TypedTx.Proofs.Transaction.Admission
import TypedTx.Proofs.Transaction.SigningMessage
import TypedTx.Proofs.Rlp.Depth
import TypedTx.Proofs.Rlp.Truncation
import TypedTx.Proofs.Transaction.Caches
import TypedTx.Proofs.Session.Run
import TypedTx.Proofs.Replay
import TypedTx.Proofs.Transaction.Resigning
import TypedTx.Proofs.Scheme
import TypedTx.Proofs.Transaction.Signing
import TypedTx.Proofs.Transaction.SigningAgain
import TypedTx.Proofs.Transaction.OtherChain
import TypedTx.Proofs.Transaction.Verification
import TypedTx.Proofs.Transaction.Recovery
import TypedTx.Proofs.Transaction.SignatureSets
import TypedTx.Proofs.Transaction.BlockItem
import TypedTx.Proofs.Hex
import TypedTx.Proofs.Hex.Grammar
import TypedTx.Proofs.Document
import TypedTx.Proofs.Document.Json
import TypedTx.Proofs.Document.ByteText
import TypedTx.Proofs.Document.AccessList
import TypedTx.Proofs.Transaction.DerivedRegistry
import TypedTx.Proofs.Transaction.Projection
import TypedTx.Proofs.Transaction.Acceptance
import TypedTx.Proofs.Transaction.Frozen
import TypedTx.Proofs.Transaction.Rebinding
import TypedTx.Proofs.Transaction.ExternalSigning
import TypedTx.Proofs.Transaction.EntryPoints
import TypedTx.Proofs.Transaction.KeyRefusal
import TypedTx.Proofs.Transaction.IntrinsicGas
import TypedTx.Proofs.Document.Quantity
import TypedTx.Proofs.Rlp.WireForm
import TypedTx.Proofs.Replay.Coding
import TypedTx.Proofs.Yaml.Scalar
import TypedTx.Proofs.Yaml.Scanner
import TypedTx.Proofs.Yaml.Flow
import TypedTx.Proofs.Registry.Loading
