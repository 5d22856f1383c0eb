import TypedTx.Document.Basic
import TypedTx.Transaction.Build

/-!
# Gates

A gate admits transactions of listed types. It builds transactions from drafts,
raw values, wire bytes and items of a block body, choosing the kind that the
input names and refusing the types that are not listed.
-/

namespace TypedTx

/-- The type bytes that are admitted; they need not belong to a kind. -/
structure Gate where
  markers : List UInt8
deriving DecidableEq, Repr, Inhabited

namespace Gate

/-- Admit the types of the public network. -/
def ethereum : Gate :=
  ⟨[Kind.legacy.marker, Kind.accessList.marker, Kind.feeMarket.marker]⟩

def permissive : Gate :=
  ⟨Kind.all.map Kind.marker⟩

def allow (gate : Gate) (marker : UInt8) : Gate :=
  ⟨marker :: gate.markers⟩

def admits (gate : Gate) (marker : UInt8) : Bool :=
  gate.markers.contains marker

def require (gate : Gate) (kind : Kind) : Except Failure Unit :=
  if gate.admits kind.marker then .ok ()
  else .error (Fault.bare (.unsupportedTransactionType kind.marker))

/-- The kind that a draft names; legacy if it names none. -/
def kindOfDraft (d : Draft) : Kind :=
  d.kind.getD .legacy

/-- The kind that wire bytes name: a list is a legacy transaction, and otherwise
the first byte is the type of a typed one. -/
def kindOfBytes : Bytes → Except Failure Kind
  | [] => .error (Fault.bare (.malformedEncoding (.header .inputTooShort)))
  | first :: _ =>
      if 0xc0 ≤ first then .ok .legacy
      else
        match Kind.ofMarker? first with
        | some .legacy | none => .error (Fault.bare (.unsupportedTransactionType first))
        | some kind => .ok kind

def build (gate : Gate) (d : Draft) (o : Options) : Except Failure Transaction := do
  let kind := kindOfDraft d
  gate.require kind
  kind.build d o

def buildValues (gate : Gate) (values : List Rlp.Item) (kind : Kind) (o : Options) :
    Except Failure Transaction := do
  gate.require kind
  kind.buildValues values o

def decode (gate : Gate) (input : Bytes) (o : Options) : Except Failure Transaction := do
  let kind ← kindOfBytes input
  gate.require kind
  kind.decode input o

/-- Build a transaction from an item of a block body: a byte string holds a wire
form, a list holds the raw values of a legacy transaction. -/
def buildItem (gate : Gate) (item : Rlp.Item) (o : Options) : Except Failure Transaction :=
  match item with
  | .bytes input => gate.decode input o
  | .list values => gate.buildValues values .legacy o

end Gate
end TypedTx
