import TypedTx.Draft.Basic

/-!
# Field layouts

Every kind lists its fields in wire order, followed by the components of its
signatures. `Draft.item` writes a field and `Field.read` reads one; reading a
whole list of values checks their number first and then each field from left to
right.
-/

namespace TypedTx

/-- A number must not start with a zero byte. -/
def requireMinimal (field : String) (bs : Bytes) : Except Fault Unit :=
  if bs.hasLeadingZero then .error (.invalidFieldEncoding field) else .ok ()

/-- A number must fit in 256 bits. -/
def requireFits (field : String) (bs : Bytes) : Except Fault Unit :=
  if (Word.ofBytes? bs).isNone then .error (.integerOverflow field) else .ok ()

/-- A field that is not a list must be a byte string. -/
def requireBytes (field : String) : Rlp.Item → Except Fault Unit
  | .bytes _ => .ok ()
  | .list _ => .error (.invalidFieldShape field)

/-- Apply a requirement to named values from left to right. -/
def requireAll {α : Type} (require : String → α → Except Fault Unit) :
    List (String × α) → Except Fault Unit
  | [] => .ok ()
  | (field, x) :: rest => do
      require field x
      requireAll require rest

def readBytes (field : String) : Rlp.Item → Except Fault Bytes
  | .bytes bs => .ok bs
  | .list _ => .error (.invalidFieldShape field)

/-- Read a number in its minimal form. -/
def readWord (field : String) (item : Rlp.Item) : Except Fault Word := do
  let bs ← readBytes field item
  requireMinimal field bs
  match Word.ofBytes? bs with
  | some w => .ok w
  | none => .error (.integerOverflow field)

/-- Read a recipient; the empty byte string stands for none. -/
def readRecipient (item : Rlp.Item) : Except Fault (Option Address) := do
  let bs ← readBytes "to" item
  if bs.isEmpty then .ok none
  else
    let address ← Fixed.read 20 "to" bs
    .ok (some address)

inductive Field where
  | quantity (q : Quantity)
  | recipient
  | data
  | accessList
deriving DecidableEq, Repr

namespace Kind

/-- The fields that a signature covers, in wire order. -/
def layout : Kind → List Field
  | .legacy =>
      [.quantity .nonce, .quantity .gasPrice, .quantity .gasLimit, .recipient,
       .quantity .value, .data]
  | .accessList =>
      [.quantity .chainId, .quantity .nonce, .quantity .gasPrice, .quantity .gasLimit, .recipient,
       .quantity .value, .data, .accessList]
  | .feeMarket | .priority =>
      [.quantity .chainId, .quantity .nonce, .quantity .maxPriorityFeePerGas,
       .quantity .maxFeePerGas, .quantity .gasLimit, .recipient, .quantity .value, .data,
       .accessList]

def signatureLayout : Kind → List Field
  | .priority =>
      [.quantity .v, .quantity .r, .quantity .s, .quantity .pV, .quantity .pR, .quantity .pS]
  | _ => [.quantity .v, .quantity .r, .quantity .s]

end Kind

/-- The wire form of a field. Absent numbers are written as zero, an absent
recipient and absent data as the empty byte string. -/
def Draft.item (d : Draft) : Field → Rlp.Item
  | .quantity q => .ofWord ((d.get q).getD 0)
  | .recipient => .bytes ((d.recipient.map Subtype.val).getD [])
  | .data => .bytes (d.data.getD [])
  | .accessList => AccessList.toItem (d.accessList.getD [])

def Field.read (d : Draft) (item : Rlp.Item) : Field → Except Fault Draft
  | .quantity q => do
      let w ← readWord q.name item
      .ok { d with toQuantities := d.set q (some w) }
  | .recipient => do
      let recipient ← readRecipient item
      .ok { d with recipient }
  | .data => do
      let bs ← readBytes "data" item
      .ok { d with data := some bs }
  | .accessList => do
      let list ← AccessList.ofItem item
      .ok { d with accessList := some list }

def readFields : List Field → List Rlp.Item → Draft → Except Fault Draft
  | field :: fields, item :: items, d => do
      let d ← field.read d item
      readFields fields items d
  | _, _, d => .ok d

/-- The draft that a list of raw values stands for. Either all signature
components are there or none. -/
def Draft.ofItems (kind : Kind) (items : List Rlp.Item) : Except Fault Draft :=
  let unsigned := kind.layout
  let signed := kind.layout ++ kind.signatureLayout
  if items.length = unsigned.length then readFields unsigned items { kind := some kind }
  else if items.length = signed.length then readFields signed items { kind := some kind }
  else .error (.wrongFieldCount unsigned.length signed.length items.length)

end TypedTx
