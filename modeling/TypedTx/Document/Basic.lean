import TypedTx.Document.Json
import TypedTx.Draft.Basic

/-!
# Documents

The JSON form of a draft: every field is a hexadecimal text, numbers as
quantities and the rest as byte strings, and absent fields are left out.
`Document.ofDraft` writes a draft and `Document.draft` reads one back; `ofJson?`
and `toJson` give the JSON value of a document.
-/

namespace TypedTx

structure AccessText where
  address : String
  storageKeys : List String
deriving DecidableEq, Repr

/-- The fields of a draft in text. -/
structure Document extends Quantities String where
  kind : Option String := none
  recipient : Option String := none
  data : Option String := none
  accessList : Option (List AccessText) := none
deriving DecidableEq, Repr

/-- Read a quantity: hexadecimal digits behind `0x` or `0X`, none meaning
zero. -/
def readQuantity (field : String) (text : String) : Except Fault Word :=
  match Hex.significant? text with
  | none => .error (.invalidFieldEncoding field)
  | some digits =>
      if 64 < digits.length then .error (.integerOverflow field)
      else .ok (Word.ofNat (Radix.value 16 digits))

def readHex (field : String) (text : String) : Except Fault Bytes :=
  match Hex.bytes? text with
  | some bs => .ok bs
  | none => .error (.invalidFieldEncoding field)

/-- Read a type byte that belongs to a kind. -/
def readKind (text : String) : Except Fault Kind := do
  let w ← readQuantity "type" text
  match w.toUInt8? with
  | none => .error (.invalidFieldEncoding "type")
  | some marker =>
      match Kind.ofMarker? marker with
      | some kind => .ok kind
      | none => .error (.unsupportedTransactionType marker)

def readSome {α β : Type} (read : α → Except Fault β) : Option α → Except Fault (Option β)
  | none => .ok none
  | some x => do
      let y ← read x
      .ok (some y)

def readRecipientText (text : String) : Except Fault Address := do
  let bs ← readHex "to" text
  Fixed.read 20 "to" bs

def AccessText.read (i : Nat) (entry : AccessText) : Except Fault AccessEntry := do
  let bs ← readHex "accessList.address" entry.address
  let address ← Fixed.read 20 (AccessList.addressField i) bs
  let storageKeys ← AccessList.readFrom (fun j text => do
    let bs ← readHex (AccessList.keyField i j) text
    Fixed.read 32 (AccessList.keyField i j) bs) 0 entry.storageKeys
  .ok ⟨address, storageKeys⟩

def AccessText.ofEntry (entry : AccessEntry) : AccessText :=
  ⟨Hex.text entry.address.1, entry.storageKeys.map fun key => Hex.text key.1⟩

namespace Document

/-- The draft that a document stands for. -/
def draft (doc : Document) : Except Fault Draft := do
  let kind ← readSome readKind doc.kind
  let recipient ← readSome readRecipientText doc.recipient
  let data ← readSome (readHex "data") doc.data
  let accessList ← readSome (AccessList.readFrom AccessText.read 0) doc.accessList
  let quantities ← doc.toQuantities.readAll fun q text => readQuantity q.name text
  .ok { toQuantities := quantities, kind, recipient, data, accessList }

def ofDraft (d : Draft) : Document where
  toQuantities := d.toQuantities.map fun w => Hex.quantity w.toNat
  kind := d.kind.map fun kind => Hex.quantity kind.marker.toNat
  recipient := d.recipient.map fun address => Hex.text address.1
  data := d.data.map Hex.text
  accessList := d.accessList.map fun list => list.map AccessText.ofEntry

/-- An entry of an access list: an object with two required keys, or the pair of
their values. -/
def accessTextOfJson? : Json → Option AccessText
  | .object entries => do
      let address ← (Json.getKey entries "address").string?
      let storageKeys ← (Json.getKey entries "storageKeys").strings?
      some ⟨address, storageKeys⟩
  | .array [address, storageKeys] => do
      let address ← address.string?
      let storageKeys ← storageKeys.strings?
      some ⟨address, storageKeys⟩
  | _ => none

def accessListOfJson? : Json → Option (Option (List AccessText))
  | .null => some none
  | .array items => do
      let entries ← items.mapM accessTextOfJson?
      some (some entries)
  | _ => none

/-- The numeric fields of an object, put into `acc`. -/
def quantitiesOfJson? (entries : List (String × Json)) :
    List Quantity → Quantities String → Option (Quantities String)
  | [], acc => some acc
  | q :: qs, acc => do
      let text ← (Json.getKey entries q.name).optionalString?
      quantitiesOfJson? entries qs (acc.set q text)

/-- The document that the entries of a JSON object hold. Unknown keys are passed over. -/
def ofEntries? (entries : List (String × Json)) : Option Document := do
  let kind ← (Json.getKey entries "type").optionalString?
  let recipient ← (Json.getKey entries "to").optionalString?
  let data ← (Json.getKey entries "data").optionalString?
  let accessList ← accessListOfJson? (Json.getKey entries "accessList")
  let quantities ← quantitiesOfJson? entries Quantity.all {}
  some { toQuantities := quantities, kind, recipient, data, accessList }

/-- The keys of a document, in the order in which the members of an array stand for
them. -/
def keys : List String :=
  ["type", "chainId", "nonce", "gasPrice", "maxPriorityFeePerGas", "maxFeePerGas", "gasLimit",
   "to", "value", "data", "accessList", "v", "r", "s", "pV", "pR", "pS"]

/-- The document that a JSON value holds: an object, or the array of the values of its first
keys. -/
def ofJson? : Json → Option Document
  | .object entries => ofEntries? entries
  | .array items => if items.length ≤ keys.length then ofEntries? (keys.zip items) else none
  | _ => none

def accessTextToJson (entry : AccessText) : Json :=
  .object [("address", .string entry.address),
    ("storageKeys", .array (entry.storageKeys.map .string))]

def toJson (doc : Document) : Json :=
  let text (key : String) (x : Option String) : List (String × Json) :=
    match x with
    | some s => [(key, .string s)]
    | none => []
  .object (text "type" doc.kind ++ text "to" doc.recipient ++ text "data" doc.data ++
    (match doc.accessList with
      | some entries => [("accessList", .array (entries.map accessTextToJson))]
      | none => []) ++
    Quantity.all.flatMap fun q => text q.name (doc.get q))

end Document
end TypedTx
