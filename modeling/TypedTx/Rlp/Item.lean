import TypedTx.Word

/-!
# Recursive-length-prefix values

A value is a byte string or a list of values. `encode` writes its one wire
form: a header announcing the size of the payload, then the payload; a single
byte below `0x80` is its own encoding. `encodedLength` predicts the number of
bytes without writing them, and the header of a list announces what is
predicted for its members.
-/

namespace TypedTx.Rlp

/-- A byte string or a list of values. -/
inductive Item where
  | bytes (bs : Bytes)
  | list (items : List Item)
deriving Repr, Inhabited

namespace Item

mutual

def decEq : (x y : Item) → Decidable (x = y)
  | .bytes a, .bytes b =>
      if h : a = b then .isTrue (h ▸ rfl) else .isFalse fun e => h (Item.bytes.inj e)
  | .list xs, .list ys =>
      match decEqAll xs ys with
      | .isTrue h => .isTrue (h ▸ rfl)
      | .isFalse h => .isFalse fun e => h (Item.list.inj e)
  | .bytes _, .list _ => .isFalse nofun
  | .list _, .bytes _ => .isFalse nofun

def decEqAll : (xs ys : List Item) → Decidable (xs = ys)
  | [], [] => .isTrue rfl
  | [], _ :: _ => .isFalse nofun
  | _ :: _, [] => .isFalse nofun
  | x :: xs, y :: ys =>
      match decEq x y, decEqAll xs ys with
      | .isTrue h, .isTrue hs => .isTrue (h ▸ hs ▸ rfl)
      | .isFalse h, _ => .isFalse fun e => h (List.cons.inj e).1
      | _, .isFalse hs => .isFalse fun e => hs (List.cons.inj e).2

end

instance : DecidableEq Item := decEq

/-- The empty byte string, which stands for zero and for an absent recipient. -/
def empty : Item := .bytes []

def ofWord (w : Word) : Item := .bytes w.toBytes

mutual

/-- How deep lists are nested: 0 for a byte string, 1 for a list of byte
strings. -/
def depth : Item → Nat
  | .bytes _ => 0
  | .list items => depthAll items + 1

/-- The greatest depth among the members of a list. -/
def depthAll : List Item → Nat
  | [] => 0
  | item :: items => Nat.max (depth item) (depthAll items)

end

end Item

/-- Whether `bs` is one byte that needs no header. -/
def isSelfEncoded : Bytes → Bool
  | [b] => b < 0x80
  | _ => false

/-- The header of a payload of `size` bytes. `base` is `0x80` for a byte string
and `0xc0` for a list. Sizes of 56 and more are written behind their own
length. -/
def header (base : UInt8) (size : Nat) : Bytes :=
  if size < 56 then
    [base + UInt8.ofNat size]
  else
    let digits := Bytes.ofNat size
    (base + 55 + UInt8.ofNat digits.length) :: digits

/-- The number of bytes in the header of a payload of `size` bytes. -/
def headerLength (size : Nat) : Nat :=
  if size < 56 then 1 else 1 + (Bytes.ofNat size).length

def encodeBytes (bs : Bytes) : Bytes :=
  if isSelfEncoded bs then bs else header 0x80 bs.length ++ bs

mutual

/-- The number of bytes in the wire form of a value. -/
def encodedLength : Item → Nat
  | .bytes bs => if isSelfEncoded bs then 1 else headerLength bs.length + bs.length
  | .list items => headerLength (payloadLength items) + payloadLength items

/-- The number of bytes in the encodings of the members of a list. -/
def payloadLength : List Item → Nat
  | [] => 0
  | item :: items => encodedLength item + payloadLength items

end

mutual

/-- The wire form of a value. The header of a list announces the size that is predicted
for its payload. -/
def encode : Item → Bytes
  | .bytes bs => encodeBytes bs
  | .list items => header 0xc0 (payloadLength items) ++ encodeAll items

def encodeAll : List Item → Bytes
  | [] => []
  | item :: items => encode item ++ encodeAll items

end

def encodeList (items : List Item) : Bytes :=
  header 0xc0 (payloadLength items) ++ encodeAll items

end TypedTx.Rlp
