import TypedTx.Rlp.Item

/-!
# Reading recursive-length-prefix values

The reader accepts exactly the wire forms that `encode` writes, up to a fixed
nesting depth: sizes must be minimal, a lone small byte must not carry a
header, and nothing may follow the value.
-/

namespace TypedTx.Rlp

inductive HeaderFault where
  | inputTooShort
  | nonCanonicalSingleByte
  | leadingZero
  | nonCanonicalSize
deriving DecidableEq, Repr

def HeaderFault.message : HeaderFault → String
  | .inputTooShort => "input too short"
  | .nonCanonicalSingleByte => "non-canonical single byte"
  | .leadingZero => "leading zero"
  | .nonCanonicalSize => "non-canonical size"

/-- Why an input is not the wire form of a value. -/
inductive Fault where
  | header (fault : HeaderFault)
  | trailingBytes (count : Nat)
  | expectedList
  | depthLimitExceeded (limit : Nat)
deriving DecidableEq, Repr

def Fault.message : Fault → String
  | .header fault => s!"invalid rlp header: {fault.message}"
  | .trailingBytes count => s!"{count} trailing bytes after rlp item"
  | .expectedList => "expected rlp list, found byte string"
  | .depthLimitExceeded limit => s!"rlp lists nested deeper than {limit} levels"

/-- The deepest nesting of lists that is read. -/
def maxDepth : Nat := 16

/-- What a header announces. -/
inductive Shape where
  | bytes
  | list
deriving DecidableEq, Repr

/-- The first value of an input, its payload not yet interpreted. -/
structure Chunk where
  shape : Shape
  payload : Bytes
  rest : Bytes
deriving DecidableEq, Repr

/-- The first `size` bytes of `input` and those behind them. -/
def splitExactly (size : Nat) (input : Bytes) : Except HeaderFault (Bytes × Bytes) :=
  let front := input.take size
  if front.length < size then .error .inputTooShort else .ok (front, input.drop size)

/-- A payload size written in `width` bytes, and what follows it. -/
def readSize (width : Nat) (input : Bytes) : Except HeaderFault (Nat × Bytes) := do
  let (digits, rest) ← splitExactly width input
  if digits.hasLeadingZero then .error .leadingZero
  else if digits.toNat < 56 then .error .nonCanonicalSize
  else .ok (digits.toNat, rest)

/-- Cut a payload of `size` bytes off the input. -/
def Chunk.cut (shape : Shape) (size : Nat) (input : Bytes) : Except HeaderFault Chunk := do
  let (payload, rest) ← splitExactly size input
  .ok ⟨shape, payload, rest⟩

/-- Read the first header and cut off the payload that it announces. -/
def Chunk.read : Bytes → Except HeaderFault Chunk
  | [] => .error .inputTooShort
  | first :: rest =>
      if first < 0x80 then .ok ⟨.bytes, [first], rest⟩
      else if first = 0x81 then
        match rest with
        | [] => .error .inputTooShort
        | b :: _ => if b < 0x80 then .error .nonCanonicalSingleByte else Chunk.cut .bytes 1 rest
      else if first ≤ 0xb7 then Chunk.cut .bytes (first.toNat - 0x80) rest
      else if first ≤ 0xbf then do
        let (size, rest) ← readSize (first.toNat - 0xb7) rest
        Chunk.cut .bytes size rest
      else if first ≤ 0xf7 then Chunk.cut .list (first.toNat - 0xc0) rest
      else do
        let (size, rest) ← readSize (first.toNat - 0xf7) rest
        Chunk.cut .list size rest

/-- Read values with `step` until the input is used up, collecting them in
reverse. Every value takes at least one byte, so the length of the input is
enough of a bound. -/
def collect (step : Bytes → Except Fault (Item × Bytes)) :
    (bound : Nat) → Bytes → List Item → Except Fault (List Item)
  | _, [], acc => .ok acc.reverse
  | 0, _ :: _, _ => .error (.header .inputTooShort)
  | bound + 1, b :: bs, acc =>
      match step (b :: bs) with
      | .error fault => .error fault
      | .ok (item, rest) => collect step bound rest (item :: acc)

/-- Read the first value of an input in which lists may still be nested
`levels` deep. The depth is checked once the payload of the list is there. -/
def readItem : (levels : Nat) → Bytes → Except Fault (Item × Bytes)
  | levels, input =>
      match Chunk.read input with
      | .error fault => .error (.header fault)
      | .ok ⟨.bytes, payload, rest⟩ => .ok (.bytes payload, rest)
      | .ok ⟨.list, payload, rest⟩ =>
          match levels with
          | 0 => .error (.depthLimitExceeded maxDepth)
          | levels + 1 =>
              match collect (readItem levels) payload.length payload [] with
              | .error fault => .error fault
              | .ok items => .ok (.list items, rest)

/-- The value whose wire form is `input`. -/
def decode (input : Bytes) : Except Fault Item :=
  match readItem maxDepth input with
  | .error fault => .error fault
  | .ok (item, []) => .ok item
  | .ok (_, rest@(_ :: _)) => .error (.trailingBytes rest.length)

def decodeList (input : Bytes) : Except Fault (List Item) :=
  match decode input with
  | .error fault => .error fault
  | .ok (.bytes _) => .error .expectedList
  | .ok (.list items) => .ok items

end TypedTx.Rlp
