import TypedTx.Bytes
import TypedTx.Numeral

/-!
# Hexadecimal text

Two written forms. A *byte string* has two lower-case digits a byte behind
`0x`. A *quantity* has the digits of a number without leading zeros behind
`0x`, and zero is `0x0`.
-/

namespace TypedTx.Hex

/-- The value of a hexadecimal digit in either case. -/
def digit? (c : Char) : Option Nat :=
  Numeral.digitIn? 16 c

/-- Two lower-case digits a byte. -/
def encode (bs : Bytes) : List Char :=
  bs.flatMap fun b => [Nat.digitChar (b.toNat / 16), Nat.digitChar (b.toNat % 16)]

/-- Read digit pairs, collecting the bytes in reverse. -/
def decodeOnto : List Char → Bytes → Option Bytes
  | [], acc => some acc.reverse
  | [_], _ => none
  | high :: low :: rest, acc =>
      match digit? high, digit? low with
      | some h, some l => decodeOnto rest (UInt8.ofNat (16 * h + l) :: acc)
      | _, _ => none

/-- The bytes that an even number of digits spells. -/
def decode? (digits : List Char) : Option Bytes :=
  decodeOnto digits []

/-- The text behind the leading `0x` or `0X`. -/
def unprefixed? (text : String) : Option (List Char) :=
  match text.toList with
  | '0' :: 'x' :: rest => some rest
  | '0' :: 'X' :: rest => some rest
  | _ => none

def text (bs : Bytes) : String :=
  "0x" ++ String.ofList (encode bs)

/-- Read a byte string. Behind the prefix the number of characters must be
even, and one more lower-case `0x` is passed over. -/
def bytes? (text : String) : Option Bytes := do
  let body ← unprefixed? text
  if body.length % 2 = 0 then
    match body with
    | '0' :: 'x' :: rest => decode? rest
    | _ => decode? body
  else
    none

def quantity (n : Nat) : String :=
  "0x" ++ String.ofList (if n = 0 then ['0'] else (Radix.digits 16 n).map Nat.digitChar)

/-- The significant digits of a quantity: those behind the prefix without the
leading zeros, if all of them are hexadecimal digits. -/
def significant? (text : String) : Option (List Nat) := do
  let body ← unprefixed? text
  let digits ← body.mapM digit?
  some (digits.dropWhile (· == 0))

end TypedTx.Hex
