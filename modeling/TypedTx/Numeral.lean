import TypedTx.Radix

/-!
# Numbers in text

Readers for unsigned numbers written with ASCII digits. Letters are digits too in
the bases that need them, and their case does not matter.
-/

namespace TypedTx.Numeral

/-- The value of an ASCII digit, or of a letter as a digit. -/
def digit? (c : Char) : Option Nat :=
  if '0' ≤ c ∧ c ≤ '9' then some (c.toNat - '0'.toNat)
  else if 'a' ≤ c ∧ c ≤ 'z' then some (c.toNat - 'a'.toNat + 10)
  else if 'A' ≤ c ∧ c ≤ 'Z' then some (c.toNat - 'A'.toNat + 10)
  else none

/-- The digit that `c` stands for in base `b`. -/
def digitIn? (b : Nat) (c : Char) : Option Nat := do
  let d ← digit? c
  if d < b then some d else none

/-- The number that one or more digits in base `b` spell. -/
def ofDigits? (b : Nat) (cs : List Char) : Option Nat :=
  if cs.isEmpty then none else (cs.mapM (digitIn? b)).map (Radix.value b)

/-- A 64-bit number in decimal, with an optional leading plus. -/
def uint64? (text : String) : Option UInt64 := do
  let digits := match text.toList with
    | '+' :: rest => rest
    | cs => cs
  let n ← ofDigits? 10 digits
  if n < UInt64.size then some (UInt64.ofNat n) else none

end TypedTx.Numeral
