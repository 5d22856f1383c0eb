import TypedTx.Fault

/-!
# Access lists

The accounts and storage slots that a transaction declares up front. The wire
form is a list of pairs of an address and a list of storage keys. Order and
repetitions are kept. Reading names the first offending position.
-/

namespace TypedTx

/-- An account and the slots used under it. -/
structure AccessEntry where
  address : Address
  storageKeys : List StorageKey
deriving DecidableEq, Repr

abbrev AccessList := List AccessEntry

def AccessEntry.toItem (entry : AccessEntry) : Rlp.Item :=
  .list [.bytes entry.address.1, .list (entry.storageKeys.map fun key => .bytes key.1)]

def Fixed.read (n : Nat) (field : String) (bs : Bytes) : Except Fault (Fixed n) :=
  match Fixed.ofBytes? n bs with
  | some x => .ok x
  | none => .error (.invalidFieldLength field n bs.length)

def Fixed.ofItem (n : Nat) (field : String) : Rlp.Item → Except Fault (Fixed n)
  | .bytes bs => Fixed.read n field bs
  | .list _ => .error (.invalidFieldShape field)

namespace AccessList

/-- How the entry at position `i` is named in messages. -/
def entryField (i : Nat) : String := s!"accessList[{i}]"

def addressField (i : Nat) : String := entryField i ++ ".address"

def keysField (i : Nat) : String := entryField i ++ ".storageKeys"

def keyField (i j : Nat) : String := keysField i ++ s!"[{j}]"

def storageKeyCount (list : AccessList) : Nat :=
  (list.flatMap AccessEntry.storageKeys).length

def toItem (list : AccessList) : Rlp.Item :=
  .list (list.map AccessEntry.toItem)

/-- Read elements from left to right, each with its position from `i` on, and
stop at the first fault. -/
def readFrom {α β : Type} (read : Nat → α → Except Fault β) :
    (i : Nat) → List α → Except Fault (List β)
  | _, [] => .ok []
  | i, x :: xs => do
      let y ← read i x
      let ys ← readFrom read (i + 1) xs
      .ok (y :: ys)

def readEntry (i : Nat) : Rlp.Item → Except Fault AccessEntry
  | .list [address, keys] => do
      let address ← Fixed.ofItem 20 (addressField i) address
      match keys with
      | .bytes _ => .error (.invalidFieldShape (keysField i))
      | .list keys =>
          let storageKeys ← readFrom (fun j => Fixed.ofItem 32 (keyField i j)) 0 keys
          .ok ⟨address, storageKeys⟩
  | _ => .error (.invalidFieldShape (entryField i))

def ofItem : Rlp.Item → Except Fault AccessList
  | .bytes _ => .error (.invalidFieldShape "accessList")
  | .list entries => readFrom readEntry 0 entries

end AccessList
end TypedTx
