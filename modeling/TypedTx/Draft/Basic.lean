import TypedTx.AccessList
import TypedTx.Kind

/-!
# Drafts

A draft holds the fields from which a transaction is built, any of which may be
absent. Its numeric fields form a table indexed by `Quantity`, which is used
with words in a draft and with texts in a document.
-/

namespace TypedTx

inductive Quantity where
  | chainId
  | nonce
  | gasPrice
  | maxPriorityFeePerGas
  | maxFeePerGas
  | gasLimit
  | value
  | v
  | r
  | s
  | pV
  | pR
  | pS
deriving DecidableEq, Repr

namespace Quantity

/-- All numeric fields, in the order in which documents are read. -/
def all : List Quantity :=
  [.chainId, .nonce, .gasPrice, .maxPriorityFeePerGas, .maxFeePerGas, .gasLimit, .value,
   .v, .r, .s, .pV, .pR, .pS]

def name : Quantity → String
  | .chainId => "chainId"
  | .nonce => "nonce"
  | .gasPrice => "gasPrice"
  | .maxPriorityFeePerGas => "maxPriorityFeePerGas"
  | .maxFeePerGas => "maxFeePerGas"
  | .gasLimit => "gasLimit"
  | .value => "value"
  | .v => "v"
  | .r => "r"
  | .s => "s"
  | .pV => "pV"
  | .pR => "pR"
  | .pS => "pS"

/-- The components of the two signatures. -/
def signatures : List Quantity :=
  [.v, .r, .s, .pV, .pR, .pS]

theorem mem_all (q : Quantity) : q ∈ all := by
  cases q <;> simp [all]

end Quantity

/-- A value for some of the numeric fields. -/
structure Quantities (α : Type) where
  chainId : Option α := none
  nonce : Option α := none
  gasPrice : Option α := none
  maxPriorityFeePerGas : Option α := none
  maxFeePerGas : Option α := none
  gasLimit : Option α := none
  value : Option α := none
  v : Option α := none
  r : Option α := none
  s : Option α := none
  pV : Option α := none
  pR : Option α := none
  pS : Option α := none
deriving DecidableEq, Repr

namespace Quantities

variable {α β ε : Type}

def get (t : Quantities α) : Quantity → Option α
  | .chainId => t.chainId
  | .nonce => t.nonce
  | .gasPrice => t.gasPrice
  | .maxPriorityFeePerGas => t.maxPriorityFeePerGas
  | .maxFeePerGas => t.maxFeePerGas
  | .gasLimit => t.gasLimit
  | .value => t.value
  | .v => t.v
  | .r => t.r
  | .s => t.s
  | .pV => t.pV
  | .pR => t.pR
  | .pS => t.pS

/-- Replace or clear the value of a field. -/
def set (t : Quantities α) (q : Quantity) (x : Option α) : Quantities α :=
  match q with
  | .chainId => { t with chainId := x }
  | .nonce => { t with nonce := x }
  | .gasPrice => { t with gasPrice := x }
  | .maxPriorityFeePerGas => { t with maxPriorityFeePerGas := x }
  | .maxFeePerGas => { t with maxFeePerGas := x }
  | .gasLimit => { t with gasLimit := x }
  | .value => { t with value := x }
  | .v => { t with v := x }
  | .r => { t with r := x }
  | .s => { t with s := x }
  | .pV => { t with pV := x }
  | .pR => { t with pR := x }
  | .pS => { t with pS := x }

def map (f : α → β) (t : Quantities α) : Quantities β where
  chainId := t.chainId.map f
  nonce := t.nonce.map f
  gasPrice := t.gasPrice.map f
  maxPriorityFeePerGas := t.maxPriorityFeePerGas.map f
  maxFeePerGas := t.maxFeePerGas.map f
  gasLimit := t.gasLimit.map f
  value := t.value.map f
  v := t.v.map f
  r := t.r.map f
  s := t.s.map f
  pV := t.pV.map f
  pR := t.pR.map f
  pS := t.pS.map f

/-- Read the values of the listed fields and put them into `acc`, stopping at
the first fault. -/
def readOnto (read : Quantity → α → Except ε β) (t : Quantities α) :
    List Quantity → Quantities β → Except ε (Quantities β)
  | [], acc => .ok acc
  | q :: qs, acc =>
      match t.get q with
      | none => readOnto read t qs acc
      | some x => do
          let y ← read q x
          readOnto read t qs (acc.set q (some y))

def readAll (read : Quantity → α → Except ε β) (t : Quantities α) : Except ε (Quantities β) :=
  readOnto read t Quantity.all {}

def clear (t : Quantities α) (qs : List Quantity) : Quantities α :=
  qs.foldl (fun t q => t.set q none) t

/-- A table is determined by its values. -/
theorem ext_get {t u : Quantities α} (h : ∀ q, t.get q = u.get q) : t = u := by
  cases t
  cases u
  simp only [mk.injEq]
  exact ⟨h .chainId, h .nonce, h .gasPrice, h .maxPriorityFeePerGas, h .maxFeePerGas,
    h .gasLimit, h .value, h .v, h .r, h .s, h .pV, h .pR, h .pS⟩

@[simp] theorem get_empty (q : Quantity) : ({} : Quantities α).get q = none := by
  cases q <;> rfl

@[simp] theorem get_map (f : α → β) (t : Quantities α) (q : Quantity) :
    (t.map f).get q = (t.get q).map f := by
  cases q <;> rfl

@[simp] theorem get_set_self (t : Quantities α) (q : Quantity) (x : Option α) :
    (t.set q x).get q = x := by
  cases q <;> rfl

theorem get_set_of_ne (t : Quantities α) {q p : Quantity} (h : p ≠ q) (x : Option α) :
    (t.set q x).get p = t.get p := by
  cases q <;> cases p <;> first | rfl | exact absurd rfl h

theorem get_clear_of_notMem {t : Quantities α} {qs : List Quantity} {q : Quantity} (h : q ∉ qs) :
    (t.clear qs).get q = t.get q := by
  induction qs generalizing t with
  | nil => rfl
  | cons p qs ih =>
      rw [List.mem_cons, not_or] at h
      exact (ih h.2).trans (get_set_of_ne t h.1 none)

end Quantities

/-- The fields from which a transaction is built. Fields that a kind does not
have are ignored by it; absent numbers count as zero. -/
structure Draft extends Quantities Word where
  kind : Option Kind := none
  /-- The recipient. Without one the transaction creates a contract. -/
  recipient : Option Address := none
  data : Option Bytes := none
  accessList : Option AccessList := none
deriving DecidableEq, Repr

/-- The components of a signature, as far as they are present. -/
structure SignatureParts where
  v : Option Word := none
  r : Option Word := none
  s : Option Word := none
deriving DecidableEq, Repr

namespace SignatureParts

def isAbsent (parts : SignatureParts) : Bool :=
  parts.v.isNone && parts.r.isNone && parts.s.isNone

def complete? (parts : SignatureParts) : Option (Word × Word × Word) :=
  match parts with
  | ⟨some v, some r, some s⟩ => some (v, r, s)
  | _ => none

def ofWords (v r s : Word) : SignatureParts :=
  ⟨some v, some r, some s⟩

end SignatureParts

namespace Draft

def signature (d : Draft) : SignatureParts := ⟨d.v, d.r, d.s⟩

/-- The second signature, which only a priority transaction has. -/
def secondSignature (d : Draft) : SignatureParts := ⟨d.pV, d.pR, d.pS⟩

def withSignature (d : Draft) (parts : SignatureParts) : Draft :=
  { d with v := parts.v, r := parts.r, s := parts.s }

def withSecondSignature (d : Draft) (parts : SignatureParts) : Draft :=
  { d with pV := parts.v, pR := parts.r, pS := parts.s }

def withKind (d : Draft) (kind : Kind) : Draft :=
  { d with kind := some kind }

/-- Drop the components of both signatures. -/
def withoutSignatures (d : Draft) : Draft :=
  { d with toQuantities := d.toQuantities.clear Quantity.signatures }

/-- Nothing else is dropped. -/
theorem withoutSignatures_eq (d : Draft) :
    d.withoutSignatures =
      { d with v := none, r := none, s := none, pV := none, pR := none, pS := none } := rfl

end Draft
end TypedTx
