import TypedTx.Document.Basic
import TypedTx.Gate
import TypedTx.Transaction.Query

/-!
# Sessions

A session holds a growing list of transactions, one of which may be current.
Commands build new transactions, from outside or from the current one; each new
transaction is appended and becomes current. A command that fails leaves the
session as it was. Queries ask the current transaction and may fill its caches.
-/

namespace TypedTx

/-- Outside data from which a transaction is built. -/
inductive Source where
  /-- A draft, of the kind that it names. -/
  | draft (gate : Gate) (d : Draft)
  /-- Raw values of a known kind. -/
  | rawValues (gate : Gate) (kind : Kind) (values : List Rlp.Item)
  /-- A wire form. -/
  | wire (gate : Gate) (input : Bytes)
  /-- An item of a block body. -/
  | blockItem (gate : Gate) (item : Rlp.Item)
  /-- A draft, of a kind given beside it. -/
  | draftAs (kind : Kind) (d : Draft)
  /-- Raw values, with no gate in front. -/
  | rawValuesAs (kind : Kind) (values : List Rlp.Item)
  /-- A wire form of a kind given beside it. -/
  | wireAs (kind : Kind) (input : Bytes)

/-- Build a transaction from outside data. -/
def Source.build (source : Source) (o : Options) : Except Failure Transaction :=
  match source with
  | .draft gate d => gate.build d o
  | .rawValues gate kind values => gate.buildValues values kind o
  | .wire gate input => gate.decode input o
  | .blockItem gate item => gate.buildItem item o
  | .draftAs kind d => kind.build d o
  | .rawValuesAs kind values => kind.buildValues values o
  | .wireAs kind input => kind.decode input o

/-- A way of making a transaction from the current one. -/
inductive Change where
  | sign (key : Bytes) (secondKey : Option Bytes)
  | signLegacy (key : Bytes) (mode : Replay)
  | update (edit : Draft → Draft)
  | rebind (registry : Registry)
  | freeze
  /-- Read the wire form back. -/
  | reparse (gate : Gate) (o : Options)
  /-- Read the document back and build from its draft. -/
  | rebuild (gate : Gate) (o : Options)

/-- Why a command changes nothing. -/
inductive Refusal where
  | noTransaction
  | notLegacy
  | failed (failure : Failure)
deriving DecidableEq, Repr

def Refusal.ofExcept {α : Type} : Except Failure α → Except Refusal α
  | .ok a => .ok a
  | .error failure => .error (.failed failure)

namespace Transaction

def document (t : Transaction) : Document :=
  .ofDraft t.draft

def apply (scheme : Scheme) (t : Transaction) : Change → Except Refusal Transaction
  | .sign key secondKey => Refusal.ofExcept (t.sign scheme key secondKey)
  | .signLegacy key mode =>
      match t.terms with
      | .legacy _ => Refusal.ofExcept (t.signLegacy scheme key mode)
      | _ => .error .notLegacy
  | .update edit => Refusal.ofExcept (t.update edit)
  | .rebind registry => Refusal.ofExcept (t.rebind registry)
  | .freeze => .ok t.freeze
  | .reparse gate o => Refusal.ofExcept (gate.decode t.encode o)
  | .rebuild gate o => Refusal.ofExcept do
      let d ← (t.document.draft).mapError Fault.bare
      gate.build d o

end Transaction

/-- The transactions built so far, the oldest first, and the position of the
current one. -/
structure Session where
  transactions : Array Transaction := #[]
  current : Option Nat := none

namespace Session

/-- The current transaction. A position behind the last one selects none. -/
def current? (session : Session) : Option Transaction :=
  session.current.bind fun i => session.transactions[i]?

/-- Append a transaction and make it current. -/
def push (session : Session) (t : Transaction) : Session :=
  ⟨session.transactions.push t, some session.transactions.size⟩

def select (session : Session) (i : Nat) : Session :=
  { session with current := some i }

def build (session : Session) (source : Source) (o : Options) : Except Refusal Session := do
  let t ← Refusal.ofExcept (source.build o)
  .ok (session.push t)

def change (scheme : Scheme) (session : Session) (change : Change) : Except Refusal Session :=
  match session.current? with
  | none => .error .noTransaction
  | some t => do
      let t ← t.apply scheme change
      .ok (session.push t)

/-- Ask the current transaction, which keeps the caches that the query filled. -/
def ask {α : Type} (scheme : Scheme) (session : Session) (query : Query α) :
    Except Refusal (α × Session) :=
  match session.current, session.current? with
  | some i, some t =>
      let (a, t) := t.answer scheme query
      .ok (a, { session with transactions := session.transactions.setIfInBounds i t })
  | _, _ => .error .noTransaction

end Session
end TypedTx
