/-!
# Kinds of transactions

Every kind has a type byte. Typed transactions start with it on the wire, a
legacy transaction starts with a list header instead.
-/

namespace TypedTx

/-- The layout and fee model of a transaction. -/
inductive Kind where
  | legacy
  | accessList
  | feeMarket
  | priority
deriving DecidableEq, Repr, Inhabited

namespace Kind

def all : List Kind :=
  [.legacy, .accessList, .feeMarket, .priority]

/-- The type byte. That of a legacy transaction is never written on the wire. -/
def marker : Kind → UInt8
  | .legacy => 0x00
  | .accessList => 0x01
  | .feeMarket => 0x02
  | .priority => 0x40

def ofMarker? (marker : UInt8) : Option Kind :=
  all.find? fun kind => kind.marker = marker

/-- The type byte in decimal. -/
def text (kind : Kind) : String :=
  toString kind.marker.toNat

/-- The upgrades without which a registry refuses the kind. -/
def requiredEips : Kind → List Nat
  | .legacy => []
  | .accessList => [2718, 2930]
  | .feeMarket => [2718, 1559]
  | .priority => [2718, 1559]

/-- Whether the chain id is a field of its own. -/
def isTyped (kind : Kind) : Bool :=
  kind != .legacy

@[simp] theorem ofMarker?_marker (kind : Kind) : ofMarker? kind.marker = some kind := by
  cases kind <;> decide

theorem ofMarker?_eq_some_iff {marker : UInt8} {kind : Kind} :
    ofMarker? marker = some kind ↔ kind.marker = marker := by
  constructor
  · intro h
    rw [ofMarker?] at h
    simpa using List.find?_some h
  · rintro rfl
    exact ofMarker?_marker kind

theorem eq_legacy_or_isTyped (kind : Kind) : kind = .legacy ∨ kind.isTyped = true := by
  cases kind <;> decide

/-- Type bytes lie below the first bytes of lists. -/
theorem marker_lt (kind : Kind) : kind.marker < 0xc0 := by
  cases kind <;> decide

end Kind
end TypedTx
