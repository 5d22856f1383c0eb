import TypedTx.Proofs.Transaction.Resigning

/-!
# Which components of two signatures are accepted

Building a priority transaction asks that each of its two sets of signature components
has some component or that neither has one. A complete set is not told from a partial
one: whatever is left of both sets is accepted again, as long as something is left of
both or nothing of either. What was accepted is signed if and only if all six components
are there, and otherwise none of them is among its values in wire order.
-/

namespace TypedTx

namespace SignatureParts

variable {parts first second sub : SignatureParts}

/-- Whether some components are there and some are not. -/
def isPartial (parts : SignatureParts) : Bool :=
  !parts.isAbsent && parts.complete?.isNone

/-- `parts` has every component that `sub` has, and maybe more. -/
structure Extends (parts sub : SignatureParts) : Prop where
  v : ∀ x, sub.v = some x → parts.v = some x
  r : ∀ x, sub.r = some x → parts.r = some x
  s : ∀ x, sub.s = some x → parts.s = some x

theorem isSome_complete? (parts : SignatureParts) :
    parts.complete?.isSome = (parts.v.isSome && parts.r.isSome && parts.s.isSome) := by
  match parts with
  | ⟨some _, some _, some _⟩ => rfl
  | ⟨none, _, _⟩ => rfl
  | ⟨some _, none, _⟩ => rfl
  | ⟨some _, some _, none⟩ => rfl

theorem isAbsent_eq_false_of_complete (h : parts.complete?.isSome = true) :
    parts.isAbsent = false := by
  obtain ⟨v, r, s, rfl⟩ := complete?_isSome_iff.mp h
  rfl

theorem isPartial_eq_false_iff :
    parts.isPartial = false ↔ parts.complete?.isSome = true ∨ parts.isAbsent = true := by
  rw [isPartial]
  cases hcomplete : parts.complete? with
  | none => simp
  | some words => simp

/-- Where both sets are touched or neither is, both are complete or both absent exactly
if none is partial. -/
theorem complete_or_absent_iff (h : first.isAbsent = second.isAbsent) :
    (first.complete?.isSome = true ∧ second.complete?.isSome = true) ∨
        (first.isAbsent = true ∧ second.isAbsent = true) ↔
      first.isPartial = false ∧ second.isPartial = false := by
  rw [isPartial_eq_false_iff, isPartial_eq_false_iff]
  constructor
  · rintro (⟨hfirst, hsecond⟩ | ⟨hfirst, hsecond⟩)
    · exact ⟨.inl hfirst, .inl hsecond⟩
    · exact ⟨.inr hfirst, .inr hsecond⟩
  · rintro ⟨hfirst | hfirst, hsecond⟩
    · have htouched : second.isAbsent = false := h ▸ isAbsent_eq_false_of_complete hfirst
      refine .inl ⟨hfirst, ?_⟩
      simpa [htouched] using hsecond
    · exact .inr ⟨hfirst, h ▸ hfirst⟩

end SignatureParts

namespace Draft

variable {d : Draft}

/-- Every component of the two signatures is there. -/
def HasAllComponents (d : Draft) : Prop :=
  ∀ q ∈ Quantity.signatures, (d.get q).isSome = true

def HasNoComponent (d : Draft) : Prop :=
  ∀ q ∈ Quantity.signatures, d.get q = none

theorem hasAllComponents_iff :
    d.HasAllComponents ↔
      d.signature.complete?.isSome = true ∧ d.secondSignature.complete?.isSome = true := by
  simp [HasAllComponents, Quantity.signatures, Quantities.get, SignatureParts.isSome_complete?,
    signature, secondSignature, and_assoc]

theorem hasNoComponent_iff :
    d.HasNoComponent ↔ d.signature.isAbsent = true ∧ d.secondSignature.isAbsent = true := by
  simp [HasNoComponent, Quantity.signatures, Quantities.get, SignatureParts.isAbsent, signature,
    secondSignature, and_assoc]

end Draft

namespace Kind

variable {kind : Kind} {d : Draft} {o : Options} {t : Transaction} {first second : SignatureParts}

theorem signature_of_build (h : kind.build d o = .ok t) : t.signature = d.signature := by
  obtain ⟨registry, -, -, rfl⟩ := build_eq_ok_iff.mp h
  rfl

theorem secondSignature?_of_build (h : Kind.priority.build d o = .ok t) :
    t.secondSignature? = some d.secondSignature := by
  obtain ⟨registry, -, -, rfl⟩ := build_eq_ok_iff.mp h
  rfl

theorem isAbsent_eq_of_build (h : Kind.priority.build d o = .ok t) :
    d.signature.isAbsent = d.secondSignature.isAbsent := by
  have hsecond := (valid_of_build h).second d.secondSignature (secondSignature?_of_build h)
  rw [← signature_of_build h]
  exact hsecond.together

theorem isSigned_iff_of_build (h : Kind.priority.build d o = .ok t) :
    t.isSigned = true ↔ d.HasAllComponents := by
  rw [Transaction.isSigned_iff, Draft.hasAllComponents_iff, signature_of_build h,
    secondSignature?_of_build h]
  simp

/-- What is left of an accepted draft after dropping components is accepted again. -/
theorem build_of_extends (h : Kind.priority.build d o = .ok t)
    (hfirst : d.signature.Extends first) (hsecond : d.secondSignature.Extends second)
    (htogether : first.isAbsent = second.isAbsent) :
    Kind.priority.build ((d.withSignature first).withSecondSignature second) o =
      .ok (t.resigned first second) := by
  have hvalid : t.Valid := valid_of_build h
  have hother := hvalid.second d.secondSignature (secondSignature?_of_build h)
  have hadmits : t.Admits first second :=
    { parity := fun v hv => hvalid.parity v (signature_of_build h ▸ hfirst.v v hv)
      lowS := fun s hs => hvalid.lowS s (signature_of_build h ▸ hfirst.s s hs)
      second := fun _ =>
        { together := htogether
          parity := fun v hv => hother.parity v (hsecond.v v hv)
          lowS := fun s hs => hother.lowS s (hsecond.s s hs) } }
  obtain ⟨registry, hresolve, hrequire, rfl⟩ := build_eq_ok_iff.mp h
  have hassemble : Kind.priority.assemble registry o
      ((d.withSignature first).withSecondSignature second) =
        (Kind.priority.assemble registry o d).resigned first second := rfl
  refine build_eq_ok_iff.mpr ⟨registry, hresolve, ?_, hassemble⟩
  refine requireValid_iff.mpr ⟨(requireValid_iff.mp hrequire).1, ?_⟩
  rw [hassemble]
  exact hvalid.resigned hadmits

/-- What is accepted for a priority transaction has components of both signatures or of
neither, and it is signed if and only if it has all six. It has all or none exactly if
neither signature is partial. A partial one keeps no component on the wire, and it is
never refused for being partial: dropping components of what is accepted gives what is
accepted again, unless all are dropped of one signature only. -/
theorem components_of_build (h : Kind.priority.build d o = .ok t) :
    d.signature.isAbsent = d.secondSignature.isAbsent ∧
    (t.isSigned = true ↔ d.HasAllComponents) ∧
    (t.isSigned = true ∧ d.HasAllComponents ∨ d.HasNoComponent ↔
      d.signature.isPartial = false ∧ d.secondSignature.isPartial = false) ∧
    (t.isSigned = false → t.rawValues = t.unsignedValues) ∧
    ∀ first second, d.signature.Extends first → d.secondSignature.Extends second →
      first.isAbsent = second.isAbsent →
        Kind.priority.build ((d.withSignature first).withSecondSignature second) o =
          .ok (t.resigned first second) := by
  have htogether := isAbsent_eq_of_build h
  have hsigned := isSigned_iff_of_build h
  refine ⟨htogether, hsigned, ?_, ?_, ?_⟩
  · rw [hsigned, and_self, Draft.hasAllComponents_iff, Draft.hasNoComponent_iff]
    exact SignatureParts.complete_or_absent_iff htogether
  · intro hunsigned
    rw [Transaction.rawValues, hunsigned, if_neg Bool.false_ne_true]
  · intro first second hfirst hsecond
    exact build_of_extends h hfirst hsecond

/-- A complete first signature beside the `v` of a second one. -/
theorem components_of_build_of_half :
    let d : Draft := { v := some 0, r := some 1, s := some 1, pV := some 0 }
    let t := Kind.priority.assemble .standard {} d
    Kind.priority.build d {} = .ok t ∧ t.isSigned = false ∧ t.rawValues = t.unsignedValues ∧
      Kind.priority.build ((d.withSignature { r := some 1 }).withSecondSignature { v := some 0 })
        {} = .ok (t.resigned { r := some 1 } { v := some 0 }) := by
  intro d t
  have h : Kind.priority.build d {} = .ok t := rfl
  obtain ⟨-, -, -, hraw, hdrop⟩ := components_of_build h
  refine ⟨h, rfl, hraw rfl, ?_⟩
  apply hdrop
  · exact ⟨nofun, fun _ hr => hr, nofun⟩
  · exact ⟨fun _ hv => hv, nofun, nofun⟩
  · rfl

/-- That transaction is built, although four of the six components are there. -/
theorem exists_build_of_some_components :
    let d : Draft := { v := some 0, r := some 1, s := some 1, pV := some 0 }
    let t := Kind.priority.assemble .standard {} d
    Kind.priority.build d {} = .ok t ∧ ¬ (d.HasAllComponents ∨ d.HasNoComponent) := by
  intro d t
  refine ⟨rfl, ?_⟩
  rintro (hall | hnone)
  · exact absurd (hall .pR (by decide)) (by decide)
  · exact absurd (hnone .v (by decide)) (by decide)

end Kind
end TypedTx
