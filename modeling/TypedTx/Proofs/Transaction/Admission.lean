import TypedTx.Proofs.Transaction.Wire

/-!
# Gates only filter

Whatever is offered to a gate selects a kind, or none: a draft by the kind that it names,
raw values by the kind that comes with them, bytes by the first of them, and an item of a
block body by its shape. The gate looks at nothing but the selected kind, and it does so
before anything else is read. A kind that it lists is built as by the gate that lists all
kinds, another one is refused by its type byte, and an offer that selects no kind is
refused alike by all gates.
-/

namespace TypedTx

/-- What is offered to a gate. -/
inductive Offer where
  | draft (d : Draft)
  | rawValues (kind : Kind) (values : List Rlp.Item)
  | wire (input : Bytes)
  | blockItem (item : Rlp.Item)

namespace Offer

/-- The offer as outside data in front of a gate. -/
def under (offer : Offer) (gate : Gate) : Source :=
  match offer with
  | .draft d => .draft gate d
  | .rawValues kind values => .rawValues gate kind values
  | .wire input => .wire gate input
  | .blockItem item => .blockItem gate item

inductive Selects : Offer → Kind → Prop
  | named {d : Draft} {kind : Kind} : d.kind = some kind → Selects (.draft d) kind
  /-- A draft that names no kind is one of a legacy transaction. -/
  | unnamed {d : Draft} : d.kind = none → Selects (.draft d) .legacy
  | rawValues {kind : Kind} {values : List Rlp.Item} : Selects (.rawValues kind values) kind
  /-- Bytes that begin with a list header are a legacy transaction. -/
  | list {first : UInt8} {rest : Bytes} : 0xc0 ≤ first → Selects (.wire (first :: rest)) .legacy
  /-- Other bytes begin with the type byte. -/
  | typed {kind : Kind} {rest : Bytes} :
      kind.isTyped = true → Selects (.wire (kind.marker :: rest)) kind
  | blockList {values : List Rlp.Item} : Selects (.blockItem (.list values)) .legacy
  | blockBytes {input : Bytes} {kind : Kind} :
      Selects (.wire input) kind → Selects (.blockItem (.bytes input)) kind

/-- The choice of the kind. -/
def kind : Offer → Except Failure Kind
  | .draft d => .ok (Gate.kindOfDraft d)
  | .rawValues kind _ => .ok kind
  | .wire input => Gate.kindOfBytes input
  | .blockItem (.bytes input) => Gate.kindOfBytes input
  | .blockItem (.list _) => .ok .legacy

/-- The offer as outside data of a known kind, with no gate in front. -/
def ungated (offer : Offer) (kind : Kind) : Source :=
  match offer with
  | .draft d => .draftAs kind d
  | .rawValues _ values => .rawValuesAs kind values
  | .wire input => .wireAs kind input
  | .blockItem (.bytes input) => .wireAs kind input
  | .blockItem (.list values) => .rawValuesAs kind values

/-- A gate chooses the kind, then looks at its list, and only then builds. -/
theorem build_under (offer : Offer) (gate : Gate) (o : Options) :
    (offer.under gate).build o =
      offer.kind >>= fun kind => gate.require kind >>= fun _ => (offer.ungated kind).build o := by
  cases offer with
  | draft d => rfl
  | rawValues kind values => rfl
  | wire input => rfl
  | blockItem item =>
      cases item with
      | bytes input => rfl
      | list values => rfl

end Offer

namespace Gate

theorem kindOfBytes_marker_cons {kind : Kind} {rest : Bytes} (h : kind.isTyped = true) :
    kindOfBytes (kind.marker :: rest) = .ok kind := by
  cases kind with
  | legacy => exact absurd h (by decide)
  | accessList | feeMarket | priority => rfl

/-- A first byte below those of lists must be the type byte of a typed kind. -/
theorem exists_marker_of_kindOfBytes {first : UInt8} {rest : Bytes} {kind : Kind}
    (hfirst : ¬ 0xc0 ≤ first) (h : kindOfBytes (first :: rest) = .ok kind) :
    kind.isTyped = true ∧ kind.marker = first := by
  have hmatch := h
  rw [kindOfBytes, if_neg hfirst] at hmatch
  cases hfound : Kind.ofMarker? first with
  | none =>
      rw [hfound] at hmatch
      exact absurd hmatch nofun
  | some found =>
      rw [hfound] at hmatch
      obtain rfl := Kind.ofMarker?_eq_some_iff.mp hfound
      obtain rfl | htyped := found.eq_legacy_or_isTyped
      · exact absurd hmatch nofun
      · rw [kindOfBytes_marker_cons htyped] at h
        obtain rfl := Except.ok.inj h
        exact ⟨htyped, rfl⟩

theorem kindOfBytes_eq_ok_iff {input : Bytes} {kind : Kind} :
    kindOfBytes input = .ok kind ↔ (Offer.wire input).Selects kind := by
  constructor
  · intro h
    cases input with
    | nil => exact absurd h nofun
    | cons first rest =>
        by_cases hfirst : 0xc0 ≤ first
        · rw [kindOfBytes, if_pos hfirst] at h
          obtain rfl := Except.ok.inj h
          exact .list hfirst
        · obtain ⟨htyped, rfl⟩ := exists_marker_of_kindOfBytes hfirst h
          exact .typed htyped
  · intro h
    cases h with
    | list hfirst => exact if_pos hfirst
    | typed htyped => exact kindOfBytes_marker_cons htyped

theorem require_of_mem {gate : Gate} {kind : Kind} (h : kind.marker ∈ gate.markers) :
    gate.require kind = .ok () :=
  if_pos (List.contains_iff_mem.mpr h)

theorem require_of_notMem {gate : Gate} {kind : Kind} (h : kind.marker ∉ gate.markers) :
    gate.require kind = .error ⟨.unsupportedTransactionType kind.marker, none⟩ :=
  if_neg fun hlisted => h (List.contains_iff_mem.mp hlisted)

end Gate

namespace Offer

variable {offer : Offer} {kind : Kind} {gate : Gate} {o : Options} {t : Transaction}

theorem kind_eq_ok_iff : offer.kind = .ok kind ↔ offer.Selects kind := by
  cases offer with
  | draft d =>
      rw [Offer.kind, Gate.kindOfDraft, Except.ok.injEq]
      constructor
      · rintro rfl
        cases hkind : d.kind with
        | none => exact .unnamed hkind
        | some named => exact .named hkind
      · intro h
        cases h with
        | named hkind => rw [hkind, Option.getD_some]
        | unnamed hkind => rw [hkind, Option.getD_none]
  | rawValues known values =>
      rw [Offer.kind, Except.ok.injEq]
      constructor
      · rintro rfl
        exact .rawValues
      · rintro ⟨⟩
        rfl
  | wire input => exact Gate.kindOfBytes_eq_ok_iff
  | blockItem item =>
      cases item with
      | bytes input =>
          rw [Offer.kind, Gate.kindOfBytes_eq_ok_iff]
          constructor
          · exact .blockBytes
          · rintro ⟨⟩
            assumption
      | list values =>
          rw [Offer.kind, Except.ok.injEq]
          constructor
          · rintro rfl
            exact .blockList
          · rintro ⟨⟩
            rfl

theorem build_under_of_selects (h : offer.Selects kind) (gate : Gate) (o : Options) :
    (offer.under gate).build o =
      gate.require kind >>= fun _ => (offer.ungated kind).build o := by
  rw [build_under, kind_eq_ok_iff.mpr h]
  rfl

theorem build_under_of_mem (h : offer.Selects kind) (hlisted : kind.marker ∈ gate.markers) :
    (offer.under gate).build o = (offer.ungated kind).build o := by
  rw [build_under_of_selects h, Gate.require_of_mem hlisted]
  rfl

theorem build_under_permissive (h : offer.Selects kind) :
    (offer.under .permissive).build o = (offer.ungated kind).build o := by
  rw [build_under_of_selects h, Gate.require_permissive]
  rfl

/-- An offer that selects no kind is refused before any list is looked at. -/
theorem exists_failure_of_not_selects (h : ∀ kind, ¬ offer.Selects kind) (o : Options) :
    ∃ failure, ∀ gate, (offer.under gate).build o = .error failure := by
  cases hkind : offer.kind with
  | ok kind => exact absurd (kind_eq_ok_iff.mp hkind) (h kind)
  | error failure =>
      refine ⟨failure, ?_⟩
      intro gate
      rw [build_under, hkind]
      rfl

/-- Whatever is built of an offer as a kind is of that kind. -/
theorem kind_of_build_ungated (h : (offer.ungated kind).build o = .ok t) : t.kind = kind := by
  cases offer with
  | draft d => exact Kind.kind_of_build h
  | rawValues known values => exact (Kind.buildValues_iff_rawValues.mp h).1
  | wire input => exact (Kind.decode_iff_encode.mp h).1
  | blockItem item =>
      cases item with
      | bytes input => exact (Kind.decode_iff_encode.mp h).1
      | list values => exact (Kind.buildValues_iff_rawValues.mp h).1

/-- An accepted offer has selected the kind of the transaction, which the gate lists. -/
theorem selects_of_build_under (h : (offer.under gate).build o = .ok t) :
    offer.Selects t.kind ∧ t.kind.marker ∈ gate.markers ∧
      (offer.ungated t.kind).build o = .ok t := by
  rw [build_under] at h
  obtain ⟨kind, hkind, h⟩ := Success.bind_iff.mp h
  obtain ⟨hgate, h⟩ := Success.seq_iff.mp h
  obtain rfl := kind_of_build_ungated h
  refine ⟨kind_eq_ok_iff.mp hkind, ?_, h⟩
  by_contra hunlisted
  rw [Gate.require_of_notMem hunlisted] at hgate
  exact absurd hgate nofun

end Offer

/-- A gate only filters. An offer that selects a kind is built as by the gate that lists
every kind, if the kind is listed, and is refused by its type byte, if not. An offer that
selects no kind is refused alike by every gate. So what is accepted is of a listed kind,
and it is accepted unchanged when more is listed. -/
theorem Gate.build_under_eq (gate : Gate) (offer : Offer) (o : Options) :
    (∀ kind, offer.Selects kind →
      (offer.under gate).build o =
        if kind.marker ∈ gate.markers then (offer.under permissive).build o
        else .error ⟨.unsupportedTransactionType kind.marker, none⟩) ∧
    ((∀ kind, ¬ offer.Selects kind) →
      ∃ failure, ∀ gate' : Gate, (offer.under gate').build o = .error failure) ∧
    ∀ t, (offer.under gate).build o = .ok t →
      offer.Selects t.kind ∧ t.kind.marker ∈ gate.markers ∧
        ∀ marker, (offer.under (gate.allow marker)).build o = .ok t := by
  refine ⟨?_, fun h => Offer.exists_failure_of_not_selects h o, ?_⟩
  · intro kind hselects
    by_cases hlisted : kind.marker ∈ gate.markers
    · rw [if_pos hlisted, Offer.build_under_of_mem hselects hlisted,
        Offer.build_under_permissive hselects]
    · rw [if_neg hlisted, Offer.build_under_of_selects hselects, require_of_notMem hlisted]
      rfl
  · intro t h
    obtain ⟨hselects, hlisted, hbuild⟩ := Offer.selects_of_build_under h
    refine ⟨hselects, hlisted, ?_⟩
    intro marker
    have hmore : t.kind.marker ∈ (gate.allow marker).markers := List.mem_cons_of_mem marker hlisted
    rw [Offer.build_under_of_mem hselects hmore, hbuild]

/-- A gate that lists a kind and a type byte of no kind. The fee-market type is refused
before the missing list behind it is noticed, the type byte of no kind is refused as by every
gate, and a draft of the listed kind is built as by the gate that lists every kind, also when
legacy transactions are listed too. -/
theorem Gate.build_under_eq_of_listed :
    let gate : Gate := ⟨[0x40, 0x7f]⟩
    let draft : Offer := .draft { kind := some .priority }
    ((Offer.wire [0x02]).under gate).build {} =
      .error ⟨.unsupportedTransactionType 0x02, none⟩ ∧
    (∃ failure, ∀ gate' : Gate, ((Offer.wire [0x7f, 0xc0]).under gate').build {} =
      .error failure) ∧
    ∃ t, (draft.under gate).build {} = .ok t ∧ t.kind.marker = 0x40 ∧
      (draft.under permissive).build {} = .ok t ∧
      (draft.under (gate.allow 0x00)).build {} = .ok t := by
  intro gate draft
  have htyped : Kind.feeMarket.isTyped = true := rfl
  have hunknown (kind : Kind) : ¬ (Offer.wire [0x7f, 0xc0]).Selects kind := fun h =>
    absurd (Offer.kind_eq_ok_iff.mpr h) nofun
  have hlisted : Kind.priority.marker ∈ gate.markers := by decide
  have hunlisted : Kind.feeMarket.marker ∉ gate.markers := by decide
  refine ⟨?_, (build_under_eq gate (.wire [0x7f, 0xc0]) {}).2.1 hunknown, ?_⟩
  · rw [(build_under_eq gate (.wire [0x02]) {}).1 .feeMarket (.typed htyped), if_neg hunlisted]
    rfl
  · obtain ⟨hselected, -, haccepted⟩ := build_under_eq gate draft {}
    have hbuild : ∃ t, (draft.under gate).build {} = .ok t := ⟨_, rfl⟩
    obtain ⟨t, h⟩ := hbuild
    have hpermissive := hselected .priority (.named rfl)
    rw [if_pos hlisted, h] at hpermissive
    obtain ⟨hkind, -, hmore⟩ := haccepted t h
    have hpriority : t.kind = .priority := (Except.ok.inj (Offer.kind_eq_ok_iff.mpr hkind)).symm
    exact ⟨t, h, congrArg Kind.marker hpriority, hpermissive.symm, hmore 0x00⟩

end TypedTx
