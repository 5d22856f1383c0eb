import TypedTx.Document.Basic
import TypedTx.Proofs.AccessList
import TypedTx.Proofs.Hex

/-!
# Documents are read back to their drafts

Every text in the document of a draft is a written form, so each reader finds what was
written. The table of numbers is read field by field into an empty one: a field that is
absent stays absent, and every field is read once.
-/

namespace TypedTx

theorem readQuantity_quantity (field : String) (w : Word) :
    readQuantity field (Hex.quantity w.toNat) = .ok w := by
  have hlength : ¬ 64 < (Radix.digits 16 w.toNat).length :=
    Nat.not_lt.mpr ((Radix.length_digits_le_iff (by decide)).mpr w.isLt)
  rw [readQuantity, Hex.significant?_quantity]
  change (if 64 < (Radix.digits 16 w.toNat).length then _ else _) = _
  rw [if_neg hlength, Radix.value_digits (by decide), Word.ofNat_toNat]

theorem readHex_text (field : String) (bs : Bytes) : readHex field (Hex.text bs) = .ok bs := by
  rw [readHex, Hex.bytes?_text]

theorem readKind_quantity (kind : Kind) :
    readKind (Hex.quantity kind.marker.toNat) = .ok kind := by
  have hlt := kind.marker.toNat_lt
  have hword : (Word.ofNat kind.marker.toNat).toNat = kind.marker.toNat :=
    Word.toNat_ofNat_of_lt (Nat.lt_trans hlt (by decide))
  have hread : readQuantity "type" (Hex.quantity kind.marker.toNat) =
      .ok (Word.ofNat kind.marker.toNat) := by
    rw [← hword, readQuantity_quantity, hword]
  have hmarker : (Word.ofNat kind.marker.toNat).toUInt8? = some kind.marker := by
    rw [Word.toUInt8?, hword, if_pos hlt, UInt8.ofNat_toNat]
  refine Success.bind_iff.mpr ⟨_, hread, ?_⟩
  rw [hmarker]
  dsimp only
  rw [Kind.ofMarker?_marker]

theorem readRecipientText_text (address : Address) :
    readRecipientText (Hex.text address.1) = .ok address := by
  rw [readRecipientText, readHex_text]
  exact Fixed.read_eq_ok_iff.mpr rfl

theorem readSome_map {α β : Type} {read : α → Except Fault β} {write : β → α}
    (h : ∀ y, read (write y) = .ok y) (y : Option β) :
    readSome read (y.map write) = .ok y := by
  cases y with
  | none => rfl
  | some y =>
      rw [Option.map_some, readSome, h]
      rfl

theorem AccessList.readFrom_map {α β : Type} {read : Nat → α → Except Fault β} {write : β → α}
    (h : ∀ i y, read i (write y) = .ok y) (i : Nat) (ys : List β) :
    readFrom read i (ys.map write) = .ok ys := by
  induction ys generalizing i with
  | nil => rfl
  | cons y ys ih =>
      rw [List.map_cons, readFrom, h, ih]
      rfl

theorem AccessText.read_ofEntry (i : Nat) (entry : AccessEntry) :
    AccessText.read i (.ofEntry entry) = .ok entry := by
  have hkey : ∀ (j : Nat) (key : StorageKey),
      (do
        let bs ← readHex (AccessList.keyField i j) (Hex.text key.1)
        Fixed.read 32 (AccessList.keyField i j) bs) = .ok key := by
    intro j key
    rw [readHex_text]
    exact Fixed.read_eq_ok_iff.mpr rfl
  have haddress : Fixed.read 20 (AccessList.addressField i) entry.address.1 = .ok entry.address :=
    Fixed.read_eq_ok_iff.mpr rfl
  rw [ofEntry, read, readHex_text]
  refine Success.bind_iff.mpr ⟨entry.address.1, rfl, ?_⟩
  refine Success.bind_iff.mpr ⟨entry.address, haddress, ?_⟩
  exact Success.bind_iff.mpr ⟨entry.storageKeys, AccessList.readFrom_map hkey 0 _, rfl⟩

namespace Quantities

variable {α β ε : Type} {read : Quantity → α → Except ε β} {write : β → α}

/-- The listed fields are taken from the table, where they are there, and the others are
left as they were. -/
theorem exists_readOnto_map (h : ∀ q y, read q (write y) = .ok y) (t : Quantities β)
    (qs : List Quantity) (acc : Quantities β) :
    ∃ u, readOnto read (t.map write) qs acc = .ok u ∧
      ∀ q, u.get q = if q ∈ qs then (t.get q).or (acc.get q) else acc.get q := by
  induction qs generalizing acc with
  | nil => exact ⟨acc, rfl, fun q => rfl⟩
  | cons p qs ih =>
      rw [readOnto, get_map]
      cases hp : t.get p with
      | none =>
          obtain ⟨u, hu, hget⟩ := ih acc
          refine ⟨u, hu, ?_⟩
          intro q
          rw [hget]
          by_cases hqp : q = p
          · subst hqp
            simp [hp]
          · simp [hqp]
      | some y =>
          obtain ⟨u, hu, hget⟩ := ih (acc.set p (some y))
          refine ⟨u, Success.bind_iff.mpr ⟨y, h p y, hu⟩, ?_⟩
          intro q
          rw [hget]
          by_cases hqp : q = p
          · subst hqp
            simp [hp]
          · simp [hqp, get_set_of_ne]

theorem readAll_map (h : ∀ q y, read q (write y) = .ok y) (t : Quantities β) :
    (t.map write).readAll read = .ok t := by
  obtain ⟨u, hu, hget⟩ := exists_readOnto_map h t Quantity.all {}
  have heq : u = t := by
    apply ext_get
    intro q
    rw [hget, if_pos (Quantity.mem_all q), get_empty, Option.or_none]
  rwa [heq] at hu

end Quantities

/-- The document of a draft is read back to it. -/
theorem Document.draft_ofDraft (d : Draft) : (Document.ofDraft d).draft = .ok d := by
  have hkind : readSome readKind (d.kind.map fun kind => Hex.quantity kind.marker.toNat) =
      .ok d.kind := readSome_map readKind_quantity d.kind
  have hrecipient : readSome readRecipientText (d.recipient.map fun address =>
      Hex.text address.1) = .ok d.recipient := readSome_map readRecipientText_text d.recipient
  have hdata : readSome (readHex "data") (d.data.map Hex.text) = .ok d.data :=
    readSome_map (readHex_text "data") d.data
  have haccessList : readSome (AccessList.readFrom AccessText.read 0)
      (d.accessList.map fun list => list.map AccessText.ofEntry) = .ok d.accessList :=
    readSome_map (AccessList.readFrom_map AccessText.read_ofEntry 0) d.accessList
  have hquantities : (d.toQuantities.map fun w => Hex.quantity w.toNat).readAll
      (fun q text => readQuantity q.name text) = .ok d.toQuantities :=
    Quantities.readAll_map (fun q w => readQuantity_quantity q.name w) d.toQuantities
  refine Success.bind_iff.mpr ⟨d.kind, hkind, ?_⟩
  refine Success.bind_iff.mpr ⟨d.recipient, hrecipient, ?_⟩
  refine Success.bind_iff.mpr ⟨d.data, hdata, ?_⟩
  refine Success.bind_iff.mpr ⟨d.accessList, haccessList, ?_⟩
  exact Success.bind_iff.mpr ⟨d.toQuantities, hquantities, rfl⟩

end TypedTx
