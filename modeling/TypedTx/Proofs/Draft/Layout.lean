import TypedTx.Draft.Layout
import TypedTx.Proofs.AccessList

/-!
# Fields on the wire

A field is read exactly from what is written for it, and reading a field leaves
the other fields alone. So the items of a layout are read back to the fields that
were written, and a draft that was read from items writes the same items again.
An absent number is written as zero and therefore read back as a zero that is
there; `Draft.fill` says what reading makes of a field.
-/

namespace TypedTx

theorem readBytes_eq_ok_iff {field : String} {item : Rlp.Item} {bs : Bytes} :
    readBytes field item = .ok bs ↔ item = .bytes bs := by
  cases item <;> simp [readBytes]

theorem readWord_eq_ok_iff {field : String} {item : Rlp.Item} {w : Word} :
    readWord field item = .ok w ↔ item = .ofWord w := by
  rw [readWord, Success.bind_iff]
  constructor
  · rintro ⟨bs, hbs, h⟩
    obtain ⟨hzero, h⟩ := Success.seq_iff.mp h
    obtain ⟨hzero, -⟩ := Success.refuse_iff.mp hzero
    split at h
    · rename_i x hx
      rw [readBytes_eq_ok_iff.mp hbs, Rlp.Item.ofWord, ← Except.ok.inj h,
        Word.toBytes_of_ofBytes? (Bool.eq_false_iff.mpr hzero) hx]
    · exact absurd h nofun
  · rintro rfl
    refine ⟨w.toBytes, rfl, Success.seq_iff.mpr ⟨?_, ?_⟩⟩
    · rw [requireMinimal, Word.hasLeadingZero_toBytes, if_neg Bool.false_ne_true]
    · rw [Word.ofBytes?_toBytes]

theorem readRecipient_eq_ok_iff {item : Rlp.Item} {recipient : Option Address} :
    readRecipient item = .ok recipient ↔
      item = .bytes ((recipient.map Subtype.val).getD []) := by
  rw [readRecipient, Success.bind_iff]
  constructor
  · rintro ⟨bs, hbs, h⟩
    rw [readBytes_eq_ok_iff.mp hbs]
    split at h
    · rename_i hempty
      rw [← Except.ok.inj h, List.isEmpty_iff.mp hempty]
      rfl
    · obtain ⟨address, haddress, h⟩ := Success.bind_iff.mp h
      rw [← Except.ok.inj h, Fixed.read_eq_ok_iff.mp haddress]
      rfl
  · rintro rfl
    refine ⟨_, rfl, ?_⟩
    cases recipient with
    | none => rfl
    | some address =>
        -- Twenty bytes are not mistaken for the empty byte string.
        have hne : address.1.isEmpty = false := by
          rw [List.isEmpty_eq_false_iff, ← List.length_pos_iff, address.2]
          decide
        change (if address.1.isEmpty then _ else _) = _
        rw [hne, if_neg Bool.false_ne_true, Success.bind_iff]
        exact ⟨address, Fixed.read_eq_ok_iff.mpr rfl, rfl⟩

namespace Draft

/-- Copy a field from `e`, where an absent number becomes zero and absent data and
an absent access list become empty. -/
def fill (e d : Draft) : Field → Draft
  | .quantity q => { d with toQuantities := d.set q (some ((e.get q).getD 0)) }
  | .recipient => { d with recipient := e.recipient }
  | .data => { d with data := some (e.data.getD []) }
  | .accessList => { d with accessList := some (e.accessList.getD []) }

variable {d e : Draft} {f g : Field}

theorem item_fill_of_ne (h : g ≠ f) : (fill e d f).item g = d.item g := by
  cases f <;> cases g <;> try rfl
  · rename_i q p
    have hne : p ≠ q := fun hpq => h (congrArg Field.quantity hpq)
    change Rlp.Item.ofWord (((d.set q _).get p).getD 0) = _
    rw [Quantities.get_set_of_ne _ hne]
    rfl
  all_goals exact absurd rfl h

end Draft

namespace Field

variable {d d' e : Draft} {f : Field}

/-- Reading back what is written for a field. -/
theorem read_item : f.read d (e.item f) = .ok (Draft.fill e d f) := by
  cases f with
  | quantity q =>
      rw [read, Success.bind_iff]
      exact ⟨(e.get q).getD 0, readWord_eq_ok_iff.mpr rfl, rfl⟩
  | recipient =>
      rw [read, Success.bind_iff]
      exact ⟨e.recipient, readRecipient_eq_ok_iff.mpr rfl, rfl⟩
  | data => rfl
  | accessList =>
      rw [read, Success.bind_iff]
      exact ⟨e.accessList.getD [], AccessList.ofItem_eq_ok_iff.mpr rfl, rfl⟩

/-- Whatever is read for a field is written for it again. -/
theorem item_of_read {item : Rlp.Item} (h : f.read d item = .ok d') : d'.item f = item := by
  cases f with
  | quantity q =>
      obtain ⟨w, hw, h⟩ := Success.bind_iff.mp h
      rw [readWord_eq_ok_iff.mp hw, ← Except.ok.inj h]
      simp [Draft.item]
  | recipient =>
      obtain ⟨recipient, hrecipient, h⟩ := Success.bind_iff.mp h
      rw [readRecipient_eq_ok_iff.mp hrecipient, ← Except.ok.inj h]
      rfl
  | data =>
      obtain ⟨bs, hbs, h⟩ := Success.bind_iff.mp h
      rw [readBytes_eq_ok_iff.mp hbs, ← Except.ok.inj h]
      rfl
  | accessList =>
      obtain ⟨list, hlist, h⟩ := Success.bind_iff.mp h
      rw [AccessList.ofItem_eq_ok_iff.mp hlist, ← Except.ok.inj h]
      rfl

theorem eq_fill_of_read {item : Rlp.Item} (h : f.read d item = .ok d') :
    d' = Draft.fill d' d f := by
  have hread : f.read d (d'.item f) = .ok (Draft.fill d' d f) := read_item
  rw [item_of_read h, h] at hread
  exact Except.ok.inj hread

end Field

section Fields

variable {fields : List Field} {items : List Rlp.Item} {d d' e : Draft} {g : Field}

/-- Reading back what is written for several fields. -/
theorem readFields_map_item :
    readFields fields (fields.map e.item) d = .ok (fields.foldl (Draft.fill e) d) := by
  induction fields generalizing d with
  | nil => rfl
  | cons f fields ih =>
      rw [List.map_cons, readFields, Field.read_item]
      exact ih

theorem item_of_readFields_of_notMem (h : readFields fields items d = .ok d')
    (hg : g ∉ fields) : d'.item g = d.item g := by
  induction fields generalizing items d with
  | nil =>
      rw [← Except.ok.inj h]
  | cons f fields ih =>
      obtain ⟨hgf, hg⟩ := List.ne_and_not_mem_of_not_mem_cons hg
      cases items with
      | nil => rw [← Except.ok.inj h]
      | cons item items =>
          obtain ⟨d₁, hread, h⟩ := Success.bind_iff.mp h
          rw [ih h hg, Field.eq_fill_of_read hread, Draft.item_fill_of_ne hgf]

/-- A draft that was read from items writes the same items again. -/
theorem eq_map_item_of_readFields (hnodup : fields.Nodup) (hlen : items.length = fields.length)
    (h : readFields fields items d = .ok d') : items = fields.map d'.item := by
  induction fields generalizing items d with
  | nil => exact List.length_eq_zero_iff.mp hlen
  | cons f fields ih =>
      obtain ⟨hf, hnodup⟩ := List.nodup_cons.mp hnodup
      cases items with
      | nil => exact absurd hlen nofun
      | cons item items =>
          obtain ⟨d₁, hread, h⟩ := Success.bind_iff.mp h
          have hitem : d'.item f = item :=
            (item_of_readFields_of_notMem h hf).trans (Field.item_of_read hread)
          rw [List.map_cons, hitem, ← ih hnodup (Nat.succ.inj hlen) h]

end Fields

/-- All fields that are written, with or without the signatures. -/
def Kind.fields (kind : Kind) (signed : Bool) : List Field :=
  if signed then kind.layout ++ kind.signatureLayout else kind.layout

theorem Kind.nodup_fields (kind : Kind) (signed : Bool) : (kind.fields signed).Nodup := by
  cases kind <;> cases signed <;> decide

theorem Kind.length_fields_inj {kind : Kind} {signed signed' : Bool}
    (h : (kind.fields signed).length = (kind.fields signed').length) : signed = signed' := by
  revert h
  cases kind <;> cases signed <;> cases signed' <;> decide

namespace Draft

def readBack (e : Draft) (kind : Kind) (signed : Bool) : Draft :=
  (kind.fields signed).foldl (fill e) { kind := some kind }

variable {kind : Kind} {items : List Rlp.Item} {d e : Draft}

theorem ofItems_of_length {signed : Bool} (h : items.length = (kind.fields signed).length) :
    ofItems kind items = readFields (kind.fields signed) items { kind := some kind } := by
  cases signed with
  | false => exact if_pos h
  | true =>
      have hne : items.length ≠ (kind.fields false).length := fun hlen =>
        Bool.noConfusion (Kind.length_fields_inj (hlen.symm.trans h))
      exact (if_neg hne).trans (if_pos h)

theorem ofItems_map_item (signed : Bool) :
    ofItems kind ((kind.fields signed).map e.item) = .ok (e.readBack kind signed) := by
  rw [ofItems_of_length (List.length_map _)]
  exact readFields_map_item

/-- A draft that was read from the values of a kind is what its own values are read
back to. -/
theorem exists_of_ofItems (h : ofItems kind items = .ok d) :
    ∃ signed, items = (kind.fields signed).map d.item ∧ d = d.readBack kind signed := by
  have hlen : ∃ signed, items.length = (kind.fields signed).length := by
    rw [ofItems] at h
    split at h
    · rename_i hlen
      exact ⟨false, hlen⟩
    · split at h
      · rename_i hlen
        exact ⟨true, hlen⟩
      · exact absurd h nofun
  obtain ⟨signed, hlen⟩ := hlen
  have hread := h
  rw [ofItems_of_length hlen] at hread
  have hitems := eq_map_item_of_readFields (Kind.nodup_fields kind signed) hlen hread
  refine ⟨signed, hitems, ?_⟩
  rw [hitems, ofItems_map_item] at h
  exact (Except.ok.inj h).symm

end Draft
end TypedTx
