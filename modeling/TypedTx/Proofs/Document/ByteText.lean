import TypedTx.Proofs.Document
import TypedTx.Proofs.Hex.Grammar

/-!
# Texts of byte strings in documents

Four places of a document hold the text of a byte string: the recipient, the data, and the
addresses and storage keys of the access list. Replacing the text at one of them in a
document that can be read shows what is made of that text alone: its bytes are found at the
same place of the draft, or the document is refused for it.

A place reads strictly if it takes a text for what it writes behind one prefix, and refuses
every other text as malformed. All of them do, except for texts with a second prefix in
lower case, which are read as if the first one were not there.
-/

namespace TypedTx

theorem readHex_eq_ok_iff {field text : String} {bs : Bytes} :
    readHex field text = .ok bs ↔ Hex.bytes? text = some bs := by
  rw [readHex]
  cases Hex.bytes? text <;> simp

theorem readHex_eq_error_iff {field text : String} :
    readHex field text = .error (.invalidFieldEncoding field) ↔ Hex.bytes? text = none := by
  rw [readHex]
  cases Hex.bytes? text <;> simp

/-- Read the text of `n` bytes. A malformed text and one of another length may go by
different names. -/
def readSized (n : Nat) (field sized text : String) : Except Fault (Fixed n) := do
  let bs ← readHex field text
  Fixed.read n sized bs

theorem readSized_eq_ok_iff {n : Nat} {field sized text : String} {x : Fixed n} :
    readSized n field sized text = .ok x ↔ Hex.bytes? text = some x.1 := by
  rw [readSized, Success.bind_iff]
  simp only [readHex_eq_ok_iff, Fixed.read_eq_ok_iff]
  constructor
  · rintro ⟨_, h, rfl⟩
    exact h
  · intro h
    exact ⟨_, h, rfl⟩

theorem readSized_eq_error_iff {n : Nat} {field sized text : String} :
    readSized n field sized text = .error (.invalidFieldEncoding field) ↔
      Hex.bytes? text = none := by
  rw [readSized, readHex]
  cases Hex.bytes? text with
  | none => simp [bind, Except.bind]
  | some bs =>
      change Fixed.read n sized bs = _ ↔ _
      rw [Fixed.read]
      cases Fixed.ofBytes? n bs <;> simp

namespace AccessList

variable {α β : Type} {read : Nat → α → Except Fault β} {i k : Nat} {xs : List α} {ys : List β}
variable {x : α}

/-- With one element changed, the list is read as before at all other places. -/
theorem readFrom_modify (h : readFrom read i xs = .ok ys) (hx : xs[k]? = some x) (f : α → α) :
    readFrom read i (xs.modify k f) = (read (i + k) (f x)).map fun y => ys.set k y := by
  induction xs generalizing i k ys with
  | nil => exact absurd hx nofun
  | cons a xs ih =>
      obtain ⟨y, hy, h⟩ := Success.bind_iff.mp h
      obtain ⟨ys', hys, h⟩ := Success.bind_iff.mp h
      obtain rfl := Except.ok.inj h
      cases k with
      | zero =>
          obtain rfl := Option.some.inj hx
          rw [List.modify_zero_cons, readFrom, hys, Nat.add_zero]
          cases read i (f a) <;> rfl
      | succ k =>
          rw [List.modify_succ_cons, readFrom, hy, ih hys hx, Nat.add_right_comm, Nat.add_assoc]
          cases read (i + (k + 1)) (f x) <;> rfl

end AccessList

/-- An entry is read address first, then its keys. -/
theorem AccessText.read_eq (i : Nat) (entry : AccessText) :
    AccessText.read i entry = (do
      let address ← readSized 20 "accessList.address" (AccessList.addressField i) entry.address
      let storageKeys ← AccessList.readFrom
        (fun j => readSized 32 (AccessList.keyField i j) (AccessList.keyField i j)) 0
        entry.storageKeys
      .ok ⟨address, storageKeys⟩) := by
  rw [AccessText.read, readSized]
  cases readHex "accessList.address" entry.address with
  | error fault => rfl
  | ok bs => rfl

section Entry

variable {i j : Nat} {entry : AccessText} {read : AccessEntry}

theorem AccessText.read_eq_ok_iff :
    AccessText.read i entry = .ok read ↔
      readSized 20 "accessList.address" (AccessList.addressField i) entry.address =
          .ok read.address ∧
        AccessList.readFrom
          (fun j => readSized 32 (AccessList.keyField i j) (AccessList.keyField i j)) 0
          entry.storageKeys = .ok read.storageKeys := by
  rw [read_eq]
  simp only [Success.bind_iff, Except.ok.injEq]
  constructor
  · rintro ⟨_, haddress, _, hkeys, rfl⟩
    exact ⟨haddress, hkeys⟩
  · rintro ⟨haddress, hkeys⟩
    exact ⟨_, haddress, _, hkeys, rfl⟩

theorem AccessText.read_with_address (h : AccessText.read i entry = .ok read) (text : String) :
    AccessText.read i { entry with address := text } =
      (readSized 20 "accessList.address" (AccessList.addressField i) text).map fun address =>
        { read with address } := by
  obtain ⟨-, hkeys⟩ := read_eq_ok_iff.mp h
  rw [read_eq, hkeys]
  dsimp only
  cases readSized 20 "accessList.address" (AccessList.addressField i) text <;> rfl

theorem AccessText.read_with_storageKey (h : AccessText.read i entry = .ok read)
    (hj : j < entry.storageKeys.length) (text : String) :
    AccessText.read i { entry with storageKeys := entry.storageKeys.modify j fun _ => text } =
      (readSized 32 (AccessList.keyField i j) (AccessList.keyField i j) text).map fun key =>
        { read with storageKeys := read.storageKeys.set j key } := by
  obtain ⟨haddress, hkeys⟩ := read_eq_ok_iff.mp h
  have hget : entry.storageKeys[j]? = some entry.storageKeys[j] := List.getElem?_eq_getElem hj
  rw [read_eq, haddress]
  change (AccessList.readFrom _ 0 _ >>= _) = _
  rw [AccessList.readFrom_modify hkeys hget, Nat.zero_add]
  cases readSized 32 (AccessList.keyField i j) (AccessList.keyField i j) text <;> rfl

end Entry

/-- A place of a document that holds the text of a byte string. -/
inductive ByteField where
  | recipient
  | data
  | address (entry : Nat)
  | storageKey (entry key : Nat)
deriving DecidableEq, Repr

namespace ByteField

/-- How a malformed text at the place is named in messages. -/
def name : ByteField → String
  | .recipient => "to"
  | .data => "data"
  | .address _ => "accessList.address"
  | .storageKey i j => AccessList.keyField i j

/-- The number of bytes that the place asks for, if it does. -/
def size? : ByteField → Option Nat
  | .recipient | .address _ => some 20
  | .data => none
  | .storageKey .. => some 32

def Fits (field : ByteField) (bs : Bytes) : Prop :=
  ∀ size ∈ field.size?, bs.length = size

def read (field : ByteField) (text : String) : Except Fault Bytes :=
  match field with
  | .recipient => (readSized 20 "to" "to" text).map Subtype.val
  | .data => readHex "data" text
  | .address i =>
      (readSized 20 "accessList.address" (AccessList.addressField i) text).map Subtype.val
  | .storageKey i j =>
      (readSized 32 (AccessList.keyField i j) (AccessList.keyField i j) text).map Subtype.val

variable {field : ByteField} {text : String} {bs : Bytes}

theorem map_val_eq_ok_iff {n : Nat} {name sized : String} :
    (readSized n name sized text).map Subtype.val = .ok bs ↔
      Hex.bytes? text = some bs ∧ bs.length = n := by
  rw [Success.map_iff]
  constructor
  · rintro ⟨x, h, rfl⟩
    exact ⟨readSized_eq_ok_iff.mp h, x.2⟩
  · rintro ⟨h, hlength⟩
    exact ⟨⟨bs, hlength⟩, readSized_eq_ok_iff.mpr h, rfl⟩

theorem map_val_eq_error_iff {n : Nat} {name sized : String} :
    (readSized n name sized text).map Subtype.val = .error (.invalidFieldEncoding name) ↔
      Hex.bytes? text = none :=
  Success.map_eq_error_iff.trans readSized_eq_error_iff

theorem read_eq_ok_iff :
    field.read text = .ok bs ↔ Hex.bytes? text = some bs ∧ field.Fits bs := by
  cases field with
  | recipient => simp [read, map_val_eq_ok_iff, Fits, size?]
  | data => simp [read, readHex_eq_ok_iff, Fits, size?]
  | address i => simp [read, map_val_eq_ok_iff, Fits, size?]
  | storageKey i j => simp [read, map_val_eq_ok_iff, Fits, size?]

theorem read_eq_error_iff :
    field.read text = .error (.invalidFieldEncoding field.name) ↔ Hex.bytes? text = none := by
  cases field with
  | recipient => exact map_val_eq_error_iff
  | data => exact readHex_eq_error_iff
  | address i => exact map_val_eq_error_iff
  | storageKey i j => exact map_val_eq_error_iff

end ByteField

def Draft.bytesAt (d : Draft) : ByteField → Option Bytes
  | .recipient => d.recipient.map Subtype.val
  | .data => d.data
  | .address i => (d.accessList.bind fun list => list[i]?).map fun entry => entry.address.1
  | .storageKey i j =>
      ((d.accessList.bind fun list => list[i]?).bind fun entry => entry.storageKeys[j]?).map
        Subtype.val

namespace Document

def entry? (doc : Document) (i : Nat) : Option AccessText :=
  doc.accessList.bind fun entries => entries[i]?

/-- The document has the place, whether or not a text is there yet. -/
def HasPlace (doc : Document) : ByteField → Prop
  | .recipient | .data => True
  | .address i => ∃ entry, doc.entry? i = some entry
  | .storageKey i j => ∃ entry, doc.entry? i = some entry ∧ j < entry.storageKeys.length

def modifyEntry (doc : Document) (i : Nat) (f : AccessText → AccessText) : Document :=
  { doc with accessList := doc.accessList.map fun entries => entries.modify i f }

def put (doc : Document) (field : ByteField) (text : String) : Document :=
  match field with
  | .recipient => { doc with recipient := some text }
  | .data => { doc with data := some text }
  | .address i => doc.modifyEntry i fun entry => { entry with address := text }
  | .storageKey i j =>
      doc.modifyEntry i fun entry =>
        { entry with storageKeys := entry.storageKeys.modify j fun _ => text }

section Put

variable {doc : Document} {d : Draft} {field : ByteField} {text : String} {bs : Bytes}

/-- The parts of a document are read one after the other, each into its own part of the
draft. -/
theorem draft_eq_ok_iff :
    doc.draft = .ok d ↔
      readSome readKind doc.kind = .ok d.kind ∧
        readSome readRecipientText doc.recipient = .ok d.recipient ∧
        readSome (readHex "data") doc.data = .ok d.data ∧
        readSome (AccessList.readFrom AccessText.read 0) doc.accessList = .ok d.accessList ∧
        doc.toQuantities.readAll (fun q text => readQuantity q.name text) = .ok d.toQuantities := by
  rw [draft]
  simp only [Success.bind_iff, Except.ok.injEq]
  constructor
  · rintro ⟨_, hkind, _, hrecipient, _, hdata, _, haccessList, _, hquantities, rfl⟩
    exact ⟨hkind, hrecipient, hdata, haccessList, hquantities⟩
  · rintro ⟨hkind, hrecipient, hdata, haccessList, hquantities⟩
    exact ⟨_, hkind, _, hrecipient, _, hdata, _, haccessList, _, hquantities, rfl⟩

theorem draft_with_recipient (h : doc.draft = .ok d) (text : String) :
    ({ doc with recipient := some text } : Document).draft =
      (readRecipientText text).map fun address => { d with recipient := some address } := by
  obtain ⟨hkind, -, hdata, haccessList, hquantities⟩ := draft_eq_ok_iff.mp h
  rw [draft, hkind, hdata, haccessList, hquantities]
  change (readRecipientText text >>= fun address => .ok (some address)) >>= _ = _
  cases readRecipientText text <;> rfl

theorem draft_with_data (h : doc.draft = .ok d) (text : String) :
    ({ doc with data := some text } : Document).draft =
      (readHex "data" text).map fun bs => { d with data := some bs } := by
  obtain ⟨hkind, hrecipient, -, haccessList, hquantities⟩ := draft_eq_ok_iff.mp h
  rw [draft, hkind, hrecipient, haccessList, hquantities]
  change (readHex "data" text >>= fun bs => .ok (some bs)) >>= _ = _
  cases readHex "data" text <;> rfl

theorem draft_modifyEntry (h : doc.draft = .ok d) {i : Nat} {entry : AccessText}
    (hentry : doc.entry? i = some entry) (f : AccessText → AccessText) :
    (doc.modifyEntry i f).draft =
      (AccessText.read i (f entry)).map fun entry =>
        { d with accessList := d.accessList.map fun list => list.set i entry } := by
  obtain ⟨hkind, hrecipient, hdata, haccessList, hquantities⟩ := draft_eq_ok_iff.mp h
  obtain ⟨entries, hentries, hget⟩ := Option.bind_eq_some_iff.mp hentry
  rw [hentries] at haccessList
  obtain ⟨list, hlist, hsome⟩ := Success.bind_iff.mp haccessList
  have hread := AccessList.readFrom_modify hlist hget f
  rw [Nat.zero_add] at hread
  rw [draft, modifyEntry, hkind, hrecipient, hdata, hquantities, hentries, ← Except.ok.inj hsome]
  change (AccessList.readFrom AccessText.read 0 (entries.modify i f) >>= fun list =>
    .ok (some list)) >>= _ = _
  rw [hread]
  cases AccessText.read i (f entry) <;> rfl

/-- The entry at a position is read on its own. -/
theorem exists_read_of_entry? (h : doc.draft = .ok d) {i : Nat} {entry : AccessText}
    (hentry : doc.entry? i = some entry) :
    ∃ read list, AccessText.read i entry = .ok read ∧ d.accessList = some list ∧
      i < list.length := by
  obtain ⟨-, -, -, haccessList, -⟩ := draft_eq_ok_iff.mp h
  obtain ⟨entries, hentries, hget⟩ := Option.bind_eq_some_iff.mp hentry
  rw [hentries] at haccessList
  obtain ⟨list, hlist, hsome⟩ := Success.bind_iff.mp haccessList
  obtain ⟨read, hread, hi⟩ := AccessList.exists_read_of_readFrom hlist hget
  rw [Nat.zero_add] at hread
  exact ⟨read, list, hread, (Except.ok.inj hsome).symm, (List.getElem?_eq_some_iff.mp hi).1⟩

/-- In a document that can be read, what is made of another text at a place is found at that
place of the draft. -/
theorem draft_put (h : doc.draft = .ok d) (hplace : doc.HasPlace field) (text : String) :
    (doc.put field text).draft.map (fun d => d.bytesAt field) =
      (field.read text).map some := by
  cases field with
  | recipient =>
      rw [put, draft_with_recipient h, ByteField.read]
      change (Except.map _ (readSized 20 "to" "to" text)).map _ = _
      cases readSized 20 "to" "to" text <;> rfl
  | data =>
      rw [put, draft_with_data h, ByteField.read]
      cases readHex "data" text <;> rfl
  | address i =>
      obtain ⟨entry, hentry⟩ := hplace
      obtain ⟨read, list, hread, hlist, hi⟩ := exists_read_of_entry? h hentry
      rw [put, draft_modifyEntry h hentry, AccessText.read_with_address hread, ByteField.read,
        hlist]
      cases readSized 20 "accessList.address" (AccessList.addressField i) text with
      | error fault => rfl
      | ok address => simp [Except.map, Draft.bytesAt, hi]
  | storageKey i j =>
      obtain ⟨entry, hentry, hj⟩ := hplace
      obtain ⟨read, list, hread, hlist, hi⟩ := exists_read_of_entry? h hentry
      rw [put, draft_modifyEntry h hentry, AccessText.read_with_storageKey hread hj,
        ByteField.read, hlist]
      cases readSized 32 (AccessList.keyField i j) (AccessList.keyField i j) text with
      | error fault => rfl
      | ok key =>
          obtain ⟨-, hkeys⟩ := AccessText.read_eq_ok_iff.mp hread
          obtain ⟨old, -, hold⟩ := AccessList.exists_read_of_readFrom hkeys
            (List.getElem?_eq_getElem hj)
          have hlength : j < read.storageKeys.length := (List.getElem?_eq_some_iff.mp hold).1
          simp [Except.map, Draft.bytesAt, hi, hlength]

theorem exists_bytesAt_put_iff (h : doc.draft = .ok d) (hplace : doc.HasPlace field) :
    (∃ d', (doc.put field text).draft = .ok d' ∧ d'.bytesAt field = some bs) ↔
      field.read text = .ok bs := by
  rw [← Success.map_iff, draft_put h hplace text, Success.map_iff]
  simp only [Option.some.injEq, exists_eq_right]

theorem draft_put_eq_error_iff (h : doc.draft = .ok d) (hplace : doc.HasPlace field)
    {fault : Fault} :
    (doc.put field text).draft = .error fault ↔ field.read text = .error fault := by
  rw [← Success.map_eq_error_iff, draft_put h hplace text, Success.map_eq_error_iff]

end Put

/-- A text at a place is taken for what it writes behind one prefix, if that fits there, and
a text that writes nothing is refused as malformed. -/
structure ReadsStrictly (doc : Document) (field : ByteField) (text : String) : Prop where
  reads : ∀ bs, (∃ d, (doc.put field text).draft = .ok d ∧ d.bytesAt field = some bs) ↔
    Hex.Writes text bs ∧ field.Fits bs
  refuses : (¬ ∃ bs, Hex.Writes text bs) →
    (doc.put field text).draft = .error (.invalidFieldEncoding field.name)

/-- What a text writes is an even number of digits behind one prefix. In a document that can
be read, another text at a place is read as what it writes behind one prefix or behind two,
if that fits there, and it is malformed exactly if it writes nothing either way. So it is
read strictly unless it has a second prefix. -/
theorem readsStrictly_iff_not_writesBehindTwo {doc : Document} {d : Draft} {field : ByteField}
    (h : doc.draft = .ok d) (hplace : doc.HasPlace field) (text : String) :
    ((∃ bs, Hex.Writes text bs) ↔
      ∃ digits, Hex.Prefixed text digits ∧ digits.length % 2 = 0 ∧
        ∀ c ∈ digits, ∃ n, Hex.IsDigit c n) ∧
    (∀ bs, (∃ d', (doc.put field text).draft = .ok d' ∧ d'.bytesAt field = some bs) ↔
      (Hex.Writes text bs ∨ Hex.WritesBehindTwo text bs) ∧ field.Fits bs) ∧
    ((doc.put field text).draft = .error (.invalidFieldEncoding field.name) ↔
      ¬ ∃ bs, Hex.Writes text bs ∨ Hex.WritesBehindTwo text bs) ∧
    (doc.ReadsStrictly field text ↔ ¬ ∃ bs, Hex.WritesBehindTwo text bs) := by
  have hreads : ∀ bs,
      (∃ d', (doc.put field text).draft = .ok d' ∧ d'.bytesAt field = some bs) ↔
        (Hex.Writes text bs ∨ Hex.WritesBehindTwo text bs) ∧ field.Fits bs := by
    intro bs
    rw [exists_bytesAt_put_iff h hplace, ByteField.read_eq_ok_iff, Hex.bytes?_eq_some_iff]
  have hrefuses : (doc.put field text).draft = .error (.invalidFieldEncoding field.name) ↔
      ¬ ∃ bs, Hex.Writes text bs ∨ Hex.WritesBehindTwo text bs := by
    rw [draft_put_eq_error_iff h hplace, ByteField.read_eq_error_iff,
      Option.eq_none_iff_forall_ne_some, not_exists]
    simp only [ne_eq, Hex.bytes?_eq_some_iff]
  refine ⟨Hex.exists_writes_iff, hreads, hrefuses, ?_⟩
  constructor
  · rintro hstrict ⟨bs, htwo⟩
    -- A text with two prefixes writes nothing behind one, but it is not malformed.
    have hmalformed := hstrict.refuses fun ⟨bs', hwrites⟩ => htwo.not_writes bs' hwrites
    exact hrefuses.mp hmalformed ⟨bs, .inr htwo⟩
  · intro hsingle
    have hwrites : ∀ bs, Hex.Writes text bs ∨ Hex.WritesBehindTwo text bs ↔
        Hex.Writes text bs := fun bs => or_iff_left fun htwo => hsingle ⟨bs, htwo⟩
    simp only [hwrites] at hreads hrefuses
    exact ⟨hreads, hrefuses.mpr⟩

/-- A capital prefix with nothing behind it, in place of the only storage key of a list. -/
theorem readsStrictly_iff_not_writesBehindTwo_of_listed :
    let d : Draft := { accessList := some [⟨Fixed.ofNat 20 1, [Fixed.ofNat 32 2]⟩] }
    let doc := ofDraft d
    let field := ByteField.storageKey 0 0
    let text := "0X"
    doc.draft = .ok d ∧ doc.HasPlace field ∧
      ((doc.put field text).draft = .error (.invalidFieldEncoding field.name) ↔
        ¬ ∃ bs, Hex.Writes text bs ∨ Hex.WritesBehindTwo text bs) ∧
      (doc.ReadsStrictly field text ↔ ¬ ∃ bs, Hex.WritesBehindTwo text bs) := by
  intro d doc field text
  have hdraft : doc.draft = .ok d := draft_ofDraft d
  have hplace : doc.HasPlace field := ⟨.ofEntry ⟨Fixed.ofNat 20 1, [Fixed.ofNat 32 2]⟩, rfl,
    Nat.one_pos⟩
  exact ⟨hdraft, hplace, (readsStrictly_iff_not_writesBehindTwo hdraft hplace text).2.2⟩

/-- Two digits behind two prefixes are read as the data, though they do not write anything. -/
theorem exists_not_readsStrictly :
    let doc : Document := {}
    let text := "0x0x12"
    doc.draft = .ok {} ∧ doc.HasPlace .data ∧ (¬ ∃ bs, Hex.Writes text bs) ∧
      (doc.put .data text).draft = .ok { data := some [0x12] } ∧
      ¬ doc.ReadsStrictly .data text := by
  intro doc text
  have htwo : Hex.WritesBehindTwo text [0x12] :=
    ⟨['1', '2'], .inl (by decide), Hex.decode?_eq_some_iff.mp (by decide)⟩
  have hsingle : ¬ ∃ bs, Hex.Writes text bs := fun ⟨bs, hwrites⟩ => htwo.not_writes bs hwrites
  have hread : (doc.put .data text).draft = .ok { data := some [0x12] } := by
    have hhex : readHex "data" text = .ok [0x12] :=
      readHex_eq_ok_iff.mpr (Hex.bytes?_eq_some_iff.mpr (.inr htwo))
    rw [put, draft_with_data rfl, hhex]
    rfl
  refine ⟨rfl, trivial, hsingle, hread, ?_⟩
  intro hstrict
  have hmalformed := hstrict.refuses hsingle
  rw [hread] at hmalformed
  exact absurd hmalformed nofun

end Document
end TypedTx
