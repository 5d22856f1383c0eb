import TypedTx.Proofs.AccessList.FirstFault
import TypedTx.Proofs.AccessList.Grammar
import TypedTx.Proofs.Document.ByteText

/-!
# Access lists in text and on the wire

An access list is read from texts and from values by two traversals of their own. Given the
texts and the value of the same byte strings, whatever the sizes of these, both come down to
one reader of byte strings, which has nothing left to check but the sizes.

That reader reports the first wrong size, so both report it, under the same name. The sizes
are listed for all entries at once, an address in front of its keys, and each step of the
reader is shown to report the first fault of its part of the list.
-/

namespace TypedTx

/-- An entry of an access list as byte strings, which may have any size. -/
structure AccessBytes where
  address : Bytes
  storageKeys : List Bytes
deriving DecidableEq, Repr

def AccessEntry.toBytes (entry : AccessEntry) : AccessBytes :=
  ⟨entry.address.1, entry.storageKeys.map Subtype.val⟩

/-- The value that holds the byte strings: a pair of the address and the list of keys. -/
def AccessBytes.toItem (entry : AccessBytes) : Rlp.Item :=
  .list [.bytes entry.address, .list (entry.storageKeys.map .bytes)]

def AccessBytes.toText (entry : AccessBytes) : AccessText :=
  ⟨Hex.text entry.address, entry.storageKeys.map Hex.text⟩

/-- The texts write the byte strings, each its own. -/
structure AccessText.Writes (text : AccessText) (entry : AccessBytes) : Prop where
  address : Hex.Writes text.address entry.address
  storageKeys : List.Forall₂ Hex.Writes text.storageKeys entry.storageKeys

/-- The fault of a byte string that does not have `n` bytes. -/
def Fixed.wrongSize (n : Nat) (field : String) (bs : Bytes) : List Fault :=
  if bs.length = n then [] else [.invalidFieldLength field n bs.length]

/-- The wrong sizes in the entry at position `i`, the address first. -/
def AccessBytes.wrongSizes (i : Nat) (entry : AccessBytes) : List Fault :=
  Fixed.wrongSize 20 s!"accessList[{i}].address" entry.address ++
    entry.storageKeys.zipIdx.flatMap fun (key, j) =>
      Fixed.wrongSize 32 s!"accessList[{i}].storageKeys[{j}]" key

def AccessList.wrongSizes (entries : List AccessBytes) : List Fault :=
  entries.zipIdx.flatMap fun (entry, i) => entry.wrongSizes i

namespace AccessList

variable {α β γ : Type} {read : Nat → α → Except Fault γ} {read' : Nat → β → Except Fault γ}

/-- Elements that are read alike, one by one, are read alike as a list. -/
theorem readFrom_congr {related : α → β → Prop}
    (h : ∀ i x y, related x y → read i x = read' i y) {xs : List α} {ys : List β}
    (hxs : List.Forall₂ related xs ys) (i : Nat) : readFrom read i xs = readFrom read' i ys := by
  induction hxs generalizing i with
  | nil => rfl
  | cons hx _ ih => rw [readFrom, readFrom, h i _ _ hx, ih]

theorem readFrom_map_eq (f : β → α) (ys : List β) (i : Nat) :
    readFrom read i (ys.map f) = readFrom (fun i y => read i (f y)) i ys := by
  have himages : List.Forall₂ (fun x y => x = f y) (ys.map f) ys :=
    (forall₂_iff_eq_map fun _ _ => Iff.rfl).mpr rfl
  have hread : ∀ i x y, x = f y → read i x = read i (f y) := fun i _ _ hx => congrArg (read i) hx
  exact readFrom_congr hread himages i

end AccessList

/-- Read the byte strings of the entry at position `i`. -/
def AccessBytes.read (i : Nat) (entry : AccessBytes) : Except Fault AccessEntry := do
  let address ← Fixed.read 20 (AccessList.addressField i) entry.address
  let storageKeys ← AccessList.readFrom (fun j => Fixed.read 32 (AccessList.keyField i j)) 0
    entry.storageKeys
  .ok ⟨address, storageKeys⟩

theorem readSized_of_writes {n : Nat} {field sized text : String} {bs : Bytes}
    (h : Hex.Writes text bs) : readSized n field sized text = Fixed.read n sized bs := by
  rw [readSized, readHex, Hex.bytes?_eq_some_iff.mpr (.inl h)]
  rfl

theorem AccessBytes.writes_toText (entry : AccessBytes) : entry.toText.Writes entry := by
  refine ⟨Hex.writes_text entry.address, ?_⟩
  rw [toText, List.forall₂_map_left_iff, List.forall₂_same]
  exact fun key _ => Hex.writes_text key

/-- Texts are not malformed if they write something, so a key is at fault by its size alone. -/
theorem AccessText.read_of_writes (i : Nat) (text : AccessText) (entry : AccessBytes)
    (h : text.Writes entry) : AccessText.read i text = entry.read i := by
  have hkey : ∀ j text key, Hex.Writes text key →
      readSized 32 (AccessList.keyField i j) (AccessList.keyField i j) text =
        Fixed.read 32 (AccessList.keyField i j) key :=
    fun _ _ _ hwrites => readSized_of_writes hwrites
  have hkeys := AccessList.readFrom_congr hkey h.storageKeys 0
  rw [AccessText.read_eq, readSized_of_writes h.address, hkeys]
  rfl

/-- The value of the byte strings has the shape of an entry. -/
theorem AccessList.readEntry_toItem (i : Nat) (entry : AccessBytes) :
    readEntry i entry.toItem = entry.read i := by
  rw [AccessBytes.toItem, readEntry]
  dsimp only
  rw [readFrom_map_eq]
  rfl

theorem AccessList.readFrom_texts {texts : List AccessText} {entries : List AccessBytes}
    (h : List.Forall₂ AccessText.Writes texts entries) :
    readFrom AccessText.read 0 texts = readFrom AccessBytes.read 0 entries :=
  readFrom_congr AccessText.read_of_writes h 0

theorem AccessList.ofItem_entries (entries : List AccessBytes) :
    ofItem (.list (entries.map AccessBytes.toItem)) = readFrom AccessBytes.read 0 entries := by
  rw [ofItem, readFrom_map_eq]
  simp only [readEntry_toItem]

/-- The outcome is the first of the faults, or there is none. -/
def FailsFirst {α : Type} (outcome : Except Fault α) (faults : List Fault) : Prop :=
  ∀ fault, outcome = .error fault ↔ faults.head? = some fault

namespace FailsFirst

variable {α β : Type}

theorem ok (a : α) : FailsFirst (.ok a) [] :=
  fun _ => ⟨nofun, nofun⟩

/-- The faults of two steps, one after the other. -/
theorem bind {x : Except Fault α} {f : α → Except Fault β} {first rest : List Fault}
    (hx : FailsFirst x first) (hf : ∀ a, FailsFirst (f a) rest) :
    FailsFirst (x >>= f) (first ++ rest) := by
  intro fault
  rw [List.head?_append, Success.bind_eq_error_iff, hx fault]
  cases x with
  | error other =>
      rw [(hx other).mp rfl]
      simp
  | ok a =>
      have hnone : first.head? = none := by
        rw [Option.eq_none_iff_forall_ne_some]
        exact fun other hother => absurd ((hx other).mpr hother) nofun
      rw [hnone]
      simp [hf a fault]

theorem read (n : Nat) (field : String) (bs : Bytes) :
    FailsFirst (Fixed.read n field bs) (Fixed.wrongSize n field bs) := by
  intro fault
  rw [Fixed.read, Fixed.ofBytes?, Fixed.wrongSize]
  by_cases hlength : bs.length = n
  · rw [dif_pos hlength, if_pos hlength]
    exact FailsFirst.ok _ fault
  · rw [dif_neg hlength, if_neg hlength]
    simp

/-- The faults of the elements of a list, from left to right. -/
theorem readFrom {read : Nat → α → Except Fault β} {faults : Nat → α → List Fault}
    (h : ∀ i x, FailsFirst (read i x) (faults i x)) (xs : List α) (i : Nat) :
    FailsFirst (AccessList.readFrom read i xs) ((xs.zipIdx i).flatMap fun (x, k) => faults k x) := by
  induction xs generalizing i with
  | nil => exact ok []
  | cons x xs ih =>
      rw [List.zipIdx_cons, List.flatMap_cons, AccessList.readFrom]
      refine (h i x).bind fun y => ?_
      have htail := (ih (i + 1)).bind fun ys => ok (y :: ys)
      rwa [List.append_nil] at htail

end FailsFirst

theorem AccessBytes.failsFirst_read (i : Nat) (entry : AccessBytes) :
    FailsFirst (entry.read i) (entry.wrongSizes i) := by
  have hkey : ∀ j key, FailsFirst (Fixed.read 32 (AccessList.keyField i j) key)
      (Fixed.wrongSize 32 s!"accessList[{i}].storageKeys[{j}]" key) := by
    intro j key
    rw [AccessList.keyField_eq]
    exact FailsFirst.read 32 _ key
  rw [AccessBytes.read, wrongSizes, AccessList.addressField_eq]
  refine (FailsFirst.read 20 _ entry.address).bind fun address => ?_
  have hkeys := (FailsFirst.readFrom hkey entry.storageKeys 0).bind fun keys =>
    FailsFirst.ok (AccessEntry.mk address keys)
  rwa [List.append_nil] at hkeys

theorem AccessEntry.toItem_eq (entry : AccessEntry) : entry.toItem = entry.toBytes.toItem := by
  rw [AccessEntry.toItem, AccessBytes.toItem, toBytes, List.map_map]
  rfl

theorem AccessBytes.toItem_injective : Function.Injective AccessBytes.toItem := by
  intro entry other h
  simp only [toItem, Rlp.Item.list.injEq, List.cons.injEq, Rlp.Item.bytes.injEq, and_true] at h
  have hkeys : entry.storageKeys = other.storageKeys :=
    List.map_injective_iff.mpr (fun _ _ => Rlp.Item.bytes.inj) h.2
  cases entry
  cases other
  rw [mk.injEq]
  exact ⟨h.1, hkeys⟩

/-- A document of nothing but an access list. -/
theorem Document.draft_accessList (texts : List AccessText) :
    ({ accessList := some texts } : Document).draft =
      (AccessList.readFrom AccessText.read 0 texts).map fun list => { accessList := some list } := by
  change (readSome (AccessList.readFrom AccessText.read 0) (some texts) >>= _) = _
  rw [readSome]
  cases AccessList.readFrom AccessText.read 0 texts <;> rfl

/-- Given texts and the value of the same byte strings, the access list is read from both
with the same outcome. It is the list of these byte strings if all of them have the right
size, and otherwise the first wrong size is reported, with the name of its place, the size
that is expected there and the size that was found. -/
theorem AccessBytes.readFrom_eq_ofItem (entries : List AccessBytes) :
    let outcome := AccessList.ofItem (.list (entries.map toItem))
    List.Forall₂ AccessText.Writes (entries.map toText) entries ∧
    (∀ texts, List.Forall₂ AccessText.Writes texts entries →
      AccessList.readFrom AccessText.read 0 texts = outcome ∧
      ({ accessList := some texts } : Document).draft =
        outcome.map (fun list => { accessList := some list })) ∧
    (∀ list, outcome = .ok list ↔ entries = list.map AccessEntry.toBytes) ∧
    (∀ fault, outcome = .error fault ↔ (AccessList.wrongSizes entries).head? = some fault) := by
  intro outcome
  have houtcome : outcome = AccessList.readFrom read 0 entries := AccessList.ofItem_entries entries
  refine ⟨?_, ?_, ?_, ?_⟩
  · rw [List.forall₂_map_left_iff, List.forall₂_same]
    exact fun entry _ => entry.writes_toText
  · intro texts h
    have hsame : AccessList.readFrom AccessText.read 0 texts = outcome := by
      rw [AccessList.readFrom_texts h, houtcome]
    refine ⟨hsame, ?_⟩
    rw [Document.draft_accessList, hsame]
  · intro list
    have hitems : list.map AccessEntry.toItem = (list.map AccessEntry.toBytes).map toItem := by
      rw [List.map_map]
      exact List.map_congr_left fun entry _ => entry.toItem_eq
    change AccessList.ofItem _ = _ ↔ _
    rw [AccessList.ofItem_eq_ok_iff, AccessList.toItem, hitems, Rlp.Item.list.injEq]
    exact (List.map_injective_iff.mpr toItem_injective).eq_iff
  · rw [houtcome]
    exact FailsFirst.readFrom failsFirst_read entries 0

/-- The only key of the second entry is too short, and so is the address of the third. -/
example :
    let texts : List AccessText :=
      [⟨Hex.text (.replicate 20 1), []⟩, ⟨Hex.text (.replicate 20 1), ["0XaB"]⟩, ⟨"0x", ["0x01"]⟩]
    AccessList.readFrom AccessText.read 0 texts =
      .error (.invalidFieldLength "accessList[1].storageKeys[0]" 32 1) := by
  decide

end TypedTx
