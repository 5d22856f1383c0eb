import Mathlib.Data.List.Forall2
import Mathlib.Data.Set.Function
import Mathlib.Data.Set.List
import TypedTx.Proofs.AccessList

/-!
# Which values are access lists

The grammar is stated on values, without reading or writing: an access list is a list of
pairs of an address and a list of storage keys. A value spells a given access list if it
has its entries in their order, and each entry its address and its keys in their order.

Every access list is spelled by exactly one value and every value of the grammar spells
exactly one access list, repetitions included. Writing and reading are the two directions
of that.
-/

namespace TypedTx

namespace Rlp.Item

/-- A byte string of `n` bytes. -/
def IsFixed (n : Nat) : Item → Prop
  | .bytes bs => bs.length = n
  | .list _ => False

/-- A pair of an address and a list of storage keys. -/
def IsAccessEntry : Item → Prop
  | .list [address, .list keys] => address.IsFixed 20 ∧ ∀ key ∈ keys, key.IsFixed 32
  | _ => False

def IsAccessList : Item → Prop
  | .list entries => ∀ entry ∈ entries, entry.IsAccessEntry
  | .bytes _ => False

end Rlp.Item

/-- The value is a pair of the address and the storage keys, one by one. -/
inductive AccessEntry.Spells : Rlp.Item → AccessEntry → Prop where
  | pair {keys : List Rlp.Item} {entry : AccessEntry} :
      List.Forall₂ (fun item key => item = .bytes key.1) keys entry.storageKeys →
      Spells (.list [.bytes entry.address.1, .list keys]) entry

/-- The value is a list of the entries, one by one. -/
inductive AccessList.Spells : Rlp.Item → AccessList → Prop where
  | list {entries : List Rlp.Item} {list : AccessList} :
      List.Forall₂ AccessEntry.Spells entries list → Spells (.list entries) list

/-- Elements that spell others one by one are written from them. -/
theorem forall₂_iff_eq_map {α β : Type} {spells : α → β → Prop} {write : β → α}
    (h : ∀ x y, spells x y ↔ x = write y) {xs : List α} {ys : List β} :
    List.Forall₂ spells xs ys ↔ xs = ys.map write := by
  have hspells : spells = fun x y => x = write y := by
    funext x y
    exact propext (h x y)
  rw [hspells, ← List.forall₂_map_right_iff, List.forall₂_eq_eq_eq]

theorem AccessEntry.spells_iff (item : Rlp.Item) (entry : AccessEntry) :
    Spells item entry ↔ item = entry.toItem := by
  constructor
  · rintro ⟨hkeys⟩
    rw [toItem, ← (forall₂_iff_eq_map fun _ _ => Iff.rfl).mp hkeys]
  · rintro rfl
    exact .pair ((forall₂_iff_eq_map fun _ _ => Iff.rfl).mpr rfl)

theorem AccessList.spells_iff {item : Rlp.Item} {list : AccessList} :
    Spells item list ↔ item = list.toItem := by
  constructor
  · rintro ⟨hentries⟩
    rw [toItem, ← (forall₂_iff_eq_map AccessEntry.spells_iff).mp hentries]
  · rintro rfl
    exact .list ((forall₂_iff_eq_map AccessEntry.spells_iff).mpr rfl)

namespace Rlp.Item

variable {item : Item}

theorem isFixed_iff {n : Nat} : item.IsFixed n ↔ ∃ x : Fixed n, item = .bytes x.1 := by
  cases item with
  | bytes bs =>
      constructor
      · intro h
        exact ⟨⟨bs, h⟩, rfl⟩
      · rintro ⟨x, hx⟩
        rw [bytes.inj hx]
        exact x.2
  | list items => exact ⟨nofun, nofun⟩

/-- A list whose elements are written is written as a whole. -/
theorem forall_mem_iff_exists_map {β : Type} {p : Item → Prop} {write : β → Item}
    (h : ∀ {item}, p item ↔ ∃ y, item = write y) {items : List Item} :
    (∀ item ∈ items, p item) ↔ ∃ ys : List β, items = ys.map write := by
  have hrange : items ∈ Set.range (List.map write) ↔ ∀ item ∈ items, item ∈ Set.range write := by
    rw [Set.range_list_map]
    rfl
  simpa only [h, Set.mem_range, eq_comm] using hrange.symm

theorem isAccessEntry_iff : item.IsAccessEntry ↔ ∃ entry : AccessEntry, item = entry.toItem := by
  constructor
  · intro h
    rw [IsAccessEntry.eq_def] at h
    split at h
    · obtain ⟨haddress, hkeys⟩ := h
      obtain ⟨address, rfl⟩ := isFixed_iff.mp haddress
      obtain ⟨keys, rfl⟩ := (forall_mem_iff_exists_map isFixed_iff).mp hkeys
      exact ⟨⟨address, keys⟩, rfl⟩
    · exact h.elim
  · rintro ⟨entry, rfl⟩
    refine ⟨isFixed_iff.mpr ⟨entry.address, rfl⟩, ?_⟩
    exact (forall_mem_iff_exists_map isFixed_iff).mpr ⟨entry.storageKeys, rfl⟩

theorem isAccessList_iff : item.IsAccessList ↔ ∃ list : AccessList, item = list.toItem := by
  cases item with
  | bytes bs => exact ⟨nofun, nofun⟩
  | list entries =>
      rw [IsAccessList, forall_mem_iff_exists_map isAccessEntry_iff]
      simp only [AccessList.toItem, list.injEq]

end Rlp.Item

/-- Writing an access list and reading it are inverse bijections between the access lists
and the values of the grammar. What is read has the entries and keys of the value in their
order, with repetitions. -/
theorem AccessList.bijOn_toItem :
    (∀ list, ofItem list.toItem = .ok list) ∧
    (∀ item list, ofItem item = .ok list ↔ list.toItem = item) ∧
    (∀ item list, ofItem item = .ok list ↔ Spells item list) ∧
    (∀ item, (∃ list, ofItem item = .ok list) ↔ item.IsAccessList) ∧
    Set.BijOn toItem Set.univ {item | item.IsAccessList} := by
  have hread : ∀ list, ofItem list.toItem = .ok list := fun list => ofItem_eq_ok_iff.mpr rfl
  refine ⟨hread, ?_, ?_, ?_, ?_⟩
  · intro item list
    rw [ofItem_eq_ok_iff, eq_comm]
  · intro item list
    rw [ofItem_eq_ok_iff, spells_iff]
  · intro item
    simp only [ofItem_eq_ok_iff, Rlp.Item.isAccessList_iff]
  · refine ⟨?_, ?_, ?_⟩
    · intro list _
      exact Rlp.Item.isAccessList_iff.mpr ⟨list, rfl⟩
    · intro list _ other _ heq
      have hother : (Except.ok list : Except Fault AccessList) = .ok other := by
        rw [← hread list, heq, hread other]
      exact Except.ok.inj hother
    · intro item hitem
      obtain ⟨list, rfl⟩ := Rlp.Item.isAccessList_iff.mp hitem
      exact ⟨list, trivial, rfl⟩

end TypedTx
