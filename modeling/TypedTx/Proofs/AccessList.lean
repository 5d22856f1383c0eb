import TypedTx.AccessList
import TypedTx.Proofs.Rlp.Codec
import TypedTx.Proofs.Success

/-!
# The wire form of access lists

Reading accepts exactly the written forms. The equivalence is proved for a single
fixed-size byte string, lifted to lists by `readFrom`, and used twice: for the
storage keys of an entry, and for the entries. A list that is refused is refused for the
first of its elements that is.
-/

namespace TypedTx

namespace Fixed

variable {n : Nat} {field : String} {x : Fixed n}

theorem ofBytes?_eq_some_iff {bs : Bytes} : ofBytes? n bs = some x ↔ bs = x.1 := by
  constructor
  · intro h
    rw [ofBytes?] at h
    split at h
    · rw [← Option.some.inj h]
    · exact absurd h.symm (Option.some_ne_none x)
  · rintro rfl
    exact ofBytes?_val x

theorem read_eq_ok_iff {bs : Bytes} : read n field bs = .ok x ↔ bs = x.1 := by
  rw [← ofBytes?_eq_some_iff, read]
  cases ofBytes? n bs <;> simp

theorem ofItem_eq_ok_iff {item : Rlp.Item} : ofItem n field item = .ok x ↔ item = .bytes x.1 := by
  cases item with
  | bytes bs => rw [ofItem, read_eq_ok_iff, Rlp.Item.bytes.injEq]
  | list items => exact ⟨nofun, nofun⟩

end Fixed

namespace AccessList

/-- Reading element by element undoes writing element by element, if it does for
each element. -/
theorem readFrom_eq_ok_iff {α β : Type} {read : Nat → α → Except Fault β} {write : β → α}
    (h : ∀ {i x y}, read i x = .ok y ↔ x = write y) {i : Nat} {xs : List α} {ys : List β} :
    readFrom read i xs = .ok ys ↔ xs = ys.map write := by
  induction xs generalizing i ys with
  | nil =>
      rw [readFrom, Except.ok.injEq]
      cases ys <;> simp
  | cons x xs ih =>
      rw [readFrom, Success.bind_iff]
      constructor
      · rintro ⟨y, hy, hrest⟩
        obtain ⟨ys, hys, hok⟩ := Success.bind_iff.mp hrest
        rw [← Except.ok.inj hok, List.map_cons, h.mp hy, ih.mp hys]
      · intro hxs
        cases ys with
        | nil => exact absurd hxs nofun
        | cons y ys =>
            obtain ⟨hx, hxs⟩ := List.cons.inj hxs
            exact ⟨y, h.mpr hx, Success.bind_iff.mpr ⟨ys, ih.mpr hxs, rfl⟩⟩

section Elements

variable {α β : Type} {read : Nat → α → Except Fault β} {i k : Nat} {xs : List α} {ys : List β}
variable {x : α} {fault : Fault}

/-- Each element is read on its own. -/
theorem exists_read_of_readFrom (h : readFrom read i xs = .ok ys) (hx : xs[k]? = some x) :
    ∃ y, read (i + k) x = .ok y ∧ ys[k]? = some y := by
  induction xs generalizing i k ys with
  | nil => exact absurd hx nofun
  | cons a xs ih =>
      obtain ⟨y, hy, h⟩ := Success.bind_iff.mp h
      obtain ⟨ys', hys, h⟩ := Success.bind_iff.mp h
      obtain rfl := Except.ok.inj h
      cases k with
      | zero =>
          obtain rfl := Option.some.inj hx
          exact ⟨y, hy, rfl⟩
      | succ k =>
          obtain ⟨z, hz, hget⟩ := ih hys hx
          refine ⟨z, ?_, hget⟩
          rwa [Nat.add_right_comm, Nat.add_assoc] at hz

/-- Reading stops at the first element that is refused. -/
theorem exists_refused_of_readFrom (h : readFrom read i xs = .error fault) :
    ∃ k x, xs[k]? = some x ∧ read (i + k) x = .error fault ∧
      ∀ j < k, ∀ y, xs[j]? = some y → ∃ z, read (i + j) y = .ok z := by
  induction xs generalizing i with
  | nil => exact absurd h nofun
  | cons a xs ih =>
      obtain ha | ⟨b, hb, h⟩ := Success.bind_eq_error_iff.mp h
      · exact ⟨0, a, rfl, ha, nofun⟩
      · obtain hrest | ⟨_, -, h⟩ := Success.bind_eq_error_iff.mp h
        · obtain ⟨k, x, hx, hrefused, hbefore⟩ := ih hrest
          rw [Nat.add_right_comm, Nat.add_assoc] at hrefused
          refine ⟨k + 1, x, hx, hrefused, ?_⟩
          intro j hj y hy
          cases j with
          | zero =>
              obtain rfl := Option.some.inj hy
              exact ⟨b, hb⟩
          | succ j =>
              obtain ⟨z, hz⟩ := hbefore j (Nat.lt_of_succ_lt_succ hj) y hy
              rw [Nat.add_right_comm, Nat.add_assoc] at hz
              exact ⟨z, hz⟩
        · exact absurd h nofun

end Elements

theorem readEntry_eq_ok_iff {i : Nat} {item : Rlp.Item} {entry : AccessEntry} :
    readEntry i item = .ok entry ↔ item = entry.toItem := by
  constructor
  · intro h
    rw [readEntry.eq_def] at h
    split at h
    · obtain ⟨address, haddress, h⟩ := Success.bind_iff.mp h
      split at h
      · exact absurd h nofun
      · obtain ⟨keys, hkeys, h⟩ := Success.bind_iff.mp h
        rw [← Except.ok.inj h, AccessEntry.toItem, Fixed.ofItem_eq_ok_iff.mp haddress,
          (readFrom_eq_ok_iff Fixed.ofItem_eq_ok_iff).mp hkeys]
    · exact absurd h nofun
  · rintro rfl
    rw [AccessEntry.toItem, readEntry, Success.bind_iff]
    refine ⟨entry.address, Fixed.ofItem_eq_ok_iff.mpr rfl, Success.bind_iff.mpr ?_⟩
    exact ⟨entry.storageKeys, (readFrom_eq_ok_iff Fixed.ofItem_eq_ok_iff).mpr rfl, rfl⟩

theorem ofItem_eq_ok_iff {item : Rlp.Item} {list : AccessList} :
    ofItem item = .ok list ↔ item = list.toItem := by
  cases item with
  | bytes bs => exact ⟨nofun, nofun⟩
  | list entries => rw [ofItem, toItem, readFrom_eq_ok_iff readEntry_eq_ok_iff, Rlp.Item.list.injEq]

/-- Addresses and keys stand in a list of keys, in an entry, in the list. -/
theorem depth_toItem_le (list : AccessList) : list.toItem.depth ≤ 3 := by
  rw [toItem, Rlp.Item.depth, Nat.add_le_add_iff_right, Rlp.Item.depthAll_le_iff]
  intro item hitem
  obtain ⟨entry, -, rfl⟩ := List.mem_map.mp hitem
  have hkeys : Rlp.Item.depthAll (entry.storageKeys.map fun key => .bytes key.1) ≤ 0 := by
    rw [Rlp.Item.depthAll_le_iff]
    intro item hitem
    obtain ⟨key, -, rfl⟩ := List.mem_map.mp hitem
    simp [Rlp.Item.depth]
  simp only [AccessEntry.toItem, Rlp.Item.depth, Rlp.Item.depthAll]
  change max 0 (max (_ + 1) 0) + 1 ≤ 2
  omega

end AccessList
end TypedTx
