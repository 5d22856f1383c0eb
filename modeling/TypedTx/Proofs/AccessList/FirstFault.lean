import Mathlib.Data.List.Lex
import TypedTx.Proofs.AccessList

/-!
# The first fault of an access list

A place in a value is the path that leads to it: the positions of the members that are
entered one after the other. In lexicographic order the paths are the places in pre-order,
a list in front of its members. What is expected at a place of an access list is a matter of
the place alone, so a place is at fault or not whatever stands at the others.

Reading reports the fault at the first place that is at fault. This is shown reader by
reader, each for the place at which it reads, and put together by one lemma about a member
of a list that has nothing at fault in front of it.
-/

namespace TypedTx

/-- The part of a value at a path. -/
def Rlp.Item.at? : Rlp.Item → (path : List Nat) → Option Rlp.Item
  | item, [] => some item
  | .list items, k :: path => items[k]?.bind fun item => item.at? path
  | .bytes _, _ :: _ => none

/-- The fault of a value where `n` bytes are expected. -/
def Fixed.fault? (n : Nat) (field : String) : Rlp.Item → Option Fault
  | .bytes bs => if bs.length = n then none else some (.invalidFieldLength field n bs.length)
  | .list _ => some (.invalidFieldShape field)

namespace AccessList

def listFault? (field : String) : Rlp.Item → Option Fault
  | .list _ => none
  | .bytes _ => some (.invalidFieldShape field)

/-- The fault of a value where a list of two is expected. -/
def pairFault? (field : String) : Rlp.Item → Option Fault
  | .list [_, _] => none
  | _ => some (.invalidFieldShape field)

/-- What is expected at a place of an access list: that it is a list of pairs, and each pair
an address and a list of keys. Nothing is expected anywhere else. -/
def partFault? : (place : List Nat) → Rlp.Item → Option Fault
  | [] => listFault? "accessList"
  | [i] => pairFault? s!"accessList[{i}]"
  | [i, 0] => Fixed.fault? 20 s!"accessList[{i}].address"
  | [i, 1] => listFault? s!"accessList[{i}].storageKeys"
  | [i, 1, j] => Fixed.fault? 32 s!"accessList[{i}].storageKeys[{j}]"
  | _ => fun _ => none

/-- The fault at a path of a value that stands at `place` of an access list. -/
def faultAt? (place : List Nat) (item : Rlp.Item) (path : List Nat) : Option Fault :=
  (item.at? path).bind (partFault? (place ++ path))

def IsFirst (faultAt? : List Nat → Option Fault) (fault : Fault) : Prop :=
  ∃ path, faultAt? path = some fault ∧ ∀ before < path, faultAt? before = none

/-- The outcome is the first fault, or there is none. -/
def Reports {α : Type} (outcome : Except Fault α) (faultAt? : List Nat → Option Fault) : Prop :=
  match outcome with
  | .ok _ => ∀ path, faultAt? path = none
  | .error fault => IsFirst faultAt? fault

section Places

variable {place : List Nat} {item part : Rlp.Item} {items : List Rlp.Item} {k : Nat}
variable {fault : Fault}

theorem faultAt?_nil : faultAt? place item [] = partFault? place item := by
  rw [faultAt?, Rlp.Item.at?, List.append_nil, Option.bind_some]

/-- Below a list, the faults are those of its members. -/
theorem faultAt?_of_list {path : List Nat} :
    faultAt? place (.list items) (k :: path) =
      items[k]?.bind fun part => faultAt? (place ++ [k]) part path := by
  rw [faultAt?, Rlp.Item.at?, Option.bind_assoc, List.append_cons]
  rfl

/-- The first fault is one. -/
theorem IsFirst.unique {faultAt? : List Nat → Option Fault} {fault' : Fault}
    (h : IsFirst faultAt? fault) (h' : IsFirst faultAt? fault') : fault = fault' := by
  obtain ⟨path, hpath, hbefore⟩ := h
  obtain ⟨path', hpath', hbefore'⟩ := h'
  obtain hlt | rfl | hlt := lt_trichotomy path path'
  · rw [hbefore' path hlt] at hpath
    exact absurd hpath nofun
  · exact Option.some.inj (hpath.symm.trans hpath')
  · rw [hbefore path' hlt] at hpath'
    exact absurd hpath' nofun

/-- Nothing comes before the value itself. -/
theorem IsFirst.here (h : partFault? place item = some fault) :
    IsFirst (faultAt? place item) fault :=
  ⟨[], faultAt?_nil.trans h, fun before hlt => absurd hlt (List.not_lt_nil before)⟩

/-- The first fault of a member is that of the list, if nothing is at fault in front of the
member. -/
theorem IsFirst.member (hhere : partFault? place (.list items) = none)
    (hmember : items[k]? = some part)
    (hbefore : ∀ j < k, ∀ y, items[j]? = some y → ∀ path, faultAt? (place ++ [j]) y path = none)
    (h : IsFirst (faultAt? (place ++ [k]) part) fault) :
    IsFirst (faultAt? place (.list items)) fault := by
  obtain ⟨path, hpath, hfirst⟩ := h
  refine ⟨k :: path, ?_, ?_⟩
  · rw [faultAt?_of_list, hmember, Option.bind_some, hpath]
  · intro before hlt
    cases before with
    | nil => rw [faultAt?_nil, hhere]
    | cons j rest =>
        rw [faultAt?_of_list, Option.bind_eq_none_iff]
        intro y hy
        obtain hj | ⟨rfl, hrest⟩ := List.cons_lt_cons_iff.mp hlt
        · exact hbefore j hj y hy rest
        · obtain rfl := Option.some.inj (hmember.symm.trans hy)
          exact hfirst rest hrest

/-- Without a fault of its own and of its members, a list has none. -/
theorem faultAt?_eq_none_of_list (hhere : partFault? place (.list items) = none)
    (hmembers : ∀ k part, items[k]? = some part →
      ∀ path, faultAt? (place ++ [k]) part path = none) (path : List Nat) :
    faultAt? place (.list items) path = none := by
  cases path with
  | nil => rw [faultAt?_nil, hhere]
  | cons k rest =>
      rw [faultAt?_of_list, Option.bind_eq_none_iff]
      exact fun part hpart => hmembers k part hpart rest

end Places

section Readers

variable {place : List Nat}

/-- A byte string of a fixed size, where nothing is expected below it. -/
theorem reports_fixed {n : Nat} {field : String}
    (hhere : partFault? place = Fixed.fault? n field)
    (hbelow : ∀ k path item, partFault? (place ++ k :: path) item = none) (item : Rlp.Item) :
    Reports (Fixed.ofItem n field item) (faultAt? place item) := by
  have hrest : ∀ k path, faultAt? place item (k :: path) = none := by
    intro k path
    rw [faultAt?, Option.bind_eq_none_iff]
    exact fun part _ => hbelow k path part
  have hitem : faultAt? place item [] = Fixed.fault? n field item := by
    rw [faultAt?_nil, hhere]
  cases houtcome : Fixed.ofItem n field item with
  | ok x =>
      obtain rfl := Fixed.ofItem_eq_ok_iff.mp houtcome
      intro path
      cases path with
      | nil => rw [hitem, Fixed.fault?, if_pos x.2]
      | cons k path => exact hrest k path
  | error fault =>
      apply IsFirst.here
      rw [hhere]
      cases item with
      | list items =>
          cases houtcome
          rfl
      | bytes bs =>
          rw [Fixed.ofItem, Fixed.read, Fixed.ofBytes?] at houtcome
          by_cases hlength : bs.length = n
          · rw [dif_pos hlength] at houtcome
            cases houtcome
          · rw [dif_neg hlength] at houtcome
            cases houtcome
            exact if_neg hlength

/-- A list, read from left to right. -/
theorem reports_readFrom {β : Type} {read : Nat → Rlp.Item → Except Fault β}
    {items : List Rlp.Item} (hhere : partFault? place (.list items) = none)
    (hread : ∀ k part, Reports (read k part) (faultAt? (place ++ [k]) part)) :
    Reports (readFrom read 0 items) (faultAt? place (.list items)) := by
  have hclean : ∀ {k part}, (∃ y, read k part = .ok y) →
      ∀ path, faultAt? (place ++ [k]) part path = none := by
    rintro k part ⟨y, hy⟩
    have hreports := hread k part
    rw [hy] at hreports
    exact hreports
  cases houtcome : readFrom read 0 items with
  | ok ys =>
      apply faultAt?_eq_none_of_list hhere
      intro k part hpart
      obtain ⟨y, hy, -⟩ := exists_read_of_readFrom houtcome hpart
      rw [Nat.zero_add] at hy
      exact hclean ⟨y, hy⟩
  | error fault =>
      obtain ⟨k, part, hpart, hrefused, hbefore⟩ := exists_refused_of_readFrom houtcome
      simp only [Nat.zero_add] at hrefused hbefore
      have hreports := hread k part
      rw [hrefused] at hreports
      exact IsFirst.member hhere hpart (fun j hj y hy => hclean (hbefore j hj y hy)) hreports

/-- Two members, one read after the other. -/
theorem reports_pair {α β : Type} {x : Except Fault α} {f : α → Except Fault β}
    {a b : Rlp.Item} (hhere : partFault? place (.list [a, b]) = none)
    (hx : Reports x (faultAt? (place ++ [0]) a))
    (hf : ∀ y, Reports (f y) (faultAt? (place ++ [1]) b)) :
    Reports (x >>= f) (faultAt? place (.list [a, b])) := by
  cases x with
  | error fault => exact IsFirst.member hhere (k := 0) rfl nofun hx
  | ok y =>
      have hsecond : Reports (f y) (faultAt? (place ++ [1]) b) := hf y
      change Reports (f y) _
      cases houtcome : f y with
      | error fault =>
          rw [houtcome] at hsecond
          refine IsFirst.member hhere (k := 1) rfl ?_ hsecond
          intro j hj part hpart
          obtain rfl : j = 0 := Nat.lt_one_iff.mp hj
          obtain rfl := Option.some.inj hpart
          exact hx
      | ok z =>
          rw [houtcome] at hsecond
          apply faultAt?_eq_none_of_list hhere
          intro k part hpart
          obtain _ | _ | k := k
          · obtain rfl := Option.some.inj hpart
            exact hx
          · obtain rfl := Option.some.inj hpart
            exact hsecond
          · exact absurd hpart nofun

theorem Reports.map {α β : Type} {x : Except Fault α} {faultAt? : List Nat → Option Fault}
    (h : Reports x faultAt?) (f : α → β) : Reports (x >>= fun y => .ok (f y)) faultAt? := by
  cases x <;> exact h

end Readers

section Names

variable (i j : Nat)

theorem addressField_eq : addressField i = s!"accessList[{i}].address" := by
  rw [addressField, entryField, String.append_assoc]
  rfl

theorem keysField_eq : keysField i = s!"accessList[{i}].storageKeys" := by
  rw [keysField, entryField, String.append_assoc]
  rfl

theorem keyField_eq : keyField i j = s!"accessList[{i}].storageKeys[{j}]" :=
  calc keyField i j
    _ = "accessList[" ++ toString i ++ "].storageKeys" ++ ("[" ++ toString j ++ "]") := by
      rw [keyField, keysField_eq]
      rfl
    _ = "accessList[" ++ toString i ++ ("].storageKeys" ++ "[") ++ toString j ++ "]" := by
      simp only [String.append_assoc]
    _ = s!"accessList[{i}].storageKeys[{j}]" := rfl

end Names

theorem reports_address (i : Nat) (item : Rlp.Item) :
    Reports (Fixed.ofItem 20 (addressField i) item) (faultAt? [i, 0] item) := by
  apply reports_fixed
  · rw [addressField_eq]
    rfl
  · exact fun _ _ _ => rfl

theorem reports_storageKey (i j : Nat) (item : Rlp.Item) :
    Reports (Fixed.ofItem 32 (keyField i j) item) (faultAt? [i, 1, j] item) := by
  apply reports_fixed
  · rw [keyField_eq]
    rfl
  · exact fun _ _ _ => rfl

theorem pairFault?_eq_some {field : String} {item : Rlp.Item}
    (h : ∀ a b, item = .list [a, b] → False) :
    pairFault? field item = some (.invalidFieldShape field) := by
  rw [pairFault?.eq_def]
  split
  · exact (h _ _ rfl).elim
  · rfl

/-- An entry: the pair, then the address, then that there is a list of keys, then these. -/
theorem reports_readEntry (i : Nat) (item : Rlp.Item) :
    Reports (readEntry i item) (faultAt? [i] item) := by
  rw [readEntry.eq_def]
  split
  · rename_i address keys
    refine reports_pair rfl (reports_address i address) fun address => ?_
    cases keys with
    | bytes bs =>
        apply IsFirst.here
        rw [keysField_eq]
        rfl
    | list keys =>
        have hkeys : ∀ j key, Reports (Fixed.ofItem 32 (keyField i j) key)
            (faultAt? ([i, 1] ++ [j]) key) := reports_storageKey i
        exact (reports_readFrom rfl hkeys).map _
  · rename_i hshape
    exact IsFirst.here (pairFault?_eq_some hshape)

theorem reports_ofItem (item : Rlp.Item) : Reports (ofItem item) (faultAt? [] item) := by
  cases item with
  | bytes bs => exact IsFirst.here rfl
  | list entries => exact reports_readFrom rfl reports_readEntry

/-- A value is refused for the fault at the first path that is at fault, in pre-order: the
list, then entry by entry the pair, the address, the list of keys and the keys from left to
right. What comes before that path is as expected, and a value is read if and only if it is
as expected everywhere. -/
theorem ofItem_eq_error_iff (item : Rlp.Item) :
    (∀ fault, ofItem item = .error fault ↔
      ∃ path, faultAt? [] item path = some fault ∧
        ∀ before < path, faultAt? [] item before = none) ∧
    ((∃ list, ofItem item = .ok list) ↔ ∀ path, faultAt? [] item path = none) := by
  have hreports := reports_ofItem item
  cases houtcome : ofItem item with
  | ok list =>
      rw [houtcome] at hreports
      refine ⟨fun fault => ⟨nofun, ?_⟩, fun _ => hreports, fun _ => ⟨list, rfl⟩⟩
      rintro ⟨path, hpath, -⟩
      rw [hreports path] at hpath
      exact absurd hpath nofun
  | error fault =>
      rw [houtcome] at hreports
      have hfirst : IsFirst (faultAt? [] item) fault := hreports
      refine ⟨fun other => ⟨?_, ?_⟩, nofun, ?_⟩
      · intro hother
        rw [← Except.error.inj hother]
        exact hfirst
      · intro hother
        rw [hfirst.unique hother]
      · intro hnone
        obtain ⟨path, hpath, -⟩ := hfirst
        rw [hnone path] at hpath
        exact absurd hpath nofun

/-- The second key of the second entry is too short, and so is the address of the third. -/
example :
    let entry : Rlp.Item := .list [.bytes (.replicate 20 1), .list []]
    let short : Rlp.Item :=
      .list [.bytes (.replicate 20 1), .list [.bytes (.replicate 32 0), .bytes (.replicate 31 0)]]
    ofItem (.list [entry, short, .list [.bytes [1], .bytes []]]) =
      .error (.invalidFieldLength "accessList[1].storageKeys[1]" 32 31) := rfl

end AccessList
end TypedTx
