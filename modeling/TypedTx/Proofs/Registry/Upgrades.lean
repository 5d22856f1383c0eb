import Mathlib.Data.List.Perm.Basic
import TypedTx.Registry.Basic

/-!
# Upgrades in force

The upgrades that are switched on explicitly are kept as an ascending list. Inserting into
it is commutative and idempotent, whatever the list, so switching on upgrades depends on
nothing but which they are: not on their order, nor on repetitions.

An upgrade that forks introduce is introduced by one of them only. It is in force if that
fork is not after the registry's, or if it is switched on. More upgrades and a later fork
therefore leave in force what was in force.
-/

namespace TypedTx

namespace Fork

variable {eip : Nat} {fork : Fork}

/-- An upgrade is looked up under the fork that introduces it. -/
theorem activating?_of_mem (fork : Fork) :
    ∀ eip ∈ fork.introduced, activating? eip = some fork := by
  cases fork <;> decide

theorem activating?_eq_some_iff : activating? eip = some fork ↔ eip ∈ fork.introduced := by
  constructor
  · intro h
    have hcontains := List.find?_some h
    exact List.contains_iff_mem.mp hcontains
  · exact activating?_of_mem fork eip

end Fork

namespace Registry

section Insert

variable {e : Nat} (a b : Nat) (set : List Nat)

theorem mem_insertEip : e ∈ insertEip a set ↔ e = a ∨ e ∈ set := by
  induction set with
  | nil => simp [insertEip]
  | cons c set ih =>
      rw [insertEip]
      split
      · exact List.mem_cons
      · split
        · rename_i heq
          simp [heq]
        · rw [List.mem_cons, ih, List.mem_cons, or_left_comm]

theorem insertEip_idem : insertEip a (insertEip a set) = insertEip a set := by
  induction set with
  | nil => simp [insertEip]
  | cons c set ih => grind [insertEip]

theorem insertEip_comm : insertEip a (insertEip b set) = insertEip b (insertEip a set) := by
  induction set with
  | nil => grind [insertEip]
  | cons c set ih => grind [insertEip]

theorem pairwise_insertEip {set : List Nat} (h : set.Pairwise (· < ·)) :
    (insertEip a set).Pairwise (· < ·) := by
  induction set with
  | nil => exact List.pairwise_singleton _ a
  | cons c set ih =>
      obtain ⟨hc, hset⟩ := List.pairwise_cons.mp h
      rw [insertEip]
      split
      · rename_i hlt
        refine List.pairwise_cons.mpr ⟨?_, h⟩
        rintro e (_ | ⟨_, he⟩)
        · exact hlt
        · exact Nat.lt_trans hlt (hc e he)
      · split
        · exact h
        · refine List.pairwise_cons.mpr ⟨?_, ih hset⟩
          intro e he
          obtain rfl | he := (mem_insertEip a set).mp he
          · omega
          · exact hc e he

end Insert

/-- The set with all of the upgrades inserted. -/
def insertAll (eips set : List Nat) : List Nat :=
  eips.foldl (fun set eip => insertEip eip set) set

section InsertAll

variable {a e : Nat} {set xs ys : List Nat}

theorem insertAll_cons : insertAll (a :: xs) set = insertAll xs (insertEip a set) := rfl

theorem insertAll_append : insertAll (xs ++ ys) set = insertAll ys (insertAll xs set) :=
  List.foldl_append

theorem mem_insertAll : e ∈ insertAll xs set ↔ e ∈ set ∨ e ∈ xs := by
  induction xs generalizing set with
  | nil => simp [insertAll]
  | cons a xs ih => rw [insertAll_cons, ih, mem_insertEip, List.mem_cons, or_assoc, or_left_comm]

theorem pairwise_insertAll (h : set.Pairwise (· < ·)) : (insertAll xs set).Pairwise (· < ·) := by
  induction xs generalizing set with
  | nil => exact h
  | cons a xs ih => exact ih (pairwise_insertEip a h)

/-- One more upgrade may be inserted first or last. -/
theorem insertAll_insertEip : insertAll xs (insertEip a set) = insertEip a (insertAll xs set) := by
  induction xs generalizing set with
  | nil => rfl
  | cons b xs ih => rw [insertAll_cons, insertEip_comm, ih, insertAll_cons]

theorem insertAll_comm : insertAll xs (insertAll ys set) = insertAll ys (insertAll xs set) := by
  induction xs generalizing set with
  | nil => rfl
  | cons a xs ih => rw [insertAll_cons, ← insertAll_insertEip, ih, insertAll_cons]

/-- An upgrade that was among those inserted is not inserted again. -/
theorem insertEip_insertAll (h : a ∈ xs) : insertEip a (insertAll xs set) = insertAll xs set := by
  induction xs generalizing set with
  | nil => exact absurd h List.not_mem_nil
  | cons b xs ih =>
      rw [insertAll_cons]
      obtain rfl | hxs := List.mem_cons.mp h
      · rw [← insertAll_insertEip, insertEip_idem]
      · exact ih hxs

theorem insertAll_absorb (h : xs ⊆ ys) : insertAll xs (insertAll ys set) = insertAll ys set := by
  induction xs with
  | nil => rfl
  | cons a xs ih =>
      obtain ⟨ha, hxs⟩ := List.cons_subset.mp h
      rw [insertAll_cons, insertEip_insertAll ha, ih hxs]

/-- Inserting depends on nothing but which upgrades are inserted. -/
theorem insertAll_congr (h : ∀ e, e ∈ xs ↔ e ∈ ys) : insertAll xs set = insertAll ys set :=
  calc insertAll xs set
    _ = insertAll ys (insertAll xs set) := (insertAll_absorb fun e => (h e).mpr).symm
    _ = insertAll xs (insertAll ys set) := insertAll_comm.symm
    _ = insertAll ys set := insertAll_absorb fun e => (h e).mp

end InsertAll

section Registry

variable {r : Registry} {xs ys : List Nat} {e : Nat} {fork : Fork}

theorem withEips_eq : r.withEips xs = { r with eips := insertAll xs r.eips } := rfl

theorem withEips_withEips : (r.withEips xs).withEips ys = r.withEips (xs ++ ys) := by
  rw [withEips_eq, withEips_eq, withEips_eq, insertAll_append]

theorem withEips_congr (h : ∀ e, e ∈ xs ↔ e ∈ ys) : r.withEips xs = r.withEips ys := by
  rw [withEips_eq, insertAll_congr h, withEips_eq]

theorem mem_eips_withEips : e ∈ (r.withEips xs).eips ↔ e ∈ r.eips ∨ e ∈ xs :=
  mem_insertAll

theorem pairwise_eips_withEips (hempty : r.eips = []) :
    (r.withEips xs).eips.Pairwise (· < ·) := by
  apply pairwise_insertAll
  rw [hempty]
  exact List.Pairwise.nil

/-- Distinct upgrades are kept as they are, apart from their order. -/
theorem perm_eips_withEips (hempty : r.eips = []) (h : xs.Nodup) :
    (r.withEips xs).eips.Perm xs := by
  have hnodup : (r.withEips xs).eips.Nodup := (pairwise_eips_withEips hempty).imp Nat.ne_of_lt
  refine (List.perm_ext_iff_of_nodup hnodup h).mpr fun e => ?_
  rw [mem_eips_withEips, hempty]
  simp

/-- An upgrade is in force if it is switched on, or if the fork that introduces it is not
after the registry's. -/
theorem isActive_iff :
    r.isActive e = true ↔ e ∈ r.eips ∨ ∃ fork, e ∈ fork.introduced ∧ fork ≤ r.fork := by
  simp only [isActive, Bool.or_eq_true, List.contains_iff_mem, Option.any_eq_true,
    Fork.activating?_eq_some_iff, atOrAfter, decide_eq_true_eq]

/-- A later fork and more upgrades leave in force what is. -/
theorem isActive_mono {a b : Registry} (hfork : a.fork ≤ b.fork) (heips : a.eips ⊆ b.eips)
    (h : a.isActive e = true) : b.isActive e = true := by
  rw [isActive_iff] at h ⊢
  obtain he | ⟨fork, hintroduced, hle⟩ := h
  · exact .inl (heips he)
  · exact .inr ⟨fork, hintroduced, Nat.le_trans hle hfork⟩

end Registry

end Registry
end TypedTx
