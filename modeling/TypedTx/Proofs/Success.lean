import Mathlib.Data.List.Forall2
import TypedTx.Fault

/-!
# When sequences of fallible steps succeed

A sequence succeeds exactly when each of its steps does, and naming the subject
of a fault or wording it differently does not change when a step succeeds. With
these equivalences a validated result is taken apart into the requirements that
were met, and put together from them.
-/

namespace TypedTx.Success

variable {α β ε ε' : Type}

theorem bind_iff {x : Except ε α} {f : α → Except ε β} {b : β} :
    (x >>= f) = .ok b ↔ ∃ a, x = .ok a ∧ f a = .ok b := by
  cases x with
  | error fault => exact ⟨nofun, fun ⟨_, h, _⟩ => nomatch h⟩
  | ok a =>
      constructor
      · intro h
        exact ⟨a, rfl, h⟩
      · rintro ⟨_, ha, hb⟩
        cases ha
        exact hb

/-- A requirement in front of a step. -/
theorem seq_iff {x : Except ε Unit} {f : Unit → Except ε β} {b : β} :
    (x >>= f) = .ok b ↔ x = .ok () ∧ f () = .ok b := by
  rw [bind_iff]
  constructor
  · rintro ⟨_, hx, hf⟩
    exact ⟨hx, hf⟩
  · rintro ⟨hx, hf⟩
    exact ⟨(), hx, hf⟩

/-- A sequence fails with the fault of its first step that fails. -/
theorem bind_eq_error_iff {x : Except ε α} {f : α → Except ε β} {fault : ε} :
    (x >>= f) = .error fault ↔ x = .error fault ∨ ∃ a, x = .ok a ∧ f a = .error fault := by
  cases x with
  | error other =>
      change (Except.error other : Except ε β) = .error fault ↔ _
      simp
  | ok a =>
      change f a = .error fault ↔ _
      simp

theorem refuse_iff {p : Prop} [Decidable p] {fault : ε} {x : Except ε α} {a : α} :
    (if p then .error fault else x) = .ok a ↔ ¬ p ∧ x = .ok a := by
  by_cases hp : p
  · rw [if_pos hp]
    exact ⟨nofun, fun h => absurd hp h.1⟩
  · rw [if_neg hp, and_iff_right hp]

theorem admit_iff {p : Prop} [Decidable p] {fault : ε} {x : Except ε α} {a : α} :
    (if p then x else .error fault) = .ok a ↔ p ∧ x = .ok a := by
  by_cases hp : p
  · rw [if_pos hp, and_iff_right hp]
  · rw [if_neg hp]
    exact ⟨nofun, fun h => absurd h.1 hp⟩

theorem map_iff {f : α → β} {x : Except ε α} {b : β} :
    x.map f = .ok b ↔ ∃ a, x = .ok a ∧ f a = b := by
  cases x with
  | error fault => exact ⟨nofun, fun ⟨_, h, _⟩ => nomatch h⟩
  | ok a =>
      constructor
      · intro h
        exact ⟨a, rfl, Except.ok.inj h⟩
      · rintro ⟨_, ha, rfl⟩
        cases ha
        rfl

theorem map_eq_error_iff {f : α → β} {x : Except ε α} {fault : ε} :
    x.map f = .error fault ↔ x = .error fault := by
  cases x with
  | error other =>
      change (Except.error other : Except ε β) = .error fault ↔ _
      rw [Except.error.injEq, Except.error.injEq]
  | ok a => exact ⟨nofun, nofun⟩

theorem mapError_iff {f : ε → ε'} {x : Except ε α} {a : α} :
    x.mapError f = .ok a ↔ x = .ok a := by
  cases x with
  | error fault => exact ⟨nofun, nofun⟩
  | ok b =>
      change (Except.ok b : Except ε' α) = .ok a ↔ _
      rw [Except.ok.injEq, Except.ok.injEq]

theorem mapError_eq_error_iff {f : ε → ε'} {x : Except ε α} {fault : ε'} :
    x.mapError f = .error fault ↔ ∃ cause, x = .error cause ∧ f cause = fault := by
  cases x with
  | error cause =>
      constructor
      · intro h
        exact ⟨cause, rfl, Except.error.inj h⟩
      · rintro ⟨_, hcause, rfl⟩
        cases hcause
        rfl
  | ok a => exact ⟨nofun, fun ⟨_, h, _⟩ => nomatch h⟩

theorem toOption_eq_none_iff {x : Except ε α} : x.toOption = none ↔ ¬ ∃ a, x = .ok a := by
  cases x <;> simp [Except.toOption]

theorem annotate_iff {subject : Subject} {x : Except Fault α} {a : α} :
    subject.annotate x = .ok a ↔ x = .ok a := by
  cases x <;> simp [Subject.annotate]

/-- Naming the subject of a sequence is naming it for each of its steps. -/
theorem annotate_bind (subject : Subject) (x : Except Fault α) (f : α → Except Fault β) :
    subject.annotate (x >>= f) = subject.annotate x >>= fun a => subject.annotate (f a) := by
  cases x with
  | error fault => rfl
  | ok a => rfl

/-- A list is read if each of its elements is. -/
theorem mapM_iff {read : α → Option β} {xs : List α} {ys : List β} :
    xs.mapM read = some ys ↔ List.Forall₂ (fun x y => read x = some y) xs ys := by
  induction xs generalizing ys with
  | nil =>
      rw [List.mapM_nil, List.forall₂_nil_left_iff]
      exact Option.some_inj.trans eq_comm
  | cons x xs ih =>
      rw [List.mapM_cons, List.forall₂_cons_left_iff]
      simp only [Option.bind_eq_bind, Option.bind_eq_some_iff, ih]
      constructor
      · rintro ⟨y, hy, ys, hys, h⟩
        exact ⟨y, ys, hy, hys, (Option.some.inj h).symm⟩
      · rintro ⟨y, ys, hy, hys, rfl⟩
        exact ⟨y, hy, ys, hys, rfl⟩

theorem mapM_map {read : α → Option β} {write : β → α} {ys : List β}
    (h : ∀ y ∈ ys, read (write y) = some y) : (ys.map write).mapM read = some ys := by
  rw [mapM_iff, List.forall₂_map_left_iff, List.forall₂_same]
  exact h

end TypedTx.Success
