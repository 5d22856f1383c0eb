import TypedTx.Proofs.Registry.Upgrades

/-!
# Deriving registries

A registry is derived from another by moving to a fork or by switching on upgrades, any
number of times and in any order. What comes out is one such move and one such switch: to
the last fork that was given and of all upgrades that were given. Each step keeps this form,
and so does every run, by induction on the steps.
-/

namespace TypedTx.Registry

inductive Step where
  | moveTo (fork : Fork)
  | switchOn (eips : List Nat)
deriving DecidableEq, Repr

/-- The fork that a step moves to, if it moves. -/
def Step.fork? : Step → Option Fork
  | .moveTo fork => some fork
  | .switchOn _ => none

def Step.added : Step → List Nat
  | .moveTo _ => []
  | .switchOn eips => eips

def derive (r : Registry) : Step → Registry
  | .moveTo fork => r.withFork fork
  | .switchOn eips => r.withEips eips

def deriveAll (r : Registry) (steps : List Step) : Registry :=
  steps.foldl derive r

/-- The last fork among the steps, or else the one to start with. -/
def lastFork (start : Fork) (steps : List Step) : Fork :=
  (steps.filterMap Step.fork?).getLastD start

variable {r : Registry} {fork : Fork} {eips : List Nat} {steps : List Step}

theorem lastFork_cons (step : Step) :
    lastFork fork (step :: steps) = lastFork (step.fork?.getD fork) steps := by
  cases step with
  | moveTo next => exact List.getLastD_cons
  | switchOn _ => rfl

/-- A step from one move and one switch comes down to one move and one switch. -/
theorem derive_withFork_withEips (step : Step) :
    ((r.withFork fork).withEips eips).derive step =
      (r.withFork (step.fork?.getD fork)).withEips (eips ++ step.added) := by
  cases step with
  | moveTo next => rw [Step.added, List.append_nil]; rfl
  | switchOn more => exact withEips_withEips

theorem deriveAll_withFork_withEips :
    ((r.withFork fork).withEips eips).deriveAll steps =
      (r.withFork (lastFork fork steps)).withEips (eips ++ steps.flatMap Step.added) := by
  induction steps generalizing fork eips with
  | nil => rw [List.flatMap_nil, List.append_nil]; rfl
  | cons step steps ih =>
      rw [deriveAll, List.foldl_cons, derive_withFork_withEips, lastFork_cons,
        List.flatMap_cons, ← List.append_assoc]
      exact ih

/-- However a registry is derived, it is what one move to the last fork and one switch of
all upgrades make of it, in whichever order and with whichever repetitions these are
listed. The chain stays the same. An upgrade is in force there if it was switched on, at the
start or by a step, or if the fork that introduces it is not after the last. A later fork
and more upgrades leave in force what is. -/
theorem deriveAll_eq (r : Registry) (steps : List Step) {union : List Nat}
    (h : ∀ eip, eip ∈ union ↔ ∃ step ∈ steps, eip ∈ step.added) :
    let last := lastFork r.fork steps
    let derived := r.deriveAll steps
    derived = (r.withFork last).withEips union ∧
    derived.chainName = r.chainName ∧ derived.chainId = r.chainId ∧ derived.fork = last ∧
    (∀ eip, eip ∈ derived.eips ↔ eip ∈ r.eips ∨ eip ∈ union) ∧
    (∀ eip, derived.isActive eip = true ↔
      (eip ∈ r.eips ∨ eip ∈ union) ∨ ∃ fork, eip ∈ fork.introduced ∧ fork ≤ last) ∧
    (∀ (a b : Fork) (eip : Nat), eip ∈ a.introduced → eip ∈ b.introduced → a = b) ∧
    (∀ a b : Registry, a.fork ≤ b.fork → a.eips ⊆ b.eips →
      ∀ eip, a.isActive eip = true → b.isActive eip = true) := by
  intro last derived
  have hunion : ∀ eip, eip ∈ steps.flatMap Step.added ↔ eip ∈ union := by
    intro eip
    rw [h, List.mem_flatMap]
  have hderived : derived = (r.withFork last).withEips union :=
    calc derived
      _ = ((r.withFork r.fork).withEips []).deriveAll steps := rfl
      _ = (r.withFork last).withEips (steps.flatMap Step.added) := deriveAll_withFork_withEips
      _ = (r.withFork last).withEips union := withEips_congr hunion
  have heips : ∀ eip, eip ∈ derived.eips ↔ eip ∈ r.eips ∨ eip ∈ union := by
    intro eip
    rw [hderived]
    exact mem_eips_withEips
  have hfork : derived.fork = last := by rw [hderived]; rfl
  refine ⟨hderived, ?_, ?_, hfork, heips, ?_, ?_, ?_⟩
  · rw [hderived]; rfl
  · rw [hderived]; rfl
  · intro eip
    rw [isActive_iff, heips, hfork]
  · intro a b eip ha hb
    rw [← Fork.activating?_eq_some_iff] at ha hb
    exact Option.some.inj (ha.symm.trans hb)
  · exact fun a b hfork heips eip => isActive_mono hfork heips

/-- Upgrades on both sides of two moves, the second of which goes back. -/
theorem deriveAll_eq_of_moved :
    let steps : List Step :=
      [.switchOn [1559, 7], .moveTo .london, .switchOn [7, 3860, 7], .moveTo .berlin]
    let union := [3860, 1559, 7]
    (∀ eip, eip ∈ union ↔ ∃ step ∈ steps, eip ∈ step.added) ∧
    standard.deriveAll steps = (standard.withFork .berlin).withEips union ∧
    (standard.deriveAll steps).eips = [7, 1559, 3860] ∧
    (standard.deriveAll steps).isActive 3541 = false := by
  intro steps union
  have hunion : ∀ eip, eip ∈ union ↔ ∃ step ∈ steps, eip ∈ step.added := by
    intro eip
    simp [union, steps, Step.added]
    omega
  exact ⟨hunion, (deriveAll_eq standard steps hunion).1, by decide, by decide⟩

end TypedTx.Registry
