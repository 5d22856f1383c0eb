import Mathlib.Data.Finset.Card
import Mathlib.Data.List.DropRight
import TypedTx.Proofs.Registry.Upgrades
import TypedTx.Proofs.Success
import TypedTx.Registry.Settings

/-!
# Which settings describe a chain

A description is complete if it has a name that is more than white space, a chain id other
than 0, a fork that is known, and distinct upgrades other than 0. Complete descriptions are
those that are accepted, and each of them yields the registry that it describes.

The problems of any other description are listed in a fixed order. The upgrades are scanned
with a set of those seen before. It holds what stands in front of the scanned position apart
from zeros, so whether an upgrade is a problem can be told from its position alone.
-/

namespace TypedTx.Settings

def trimmedName (s : Settings) : List Char :=
  (s.name.toList.dropWhile isWhiteSpace).rdropWhile isWhiteSpace

/-- A description that a registry can be made from. -/
structure IsComplete (s : Settings) : Prop where
  name : s.trimmedName ≠ []
  chainId : 0 < s.chainId
  fork : ∃ fork, Fork.ofName s.fork = .ok fork
  nonzero : ∀ eip ∈ s.eips, eip ≠ 0
  distinct : s.eips.Nodup

/-- The problem of an upgrade that is listed behind others, if there is one. -/
def eipProblem? (before : List Nat) (eip : Nat) : Option SettingsProblem :=
  if eip = 0 then some .zeroEip
  else if eip ∈ before then some (.repeatedEip eip)
  else none

/-- The problems of a list of upgrades by position, the first of which stand behind
`before`. -/
def listedProblems (before eips : List Nat) : List SettingsProblem :=
  (List.range eips.length).filterMap fun k =>
    eips[k]?.bind (eipProblem? (before ++ eips.take k))

/-- The upgrades of a list other than 0, with repetitions. -/
def nonzero (eips : List Nat) : List Nat :=
  eips.filter (· ≠ 0)

def problemIf (p : Prop) [Decidable p] (problem : SettingsProblem) : List SettingsProblem :=
  if p then [problem] else []

/-- At most one problem of the name, of the chain id and of the fork each, and then those of
the upgrades. -/
def reported (s : Settings) : List SettingsProblem :=
  problemIf (s.trimmedName = []) .emptyName ++
  problemIf (s.chainId = 0) .zeroChainId ++
  problemIf ((Fork.ofName s.fork).toOption = none) (.unknownFork s.fork) ++
  listedProblems [] s.eips

section Parts

variable {s : Settings}

theorem trimmedName_eq_nil_iff : s.trimmedName = [] ↔ s.name.toList.all isWhiteSpace = true := by
  rw [trimmedName, List.rdropWhile_eq_nil_iff, List.all_eq_true]
  constructor
  · intro h c hc
    rw [← List.takeWhile_append_dropWhile (p := isWhiteSpace) (l := s.name.toList)] at hc
    obtain hfront | hback := List.mem_append.mp hc
    · exact List.mem_takeWhile_imp hfront
    · exact h c hback
  · intro h c hc
    exact h c ((List.dropWhile_suffix _).mem hc)

end Parts

section Scan

variable {seen before eips : List Nat} {eip : Nat}

theorem eipProblems_zero :
    eipProblems seen (0 :: eips) = .zeroEip :: eipProblems seen eips := rfl

theorem eipProblems_of_mem (hne : eip ≠ 0) (h : eip ∈ seen) :
    eipProblems seen (eip :: eips) = .repeatedEip eip :: eipProblems seen eips := by
  rw [eipProblems, if_neg hne, if_pos (List.contains_iff_mem.mpr h)]

theorem eipProblems_of_notMem (hne : eip ≠ 0) (h : eip ∉ seen) :
    eipProblems seen (eip :: eips) = eipProblems (eip :: seen) eips := by
  rw [eipProblems, if_neg hne, if_neg fun hcontains => h (List.contains_iff_mem.mp hcontains)]

/-- What the scan makes of an upgrade. -/
theorem scan_cases (seen : List Nat) (eip : Nat) :
    eip = 0 ∨ (eip ≠ 0 ∧ eip ∈ seen) ∨ (eip ≠ 0 ∧ eip ∉ seen) := by
  tauto

theorem listedProblems_cons :
    listedProblems before (eip :: eips) =
      (eipProblem? before eip).toList ++ listedProblems (before ++ [eip]) eips := by
  have hfirst : List.filterMap (fun k => (eip :: eips)[k]?.bind
      (eipProblem? (before ++ (eip :: eips).take k))) [0] = (eipProblem? before eip).toList := by
    cases h : eipProblem? before eip <;> simp [h]
  rw [listedProblems, List.length_cons, List.range_succ_eq_map,
    ← List.singleton_append (l := List.map _ _), List.filterMap_append, hfirst,
    List.filterMap_map, listedProblems]
  congr 1
  apply List.filterMap_congr
  intro k _
  simp

/-- The scan is position by position if it has seen what stands in front, apart from
zeros. -/
theorem eipProblems_eq_listedProblems (h : ∀ e, e ≠ 0 → (e ∈ seen ↔ e ∈ before)) :
    eipProblems seen eips = listedProblems before eips := by
  induction eips generalizing seen before with
  | nil => rfl
  | cons eip eips ih =>
      rw [listedProblems_cons, eipProblem?]
      obtain rfl | ⟨hne, hseen⟩ | ⟨hne, hnew⟩ := scan_cases seen eip
      · have hnext : ∀ e, e ≠ 0 → (e ∈ seen ↔ e ∈ before ++ [0]) := by grind
        rw [eipProblems_zero, ih hnext]
        rfl
      · have hnext : ∀ e, e ≠ 0 → (e ∈ seen ↔ e ∈ before ++ [eip]) := by grind
        rw [eipProblems_of_mem hne hseen, ih hnext, if_neg hne, if_pos ((h eip hne).mp hseen)]
        rfl
      · have hnext : ∀ e, e ≠ 0 → (e ∈ eip :: seen ↔ e ∈ before ++ [eip]) := by grind
        rw [eipProblems_of_notMem hne hnew, ih hnext, if_neg hne,
          if_neg fun hbefore => hnew ((h eip hne).mpr hbefore)]
        rfl

theorem eipProblems_nil : eipProblems [] eips = listedProblems [] eips :=
  eipProblems_eq_listedProblems fun _ _ => Iff.rfl

theorem eipProblems_eq_nil_iff :
    eipProblems seen eips = [] ↔
      (∀ eip ∈ eips, eip ≠ 0) ∧ eips.Nodup ∧ ∀ eip ∈ eips, eip ∉ seen := by
  induction eips generalizing seen with
  | nil => simp [eipProblems]
  | cons eip eips ih =>
      obtain rfl | ⟨hne, hseen⟩ | ⟨hne, hnew⟩ := scan_cases seen eip
      · simp [eipProblems_zero]
      · simp [eipProblems_of_mem hne hseen, hseen]
      · rw [eipProblems_of_notMem hne hnew, ih]
        grind

theorem nonzero_zero_cons : nonzero (0 :: eips) = nonzero eips := rfl

theorem nonzero_cons (hne : eip ≠ 0) : nonzero (eip :: eips) = eip :: nonzero eips :=
  List.filter_cons_of_pos (decide_eq_true hne)

/-- Every upgrade but the first of its kind is a problem. The set of those seen grows by the
others. -/
theorem length_eipProblems_add (eips : List Nat) (hzero : 0 ∉ seen) :
    (eipProblems seen eips).length + (seen ++ nonzero eips).toFinset.card =
      eips.count 0 + (nonzero eips).length + seen.toFinset.card := by
  induction eips generalizing seen with
  | nil => simp [eipProblems, nonzero]
  | cons eip eips ih =>
      obtain rfl | ⟨hne, hseen⟩ | ⟨hne, hnew⟩ := scan_cases seen eip
      · have hrest := ih hzero
        rw [eipProblems_zero, nonzero_zero_cons, List.length_cons, List.count_cons_self]
        omega
      · have hrest := ih hzero
        have hsame : (seen ++ eip :: nonzero eips).toFinset = (seen ++ nonzero eips).toFinset := by
          rw [List.toFinset_eq_of_perm _ _ List.perm_middle, List.toFinset_cons,
            Finset.insert_eq_of_mem (List.mem_toFinset.mpr (List.mem_append_left _ hseen))]
        rw [eipProblems_of_mem hne hseen, nonzero_cons hne, hsame, List.length_cons,
          List.length_cons, List.count_cons_of_ne hne]
        omega
      · have hrest := ih (List.not_mem_cons_of_ne_of_not_mem hne.symm hzero)
        have hsame : (seen ++ eip :: nonzero eips).toFinset =
            (eip :: seen ++ nonzero eips).toFinset := List.toFinset_eq_of_perm _ _ List.perm_middle
        have hgrown : (eip :: seen).toFinset.card = seen.toFinset.card + 1 := by
          rw [List.toFinset_cons, Finset.card_insert_of_notMem (by simpa using hnew)]
        rw [eipProblems_of_notMem hne hnew, nonzero_cons hne, hsame, List.length_cons,
          List.count_cons_of_ne hne]
        omega

theorem length_listedProblems (eips : List Nat) :
    (listedProblems [] eips).length =
      eips.count 0 + ((nonzero eips).length - (nonzero eips).toFinset.card) := by
  have hcount := length_eipProblems_add eips (List.not_mem_nil : 0 ∉ ([] : List Nat))
  have hdistinct : (nonzero eips).toFinset.card ≤ (nonzero eips).length :=
    List.toFinset_card_le _
  rw [eipProblems_nil, List.nil_append, List.toFinset_nil, Finset.card_empty] at hcount
  omega

end Scan

section Validate

variable {s : Settings}

theorem problems_eq_reported : s.problems = s.reported := by
  have hname : (if s.name.toList.all isWhiteSpace then [.emptyName] else []) =
      problemIf (s.trimmedName = []) .emptyName := by
    simp only [problemIf, trimmedName_eq_nil_iff]
  rw [problems, reported, hname, eipProblems_nil]
  cases Fork.ofName s.fork <;> rfl

theorem problemIf_eq_nil_iff {p : Prop} [Decidable p] {problem : SettingsProblem} :
    problemIf p problem = [] ↔ ¬ p := by
  by_cases hp : p <;> simp [problemIf, hp]

theorem reported_eq_nil_iff : s.reported = [] ↔ s.IsComplete := by
  rw [reported, ← eipProblems_nil]
  simp only [List.append_eq_nil_iff, problemIf_eq_nil_iff, Success.toOption_eq_none_iff, not_not,
    eipProblems_eq_nil_iff]
  constructor
  · rintro ⟨⟨⟨hname, hid⟩, hfork⟩, hnonzero, hdistinct, -⟩
    exact ⟨hname, UInt64.pos_iff_ne_zero.mpr hid, hfork, hnonzero, hdistinct⟩
  · intro h
    exact ⟨⟨⟨h.name, UInt64.pos_iff_ne_zero.mp h.chainId⟩, h.fork⟩, h.nonzero, h.distinct,
      fun _ _ => List.not_mem_nil⟩

theorem validate_eq_ok_iff : s.validate = .ok () ↔ s.reported = [] := by
  rw [validate, problems_eq_reported]
  cases s.reported <;> simp

theorem validate_eq_error_iff {problems : List SettingsProblem} :
    s.validate = .error problems ↔ s.reported ≠ [] ∧ problems = s.reported := by
  rw [validate, problems_eq_reported]
  cases s.reported with
  | nil => simp
  | cons problem rest => simp [eq_comm]

/-- The registry of a description with a known fork. -/
theorem registry_eq_ok {fork : Fork} (h : Fork.ofName s.fork = .ok fork) :
    s.registry = .ok ((Registry.custom s.name s.chainId fork).withEips s.eips) := by
  rw [registry, h]
  rfl

end Validate

/-- A description is accepted exactly if it is complete. Otherwise the problems reported are,
in this order, at most one each of the name, of the chain id and of the fork, then one for
each zero among the upgrades and one for each other upgrade that is listed before: as many as
there are zeros, and upgrades other than 0 beyond the distinct ones. An accepted description
has a registry, which has its name, its chain id, its fork and exactly its upgrades, put in
order. -/
theorem validate_iff_isComplete (s : Settings) :
    (s.validate = .ok () ↔ s.IsComplete) ∧
    (∀ problems, s.validate = .error problems ↔ ¬ s.IsComplete ∧ problems = s.reported) ∧
    (listedProblems [] s.eips).length =
      s.eips.count 0 + ((nonzero s.eips).length - (nonzero s.eips).toFinset.card) ∧
    (s.validate = .ok () → ∃ fork registry, Fork.ofName s.fork = .ok fork ∧
      s.registry = .ok registry ∧ registry.chainName = s.name ∧
      registry.chainId = s.chainId ∧ registry.fork = fork ∧
      registry.eips.Perm s.eips ∧ registry.eips.Pairwise (· < ·)) := by
  have hvalid : s.validate = .ok () ↔ s.IsComplete :=
    validate_eq_ok_iff.trans reported_eq_nil_iff
  refine ⟨hvalid, ?_, length_listedProblems s.eips, ?_⟩
  · intro problems
    rw [validate_eq_error_iff, ne_eq, reported_eq_nil_iff]
  · intro h
    have hcomplete : s.IsComplete := hvalid.mp h
    obtain ⟨fork, hfork⟩ := hcomplete.fork
    exact ⟨fork, _, hfork, registry_eq_ok hfork, rfl, rfl, rfl,
      Registry.perm_eips_withEips rfl hcomplete.distinct, Registry.pairwise_eips_withEips rfl⟩

/-- A name in white space, another name of a fork in capitals, and upgrades out of order. -/
theorem validate_iff_isComplete_of_devnet :
    let s : Settings := ⟨" devnet ", 1337, "MERGE", [3860, 7]⟩
    s.validate = .ok () ∧ ∃ fork registry, Fork.ofName s.fork = .ok fork ∧
      s.registry = .ok registry ∧ registry.chainName = s.name ∧
      registry.chainId = s.chainId ∧ registry.fork = fork ∧
      registry.eips.Perm s.eips ∧ registry.eips.Pairwise (· < ·) := by
  intro s
  have hfork : Fork.ofName "MERGE" = .ok .paris := by decide +kernel
  have hcomplete : s.IsComplete := ⟨by decide, by decide, ⟨.paris, hfork⟩, by decide, by decide⟩
  have hvalid : s.validate = .ok () := (validate_iff_isComplete s).1.mpr hcomplete
  exact ⟨hvalid, (validate_iff_isComplete s).2.2.2 hvalid⟩

/-- A repetition is reported each time, and so is a zero. -/
example :
    validate ⟨" \t", 0, "someday", [0, 7, 7, 0, 7]⟩ =
      .error [.emptyName, .zeroChainId, .unknownFork "someday", .zeroEip, .repeatedEip 7,
        .zeroEip, .repeatedEip 7] := by
  decide +kernel

end TypedTx.Settings
