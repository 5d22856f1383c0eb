import TypedTx.Proofs.Transaction.Reachable

/-!
# What a transaction remembers

A remembered value is keyed by a fork, although the data fee also depends on the
upgrades that are switched on explicitly. The invariant is therefore about every key:
what is remembered for a fork is what the fields give at that fork under the explicit
upgrades of the present registry, whether or not the registry is at that fork. Moving
to another registry keeps it, since what is remembered is dropped when the explicit
upgrades differ.

Under the invariant a question is answered as if nothing were remembered, and no
change can tell a transaction from the one that remembers nothing.
-/

namespace TypedTx

/-- Which upgrades are in force depends on the fork and the explicit upgrades only. -/
theorem Registry.isActive_congr {a b : Registry} (hfork : a.fork = b.fork)
    (heips : a.eips = b.eips) : a.isActive = b.isActive := by
  funext eip
  rw [isActive, isActive, heips]
  congr 2
  funext fork
  rw [atOrAfter, atOrAfter, hfork]

theorem Registry.gas_congr {a b : Registry} (hfork : a.fork = b.fork) (heips : a.eips = b.eips) :
    a.gas = b.gas := by
  rw [gas, gas, isActive_congr hfork heips]

namespace ForkCache

variable {α : Type} {cache : ForkCache α} {fork : Fork} {fresh : Fork → α}

/-- What is remembered for a fork is what `fresh` gives for it. -/
def Agrees (cache : ForkCache α) (fresh : Fork → α) : Prop :=
  ∀ fork value, cache.slot = some (fork, value) → value = fresh fork

theorem agrees_empty (fresh : Fork → α) : ({} : ForkCache α).Agrees fresh :=
  nofun

theorem agrees_of_slot {value : α} (h : value = fresh fork) :
    (⟨some (fork, value)⟩ : ForkCache α).Agrees fresh := by
  intro key remembered hslot
  obtain ⟨rfl, rfl⟩ := Prod.mk.inj (Option.some.inj hslot)
  exact h

/-- Reading a cache that agrees gives the fresh value and a cache that agrees. -/
theorem Agrees.read (h : cache.Agrees fresh) (fork : Fork) :
    (cache.read fork fun _ => fresh fork).1 = fresh fork ∧
      (cache.read fork fun _ => fresh fork).2.Agrees fresh := by
  rw [ForkCache.read.eq_def]
  cases hslot : cache.slot with
  | none => exact ⟨rfl, agrees_of_slot rfl⟩
  | some entry =>
      obtain ⟨key, value⟩ := entry
      dsimp only
      by_cases hkey : key = fork
      · rw [if_pos hkey]
        subst hkey
        exact ⟨h key value hslot, h⟩
      · rw [if_neg hkey]
        exact ⟨rfl, agrees_of_slot rfl⟩

end ForkCache

/-- A question whose answer may come from what a transaction remembers. -/
inductive Question where
  | hash
  | dataFee
  | intrinsicGas
  | problems
  | isValid
deriving DecidableEq, Repr

namespace Question

def Answer : Question → Type
  | .hash => Except Failure Digest
  | .dataFee | .intrinsicGas => Word
  | .problems => List TransactionProblem
  | .isValid => Bool

def query : (question : Question) → Query question.Answer
  | .hash => .hash
  | .dataFee => .dataFee
  | .intrinsicGas => .intrinsicGas
  | .problems => .problems
  | .isValid => .isValid

end Question

namespace Transaction

variable {scheme : Scheme} {t u : Transaction} {registry : Registry}

def hashAfresh (t : Transaction) : Except Failure Digest :=
  if t.isSigned then .ok (Keccak.hash t.encode) else .error (t.failure .notSigned)

def intrinsicGasAfresh (t : Transaction) : Word :=
  t.gasWithDataFee t.computeDataFee

def problemsAfresh (scheme : Scheme) (t : Transaction) : List TransactionProblem :=
  (if t.isSigned && !t.verifies scheme then [.invalidSignature] else []) ++
    (if t.gasLimit < t.intrinsicGasAfresh then
      [.gasLimitTooLow t.gasLimit t.intrinsicGasAfresh] else [])

/-- The answer that the fields and the registry of a transaction give by themselves. -/
def answerAfresh (scheme : Scheme) (t : Transaction) : (question : Question) → question.Answer
  | .hash => t.hashAfresh
  | .dataFee => t.computeDataFee
  | .intrinsicGas => t.intrinsicGasAfresh
  | .problems => t.problemsAfresh scheme
  | .isValid => (t.problemsAfresh scheme).isEmpty

theorem answerAfresh_uncached (scheme : Scheme) (t : Transaction) (question : Question) :
    t.uncached.answerAfresh scheme question = t.answerAfresh scheme question := by
  cases question <;> rfl

/-- The data fee that the fields give at a fork, under the explicit upgrades of the
present registry. -/
def dataFeeAt (t : Transaction) (fork : Fork) : Word :=
  ({ t with registry := t.registry.withFork fork } : Transaction).computeDataFee

theorem dataFeeAt_fork (t : Transaction) : t.dataFeeAt t.registry.fork = t.computeDataFee := rfl

/-- Everything remembered is what the fields give for its key. -/
structure Coherent (t : Transaction) : Prop where
  hash : t.hashCache.Agrees fun _ => Keccak.hash t.encode
  dataFee : t.dataFeeCache.Agrees t.dataFeeAt

theorem coherent_uncached (t : Transaction) : t.uncached.Coherent where
  hash := ForkCache.agrees_empty _
  dataFee := ForkCache.agrees_empty _

/-- What is not looked at does not show. -/
theorem look_congr {α : Type} (look : Transaction → α) (hlook : ∀ v, look v.uncached = look v)
    (h : t.uncached = u.uncached) : look t = look u := by
  rw [← hlook t, h, hlook u]

theorem Built.uncached_eq (h : t.Built) : t.uncached = t := by
  obtain ⟨kind, d, o, h⟩ := h
  obtain ⟨registry, -, -, rfl⟩ := Kind.build_eq_ok_iff.mp h
  rfl

theorem Built.coherent (h : t.Built) : t.Coherent := by
  rw [← h.uncached_eq]
  exact t.coherent_uncached

theorem Coherent.freeze (h : t.Coherent) : t.freeze.Coherent where
  hash := h.hash
  dataFee := h.dataFee

theorem computeDataFee_congr (hfork : t.registry.fork = registry.fork)
    (heips : t.registry.eips = registry.eips) :
    t.computeDataFee = ({ t with registry } : Transaction).computeDataFee := by
  rw [computeDataFee.eq_def, computeDataFee.eq_def, Registry.gas_congr hfork heips]
  rfl

/-- Among registries with the same explicit upgrades, the fork alone decides the data
fee. -/
theorem dataFeeAt_congr (heips : t.registry.eips = registry.eips) :
    t.dataFeeAt = ({ t with registry } : Transaction).dataFeeAt := by
  funext fork
  let bound : Transaction := { t with registry := t.registry.withFork fork }
  have hfork : bound.registry.fork = (registry.withFork fork).fork := rfl
  have hbound : bound.registry.eips = (registry.withFork fork).eips := heips
  exact computeDataFee_congr hfork hbound

theorem Coherent.bindTo (h : t.Coherent) (registry : Registry) : (t.bindTo registry).Coherent := by
  rw [Transaction.bindTo]
  by_cases heips : t.registry.eips = registry.eips
  · -- Only the fork may differ. What is remembered for the old one stays true of it.
    rw [if_pos heips]
    refine ⟨h.hash, ?_⟩
    rw [← dataFeeAt_congr heips]
    exact h.dataFee
  · rw [if_neg heips]
    exact ⟨ForkCache.agrees_empty _, ForkCache.agrees_empty _⟩

/-- What a change makes of a coherent transaction is coherent. -/
theorem Coherent.of_apply {change : Change} (ht : t.Coherent)
    (h : t.apply scheme change = .ok u) : u.Coherent := by
  obtain hbuilt | ⟨registry, hrebind⟩ | rfl := apply_cases h
  · exact hbuilt.coherent
  · obtain rfl := eq_bindTo_of_rebind hrebind
    exact ht.bindTo registry
  · exact ht.freeze

theorem Coherent.dataFee_spec (h : t.Coherent) :
    t.dataFee.1 = t.computeDataFee ∧ t.dataFee.2.Coherent := by
  rw [Transaction.dataFee]
  by_cases hfrozen : t.frozen = true
  · rw [if_pos hfrozen]
    obtain ⟨hvalue, hcache⟩ := h.dataFee.read t.registry.fork
    rw [dataFeeAt_fork] at hvalue
    exact ⟨hvalue, h.hash, hcache⟩
  · rw [if_neg hfrozen]
    exact ⟨rfl, h⟩

theorem Coherent.hash_spec (h : t.Coherent) : t.hash.1 = t.hashAfresh ∧ t.hash.2.Coherent := by
  rw [Transaction.hash, hashAfresh]
  by_cases hsigned : t.isSigned = true
  · rw [if_pos hsigned, if_pos hsigned]
    by_cases hfrozen : t.frozen = true
    · rw [if_pos hfrozen]
      obtain ⟨hvalue, hcache⟩ := h.hash.read t.registry.fork
      exact ⟨congrArg Except.ok hvalue, hcache, h.dataFee⟩
    · rw [if_neg hfrozen]
      exact ⟨rfl, h⟩
  · rw [if_neg hsigned, if_neg hsigned]
    exact ⟨rfl, h⟩

/-- The fields and the registry decide what a data fee is added to. -/
theorem gasWithDataFee_congr (h : t.uncached = u.uncached) (fee : Word) :
    t.gasWithDataFee fee = u.gasWithDataFee fee :=
  look_congr (fun v => v.gasWithDataFee fee) (fun _ => rfl) h

theorem Coherent.intrinsicGas_eq (h : t.Coherent) : t.intrinsicGas.1 = t.intrinsicGasAfresh := by
  obtain ⟨hfee, -⟩ := h.dataFee_spec
  change t.dataFee.2.gasWithDataFee t.dataFee.1 = _
  rw [hfee]
  exact gasWithDataFee_congr t.uncached_dataFee _

theorem Coherent.problems_eq (h : t.Coherent) (scheme : Scheme) :
    (t.problems scheme).1 = t.problemsAfresh scheme := by
  rw [problemsAfresh, ← h.intrinsicGas_eq]
  rfl

/-- What a query leaves behind is coherent again. -/
theorem Coherent.answer {α : Type} (h : t.Coherent) (query : Query α) :
    (t.answer scheme query).2.Coherent := by
  cases query with
  | hash => exact h.hash_spec.2
  | dataFee => exact h.dataFee_spec.2
  | intrinsicGas => exact h.dataFee_spec.2
  | problems => exact h.dataFee_spec.2
  | isValid => exact h.dataFee_spec.2
  | view look => exact h

/-- A question is answered as if nothing were remembered, and what it leaves behind is
coherent again. -/
theorem Coherent.answer_spec (h : t.Coherent) (scheme : Scheme) (question : Question) :
    (t.answer scheme question.query).1 = t.answerAfresh scheme question ∧
      (t.answer scheme question.query).2.Coherent := by
  refine ⟨?_, h.answer question.query⟩
  cases question with
  | hash => exact h.hash_spec.1
  | dataFee => exact h.dataFee_spec.1
  | intrinsicGas => exact h.intrinsicGas_eq
  | problems => exact h.problems_eq scheme
  | isValid => exact congrArg List.isEmpty (h.problems_eq scheme)

theorem map_uncached_of_built {x : Except Failure Transaction}
    (h : ∀ u, x = .ok u → u.Built) : (Refusal.ofExcept x).map uncached = Refusal.ofExcept x := by
  cases x with
  | error failure => rfl
  | ok u => exact congrArg Except.ok (h u rfl).uncached_eq

theorem rebind_uncached (t : Transaction) (registry : Registry) :
    t.uncached.rebind registry = (t.rebind registry).map uncached := by
  have hbind : t.uncached.bindTo registry = (t.bindTo registry).uncached := by
    rw [uncached_bindTo, bindTo]
    split <;> rfl
  change (t.kind.build t.draft { t.options with registry := some registry } >>= fun _ =>
    .ok (t.uncached.bindTo registry)) = _
  rw [hbind, rebind]
  cases t.kind.build t.draft { t.options with registry := some registry } <;> rfl

/-- A change does not depend on what is remembered. -/
theorem apply_uncached (scheme : Scheme) (t : Transaction) (change : Change) :
    t.uncached.apply scheme change = (t.apply scheme change).map uncached := by
  -- What is built remembers nothing, so there is nothing to drop from it. The others copy
  -- what they find.
  cases change with
  | sign key secondKey => exact (map_uncached_of_built fun _ => built_of_sign).symm
  | signLegacy key mode =>
      obtain ⟨nonce, gasLimit, recipient, value, data, terms, signature, bound, frozen, unlimited,
        hashCache, dataFeeCache⟩ := t
      cases terms with
      | legacy gasPrice => exact (map_uncached_of_built fun _ => built_of_signLegacy).symm
      | accessList | feeMarket | priority => rfl
  | update edit => exact (map_uncached_of_built fun _ => built_of_update).symm
  | rebind registry =>
      change Refusal.ofExcept (t.uncached.rebind registry) = _
      rw [rebind_uncached]
      change _ = (Refusal.ofExcept (t.rebind registry)).map uncached
      cases t.rebind registry <;> rfl
  | freeze => rfl
  | reparse gate o => exact (map_uncached_of_built fun _ => Gate.built_of_decode).symm
  | rebuild gate o =>
      refine (map_uncached_of_built fun u h => ?_).symm
      obtain ⟨d, -, h⟩ := Success.bind_iff.mp h
      exact Gate.built_of_build h

end Transaction

/-- What a reachable transaction remembers is what its fields give. -/
theorem Reachable.coherent {scheme : Scheme} {t : Transaction} (h : Reachable scheme t) :
    t.Coherent := by
  induction h with
  | build h => exact (Source.built_of_build h).coherent
  | change change _ h ih => exact ih.of_apply h
  | ask query _ ih => exact ih.answer query

end TypedTx
