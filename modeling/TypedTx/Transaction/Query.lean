import TypedTx.Transaction.Costs

/-!
# Queries

A query asks something of a transaction. Most questions only look at it; those
about the hash, the data fee and what follows from the fee go through the caches
of a frozen transaction, so an answer comes with the transaction as the question
leaves it.
-/

namespace TypedTx

/-- A question about a transaction whose answer is an `α`. -/
inductive Query : Type → Type 1 where
  | hash : Query (Except Failure Digest)
  | dataFee : Query Word
  | intrinsicGas : Query Word
  | problems : Query (List TransactionProblem)
  | isValid : Query Bool
  /-- Look at the transaction, leaving its caches alone. -/
  | view {α : Type} (look : Transaction → α) : Query α

/-- The answer to a query, and the transaction with the caches that it filled. -/
def Transaction.answer {α : Type} (scheme : Scheme) (t : Transaction) :
    Query α → α × Transaction
  | .hash => t.hash
  | .dataFee => t.dataFee
  | .intrinsicGas => t.intrinsicGas
  | .problems => t.problems scheme
  | .isValid => t.isValid scheme
  | .view look => (look t, t)

end TypedTx
