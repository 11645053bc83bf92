import QuantityQuery.Query.Node

/-!
# Induction on query trees

The parts of a combination stand in three lists; an induction on trees gives its
hypothesis for all of them.
-/

namespace QuantityQuery.Node

/-- Induction on trees, with a hypothesis for every part of a combination. -/
@[elab_as_elim, induction_eliminator]
theorem induct {motive : Node → Prop} (term : ∀ q, motive (.term q))
    (range : ∀ q, motive (.range q)) (all : ∀ boost, motive (.all boost))
    (bool : ∀ must should mustNot, (∀ q ∈ must, motive q) → (∀ q ∈ should, motive q) →
      (∀ q ∈ mustNot, motive q) → motive (.bool must should mustNot)) : ∀ q, motive q
  | .term q => term q
  | .range q => range q
  | .all boost => all boost
  | .bool must should mustNot =>
    bool must should mustNot (fun q _ => induct term range all bool q)
      (fun q _ => induct term range all bool q) (fun q _ => induct term range all bool q)

end QuantityQuery.Node
