import QuantityQuery.Proofs.Search.Meaning
import QuantityQuery.Query.Syntax

/-!
# The meaning of combinations

What combined conditions and conditions with a sign ask of a document.
-/

namespace QuantityQuery

variable {ix : Index} {n : Nat} {op : Operator}

namespace Node

theorem holds_combine_and {qs : List Node} :
    (Operator.and.combine qs).Holds ix n ↔ ∀ q ∈ qs, q.Holds ix n := by
  match qs with
  | [] => simp [Operator.combine, holds_bool]
  | [q] => simp [Operator.combine]
  | q :: r :: rest => simp [Operator.combine, holds_bool]

theorem holds_combine_or {q : Node} {qs : List Node} :
    (Operator.or.combine (q :: qs)).Holds ix n ↔ ∃ r ∈ q :: qs, r.Holds ix n := by
  cases qs with
  | nil => simp [Operator.combine]
  | cons r rest => simp [Operator.combine, holds_bool]

/-- All conditions together hold, however they are combined. -/
theorem holds_combine_of_all {q : Node} {qs : List Node} (h : ∀ r ∈ q :: qs, r.Holds ix n) :
    (op.combine (q :: qs)).Holds ix n := by
  cases op with
  | and => exact holds_combine_and.2 h
  | or => exact holds_combine_or.2 ⟨q, List.mem_cons_self, h q List.mem_cons_self⟩

theorem holds_excluded {q : Node} : (Sign.excluded.apply q).Holds ix n ↔ ¬ q.Holds ix n := by
  simp [Sign.apply, holds_bool]

@[simp] theorem holds_required {q : Node} :
    (Sign.required.apply q).Holds ix n ↔ q.Holds ix n := by
  simp [Sign.apply, holds_bool]

end Node

end QuantityQuery
