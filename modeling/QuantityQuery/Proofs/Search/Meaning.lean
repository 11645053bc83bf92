import QuantityQuery.Search.Index
import QuantityQuery.Query.Node

/-!
# The meaning of queries

What a query asks of a document, said of the tree alone: no order of execution,
no cache and no sets of documents.

* `Bounds.Admits`: a value keeps to every bound;
* `Node.Holds`: a document meets the conditions of a tree.
-/

namespace QuantityQuery

/-- A value keeps to all the bounds there are. A bound that is no number admits no value. -/
structure Bounds.Admits (b : Bounds) (v : Double) : Prop where
  gte : ∀ bound ∈ b.gte, ∃ w ∈ bound.value?, w.le v
  gt : ∀ bound ∈ b.gt, ∃ w ∈ bound.value?, w.lt v
  lte : ∀ bound ∈ b.lte, ∃ w ∈ bound.value?, v.le w
  lt : ∀ bound ∈ b.lt, ∃ w ∈ bound.value?, v.lt w

theorem Bounds.keeps_iff {test : Double → Double → Bool} {v : Double} {b : Option Bound} :
    keeps test v b ↔ ∀ bound ∈ b, ∃ w ∈ bound.value?, test v w := by
  cases b <;> simp [keeps, Option.any_eq_true]

theorem Bounds.contains_iff {b : Bounds} {v : Double} : b.contains v ↔ b.Admits v := by
  simp only [contains, Bool.and_eq_true, keeps_iff]
  exact ⟨fun ⟨⟨⟨hgte, hgt⟩, hlte⟩, hlt⟩ => ⟨hgte, hgt, hlte, hlt⟩,
    fun ⟨hgte, hgt, hlte, hlt⟩ => ⟨⟨⟨hgte, hgt⟩, hlte⟩, hlt⟩⟩

namespace Node

variable (ix : Index) (n : Nat)

/-- The document meets the conditions of a tree. Where nothing has to hold, something that may
    hold must, if there is anything. -/
def Holds : Node → Prop
  | term q => ∃ target ∈ q.value?, ∃ v ∈ ix.value? q.field n, v.eq target
  | range q => ∃ v ∈ ix.value? q.field n, q.bounds.Admits v
  | all _ => True
  | bool must should mustNot =>
    (∀ q, q ∈ must → q.Holds) ∧
      (must = [] → should ≠ [] → ∃ q, ∃ _ : q ∈ should, q.Holds) ∧
      ∀ q, q ∈ mustNot → ¬ q.Holds

variable {ix n}

@[simp] theorem holds_all {boost : Single} : (all boost).Holds ix n := by rw [Holds]; trivial

theorem holds_bool {must should mustNot : List Node} :
    (bool must should mustNot).Holds ix n ↔
      (∀ q ∈ must, q.Holds ix n) ∧
        (must = [] → should ≠ [] → ∃ q ∈ should, q.Holds ix n) ∧
        ∀ q ∈ mustNot, ¬ q.Holds ix n := by
  rw [Holds]
  simp only [exists_prop]

end Node

end QuantityQuery
