import QuantityQuery.Parser.Detector
import QuantityQuery.Proofs.Detection.Expression
import QuantityQuery.Proofs.Detection.Occurrence

/-!
# What a detector asks for

A detector writes an expression and has it parsed. Whatever the catalogue, the input
and the request, the expression is accepted, and its tree is settled by the quantities
in the input and by the default operator (`Detector.parse_eq_ok`); the default field
has no part in it.

* `Occurrence.AsksExactly`: a condition asks for the amount itself;
* `Occurrence.AsksWithin`: a condition asks for the amounts within a gap;
* `Catalogue.Means`: the conditions that a quantity becomes.
-/

namespace QuantityQuery

namespace Occurrence

/-- The condition asks for the amount itself, as a number, in the field of the quantity. -/
def AsksExactly (o : Occurrence) (boost : Single) (q : Node) : Prop :=
  ∃ t : TermQuery, q = .term t ∧ t.field = o.field ∧ t.value? = some (.ofInt o.amount) ∧
    t.boost = boost

/-- The condition asks for the amounts within the gap, both ends included, in the field of the
    quantity. Ends up to `2 ^ 53` are asked for exactly. -/
def AsksWithin (o : Occurrence) (gap : Gap) (q : Node) : Prop :=
  ∃ low high : Bound,
    q = .range ⟨o.field,
      { gte := some low, gt := none, lte := some high, lt := none, boost := 1 }⟩ ∧
    ((gap.range o.amount).1 ≤ 2 ^ 53 → low = .whole (gap.range o.amount).1) ∧
    ((gap.range o.amount).2 ≤ 2 ^ 53 → high = .whole (gap.range o.amount).2)

end Occurrence

namespace Catalogue

variable (c : Catalogue)

/-- What the conditions for a quantity have to be. The boost of the unit counts in boost style
    only. -/
def Means (style : ClauseStyle) (o : Occurrence) (qs : List Node) : Prop :=
  match style, c.gap? o.field with
  | .boost, none => ∃ q, qs = [q] ∧ o.AsksExactly ((o.unit.boost.map Boost.value).getD 1) q
  | .boost, some gap => ∃ q r, qs = [q, r] ∧
    o.AsksExactly ((o.unit.boost.map Boost.value).getD 1) q ∧ o.AsksWithin gap r
  | .filter, none => ∃ q, qs = [q] ∧ o.AsksExactly 1 q
  | .filter, some gap => ∃ r, qs = [r] ∧ o.AsksWithin gap r

/-- The conditions for a quantity. -/
def conditions (style : ClauseStyle) (o : Occurrence) : List Node :=
  (c.clauses style o).map AmountClause.condition

end Catalogue

/-! ### The conditions of clauses -/

theorem Binary.isFinite_ofInt_amount {n : Nat} (h : n ≤ maxAmount) :
    (ofInt n : Double).isFinite :=
  isFinite_ofInt (Double.holds_nearest (Nat.lt_of_le_of_lt h (by decide)))

/-- Up to `2 ^ 53` the bound of a whole number is that number. -/
theorem Bound.ofNumber_ofInt {n : Nat} (h : n ≤ 2 ^ 53) : ofNumber (.ofInt n) = .whole n := by
  have hholds := Double.holds_whole h
  have hclamp : (Binary.ofInt n : Double).clamp minWhole maxWhole = n :=
    Binary.clamp_ofInt hholds (by rw [minWhole]; omega) (by rw [maxWhole]; omega)
  rw [ofNumber, if_pos (Binary.isWhole_ofInt hholds), hclamp]

/-- The term that an amount is written as has the amount as its value. -/
theorem TermQuery.value?_amount {n : Nat} (h : n ≤ maxAmount) {field : String} {boost : Single} :
    TermQuery.value? ⟨field, Layout.plain.write (.ofInt n : Double), boost⟩ = some (.ofInt n) :=
  value?_write (Binary.isFinite_ofInt_amount h) field boost

namespace Occurrence

variable {o : Occurrence}

theorem asksExactly_condition (h : o.amount ≤ maxAmount) (boost : Option Boost) :
    o.AsksExactly ((boost.map Boost.value).getD 1)
      (AmountClause.exact o.field o.amount boost).condition :=
  ⟨_, rfl, rfl, TermQuery.value?_amount h, rfl⟩

theorem asksWithin_condition (gap : Gap) :
    o.AsksWithin gap
      (AmountClause.range o.field (gap.range o.amount).1 (gap.range o.amount).2).condition :=
  ⟨_, _, rfl, Bound.ofNumber_ofInt, Bound.ofNumber_ofInt⟩

end Occurrence

namespace Catalogue

variable {c : Catalogue} {style : ClauseStyle} {o : Occurrence}

/-- The conditions for a quantity are what they have to be. -/
theorem means_conditions (h : o.amount ≤ maxAmount) : c.Means style o (c.conditions style o) := by
  unfold Means conditions clauses rangeClause?
  cases style with
  | boost =>
    cases c.gap? o.field with
    | none => exact ⟨_, rfl, o.asksExactly_condition h _⟩
    | some gap => exact ⟨_, _, rfl, o.asksExactly_condition h _, o.asksWithin_condition gap⟩
  | filter =>
    cases c.gap? o.field with
    | none => exact ⟨_, rfl, o.asksExactly_condition h none⟩
    | some gap => exact ⟨_, rfl, o.asksWithin_condition gap⟩

end Catalogue

/-- The tree is made of the conditions for the quantities in the input. -/
theorem Detector.parse_eq_treeOf {fields : List Field} (d : Detector)
    (h : Catalogue.ofFields fields = .ok d.catalogue) (r : Request) (input : String) :
    d.parse r input = .ok ((d.host.operatorFor r).treeOf
      ((d.detect input).flatMap (d.catalogue.conditions d.style))) := by
  -- The names in the clauses are those of accepted fields, so the expression is read as meant.
  have hnames : ∀ clause ∈ (d.detect input).flatMap (d.catalogue.clauses d.style),
      Field.nameFault? clause.field = none := by
    intro clause hclause
    obtain ⟨o, ho, hclause⟩ := List.mem_flatMap.1 hclause
    obtain ⟨_, f, hf, hfield, _⟩ := Catalogue.mem_scan ho
    rw [Catalogue.field_of_mem_clauses hclause, hfield]
    exact Catalogue.nameFault?_of_ofFields h f hf
  have hparse := Node.ofText_expressionOf (d.host.fieldFor r) (d.host.operatorFor r) hnames
  rw [List.map_flatMap] at hparse
  exact hparse

end QuantityQuery
