import QuantityQuery.Detection.Occurrence

/-!
# Expressions for quantities

Quantities become clauses of the query language. An *exact* clause asks for the
amount itself, with the boost of its unit; a *range* clause asks for the amounts
within the gap of the field. The clause style says which of them are written.

* `Catalogue.clauses`: the clauses for one quantity;
* `Catalogue.expression`: the expression for all quantities of a text, which asks
  for all documents where there are none.
-/

namespace QuantityQuery

/-- Which clauses a quantity becomes. -/
inductive ClauseStyle
  /-- An exact clause with its boost, and a range clause where the field has a gap. -/
  | boost
  /-- A range clause where the field has a gap, an exact clause without boost where it has none. -/
  | filter
  deriving DecidableEq, Repr

/-- The name of a clause style. -/
def ClauseStyle.name : ClauseStyle → String
  | boost => "boost"
  | filter => "filter"

/-- A condition on an amount in a field. -/
inductive AmountClause
  | exact (field : String) (amount : Nat) (boost : Option Boost)
  | range (field : String) (low high : Nat)
  deriving DecidableEq

namespace AmountClause

/-- The mark before a boost, and the boost. -/
def boostText : Option Boost → String
  | none => ""
  | some b => "^" ++ b.text

/-- The clause in the query language, with a space after it. -/
def text : AmountClause → String
  | exact field amount boost => field ++ ":" ++ toString amount ++ boostText boost ++ " "
  | range field low high => field ++ ":[" ++ toString low ++ " TO " ++ toString high ++ "] "

end AmountClause

/-- The expression that asks for all documents. -/
def matchAll : String := "*:*"

/-- The expression of some clauses. -/
def expressionOf : List AmountClause → String
  | [] => matchAll
  | clauses => String.join (clauses.map AmountClause.text)

namespace Catalogue

variable (c : Catalogue)

/-- The range clause for a quantity, where its field has a gap. -/
def rangeClause? (o : Occurrence) : Option AmountClause :=
  (c.gap? o.field).map fun gap =>
    let (low, high) := gap.range o.amount
    .range o.field low high

/-- The clauses for a quantity. -/
def clauses (style : ClauseStyle) (o : Occurrence) : List AmountClause :=
  match style with
  | .boost => .exact o.field o.amount o.unit.boost :: (c.rangeClause? o).toList
  | .filter => [(c.rangeClause? o).getD (.exact o.field o.amount none)]

/-- The expression for some quantities. -/
def expression (style : ClauseStyle) (found : List Occurrence) : String :=
  expressionOf (found.flatMap (c.clauses style))

end Catalogue

end QuantityQuery
