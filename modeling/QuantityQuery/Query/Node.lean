import QuantityQuery.Query.Bounds

/-!
# Query trees

A query is a tree of conditions on documents. The leaves ask for one value of a
field, for the values within bounds, or for nothing; inner nodes combine
conditions that have to hold, that may hold and that must not.

* `Node.isScoring`: whether documents are ranked by the query;
* `Node.describe`: the tree as one line of text.
-/

namespace QuantityQuery

/-- The condition that a field has the value that a text writes. -/
structure TermQuery where
  field : String
  term : String
  boost : Single := 1
  deriving DecidableEq

namespace TermQuery

/-- The value asked for, if the term writes a finite number. -/
def value? (q : TermQuery) : Option Double := (readBinary? _ q.term.toList).filter (·.isFinite)

/-- The name of the condition among all filters. -/
def key (q : TermQuery) : String := "term:" ++ q.field ++ ":" ++ q.term

/-- The description of the condition. -/
def describe (q : TermQuery) : String :=
  "TermQuery \x7b field: " ++ quote q.field ++ ", term: " ++ quote q.term ++
    ", boost: " ++ Layout.debug.write q.boost ++ " \x7d"

end TermQuery

/-- The condition that a field has a value within bounds. -/
structure RangeQuery where
  field : String
  bounds : Bounds
  deriving DecidableEq

namespace RangeQuery

/-- The name of the condition among all filters. -/
def key (q : RangeQuery) : String :=
  "range:" ++ q.field ++ ":gte=" ++ describeOption Bound.describe q.bounds.gte ++
    ":gt=" ++ describeOption Bound.describe q.bounds.gt ++
    ":lte=" ++ describeOption Bound.describe q.bounds.lte ++
    ":lt=" ++ describeOption Bound.describe q.bounds.lt

/-- The description of the condition. -/
def describe (q : RangeQuery) : String :=
  "RangeQuery \x7b field: " ++ quote q.field ++ ", bounds: " ++ q.bounds.describe ++ " \x7d"

end RangeQuery

/-- A tree of conditions. -/
inductive Node
  | term (query : TermQuery)
  | range (query : RangeQuery)
  /-- The condition of all documents. -/
  | all (boost : Single)
  /-- All of `must` hold, none of `mustNot`, and, if `must` is empty, one of `should`. -/
  | bool (must should mustNot : List Node)

namespace Node

/-- The kind of a tree by its root. -/
def kind : Node → String
  | term _ => "term"
  | range _ => "range"
  | all _ => "all_docs"
  | bool .. => "bool"

/-- The boost at the root of a tree. -/
def boost : Node → Single
  | term q => q.boost
  | range q => q.bounds.boost
  | all boost => boost
  | bool .. => 1

mutual

/-- Documents are ranked by the query. Only terms rank; what must not hold does not. -/
def isScoring : Node → Bool
  | term _ => true
  | range _ => false
  | all _ => false
  | bool must should _ => anyScoring must || anyScoring should

/-- Documents are ranked by one of the queries. -/
def anyScoring : List Node → Bool
  | [] => false
  | q :: rest => q.isScoring || anyScoring rest

end

mutual

/-- The tree as one line of text. -/
def describe : Node → String
  | term q => q.describe
  | range q => q.describe
  | all boost => "AllDocsQuery \x7b boost: " ++ Layout.debug.write boost ++ " \x7d"
  | bool must should mustNot =>
    "BoolQuery \x7b must: [" ++ ", ".intercalate (describeAll must) ++
      "], should: [" ++ ", ".intercalate (describeAll should) ++
      "], must_not: [" ++ ", ".intercalate (describeAll mustNot) ++ "] \x7d"

/-- The descriptions of some trees. -/
def describeAll : List Node → List String
  | [] => []
  | q :: rest => q.describe :: describeAll rest

end

end Node

end QuantityQuery
