import QuantityQuery.Query.Node

/-!
# The syntax of queries

A query as it is written: a chain of clauses, each linked to the ones before it by
`AND`, by `OR`, or by standing beside them. A clause is a condition or a chain in
parentheses, with an optional sign.

A chain becomes a tree by `Chain.toNode`. Between two `OR`s, clauses after `AND`
and clauses that are excluded are *required*; other clauses are *beside* the
required clause before them, and become one required clause with it, combined by
the default operator, at the next `AND` and at the end.
-/

namespace QuantityQuery

/-- How conditions are combined. -/
inductive Operator
  | and
  | or
  deriving DecidableEq, Repr

/-- The name of an operator. -/
def Operator.name : Operator → String
  | and => "and"
  | or => "or"

/-- What stands before a clause. -/
inductive Sign
  | plain
  /-- A plus. -/
  | required
  /-- A minus, or the word `NOT`. -/
  | excluded
  deriving DecidableEq, Repr

/-- How a clause is linked to the clauses before it. -/
inductive Link
  | and
  | or
  | beside
  deriving DecidableEq, Repr

/-- A condition as it is written. -/
inductive Leaf
  | all (boost : Single)
  /-- A value, with the field before it if one is written. -/
  | term (field : Option String) (text : String) (boost : Single)
  | range (field : String) (bounds : Bounds)
  deriving DecidableEq

mutual

/-- A condition or a group, with a sign. -/
inductive Clause
  | leaf (sign : Sign) (leaf : Leaf)
  | group (sign : Sign) (chain : Chain)

/-- Clauses with the links between them. -/
inductive Chain
  | one (clause : Clause)
  | link (before : Chain) (link : Link) (clause : Clause)

end

/-- The sign of a clause. -/
def Clause.sign : Clause → Sign
  | leaf sign _ => sign
  | group sign _ => sign

/-- The condition of a leaf, when `field` is the default field. -/
def Leaf.toNode (field : String) : Leaf → Node
  | all boost => .all boost
  | term own text boost => .term ⟨own.getD field, text, boost⟩
  | range own bounds => .range ⟨own, bounds⟩

/-- A condition with a sign. -/
def Sign.apply : Sign → Node → Node
  | plain, q => q
  | required, q => .bool [q] [] []
  | excluded, q => .bool [] [] [q]

/-- Some conditions as one: a single one as it is, else combined by the operator. -/
def Operator.combine (op : Operator) : List Node → Node
  | [q] => q
  | qs => match op with
    | and => .bool qs [] []
    | or => .bool [] qs []

/-- The conditions of a chain read so far. -/
structure Pending where
  /-- The alternatives before the last `OR`. -/
  alternatives : List Node
  /-- The required conditions after it, except the last one. -/
  required : List Node
  /-- The last required condition. -/
  last : Node
  /-- The conditions beside the last required one. -/
  beside : List Node

namespace Pending

/-- A first condition. -/
def start (q : Node) : Pending := ⟨[], [], q, []⟩

/-- The required conditions, the last one combined with those beside it. -/
def allRequired (op : Operator) (p : Pending) : List Node :=
  p.required ++ [op.combine (p.last :: p.beside)]

/-- The conditions after the last `OR` as one. -/
def alternative (op : Operator) (p : Pending) : Node := Operator.and.combine (p.allRequired op)

/-- Adds a condition, of a clause with the given link and sign. -/
def add (op : Operator) (p : Pending) (link : Link) (sign : Sign) (q : Node) : Pending :=
  match link, sign with
  | .or, _ => ⟨p.alternatives ++ [p.alternative op], [], q, []⟩
  | .and, _ => ⟨p.alternatives, p.allRequired op, q, []⟩
  | .beside, .excluded => ⟨p.alternatives, p.required ++ [p.last], q, p.beside⟩
  | .beside, _ => { p with beside := p.beside ++ [q] }

/-- All conditions as one. -/
def finish (op : Operator) (p : Pending) : Node :=
  Operator.or.combine (p.alternatives ++ [p.alternative op])

end Pending

mutual

/-- The condition of a clause. -/
def Clause.toNode (field : String) (op : Operator) : Clause → Node
  | .leaf sign leaf => sign.apply (leaf.toNode field)
  | .group sign chain => sign.apply ((chain.pending field op).finish op)

/-- The conditions of the clauses of a chain. -/
def Chain.pending (field : String) (op : Operator) : Chain → Pending
  | .one clause => .start (clause.toNode field op)
  | .link before link clause =>
    (before.pending field op).add op link clause.sign (clause.toNode field op)

end

/-- The tree of a chain, with a default field and a default operator. -/
def Chain.toNode (field : String) (op : Operator) (chain : Chain) : Node :=
  (chain.pending field op).finish op

end QuantityQuery
