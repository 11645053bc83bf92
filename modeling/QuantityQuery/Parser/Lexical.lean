import QuantityQuery.Parser.Request
import QuantityQuery.Query.Grammar

/-!
# The lexical parser

The parser of the query language, with a default field and a default operator that
a request can override.
-/

namespace QuantityQuery

/-- The defaults of a parser. -/
structure Settings where
  defaultField : String := "content"
  defaultOperator : Operator := .or
  deriving DecidableEq

/-- The parser of the query language. -/
structure LexicalParser where
  settings : Settings := {}
  deriving DecidableEq

namespace LexicalParser

/-- The name of the parser of the query language. -/
def name : String := "lucene"

variable (p : LexicalParser) (r : Request)

/-- The default field for a request. -/
def fieldFor : String := r.defaultField?.getD p.settings.defaultField

/-- The default operator for a request. -/
def operatorFor : Operator := r.defaultOperator?.getD p.settings.defaultOperator

/-- The tree that an input writes. -/
def parse (input : String) : Except QueryError Node :=
  Node.ofText (p.fieldFor r) (p.operatorFor r) input

end LexicalParser

end QuantityQuery
