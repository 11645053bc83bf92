import QuantityQuery.Query.Syntax
import QuantityQuery.Table

/-!
# Requests

A request for documents: the text of a query and parameters by name. The
parameters `df` and `q.op` override the default field and the default operator
for this request.
-/

namespace QuantityQuery

/-- The text of a query, with parameters. -/
structure Request where
  query : String
  params : Table String

namespace Request

variable (r : Request)

/-- The value of a parameter. -/
def param? (name : String) : Option String := r.params.get? name

/-- The default field of the request, unless it is blank. -/
def defaultField? : Option String := (r.param? "df").filter fun f => !isBlankText f.toList

/-- The operator that a text names, in any case, with blanks around it or not. -/
def operator? (text : String) : Option Operator :=
  let word := trim text.toList
  if isWord "AND" word then some .and else if isWord "OR" word then some .or else none

/-- The default operator of the request, if its parameter names one. -/
def defaultOperator? : Option Operator := (r.param? "q.op").bind operator?

end Request

end QuantityQuery
