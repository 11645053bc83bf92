import QuantityQuery.Query.Token

/-!
# Faults of a query

What can be wrong with the text of a query.
-/

namespace QuantityQuery

/-- Why a query is refused. The token that was met is none at the end of the text. -/
inductive QueryError
  /-- No token begins with this character. -/
  | unexpectedCharacter (position : Nat) (c : Char)
  /-- The closing quote is missing. -/
  | unterminated
  | empty
  /-- The query is over before this token. -/
  | trailing (met : Option Token)
  /-- No clause begins with this token. -/
  | notClause (met : Option Token)
  /-- No value begins with this token. -/
  | notValue (field : String) (met : Option Token)
  /-- There are parentheses after a field. -/
  | groupAfterField (field : String)
  | wildcard (term : String)
  /-- There is a tilde after a value. -/
  | nearness
  /-- No bound of a range is written like this. -/
  | notBound (met : Option Token)
  | rangeOpen
  | expected (wanted : Token) (met : Option Token)
  /-- A failure that the caller reports in its own words. -/
  | reported (message : String)
  deriving DecidableEq

/-- The wording of a fault. -/
def QueryError.message : QueryError → String
  | unexpectedCharacter position c => s!"Unexpected character at position {position}: '{c}'"
  | unterminated => "Unterminated quoted string"
  | empty => "Empty query"
  | trailing met => "Unexpected token after query: " ++ Token.describeNext met
  | notClause met => "Unexpected token: " ++ Token.describeNext met
  | notValue field met =>
    s!"Expected value after field '{field}:', got " ++ Token.describeNext met
  | groupAfterField field => s!"Grouped clauses after '{field}:' are not supported"
  | wildcard term => "Wildcard terms are not supported: " ++ term
  | nearness => "Fuzzy and proximity modifiers are not supported"
  | notBound met => "Expected range value, got: " ++ Token.describeNext met
  | rangeOpen => "Expected ']' or '\x7d' at end of range"
  | expected wanted met => "Expected " ++ wanted.describe ++ ", got " ++ Token.describeNext met
  | reported message => message

end QuantityQuery
