import QuantityQuery.Catalogue.Error
import QuantityQuery.Query.Error

/-!
# Errors

What can go wrong in the library, and its wording.
-/

namespace QuantityQuery

/-- Why something is refused. -/
inductive Error
  | config (fault : ConfigError)
  | query (fault : QueryError)
  /-- No parser has this name. -/
  | unknownParser (name : String)
  /-- A text is not JSON, or not of the shape it should have, or has a value in it that is
      refused. -/
  | data (refused : Option ConfigError)
  /-- A file cannot be read, in the words of the system. -/
  | file (reason : String)
  deriving DecidableEq

namespace Error

/-- The wording of a refused value. -/
def refusal : Option ConfigError → String
  | none => "malformed data"
  | some fault => "Configuration error: " ++ fault.message

/-- The wording of an error. -/
def message : Error → String
  | config fault => "Configuration error: " ++ fault.message
  | query fault => "Query parse error: " ++ fault.message
  | unknownParser name => "Unknown query parser: " ++ name
  | data refused => "Serialization error: " ++ refusal refused
  | file reason => "IO error: " ++ reason

/-- Errors that keep a parser from being set up. -/
def isConfig : Error → Bool
  | config _ | data _ | file _ => true
  | query _ | unknownParser _ => false

end Error

end QuantityQuery
