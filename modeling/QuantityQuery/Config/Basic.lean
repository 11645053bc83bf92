import QuantityQuery.Parser.Detector

/-!
# Configurations

The configuration of a quantity detector: its name and clause style, its
catalogue, which is part of the configuration or in a file of its own, and the
defaults of the lexical parser it works with.
-/

namespace QuantityQuery

/-- Where the fields of a catalogue are. -/
inductive CatalogueSource
  | file (path : String)
  | inline (fields : List Field)
  deriving DecidableEq

/-- The configuration of a quantity detector. -/
structure Config where
  name : String
  style : ClauseStyle := .boost
  catalogue : CatalogueSource
  settings : Settings := {}
  deriving DecidableEq

end QuantityQuery
