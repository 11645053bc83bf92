import QuantityQuery.Number.Shortest

/-!
# Faults of a configuration

What can be wrong with a catalogue of fields and units, and with the parsers that
are set up from it.
-/

namespace QuantityQuery

/-- Why a configuration is refused. -/
inductive ConfigError
  /-- A boost is not written as digits with at most one point between them. -/
  | boostNotDecimal (text : String)
  /-- A boost is zero, or beyond all finite numbers. -/
  | boostNotPositive (text : String)
  /-- A gap is negative or not finite. -/
  | gapNegative (value : Double)
  | unitUnnamed (field : String)
  | unitWithoutVariants (unit field : String)
  | variantBlank (unit field : String)
  /-- A variant that starts with a digit would run into the amount before it. -/
  | variantDigit (variant unit : String)
  | fieldName (name : String)
  /-- A field is named like a word of the query language. -/
  | fieldReserved (name : String)
  | fieldWithoutUnits (name : String)
  | unitTwice (unit field : String)
  /-- The gap of a unit has another distance than the gap of its field. -/
  | gapConflict (unit : String) (unitGap : Double) (field : String) (fieldGap : Double)
  | fieldTwice (name : String)
  /-- A parser with this name is registered. -/
  | parserTaken (name : String)
  deriving DecidableEq

/-- The wording of a fault. -/
def ConfigError.message : ConfigError → String
  | boostNotDecimal text => s!"Invalid boost '{text}': expected a plain decimal number"
  | boostNotPositive text => s!"Invalid boost '{text}': must be a positive number"
  | gapNegative value =>
    let gap := Layout.plain.write value
    s!"Invalid gap {gap}: must be a non-negative number"
  | unitUnnamed field => s!"Field '{field}' declares a unit with an empty name"
  | unitWithoutVariants unit field => s!"Unit '{unit}' in field '{field}' has no variants"
  | variantBlank unit field => s!"Unit '{unit}' in field '{field}' has a blank variant"
  | variantDigit variant unit =>
    s!"Variant '{variant}' of unit '{unit}' must not start with a digit"
  | fieldName name =>
    s!"Invalid field name '{name}': must start with a letter or '_' and contain only " ++
      "letters, digits, '_', '-' or '.'"
  | fieldReserved name => s!"Invalid field name '{name}': reserved query keyword"
  | fieldWithoutUnits name => s!"Field '{name}' has no units"
  | unitTwice unit field => s!"Unit '{unit}' is declared twice in field '{field}'"
  | gapConflict unit unitGap field fieldGap =>
    let own := Layout.plain.write unitGap
    let shared := Layout.plain.write fieldGap
    s!"Unit '{unit}' declares gap {own} but field '{field}' uses gap {shared}"
  | fieldTwice name => s!"Field '{name}' is declared twice"
  | parserTaken name => s!"Query parser '{name}' is already registered"

end QuantityQuery
