import QuantityQuery.Catalogue.Basic
import QuantityQuery.Json.Record

/-!
# Catalogues in JSON

Reading and writing boosts, gaps, units and fields, and reading catalogues. A boost
is read from a string or from a number as it is written, and is written as a
string. Boosts and gaps keep to their rules; all other rules are those of the
catalogue as a whole.
-/

namespace QuantityQuery

/-- Reads a boost. -/
def Boost.ofJson : Decoder Boost
  | .number literal => do
    let n ← Json.orMalformed (JsonNumber.ofLiteral? literal)
    (Boost.ofText n.text).mapError some
  | .string (some text) => (Boost.ofText text).mapError some
  | _ => .error Json.malformed

/-- Writes a boost. -/
def Boost.toJson (b : Boost) : Json := .ofString b.text

/-- Reads a gap. -/
def Gap.ofJson : Decoder Gap := fun json => do (Gap.ofValue (← json.readBinary)).mapError some

/-- Writes a gap. -/
def Gap.toJson (g : Gap) : Json := .ofDouble g.value

/-- Reads a unit. -/
def MeasureUnit.ofJson : Decoder MeasureUnit := fun json => do
  let unit ← json.readRecord
    [.value "name" Json.readText,
      .value "variants" (Json.readList Json.readText),
      .omissibleValue "boost" (Json.readOption Boost.ofJson),
      .omissibleValue "gap" (Json.readOption Gap.ofJson)]
  return {
    name := ← unit.required "name" Json.readText
    variants := ← unit.required "variants" (Json.readList Json.readText)
    boost := ← unit.optional "boost" Boost.ofJson
    gap := ← unit.optional "gap" Gap.ofJson }

/-- Writes a unit. -/
def MeasureUnit.toJson (u : MeasureUnit) : Json :=
  .ofMembers <|
    [("name", .ofString u.name), ("variants", .array (u.variants.map .ofString))] ++
      Json.optionMember "boost" Boost.toJson u.boost ++ Json.optionMember "gap" Gap.toJson u.gap

/-- Reads a field. -/
def Field.ofJson : Decoder Field := fun json => do
  let field ← json.readRecord
    [.value "name" Json.readText,
      .omissibleValue "gap" (Json.readOption Gap.ofJson),
      .value "units" (Json.readList MeasureUnit.ofJson)]
  return {
    name := ← field.required "name" Json.readText
    gap := ← field.optional "gap" Gap.ofJson
    units := ← field.required "units" (Json.readList MeasureUnit.ofJson) }

/-- Writes a field. -/
def Field.toJson (f : Field) : Json :=
  .ofMembers <|
    [("name", .ofString f.name)] ++ Json.optionMember "gap" Gap.toJson f.gap ++
      [("units", .array (f.units.map MeasureUnit.toJson))]

/-- Reads the fields of a catalogue. -/
def Catalogue.readFields : Decoder (List Field) := fun json => do
  let catalogue ← json.readRecord [.value "fields" (Json.readList Field.ofJson)]
  catalogue.required "fields" (Json.readList Field.ofJson)

end QuantityQuery
