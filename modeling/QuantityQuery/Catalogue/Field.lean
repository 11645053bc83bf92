import QuantityQuery.Catalogue.Unit

/-!
# Fields

A field of numbers in the documents, and the units whose amounts it holds. All
gaps of a field have one distance: a field without a gap takes the first gap of
its units, and every other gap has to agree with it.

* `Field.fault?`: the first of the things that are wrong with a field;
* `Field.normalise`: the field with its variants trimmed and its gap settled.
-/

namespace QuantityQuery

/-- A field of the documents. -/
structure Field where
  name : String
  gap : Option Gap
  units : List MeasureUnit
  deriving DecidableEq

/-- The words that the query language takes for itself, in any case. -/
def reservedWords : List String := ["AND", "OR", "NOT", "TO"]

namespace Field

/-- A letter or an underscore, then letters, digits, underscores, hyphens and points. -/
def isName : List Char → Bool
  | [] => false
  | c :: rest =>
    (isAlphabetic c || c = '_') &&
      rest.all fun c => isAlphanumeric c || c = '_' || c = '-' || c = '.'

/-- What is wrong with the name of a field. -/
def nameFault? (name : String) : Option ConfigError :=
  if !isName name.toList then some (.fieldName name)
  else if reservedWords.any (isWord · name.toList) then some (.fieldReserved name)
  else none

/-- The unit named `name`. -/
def unit? (f : Field) (name : String) : Option MeasureUnit := f.units.find? (·.name = name)

/-- The gap in force after a unit: an earlier gap, else the gap of the unit. -/
def settle (gap : Option Gap) (u : MeasureUnit) : Option Gap := gap.or u.gap

/-- The conflict between the gap in force and the gap of a unit. -/
def gapFault? (field : String) (gap : Option Gap) (u : MeasureUnit) : Option ConfigError :=
  match gap, u.gap with
  | some shared, some own =>
    if shared.distance = own.distance then none
    else some (.gapConflict u.name own.value field shared.value)
  | _, _ => none

/-- The first of the things that are wrong with `units`, when `seen` are the names of the units
    before them and `gap` is the gap in force. -/
def unitsFault? (field : String) (seen : List String) (gap : Option Gap) :
    (units : List MeasureUnit) → Option ConfigError
  | [] => none
  | u :: rest =>
    (u.fault? field).or <|
    (if u.name ∈ seen then some (.unitTwice u.name field) else none).or <|
    (gapFault? field gap u).or <|
    unitsFault? field (u.name :: seen) (settle gap u) rest

/-- The first of the things that are wrong with a field. -/
def fault? (f : Field) : Option ConfigError :=
  (nameFault? f.name).or <|
  if f.units.isEmpty then some (.fieldWithoutUnits f.name)
  else unitsFault? f.name [] f.gap f.units

/-- The field with its variants trimmed and its gap settled. -/
def normalise (f : Field) : Field :=
  { f with gap := f.units.foldl settle f.gap, units := f.units.map MeasureUnit.normalise }

end Field

end QuantityQuery
