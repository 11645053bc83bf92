import QuantityQuery.Catalogue.Field
import QuantityQuery.Event

/-!
# Catalogues

The fields of the documents and the units that feed them, as one checked whole.
Its *spellings* are the variants of all units in lowercase, the longest first; of
equally long ones the first declared stands first.

* `Catalogue.ofFields`: a catalogue, or the first fault of its fields;
* `Catalogue.spellings`: the table that texts are searched by.
-/

namespace QuantityQuery

/-- A way to write a unit: the lowercase of a variant, and the field and unit it stands for. -/
structure Spelling where
  letters : List Char
  field : Field
  unit : MeasureUnit
  deriving DecidableEq

/-- The fields of the documents, checked and normalised. -/
structure Catalogue where
  fields : List Field
  deriving DecidableEq

namespace Catalogue

/-- The first of the things that are wrong with `fields`, when `seen` are the names of the fields
    before them. -/
def fieldsFault? (seen : List String) : (fields : List Field) → Option ConfigError
  | [] => none
  | f :: rest =>
    f.fault?.or <|
    (if f.name ∈ seen then some (.fieldTwice f.name) else none).or <|
    fieldsFault? (f.name :: seen) rest

/-- The catalogue of some fields. -/
def ofFields (fields : List Field) : Except ConfigError Catalogue :=
  match fieldsFault? [] fields with
  | some fault => .error fault
  | none => .ok ⟨fields.map Field.normalise⟩

variable (c : Catalogue)

/-- The field named `name`. -/
def field? (name : String) : Option Field := c.fields.find? (·.name = name)

/-- The gap of the field named `name`. -/
def gap? (name : String) : Option Gap := (c.field? name).bind (·.gap)

/-- How many units the fields have together. -/
def unitCount : Nat := (c.fields.flatMap (·.units)).length

/-- The spellings of all variants, in the order of their declaration. -/
def declaredSpellings : List Spelling :=
  c.fields.flatMap fun f => f.units.flatMap fun u =>
    u.variants.map fun v => ⟨lowercase v.toList, f, u⟩

/-- The spellings with the longest first, and in the order of their declaration among equally long
    ones. -/
def spellings : List Spelling :=
  c.declaredSpellings.mergeSort fun a b => b.letters.length ≤ a.letters.length

/-! ### Reports -/

/-- A variant whose spelling stands in `seen` is shadowed by the first that has it. -/
def shadowEvent? (seen : List Spelling) (f : Field) (u : MeasureUnit) (variant : String) :
    Option Event :=
  (seen.find? (·.letters = lowercase variant.toList)).map fun first =>
    .variantShadowed variant f.name u.name first.field.name first.unit.name

/-- The shadowed variants among the declared ones, when `seen` are the spellings before them. -/
def shadowEvents (seen : List Spelling) :
    (declared : List (Field × MeasureUnit × String)) → List Event
  | [] => []
  | (f, u, v) :: rest =>
    (shadowEvent? seen f u v).toList ++ shadowEvents (seen ++ [⟨lowercase v.toList, f, u⟩]) rest

/-- The variants with their fields and units, in the order of their declaration. -/
def declaredVariants : List (Field × MeasureUnit × String) :=
  c.fields.flatMap fun f => f.units.flatMap fun u => u.variants.map fun v => (f, u, v)

/-- What is reported about a catalogue when it is set up. -/
def events : List Event :=
  shadowEvents [] c.declaredVariants ++
    [.catalogueLoaded c.fields.length c.unitCount c.declaredVariants.length]

/-- The catalogue of some fields, with a report. -/
def load (fields : List Field) : Reported (Except ConfigError Catalogue) :=
  match ofFields fields with
  | .error fault => ⟨.error fault, []⟩
  | .ok c => ⟨.ok c, c.events⟩

end Catalogue

end QuantityQuery
