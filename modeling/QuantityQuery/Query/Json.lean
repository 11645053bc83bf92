import QuantityQuery.Json.Record
import QuantityQuery.Query.Syntax

/-!
# Queries in JSON

Reading and writing operators, bounds, and the conditions on fields. A bound is a
whole number where it is written as one, else another number or a text. The bounds
of a range condition stand beside its field, as members of one object.
-/

namespace QuantityQuery

/-- Reads an operator. -/
def Operator.ofJson : Decoder Operator := Json.readName [("and", .and), ("or", .or)]

/-- Writes an operator. -/
def Operator.toJson (op : Operator) : Json := .ofString op.name

/-- The bound of a number. Whole numbers beyond 64 bits with a sign are no whole bounds. -/
def Bound.ofJsonNumber : JsonNumber → Bound
  | .natural n => if (n : Int) ≤ maxWhole then .whole n else .real (.ofInt n)
  | .negative i => .whole i
  | .real x => .real x

/-- Reads a bound. -/
def Bound.ofJson : Decoder Bound
  | .string (some s) => .ok (.text s)
  | json => Bound.ofJsonNumber <$> json.readNumber

/-- Writes a bound. -/
def Bound.toJson : Bound → Json
  | whole i => .ofInt i
  | real x => .ofDouble x
  | text s => .ofString s

/-- The members that bounds are read from. An array has to have all of them but the boost. -/
def Bounds.members : List Json.Member :=
  [.value "gte" (Json.readOption Bound.ofJson),
    .value "gt" (Json.readOption Bound.ofJson),
    .value "lte" (Json.readOption Bound.ofJson),
    .value "lt" (Json.readOption Bound.ofJson),
    .omissibleValue "boost" (Json.readBinary : Decoder Single)]

/-- The bounds of their members. -/
def Bounds.ofMembers (found : Json.Members) : Except Refusal Bounds := do
  return {
    gte := ← found.optional "gte" Bound.ofJson
    gt := ← found.optional "gt" Bound.ofJson
    lte := ← found.optional "lte" Bound.ofJson
    lt := ← found.optional "lt" Bound.ofJson
    boost := ← found.withDefault "boost" Json.readBinary 1 }

/-- Reads bounds. -/
def Bounds.ofJson : Decoder Bounds := fun json => do
  Bounds.ofMembers (← json.readRecord Bounds.members)

/-- Bounds as members. -/
def Bounds.toMembers (b : Bounds) : List (String × Json) :=
  Json.optionMember "gte" Bound.toJson b.gte ++ Json.optionMember "gt" Bound.toJson b.gt ++
    Json.optionMember "lte" Bound.toJson b.lte ++ Json.optionMember "lt" Bound.toJson b.lt ++
    [("boost", .ofSingle b.boost)]

/-- Writes bounds. -/
def Bounds.toJson (b : Bounds) : Json := .ofMembers b.toMembers

/-- Keeps a member for later, inside an object. -/
def Json.keep : Decoder Unit := fun json =>
  if json.isKeepable 1 then .ok () else .error malformed

/-- Passes over the members of the bounds until the field of a range is read. -/
def RangeQuery.readMembers (found : Json.Members) :
    (members : List (Option String × Json)) → Except Refusal Json.Members
  | [] => .ok found
  | (none, _) :: _ => .error Json.malformed
  | (some key, value) :: rest => do
    if (found.lookup key).isSome && (key = "field" || Bounds.members.any (·.name = key)) then
      .error Json.malformed
    else
      if key = "field" then discard <| value.readText else value.keep
      RangeQuery.readMembers ((key, value) :: found) rest

/-- Reads a range condition. -/
def RangeQuery.ofJson : Decoder RangeQuery
  | .object members => do
    let found ← RangeQuery.readMembers [] members
    return ⟨← found.required "field" Json.readText, ← Bounds.ofMembers found⟩
  | _ => .error Json.malformed

/-- Writes a range condition. -/
def RangeQuery.toJson (q : RangeQuery) : Json :=
  .ofMembers (("field", .ofString q.field) :: q.bounds.toMembers)

/-- Reads a term condition. -/
def TermQuery.ofJson : Decoder TermQuery := fun json => do
  let query ← json.readRecord
    [.value "field" Json.readText,
      .value "term" Json.readText,
      .omissibleValue "boost" (Json.readBinary : Decoder Single)]
  return {
    field := ← query.required "field" Json.readText
    term := ← query.required "term" Json.readText
    boost := ← query.withDefault "boost" Json.readBinary 1 }

/-- Writes a term condition. -/
def TermQuery.toJson (q : TermQuery) : Json :=
  .ofMembers
    [("field", .ofString q.field), ("term", .ofString q.term), ("boost", .ofSingle q.boost)]

end QuantityQuery
