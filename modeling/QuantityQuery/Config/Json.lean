import QuantityQuery.Catalogue.Json
import QuantityQuery.Config.Basic
import QuantityQuery.Query.Json

/-!
# Configurations in JSON

Reading and writing configurations and requests.
-/

namespace QuantityQuery

/-- Reads a clause style. -/
def ClauseStyle.ofJson : Decoder ClauseStyle :=
  Json.readName [("boost", .boost), ("filter", .filter)]

/-- Writes a clause style. -/
def ClauseStyle.toJson (style : ClauseStyle) : Json := .ofString style.name

/-- Reads the defaults of a parser. -/
def Settings.ofJson : Decoder Settings := fun json => do
  let settings ← json.readRecord
    [.omissibleValue "default_field" Json.readText,
      .omissibleValue "default_operator" Operator.ofJson]
  let standard : Settings := {}
  return {
    defaultField := ← settings.withDefault "default_field" Json.readText standard.defaultField
    defaultOperator :=
      ← settings.withDefault "default_operator" Operator.ofJson standard.defaultOperator }

/-- Writes the defaults of a parser. -/
def Settings.toJson (s : Settings) : Json :=
  .ofMembers
    [("default_field", .ofString s.defaultField), ("default_operator", s.defaultOperator.toJson)]

/-- Reads the source of a catalogue. It is kept as a whole before it is known to be a path or an
    object with fields, so that no rule of its own says why it is refused. -/
def CatalogueSource.ofJson : Decoder CatalogueSource := fun json =>
  if json.isKeepable 1 then
    match json with
    | .string (some path) => .ok (.file path)
    | .object _ => ((Catalogue.readFields json).map .inline).mapError fun _ => Json.malformed
    | _ => .error Json.malformed
  else .error Json.malformed

/-- Writes the source of a catalogue. -/
def CatalogueSource.toJson : CatalogueSource → Json
  | file path => .ofString path
  | inline fields => .ofMembers [("fields", .array (fields.map Field.toJson))]

/-- Reads a configuration. -/
def Config.ofJson : Decoder Config := fun json => do
  let config ← json.readRecord
    [.value "name" Json.readText,
      .omissibleValue "kind" ClauseStyle.ofJson,
      .value "catalogue" CatalogueSource.ofJson,
      .omissibleValue "parser" Settings.ofJson]
  return {
    name := ← config.required "name" Json.readText
    style := ← config.withDefault "kind" ClauseStyle.ofJson .boost
    catalogue := ← config.required "catalogue" CatalogueSource.ofJson
    settings := ← config.withDefault "parser" Settings.ofJson {} }

/-- Writes a configuration. -/
def Config.toJson (c : Config) : Json :=
  .ofMembers
    [("name", .ofString c.name), ("kind", c.style.toJson), ("catalogue", c.catalogue.toJson),
      ("parser", c.settings.toJson)]

/-- Reads a request. -/
def Request.ofJson : Decoder Request := fun json => do
  let request ← json.readRecord
    [.value "query" Json.readText, .omissibleValue "params" (Json.readTable Json.readText)]
  return {
    query := ← request.required "query" Json.readText
    params := ← request.withDefault "params" (Json.readTable Json.readText) .empty }

/-- Writes a request. -/
def Request.toJson (r : Request) : Json :=
  .ofMembers
    [("query", .ofString r.query),
      ("params", .ofMembers (r.params.entries.map fun (name, value) => (name, .ofString value)))]

end QuantityQuery
