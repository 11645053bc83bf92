import QuantityQuery.Json.Record
import QuantityQuery.Search.Ranking

/-!
# Documents and hits in JSON

Reading documents and reading and writing hits.
-/

namespace QuantityQuery

/-- Reads a hit. -/
def Hit.ofJson : Decoder Hit := fun json => do
  let hit ← json.readRecord
    [.value "doc_id" Json.readNatural, .value "score" (Json.readBinary : Decoder Single)]
  return ⟨← hit.required "doc_id" Json.readNatural, ← hit.required "score" Json.readBinary⟩

/-- Writes a hit. -/
def Hit.toJson (h : Hit) : Json :=
  .ofMembers [("doc_id", .ofInt h.id), ("score", .ofSingle h.score)]

/-- Reads the addition of a document. -/
def Change.ofJson : Decoder Change := fun json => do
  let document ← json.readRecord
    [.value "id" Json.readNatural,
      .omissibleValue "fields" (Json.readTable (Json.readBinary : Decoder Double))]
  let values ← document.withDefault "fields" (Json.readTable Json.readBinary) .empty
  return .add (← document.required "id" Json.readNatural) values.entries

/-- Reads an index from a text: an array of documents. -/
def Index.ofText (text : String) : Except Refusal Index :=
  Index.ofChanges <$> Json.decode (Json.readList Change.ofJson) text

end QuantityQuery
