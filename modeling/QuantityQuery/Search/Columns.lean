import QuantityQuery.Search.Index

/-!
# Values kept by fields

A store of the documents of an index that keeps their values field by field: under each
field stands a *column*, with a place for the value of each document. Asking for the
documents with a value of one field reads one column only.

A column begins with the first document that has a value of its field. While documents
are added it reaches up to the last document that was given a value, and is filled up to
the number of all documents when the history is over.

* `Columns.ofChanges`: the store after a history of additions and deletions;
* `Columns.matching`: the live documents with a value that passes a test.
-/

namespace QuantityQuery

/-- The values of one field, by the numbers of the documents. -/
abbrev Column := List (Option Double)

namespace Column

/-- The column with `count` places: cut, or filled up with places without a value. -/
def resize (count : Nat) (column : Column) : Column :=
  column.take count ++ .replicate (count - column.length) none

/-- The value at the place of a document. -/
def value? (column : Column) (n : Nat) : Option Double := column[n]?.join

end Column

/-- The documents by their identities and by the columns of their fields. -/
structure Columns where
  ids : List Nat
  columns : Table Column
  deleted : DocSet

namespace Columns

/-- The store without documents. -/
def empty : Columns := ⟨[], .empty, .empty⟩

/-- The store with a value at the place of document `n` in the column of its field. -/
def put (n : Nat) (s : Columns) (entry : String × Double) : Columns :=
  let column := (s.columns.get? entry.1).getD []
  { s with columns := s.columns.insert entry.1 ((column.resize (n + 1)).set n (some entry.2)) }

/-- The store after a change. -/
def change (s : Columns) : Change → Columns
  | .add id values => values.foldl (put s.ids.length) { s with ids := s.ids ++ [id] }
  | .delete id =>
    match s.ids.findIdx? (· = id) with
    | some n => { s with deleted := s.deleted.insert n }
    | none => s

/-- The store with a place for every document in each column. -/
def close (s : Columns) : Columns := { s with columns := s.columns.map (·.resize s.ids.length) }

/-- The store after a history of changes. -/
def ofChanges (changes : List Change) : Columns := (changes.foldl change empty).close

variable (s : Columns)

/-- How many documents were added, deleted ones included. -/
def size : Nat := s.ids.length

/-- The identity of a document. -/
def id? (n : Nat) : Option Nat := s.ids[n]?

/-- The value of a field in a document. -/
def value? (field : String) (n : Nat) : Option Double := (s.columns.get? field).bind (·.value? n)

/-- A document was deleted. -/
def isDeleted (n : Nat) : Bool := n ∈ s.deleted

/-- The documents that are not deleted. -/
def live : DocSet := (DocSet.below s.size fun _ => true).diff s.deleted

/-- The live documents with a value of the field that passes the test. -/
def matching (field : String) (test : Double → Bool) : DocSet :=
  match s.columns.get? field with
  | some column => (DocSet.below column.length fun n => (column.value? n).any test).diff s.deleted
  | none => .empty

end Columns

end QuantityQuery
