import QuantityQuery.Number.Binary
import QuantityQuery.Search.DocSet
import QuantityQuery.Table

/-!
# The index

The documents that queries run against, each with an identity and numeric values
of its fields. Documents are added and deleted; a deleted document keeps its
number and its values, but is no longer *live*, and is never found.

* `Index.ofChanges`: the index after a history of additions and deletions;
* `Index.matching`: the live documents with a value that passes a test.
-/

namespace QuantityQuery

/-- A document with its values. -/
structure Document where
  id : Nat
  values : Table Double
  deleted : Bool

/-- The documents, in the order of their numbers. -/
structure Index where
  documents : List Document

/-- A step in the history of an index. -/
inductive Change
  /-- A document is added. Of several values for one field the last one counts. -/
  | add (id : Nat) (values : List (String × Double))
  /-- The first document with this identity is deleted, if there is one. -/
  | delete (id : Nat)

namespace Index

/-- The index without documents. -/
def empty : Index := ⟨[]⟩

/-- Marks the first of the documents with an identity as deleted. -/
def deleteFirst (id : Nat) : List Document → List Document
  | [] => []
  | d :: rest => if d.id = id then { d with deleted := true } :: rest else d :: deleteFirst id rest

/-- The index after a change. -/
def change (ix : Index) : Change → Index
  | .add id values => ⟨ix.documents ++ [⟨id, .ofList values, false⟩]⟩
  | .delete id => ⟨deleteFirst id ix.documents⟩

/-- The index after a history of changes. -/
def ofChanges (changes : List Change) : Index := changes.foldl change empty

variable (ix : Index)

/-- How many documents were added, deleted ones included. -/
def size : Nat := ix.documents.length

/-- The identity of a document. -/
def id? (n : Nat) : Option Nat := ix.documents[n]?.map (·.id)

/-- The value of a field in a document. -/
def value? (field : String) (n : Nat) : Option Double :=
  ix.documents[n]?.bind fun d => d.values.get? field

/-- A document was deleted. -/
def isDeleted (n : Nat) : Bool := ix.documents[n]?.any (·.deleted)

/-- The documents that are not deleted. -/
def live : DocSet := .below ix.size fun n => !ix.isDeleted n

/-- The documents that are deleted. -/
def deleted : DocSet := .below ix.size ix.isDeleted

/-- The live documents with a value of the field that passes the test. -/
def matching (field : String) (test : Double → Bool) : DocSet :=
  .below ix.size fun n => !ix.isDeleted n && (ix.value? field n).any test

end Index

end QuantityQuery
