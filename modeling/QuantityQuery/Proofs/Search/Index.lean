import Mathlib.Data.List.Basic
import QuantityQuery.Proofs.Search.DocSet
import QuantityQuery.Proofs.Table
import QuantityQuery.Search.Index

/-!
# Documents of an index

Which documents of an index are live, and which of them have a value that passes a
test. In an index of one document (`Index.single`) that document is live.
-/

namespace QuantityQuery.Index

variable {ix : Index} {n : Nat}

theorem mem_live : n ∈ ix.live ↔ n < ix.size ∧ ix.isDeleted n = false := by
  simp [live]

theorem mem_deleted : n ∈ ix.deleted ↔ n < ix.size ∧ ix.isDeleted n = true := by
  simp [deleted]

theorem mem_matching {field : String} {test : Double → Bool} :
    n ∈ ix.matching field test ↔ n ∈ ix.live ∧ ∃ v ∈ ix.value? field n, test v := by
  simp [matching, mem_live, Option.any_eq_true, and_assoc]

theorem ofChanges_concat (changes : List Change) (ch : Change) :
    ofChanges (changes ++ [ch]) = (ofChanges changes).change ch := List.foldl_concat ..

/-- The index of one document with the given values. -/
def single (values : List (String × Double)) : Index := .ofChanges [.add 0 values]

theorem mem_live_single (values : List (String × Double)) : 0 ∈ (single values).live :=
  mem_live.2 ⟨Nat.one_pos, rfl⟩

theorem value?_single {name field : String} {v : Double} :
    (single [(name, v)]).value? field 0 = if field = name then some v else none :=
  Table.get?_insert Table.empty

end QuantityQuery.Index
