import QuantityQuery.Search.Execution

/-!
# Ranking

The best documents that a query finds. A scoring query ranks them by their score,
the highest first, and documents of one score by their numbers; other queries
leave them in the order of their numbers, each with the score `1`.

The documents are gone through once, and no more of them are kept than are asked
for: when there are too many, the one that ranks last is dropped. Room for those
that are kept is made before the first of them is seen, so it depends on how many are
asked for, not on how many there are, and too large a number of them ends the search.

* `Ranked.room`: how many documents there is room for;
* `Ranked.keep`: one more document among those that are kept;
* `Node.best?`: the best documents in their order;
* `Node.search`: what a query finds.
-/

namespace QuantityQuery

/-- A found document, by its number, and its score. -/
structure Ranked where
  number : Nat
  score : Single
  deriving DecidableEq

namespace Ranked

/-- The first document ranks before the second: its score is higher, or no score is and its number
    is smaller. -/
def before (a b : Ranked) : Bool :=
  b.score.lt a.score || !a.score.lt b.score && a.number < b.number

/-- The one of two documents that does not rank before the other. -/
def later (a b : Ranked) : Ranked := if a.before b then b else a

/-- The document that ranks last of `d` and the others. -/
def last (d : Ranked) (others : List Ranked) : Ranked := others.foldl later d

/-- The number of documents that there is room for, `2 ^ 60 - 1`: a document takes eight bytes, and
    no more than `2 ^ 63 - 1` bytes can be had at once. -/
def room : Nat := 0x0FFF_FFFF_FFFF_FFFF

/-- The documents that are kept and one more. Beyond `count` of them the last one is dropped. -/
def keep (count : Nat) (kept : List Ranked) (d : Ranked) : List Ranked :=
  if kept.length < count then d :: kept else (d :: kept).erase (last d kept)

/-- The documents in the order of the ranking. -/
def sort (kept : List Ranked) : List Ranked := kept.mergeSort fun a b => !b.before a

end Ranked

/-- A found document, by its identity, and its score. -/
structure Hit where
  id : Nat
  score : Single
  deriving DecidableEq

/-- What a search finds. -/
structure Results where
  /-- How many documents were found. -/
  total : Nat
  /-- The best of them, the best one first. -/
  hits : List Hit
  deriving DecidableEq

namespace Node

variable (ix : Index) (q : Node)

/-- A document with the score that ranks it. -/
def scored (n : Nat) : Ranked := ⟨n, (q.score? ix n).getD 0⟩

/-- The `count` best of the found documents, in the order of the ranking. To rank them there must
    be room for `count` documents and the one that is dropped. -/
def best? (count : Nat) (found : DocSet) : Option (List Ranked) :=
  if q.isScoring then
    if found.docs = [] ∨ count = 0 then some []
    else if Ranked.room < count + 1 then none
    else some (Ranked.sort ((found.docs.map (q.scored ix)).foldl (Ranked.keep count) []))
  else some ((found.docs.take count).map fun n => ⟨n, 1⟩)

/-- A ranked document as a hit. -/
def toHit (ranked : Ranked) : Hit :=
  ⟨(ix.id? ranked.number).getD ranked.number, ranked.score⟩

/-- The documents that a query finds and the `count` best of them, if there is room for these, and
    the cache afterwards. -/
def search (count : Nat) (cache : Cache) : Option Results × Cache :=
  let (found, cache) := q.execute ix cache
  ((q.best? ix count found).map fun best => ⟨found.size, best.map (toHit ix)⟩, cache)

end Node

end QuantityQuery
