import QuantityQuery.Query.Node
import QuantityQuery.Search.Index

/-!
# Running queries

A query runs against an index and finds a set of live documents. What the
conditions on fields find is kept in a cache under the key of the condition, so
that the condition is not asked of the documents again.

* `Cache.fetch`: what is kept under a key, else what is computed and then kept;
* `Node.execute`: the documents that a query finds, and the cache afterwards;
* `Node.score?`: the score of a document by a query.
-/

namespace QuantityQuery

/-- The documents found by conditions, under the keys of the conditions. -/
abbrev Cache := Table DocSet

namespace Cache

/-- What is kept under `key`, else what is computed, which is then kept. -/
def fetch (cache : Cache) (key : String) (compute : Unit → DocSet) : DocSet × Cache :=
  match cache.get? key with
  | some docs => (docs, cache)
  | none =>
    let docs := compute ()
    (docs, cache.insert key docs)

/-- Like `fetch`, for a computation that can fail. Nothing is kept of a failure. -/
def fetchOrFail {ε : Type} (cache : Cache) (key : String) (compute : Unit → Except ε DocSet) :
    Except ε (DocSet × Cache) :=
  match cache.get? key with
  | some docs => .ok (docs, cache)
  | none => (compute ()).map fun docs => (docs, cache.insert key docs)

end Cache

variable (ix : Index)

/-- The documents that a term finds. A term that is no number finds none. -/
def TermQuery.execute (q : TermQuery) (cache : Cache) : DocSet × Cache :=
  match q.value? with
  | none => (.empty, cache)
  | some target => cache.fetch q.key fun _ => ix.matching q.field fun v => v.eq target

/-- The documents that a range finds. -/
def RangeQuery.execute (q : RangeQuery) (cache : Cache) : DocSet × Cache :=
  cache.fetch q.key fun _ => ix.matching q.field q.bounds.contains

namespace Node

mutual

/-- The documents that a query finds, and the cache afterwards. Conditions that have to hold are
    run one after the other, and when no document is left the rest of the query is not run. -/
def execute (q : Node) (cache : Cache) : DocSet × Cache :=
  match q with
  | term q => q.execute ix cache
  | range q => q.execute ix cache
  | all _ => (ix.live, cache)
  | bool [] [] [] => (ix.live, cache)
  | bool (m :: must) _ mustNot =>
    let (found, cache) := m.execute cache
    let (found, cache) := narrow found must cache
    if found.isEmpty then (.empty, cache) else without found mustNot cache
  | bool [] (s :: should) mustNot =>
    let (found, cache) := s.execute cache
    let (found, cache) := widen found should cache
    without found mustNot cache
  | bool [] [] mustNot => without ix.live mustNot cache

/-- The documents in `found` that all of the queries find. -/
def narrow (found : DocSet) (qs : List Node) (cache : Cache) : DocSet × Cache :=
  match qs with
  | [] => (found, cache)
  | q :: rest =>
    if found.isEmpty then (found, cache)
    else
      let (more, cache) := q.execute cache
      narrow (found.inter more) rest cache

/-- The documents in `found` and those that one of the queries finds. -/
def widen (found : DocSet) (qs : List Node) (cache : Cache) : DocSet × Cache :=
  match qs with
  | [] => (found, cache)
  | q :: rest =>
    let (more, cache) := q.execute cache
    widen (found.union more) rest cache

/-- The live documents in `found` that none of the queries finds. -/
def without (found : DocSet) (qs : List Node) (cache : Cache) : DocSet × Cache :=
  match qs with
  | [] => (found.diff ix.deleted, cache)
  | q :: rest =>
    let (more, cache) := q.execute cache
    without (found.diff more) rest cache

end

/-- The documents that a query finds, with nothing cached before. -/
def find (q : Node) : DocSet := (q.execute ix Table.empty).1

mutual

/-- The score of a document by a query. A condition gives its boost where it holds; a combination
    gives the sum over what has to hold and what may hold, where that is positive. -/
def score? (q : Node) (n : Nat) : Option Single :=
  match q with
  | term q =>
    if q.value?.any (fun target => (ix.value? q.field n).any fun v => v.eq target) &&
      !ix.isDeleted n
    then some q.boost else none
  | range q =>
    if (ix.value? q.field n).any q.bounds.contains && !ix.isDeleted n
    then some q.bounds.boost else none
  | all boost => if ix.isDeleted n then none else some boost
  | bool must should _ =>
    let total := addScores (addScores 0 must n) should n
    if Binary.lt 0 total then some total else none

/-- `total` and the scores of a document by some queries. -/
def addScores (total : Single) (qs : List Node) (n : Nat) : Single :=
  match qs with
  | [] => total
  | q :: rest =>
    addScores (match q.score? n with | none => total | some s => total + s) rest n

end

end Node

end QuantityQuery
