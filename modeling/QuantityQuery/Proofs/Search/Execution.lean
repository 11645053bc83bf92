import Mathlib.Data.List.Forall2
import QuantityQuery.Proofs.Query.Key
import QuantityQuery.Proofs.Query.Node
import QuantityQuery.Proofs.Search.Index
import QuantityQuery.Proofs.Search.Meaning
import QuantityQuery.Search.Execution

/-!
# What queries find

A query finds the live documents that meet its conditions (`Node.Holds`), whatever
was executed before it. Executions share a cache; the invariant that carries the
proof is that everything in the cache is what its condition finds (`Cache.Sound`).
It holds of the empty cache and is kept by every execution, as a key stands for
one condition only.

* `Node.finds_execute`: one execution, from any sound cache;
* `Node.mem_find`: an execution with nothing cached before;
* `Node.executeAll_finds`: executions one after the other on one cache.
-/

namespace QuantityQuery

variable {ix : Index} {cache : Cache} {n : Nat}

/-! ### The cache -/

namespace Cache

/-- Everything that the cache keeps is what the condition of its key finds. -/
structure Sound (ix : Index) (cache : Cache) : Prop where
  term : ∀ q : TermQuery, ∀ target ∈ q.value?, ∀ docs ∈ cache.get? q.key,
    docs = ix.matching q.field fun v => v.eq target
  range : ∀ q : RangeQuery, ∀ docs ∈ cache.get? q.key,
    docs = ix.matching q.field q.bounds.contains

theorem sound_empty : Sound ix Table.empty := ⟨by simp, by simp⟩

variable {key : String} {compute : Unit → DocSet}

/-- A sound entry is what would be computed. -/
theorem fetch_fst (h : ∀ docs ∈ cache.get? key, docs = compute ()) :
    (cache.fetch key compute).1 = compute () := by
  rw [fetch]
  split
  · next docs hdocs => exact h docs hdocs
  · rfl

/-- What is kept after a look into the cache was kept before, or is what was computed. -/
theorem get?_fetch {k : String} {docs : DocSet}
    (h : docs ∈ (cache.fetch key compute).2.get? k) :
    docs ∈ cache.get? k ∨ k = key ∧ docs = compute () := by
  rw [fetch] at h
  split at h
  · exact .inl h
  · rw [Table.get?_insert] at h
    split at h
    · next hk => exact .inr ⟨hk, (Option.some.inj h).symm⟩
    · exact .inl h

end Cache

namespace RangeQuery

/-- The key of a range settles which values it admits. -/
theorem matching_congr {q r : RangeQuery} (h : q.key = r.key) :
    ix.matching q.field q.bounds.contains = ix.matching r.field r.bounds.contains := by
  obtain ⟨hfield, hgte, hgt, hlte, hlt⟩ := key_inj h
  have hcontains : q.bounds.contains = r.bounds.contains := by
    funext v
    rw [Bounds.contains, Bounds.contains, hgte, hgt, hlte, hlt]
  rw [hfield, hcontains]

end RangeQuery

/-! ### Executions -/

/-- An execution finds the live documents with the property `P`, and leaves a sound cache. -/
structure Finds (ix : Index) (P : Nat → Prop) (out : DocSet × Cache) : Prop where
  mem_iff : ∀ n, n ∈ out.1 ↔ n ∈ ix.live ∧ P n
  sound : out.2.Sound ix

namespace Finds

variable {P Q : Nat → Prop} {out : DocSet × Cache}

theorem congr (h : ∀ n, P n ↔ Q n) (hout : Finds ix P out) : Finds ix Q out :=
  ⟨fun n => (hout.mem_iff n).trans (and_congr_right fun _ => h n), hout.sound⟩

theorem live (hcache : cache.Sound ix) : Finds ix (fun _ => True) (ix.live, cache) :=
  ⟨fun _ => (and_true _).symm.to_iff, hcache⟩

end Finds

theorem TermQuery.finds_execute (q : TermQuery) (hcache : cache.Sound ix) :
    Finds ix ((Node.term q).Holds ix) (q.execute ix cache) := by
  rw [TermQuery.execute]
  split
  case h_1 hvalue =>
    refine ⟨fun n => ?_, hcache⟩
    simp [Node.Holds, hvalue]
  case h_2 target hvalue =>
    refine ⟨fun n => ?_, ?_, ?_⟩
    · rw [Cache.fetch_fst (hcache.term q target hvalue), Index.mem_matching, Node.Holds, hvalue]
      simp
    · -- What is new in the cache stands under the key of this term, which settles the term.
      intro r target' hr docs hdocs
      rcases Cache.get?_fetch hdocs with h | ⟨hkey, rfl⟩
      · exact hcache.term r target' hr docs h
      · obtain ⟨hfield, hterm⟩ :=
          key_inj (Option.isSome_of_mem hr) (Option.isSome_of_mem hvalue) hkey
        have : some target' = some target := by
          rw [← Option.mem_def.1 hr, ← hvalue, value?, value?, hterm]
        rw [hfield, Option.some.inj this]
    · intro r docs hdocs
      rcases Cache.get?_fetch hdocs with h | ⟨hkey, _⟩
      · exact hcache.range r docs h
      · exact absurd hkey.symm (key_ne_key q r)

theorem RangeQuery.finds_execute (q : RangeQuery) (hcache : cache.Sound ix) :
    Finds ix ((Node.range q).Holds ix) (q.execute ix cache) := by
  rw [RangeQuery.execute]
  refine ⟨fun n => ?_, ?_, ?_⟩
  · rw [Cache.fetch_fst (hcache.range q), Index.mem_matching, Node.Holds]
    simp only [Bounds.contains_iff]
  · intro r target hr docs hdocs
    rcases Cache.get?_fetch hdocs with h | ⟨hkey, _⟩
    · exact hcache.term r target hr docs h
    · exact absurd hkey (TermQuery.key_ne_key r q)
  · intro r docs hdocs
    rcases Cache.get?_fetch hdocs with h | ⟨hkey, rfl⟩
    · exact hcache.range r docs h
    · exact matching_congr hkey.symm

namespace Node

/-- From every sound cache, a query finds the live documents that meet it. -/
def IsFoundIn (ix : Index) (q : Node) : Prop :=
  ∀ cache : Cache, cache.Sound ix → Finds ix (q.Holds ix) (q.execute ix cache)

variable {P : Nat → Prop} {found : DocSet} {q : Node} {qs : List Node}

theorem narrow_cons : narrow ix found (q :: qs) cache =
    if found.isEmpty then (found, cache)
    else narrow ix (found.inter (q.execute ix cache).1) qs (q.execute ix cache).2 := by
  rw [narrow]

theorem widen_cons : widen ix found (q :: qs) cache =
    widen ix (found.union (q.execute ix cache).1) qs (q.execute ix cache).2 := by
  rw [widen]

theorem without_cons : without ix found (q :: qs) cache =
    without ix (found.diff (q.execute ix cache).1) qs (q.execute ix cache).2 := by
  rw [without]

theorem execute_must {must should mustNot : List Node} {out : DocSet × Cache}
    (hout : narrow ix (q.execute ix cache).1 must (q.execute ix cache).2 = out) :
    (bool (q :: must) should mustNot).execute ix cache =
      if out.1.isEmpty then (.empty, out.2) else without ix out.1 mustNot out.2 := by
  rw [execute, ← hout]

theorem finds_narrow (hqs : ∀ q ∈ qs, q.IsFoundIn ix)
    (hfound : Finds ix P (found, cache)) :
    Finds ix (fun n => P n ∧ ∀ q ∈ qs, q.Holds ix n) (narrow ix found qs cache) := by
  induction qs generalizing found cache P with
  | nil =>
    rw [narrow]
    exact hfound.congr fun n => by simp
  | cons q rest ih =>
    rw [narrow_cons]
    split
    case isTrue hempty =>
      -- Nothing is left to narrow, so the rest need not be asked.
      refine ⟨fun n => ⟨fun hn => absurd hn (DocSet.isEmpty_iff.1 hempty n), fun hn => ?_⟩,
        hfound.sound⟩
      exact (hfound.mem_iff n).2 ⟨hn.1, hn.2.1⟩
    case isFalse =>
      have hq := hqs q List.mem_cons_self cache hfound.sound
      have hmore : Finds ix (fun n => P n ∧ q.Holds ix n)
          (found.inter (q.execute ix cache).1, (q.execute ix cache).2) := by
        refine ⟨fun n => ?_, hq.sound⟩
        rw [DocSet.mem_inter, hfound.mem_iff, hq.mem_iff]
        tauto
      exact (ih (fun r hr => hqs r (List.mem_cons_of_mem _ hr)) hmore).congr fun n => by
        simp [and_assoc]

theorem finds_widen (hqs : ∀ q ∈ qs, q.IsFoundIn ix)
    (hfound : Finds ix P (found, cache)) :
    Finds ix (fun n => P n ∨ ∃ q ∈ qs, q.Holds ix n) (widen ix found qs cache) := by
  induction qs generalizing found cache P with
  | nil =>
    rw [widen]
    exact hfound.congr fun n => by simp
  | cons q rest ih =>
    rw [widen_cons]
    have hq := hqs q List.mem_cons_self cache hfound.sound
    have hmore : Finds ix (fun n => P n ∨ q.Holds ix n)
        (found.union (q.execute ix cache).1, (q.execute ix cache).2) := by
      refine ⟨fun n => ?_, hq.sound⟩
      rw [DocSet.mem_union, hfound.mem_iff, hq.mem_iff]
      tauto
    exact (ih (fun r hr => hqs r (List.mem_cons_of_mem _ hr)) hmore).congr fun n => by
      simp [or_assoc]

theorem finds_without (hqs : ∀ q ∈ qs, q.IsFoundIn ix)
    (hfound : Finds ix P (found, cache)) :
    Finds ix (fun n => P n ∧ ∀ q ∈ qs, ¬ q.Holds ix n) (without ix found qs cache) := by
  induction qs generalizing found cache P with
  | nil =>
    -- The deleted documents come off last; none of them was found.
    rw [without]
    refine ⟨fun n => ?_, hfound.sound⟩
    rw [DocSet.mem_diff, hfound.mem_iff, Index.mem_deleted, Index.mem_live]
    cases ix.isDeleted n <;> simp
  | cons q rest ih =>
    rw [without_cons]
    have hq := hqs q List.mem_cons_self cache hfound.sound
    have hmore : Finds ix (fun n => P n ∧ ¬ q.Holds ix n)
        (found.diff (q.execute ix cache).1, (q.execute ix cache).2) := by
      refine ⟨fun n => ?_, hq.sound⟩
      rw [DocSet.mem_diff, hfound.mem_iff, hq.mem_iff]
      tauto
    exact (ih (fun r hr => hqs r (List.mem_cons_of_mem _ hr)) hmore).congr fun n => by
      simp [and_assoc]

/-- Every query is found, by induction on its tree. -/
theorem finds_execute (q : Node) : q.IsFoundIn ix := by
  induction q with
  | term q => exact fun cache hcache => by rw [execute]; exact q.finds_execute hcache
  | range q => exact fun cache hcache => by rw [execute]; exact q.finds_execute hcache
  | all boost =>
    intro cache hcache
    rw [execute]
    exact (Finds.live hcache).congr fun n => by simp
  | bool must should mustNot ihmust ihshould ihnot =>
    intro cache hcache
    -- What is found first are the documents of the first condition that must hold; without one,
    -- of the first that may hold; without any, all live documents.
    rcases must with _ | ⟨m, must⟩
    · rcases should with _ | ⟨s, should⟩
      · rcases mustNot with _ | ⟨q, mustNot⟩
        · rw [execute]
          exact (Finds.live hcache).congr fun n => by simp [holds_bool]
        · rw [execute]
          exact (finds_without ihnot (Finds.live hcache)).congr
            fun n => by simp [holds_bool]
          exact List.cons_ne_nil _ _
      · rw [execute]
        have hs := ihshould s List.mem_cons_self cache hcache
        have hwiden := finds_widen (fun q hq => ihshould q (List.mem_cons_of_mem _ hq)) hs
        exact (finds_without ihnot hwiden).congr fun n => by
          simp [holds_bool]
    · rw [execute_must rfl]
      have hm := ihmust m List.mem_cons_self cache hcache
      have hnarrow := finds_narrow (fun q hq => ihmust q (List.mem_cons_of_mem _ hq)) hm
      split
      case isTrue hempty =>
        refine ⟨fun n => ?_, hnarrow.sound⟩
        have hnone := mt (hnarrow.mem_iff n).2 (DocSet.isEmpty_iff.1 hempty n)
        rw [holds_bool]
        simp only [List.forall_mem_cons]
        exact ⟨fun h => absurd h DocSet.not_mem_empty, fun h => absurd ⟨h.1, h.2.1⟩ hnone⟩
      case isFalse =>
        exact (finds_without ihnot hnarrow).congr fun n => by
          simp [holds_bool]

/-- With nothing cached before, a query finds the live documents that meet it. -/
theorem mem_find {q : Node} : n ∈ q.find ix ↔ n ∈ ix.live ∧ q.Holds ix n :=
  (q.finds_execute Table.empty Cache.sound_empty).mem_iff n

/-- The documents that queries find, executed one after the other, and the cache afterwards. -/
def executeAll (ix : Index) (cache : Cache) : List Node → List DocSet × Cache
  | [] => ([], cache)
  | q :: rest =>
    let (found, cache) := q.execute ix cache
    let (more, cache) := executeAll ix cache rest
    (found :: more, cache)

theorem forall₂_executeAll (qs : List Node) (hcache : cache.Sound ix) :
    List.Forall₂ (fun q found => ∀ n, n ∈ found ↔ n ∈ ix.live ∧ q.Holds ix n)
      qs (executeAll ix cache qs).1 := by
  induction qs generalizing cache with
  | nil => exact .nil
  | cons q rest ih =>
    have hq := q.finds_execute cache hcache
    exact .cons hq.mem_iff (ih hq.sound)

/-- Whatever was executed before on one cache, empty at first, every query finds the documents
    of the index that are not deleted and meet it. -/
theorem executeAll_finds (ix : Index) (qs : List Node) :
    List.Forall₂
      (fun q found => ∀ n, n ∈ found ↔
        n < ix.size ∧ ix.isDeleted n = false ∧ q.Holds ix n)
      qs (executeAll ix Table.empty qs).1 :=
  List.Forall₂.imp (fun _ _ h n => by rw [h, Index.mem_live, and_assoc])
    (forall₂_executeAll qs Cache.sound_empty)

end Node

end QuantityQuery
