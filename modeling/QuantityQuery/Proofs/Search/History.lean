import Mathlib.Data.List.Induction
import Mathlib.Tactic.TFAE
import QuantityQuery.Proofs.Search.Ranking

/-!
# Histories of an index

What a history of additions and deletions makes of the documents with one identity. Only
the changes about this identity count (`Index.carrying_ofChanges`), every addition leaves a
document behind (`Index.length_carrying`), and a deletion marks the first of them and no
other (`Index.not_deleted_of_mem_tail`).

So an identity whose last change is a deletion is gone, from the live documents as from
all that queries find and list, if it was added once (`Index.gone_tfae`). An identity that
was deleted and added again cannot be deleted a second time
(`Index.readded_not_gone`).

* `Index.carrying`: the documents with an identity;
* `Change.isAddition`: the change adds a document.
-/

namespace QuantityQuery

/-- The identity that a change is about. -/
def Change.id : Change → Nat
  | .add id _ => id
  | .delete id => id

/-- The change adds a document. -/
def Change.isAddition : Change → Bool
  | .add .. => true
  | .delete _ => false

namespace Index

variable {ix : Index} {changes : List Change} {id n : Nat}

/-! ### Documents with one identity -/

/-- The documents with an identity, deleted ones included. -/
def carrying (ix : Index) (id : Nat) : List Document := ix.documents.filter (·.id = id)

theorem id_of_mem_carrying {d : Document} (h : d ∈ ix.carrying id) : d.id = id :=
  of_decide_eq_true (List.mem_filter.1 h).2

theorem filter_deleteFirst (k id : Nat) (docs : List Document) :
    (deleteFirst k docs).filter (·.id = id) =
      if k = id then deleteFirst k (docs.filter (·.id = id)) else docs.filter (·.id = id) := by
  induction docs with
  | nil => simp [deleteFirst]
  | cons d rest ih =>
    by_cases hk : d.id = k <;> by_cases hid : d.id = id <;> by_cases hkid : k = id <;>
      simp_all [deleteFirst]

/-- A change about another identity leaves the documents with an identity as they are; a change
    about it does to them what it does to an index of just these. -/
theorem carrying_change (ix : Index) (ch : Change) (id : Nat) :
    (ix.change ch).carrying id =
      if ch.id = id then ((⟨ix.carrying id⟩ : Index).change ch).documents else ix.carrying id := by
  cases ch with
  | add k values =>
    by_cases h : k = id <;> simp [carrying, change, Change.id, List.filter_append, h]
  | delete k => exact filter_deleteFirst k id ix.documents

/-- The documents with an identity are those of the history of this identity. -/
theorem carrying_ofChanges (changes : List Change) (id : Nat) :
    (ofChanges changes).carrying id = (ofChanges (changes.filter (·.id = id))).documents := by
  induction changes using List.reverseRecOn with
  | nil => rfl
  | append_singleton changes ch ih =>
    rw [ofChanges_concat, carrying_change, List.filter_append, ih]
    by_cases h : ch.id = id
    · rw [if_pos h, List.filter_singleton, decide_eq_true h]
      exact (congrArg documents (ofChanges_concat _ ch)).symm
    · simp [h]

@[simp] theorem length_deleteFirst (id : Nat) (docs : List Document) :
    (deleteFirst id docs).length = docs.length := by
  induction docs with
  | nil => rfl
  | cons d rest ih =>
    rw [deleteFirst]
    split <;> simp [ih]

theorem length_documents_ofChanges (changes : List Change) :
    (ofChanges changes).documents.length = changes.countP (·.isAddition) := by
  induction changes using List.reverseRecOn with
  | nil => rfl
  | append_singleton changes ch ih =>
    rw [ofChanges_concat, List.countP_append, ← ih]
    cases ch <;> simp [change, Change.isAddition]

/-- Every addition of an identity leaves a document with it. -/
theorem length_carrying (changes : List Change) (id : Nat) :
    ((ofChanges changes).carrying id).length =
      changes.countP fun ch => ch.isAddition && ch.id = id := by
  rw [carrying_ofChanges, length_documents_ofChanges, List.countP_filter]

/-! ### Deleted documents -/

theorem tail_deleteFirst {docs : List Document} (h : ∀ d ∈ docs, d.id = id) :
    (deleteFirst id docs).tail = docs.tail := by
  cases docs with
  | nil => rfl
  | cons d rest => rw [deleteFirst, if_pos (h d List.mem_cons_self)]; rfl

/-- Of the documents with an identity only the first is ever deleted. -/
theorem not_deleted_of_mem_tail (changes : List Change) (id : Nat) :
    ∀ d ∈ ((ofChanges changes).carrying id).tail, d.deleted = false := by
  induction changes using List.reverseRecOn with
  | nil => exact fun _ h => absurd h List.not_mem_nil
  | append_singleton changes ch ih =>
    rw [ofChanges_concat, carrying_change]
    split
    case isFalse => exact ih
    case isTrue h =>
      cases ch with
      | add k values =>
        -- The new document comes last, and is not deleted.
        cases hdocs : (ofChanges changes).carrying id with
        | nil => exact fun _ h => absurd h List.not_mem_nil
        | cons d rest =>
          rw [hdocs] at ih
          exact List.forall_mem_append.2 ⟨ih, List.forall_mem_singleton.2 rfl⟩
      | delete k =>
        obtain rfl : k = id := h
        rw [change, tail_deleteFirst fun d => id_of_mem_carrying]
        exact ih

/-- A deletion marks the first document with the identity. -/
theorem deleted_of_mem_head? (hlast : (changes.filter (·.id = id)).getLast? = some (.delete id)) :
    ∀ d ∈ ((ofChanges changes).carrying id).head?, d.deleted = true := by
  obtain ⟨earlier, hearlier⟩ := List.getLast?_eq_some_iff.1 hlast
  have hdocs : (ofChanges changes).carrying id = deleteFirst id (ofChanges earlier).documents := by
    rw [carrying_ofChanges, hearlier, ofChanges_concat, change]
  have hids : ∀ d ∈ deleteFirst id (ofChanges earlier).documents, d.id = id :=
    hdocs ▸ fun d => id_of_mem_carrying
  rw [hdocs]
  cases hearlier : (ofChanges earlier).documents with
  | nil => exact fun _ h => absurd h (Option.not_mem_none _)
  | cons d rest =>
    rw [hearlier, deleteFirst] at hids
    rw [deleteFirst]
    split at hids
    case isTrue h =>
      intro d' hd'
      rw [if_pos h] at hd'
      exact Option.some.inj hd' ▸ rfl
    case isFalse h => exact absurd (hids d List.mem_cons_self) h

/-- After the deletion of an identity, the live documents with it are those after the first. -/
theorem filter_live_carrying
    (hlast : (changes.filter (·.id = id)).getLast? = some (.delete id)) :
    ((ofChanges changes).carrying id).filter (!·.deleted) =
      ((ofChanges changes).carrying id).tail := by
  have hhead := deleted_of_mem_head? hlast
  have htail := not_deleted_of_mem_tail changes id
  cases hdocs : (ofChanges changes).carrying id with
  | nil => rfl
  | cons d rest =>
    rw [hdocs] at hhead htail
    rw [List.filter_cons_of_neg (by simp [hhead d rfl]), List.tail_cons, List.filter_eq_self]
    exact fun d hd => by rw [htail d hd]; rfl

/-! ### Live documents -/

theorem mem_live_iff_getElem? : n ∈ ix.live ↔ ∃ d ∈ ix.documents[n]?, d.deleted = false := by
  rw [mem_live, isDeleted, size]
  cases h : ix.documents[n]? with
  | none => simpa using List.getElem?_eq_none_iff.1 h
  | some d => simpa using fun _ => (List.getElem?_eq_some_iff.1 h).1

/-- Some live document has an identity, by its number or among those that have it. -/
theorem exists_live_iff :
    (∃ n ∈ ix.live, ix.id? n = some id) ↔ ∃ d ∈ ix.carrying id, d.deleted = false := by
  constructor
  · rintro ⟨n, hn, hid⟩
    obtain ⟨d, hd, hlive⟩ := mem_live_iff_getElem?.1 hn
    rw [id?, Option.mem_def.1 hd] at hid
    have hcarries : d ∈ ix.carrying id :=
      List.mem_filter.2 ⟨List.mem_of_getElem? hd, by simpa using hid⟩
    exact ⟨d, hcarries, hlive⟩
  · rintro ⟨d, hd, hlive⟩
    obtain ⟨n, hn⟩ := List.mem_iff_getElem?.1 (List.mem_filter.1 hd).1
    refine ⟨n, mem_live_iff_getElem?.2 ⟨d, hn, hlive⟩, ?_⟩
    rw [id?, hn, Option.map_some, id_of_mem_carrying hd]

end Index

/-! ### Found and listed documents -/

namespace Node

variable {ix : Index} {q : Node} {n : Nat}

/-- The executions of a list of queries leave a sound cache. -/
theorem sound_executeAll {cache : Cache} (qs : List Node) (hcache : cache.Sound ix) :
    (executeAll ix cache qs).2.Sound ix := by
  induction qs generalizing cache with
  | nil => exact hcache
  | cons q rest ih => exact ih (q.finds_execute cache hcache).sound

/-- Whatever was executed before, what a query finds is live. -/
theorem mem_live_of_mem_execute {qs : List Node}
    (h : n ∈ (q.execute ix (executeAll ix Table.empty qs).2).1) : n ∈ ix.live :=
  (((q.finds_execute _ (sound_executeAll qs Cache.sound_empty)).mem_iff n).1 h).1

variable {cache : Cache}

/-- What a search lists was found. -/
theorem exists_mem_execute_of_mem_hits {count : Nat} {results : Results} {hit : Hit}
    (hresults : results ∈ (q.search ix count cache).1) (h : hit ∈ results.hits) :
    ∃ n ∈ (q.execute ix cache).1, hit.id = (ix.id? n).getD n := by
  obtain ⟨order, hperm, -, hbest⟩ := exists_order ix q (q.execute ix cache).1
  obtain ⟨best, hlisted, rfl⟩ := Option.map_eq_some_iff.1 hresults
  rw [hbest, Option.ite_none_left_eq_some] at hlisted
  obtain ⟨-, ⟨⟩⟩ := hlisted
  obtain ⟨listed, hlisted, rfl⟩ := List.mem_map.1 h
  obtain ⟨n, hn, rfl⟩ := List.mem_map.1 hlisted
  exact ⟨n, hperm.mem_iff.1 (List.mem_of_mem_take hn), rfl⟩

/-- A search that does not rank the documents, and may list as many as are found, lists all of
    them. -/
theorem exists_mem_hits (hq : ¬ q.isScoring) (hn : n ∈ (q.execute ix cache).1) :
    ∃ results ∈ (q.search ix (q.execute ix cache).1.size cache).1, ∃ hit ∈ results.hits,
      hit.id = (ix.id? n).getD n := by
  let found := (q.execute ix cache).1
  have hbest : q.best? ix found.size found = some (found.docs.map (q.entry ix)) := by
    rw [best?_of_not_isScoring hq, DocSet.size, List.take_length]
  exact ⟨_, Option.mem_map_of_mem _ hbest, toHit ix (q.entry ix n),
    List.mem_map_of_mem (List.mem_map_of_mem hn), rfl⟩

end Node

namespace Index

variable {ix : Index} {changes : List Change} {id n : Nat}

theorem getD_id?_of_mem_live (h : n ∈ ix.live) : ix.id? n = some ((ix.id? n).getD n) := by
  obtain ⟨d, hd, _⟩ := mem_live_iff_getElem?.1 h
  rw [id?, Option.mem_def.1 hd, Option.map_some, Option.getD_some]

/-- After the deletion of an identity no live document has it exactly if it was added once at
    most. -/
theorem gone_iff (hlast : (changes.filter (·.id = id)).getLast? = some (.delete id)) :
    (∀ n ∈ (ofChanges changes).live, (ofChanges changes).id? n ≠ some id) ↔
      changes.countP (fun ch => ch.isAddition && ch.id = id) ≤ 1 := by
  have hlive : (∃ n ∈ (ofChanges changes).live, (ofChanges changes).id? n = some id) ↔
      0 < ((ofChanges changes).carrying id).tail.length := by
    rw [exists_live_iff, ← filter_live_carrying hlast, List.length_pos_iff_exists_mem]
    simp
  rw [← length_carrying, ← not_iff_not]
  push Not
  rw [hlive, List.length_tail]
  omega

/-- Where the last change about an identity deletes it, these are the same: it was added once at
    most; no live document has it; no query finds a document with it; no list of hits has it. What
    was executed before does not matter. -/
theorem gone_tfae (hlast : (changes.filter (·.id = id)).getLast? = some (.delete id)) :
    let ix := ofChanges changes
    [changes.countP (fun ch => ch.isAddition && ch.id = id) ≤ 1,
      ∀ n ∈ ix.live, ix.id? n ≠ some id,
      ∀ (qs : List Node) (q : Node), ∀ n ∈ (q.execute ix (Node.executeAll ix Table.empty qs).2).1,
        ix.id? n ≠ some id,
      ∀ (qs : List Node) (q : Node) (count : Nat),
        ∀ results ∈ (q.search ix count (Node.executeAll ix Table.empty qs).2).1,
          ∀ hit ∈ results.hits, hit.id ≠ id].TFAE := by
  intro ix
  tfae_have 1 ↔ 2 := (gone_iff hlast).symm
  tfae_have 2 → 3 := fun hgone _ _ n hn => hgone n (Node.mem_live_of_mem_execute hn)
  tfae_have 3 → 4 := by
    intro hgone qs q count results hresults hit hhit hid
    obtain ⟨n, hn, hnumber⟩ := Node.exists_mem_execute_of_mem_hits hresults hhit
    refine hgone qs q n hn ?_
    rw [getD_id?_of_mem_live (Node.mem_live_of_mem_execute hn), ← hnumber, hid]
  tfae_have 4 → 2 := by
    -- A search for all documents lists every live one.
    intro hgone n hn hid
    have hfound : n ∈ ((Node.all 1).execute ix Table.empty).1 := by rwa [Node.execute]
    have hscoring : ¬ (Node.all 1).isScoring := Bool.false_ne_true
    obtain ⟨results, hresults, hit, hhit, hnumber⟩ := Node.exists_mem_hits hscoring hfound
    refine hgone [] (.all 1) _ results hresults hit hhit ?_
    rw [hnumber, hid, Option.getD_some]
  tfae_finish

theorem gone_tfae_single :
    let changes : List Change :=
      [.add 1 [("size", .ofInt 42)], .add 2 [("size", .ofInt 43)], .delete 1]
    let ix := ofChanges changes
    (changes.filter (·.id = 1)).getLast? = some (.delete 1) ∧
      changes.countP (fun ch => ch.isAddition && ch.id = 1) ≤ 1 ∧
      ∀ (qs : List Node) (q : Node) (count : Nat),
        ∀ results ∈ (q.search ix count (Node.executeAll ix Table.empty qs).2).1,
          ∀ hit ∈ results.hits, hit.id ≠ 1 := by
  intro changes ix
  have hlast : (changes.filter (·.id = 1)).getLast? = some (.delete 1) := rfl
  have honce : changes.countP (fun ch => ch.isAddition && ch.id = 1) ≤ 1 := by decide
  exact ⟨hlast, honce, ((gone_tfae hlast).out 0 3).1 honce⟩

/-- A document that is added after the deletion of its identity stays when the identity is deleted
    again: it is live and is found and listed. -/
theorem readded_not_gone :
    let changes : List Change :=
      [.add 1 [("size", .ofInt 42)], .delete 1, .add 1 [("size", .ofInt 43)], .delete 1]
    let ix := ofChanges changes
    (changes.filter (·.id = 1)).getLast? = some (.delete 1) ∧
      ix.live.docs = [1] ∧ ix.id? 1 = some 1 ∧
      ((Node.all 1).search ix 10 Table.empty).1 = some ⟨1, [⟨1, 1⟩]⟩ :=
  ⟨rfl, by decide +kernel, rfl, by decide +kernel⟩

end Index

end QuantityQuery
