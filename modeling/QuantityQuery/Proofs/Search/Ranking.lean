import Mathlib.Data.List.Induction
import Mathlib.Data.List.Pairwise
import Mathlib.Data.List.Sort
import Mathlib.Data.Prod.Lex
import QuantityQuery.Proofs.Number.Sum
import QuantityQuery.Proofs.Query.Boost
import QuantityQuery.Proofs.Search.Score
import QuantityQuery.Search.Ranking

/-!
# What a search lists

Keeping no more documents than are asked for loses none that is to be listed: at every
moment those that were dropped rank after those that are kept (`Ranked.Selects`), so at the
end the documents that are kept are the first of all in the order of the ranking
(`Ranked.Comparable.sort_foldl_keep`). The order is one of the found documents alone,
whatever their scores and however many of them are asked for. So a search lists the first
of them, unless they are to be ranked and there is no room for as many as are asked for
(`Node.search_eq_take`): then it comes to nothing, even if it finds a single document
(`Node.no_hits_without_room`).

* `Ranked.key`: the place of a document in the ranking;
* `Ranked.Comparable`: scores that put the documents in an order;
* `Node.rankScore`: the score that a search lists a document with.
-/

namespace QuantityQuery

namespace Ranked

theorem before_iff {a b : Ranked} : a.before b ↔
    b.score.lt a.score ∨ a.score.lt b.score = false ∧ a.number < b.number := by
  simp only [before, Bool.or_eq_true, Bool.and_eq_true, Bool.not_eq_true', decide_eq_true_eq]

theorem before_asymm {a b : Ranked} (h : a.before b) : ¬ b.before a := by
  intro h'
  rw [before_iff] at h h'
  rcases h with h | ⟨hscore, hnumber⟩
  · rcases h' with h' | ⟨hscore', -⟩
    · exact Bool.false_ne_true ((Binary.lt_asymm h).symm.trans h')
    · exact Bool.false_ne_true (hscore'.symm.trans h)
  · rcases h' with h' | ⟨-, hnumber'⟩
    · exact Bool.false_ne_true (hscore.symm.trans h')
    · exact absurd hnumber' hnumber.not_gt

/-- The place of a document in the ranking: the higher its score, and then the smaller its number,
    the earlier. -/
def key (a : Ranked) : Int ×ₗ Nat := toLex (-(a.score.order.getD 0), a.number)

theorem number_eq_of_key_eq {a b : Ranked} (h : a.key = b.key) : a.number = b.number :=
  congrArg (fun k => (ofLex k).2) h

/-- Scores that put documents in an order. What is no number has no place on the line; beside it
    only zeros are admitted. -/
def Comparable (ds : List Ranked) : Prop :=
  (∀ a ∈ ds, a.score.order.isSome) ∨ ∀ a ∈ ds, a.score.order.getD 0 = 0

variable {ds : List Ranked} {a b d : Ranked}

theorem Comparable.subset {es : List Ranked} (h : Comparable ds) (hsub : es ⊆ ds) :
    Comparable es :=
  h.imp (fun h a ha => h a (hsub ha)) fun h a ha => h a (hsub ha)

theorem Comparable.lt_iff (h : Comparable ds) (ha : a ∈ ds) (hb : b ∈ ds) :
    a.score.lt b.score ↔ a.score.order.getD 0 < b.score.order.getD 0 := by
  rw [Binary.lt_iff]
  rcases h with h | h
  · obtain ⟨i, hi⟩ := Option.isSome_iff_exists.1 (h a ha)
    obtain ⟨j, hj⟩ := Option.isSome_iff_exists.1 (h b hb)
    simp [hi, hj]
  · -- No document stands before another one.
    rw [h a ha, h b hb]
    constructor
    · rintro ⟨i, hi, j, hj, hlt⟩
      have h₁ := h a ha
      have h₂ := h b hb
      rw [hi, Option.getD_some] at h₁
      rw [hj, Option.getD_some] at h₂
      omega
    · exact fun hlt => absurd hlt (lt_irrefl 0)

theorem Comparable.before_iff_key_lt (h : Comparable ds) (ha : a ∈ ds) (hb : b ∈ ds) :
    a.before b ↔ a.key < b.key := by
  rw [before_iff, ← Bool.not_eq_true, h.lt_iff ha hb, h.lt_iff hb ha, key, key,
    Prod.Lex.toLex_lt_toLex]
  omega

/-! ### The last document -/

theorem later_eq_or (a b : Ranked) : later a b = a ∨ later a b = b := by
  rw [later]
  split
  · exact .inr rfl
  · exact .inl rfl

theorem last_mem (d : Ranked) (others : List Ranked) : last d others ∈ d :: others := by
  induction others generalizing d with
  | nil => exact List.mem_cons_self
  | cons e rest ih =>
    rcases List.mem_cons.1 (ih (later d e)) with h | h
    · rcases later_eq_or d e with he | he
      · exact List.mem_cons.2 (.inl (h.trans he))
      · exact List.mem_cons_of_mem _ (List.mem_cons.2 (.inl (h.trans he)))
    · exact List.mem_cons_of_mem _ (List.mem_cons_of_mem _ h)

theorem Comparable.key_later (h : Comparable ds) (ha : a ∈ ds) (hb : b ∈ ds) :
    (later a b).key = max a.key b.key := by
  rw [later]
  split
  case isTrue hbefore => exact (max_eq_right ((h.before_iff_key_lt ha hb).1 hbefore).le).symm
  case isFalse hbefore =>
    exact (max_eq_left (not_lt.1 (mt (h.before_iff_key_lt ha hb).2 hbefore))).symm

/-- No document ranks after the last one. -/
theorem Comparable.key_le_last {others : List Ranked} (h : Comparable (d :: others)) :
    ∀ a ∈ d :: others, a.key ≤ (last d others).key := by
  induction others generalizing d with
  | nil => exact List.forall_mem_singleton.2 le_rfl
  | cons e rest ih =>
    have he : e ∈ d :: e :: rest := List.mem_cons_of_mem _ List.mem_cons_self
    have hkey := h.key_later List.mem_cons_self he
    have hsub : later d e :: rest ⊆ d :: e :: rest := by
      intro a ha
      rcases List.mem_cons.1 ha with rfl | ha
      · rcases later_eq_or d e with h | h <;> rw [h]
        · exact List.mem_cons_self
        · exact he
      · exact List.mem_cons_of_mem _ (List.mem_cons_of_mem _ ha)
    obtain ⟨hlater, hrest⟩ := List.forall_mem_cons.1 (ih (h.subset hsub))
    rw [hkey] at hlater
    exact List.forall_mem_cons.2 ⟨(le_max_left ..).trans hlater,
      List.forall_mem_cons.2 ⟨(le_max_right ..).trans hlater, hrest⟩⟩

/-! ### The documents that are kept -/

/-- Of the documents that were seen, at most `count` are kept, and fewer only if none was dropped;
    those that were dropped do not rank before those that are kept. -/
structure Selects (count : Nat) (seen kept dropped : List Ranked) : Prop where
  perm : seen.Perm (kept ++ dropped)
  length_le : kept.length ≤ count
  length_eq : dropped ≠ [] → kept.length = count
  key_le : ∀ a ∈ kept, ∀ b ∈ dropped, a.key ≤ b.key

/-- One more document is seen. -/
theorem Selects.keep {count : Nat} {seen kept dropped : List Ranked}
    (h : Selects count seen kept dropped) (hd : Comparable (seen ++ [d])) :
    ∃ dropped, Selects count (seen ++ [d]) (keep count kept d) dropped := by
  have hperm : (seen ++ [d]).Perm (d :: kept ++ dropped) :=
    (List.perm_append_singleton d seen).trans (h.perm.cons d)
  rw [Ranked.keep]
  split
  case isTrue hlt =>
    -- There is room for the document, so none was dropped before.
    obtain rfl : dropped = [] := by
      by_contra hne
      exact absurd (h.length_eq hne) (Nat.ne_of_lt hlt)
    exact ⟨[], hperm, hlt, fun hne => absurd rfl hne, fun _ _ _ hb => nomatch hb⟩
  case isFalse hge =>
    have hlast : last d kept ∈ d :: kept := last_mem d kept
    have hsub : d :: kept ⊆ seen ++ [d] := fun a ha => hperm.mem_iff.2 (List.mem_append_left _ ha)
    have hle := (hd.subset hsub).key_le_last
    refine ⟨last d kept :: dropped, ?_, ?_, ?_, ?_⟩
    · have herase : (d :: kept ++ dropped).Perm
          (last d kept :: (d :: kept).erase (last d kept) ++ dropped) :=
        (List.perm_cons_erase hlast).append_right dropped
      exact hperm.trans (herase.trans List.perm_middle.symm)
    · rw [List.length_erase_of_mem hlast, List.length_cons]
      exact h.length_le
    · intro _
      rw [List.length_erase_of_mem hlast, List.length_cons]
      exact Nat.le_antisymm h.length_le (Nat.le_of_not_lt hge)
    · -- The last document is one of those that are kept, or the new one.
      intro a ha b hb
      have hak : a ∈ d :: kept := List.mem_of_mem_erase ha
      rcases List.mem_cons.1 hb with rfl | hb
      · exact hle a hak
      · rcases List.mem_cons.1 hlast with hnew | hkept
        · rw [hnew, List.erase_cons_head] at ha
          exact h.key_le a ha b hb
        · exact (hle a hak).trans (h.key_le _ hkept b hb)

/-- All documents are seen, one after the other. -/
theorem Comparable.selects (count : Nat) (h : Comparable ds) :
    ∃ dropped, Selects count ds (ds.foldl (Ranked.keep count) []) dropped := by
  induction ds using List.reverseRecOn with
  | nil => exact ⟨[], .nil, Nat.zero_le _, fun hne => absurd rfl hne, nofun⟩
  | append_singleton seen d ih =>
    obtain ⟨dropped, hseen⟩ := ih (h.subset (List.subset_append_left _ _))
    rw [List.foldl_concat]
    exact hseen.keep h

/-! ### The order of the ranking -/

theorem Comparable.pairwise_sort (h : Comparable ds) :
    (sort ds).Pairwise fun a b => a.key ≤ b.key := by
  have hsort : sort ds = ds.mergeSort fun a b => decide (a.key ≤ b.key) := by
    -- Among the documents of `ds` the two orders are the same.
    have hmap := List.map_mergeSort (f := id) (r := fun a b => !before b a)
      (s := fun a b => decide (a.key ≤ b.key)) (l := ds) fun a ha b hb => by
        simp [← not_lt, ← h.before_iff_key_lt hb ha]
    rwa [List.map_id, List.map_id] at hmap
  have htrans : ∀ a b c : Ranked, decide (a.key ≤ b.key) → decide (b.key ≤ c.key) →
      decide (a.key ≤ c.key) := by
    simp only [decide_eq_true_eq]
    exact fun a b c => le_trans
  have htotal : ∀ a b : Ranked, decide (a.key ≤ b.key) || decide (b.key ≤ a.key) := by
    simp only [Bool.or_eq_true, decide_eq_true_eq]
    exact fun a b => le_total _ _
  rw [hsort]
  exact (List.pairwise_mergeSort htrans htotal ds).imp of_decide_eq_true

theorem perm_sort (ds : List Ranked) : (sort ds).Perm ds := List.mergeSort_perm ..

/-- No two documents stand at one place. -/
theorem Comparable.pairwise_before (h : Comparable ds) (hnumbers : (ds.map number).Nodup) :
    (sort ds).Pairwise fun a b => a.before b := by
  have hdistinct : (sort ds).Pairwise fun a b => a.number ≠ b.number :=
    List.pairwise_map.1 (((perm_sort ds).map number).nodup_iff.2 hnumbers)
  refine (h.pairwise_sort.and hdistinct).imp_of_mem fun ha hb hab => ?_
  refine (h.before_iff_key_lt ((perm_sort ds).mem_iff.1 ha) ((perm_sort ds).mem_iff.1 hb)).2 ?_
  exact lt_of_le_of_ne hab.1 fun hkey => hab.2 (number_eq_of_key_eq hkey)

/-- What is kept at the end are the first documents of all. -/
theorem Comparable.sort_foldl_keep (count : Nat) (h : Comparable ds)
    (hnumbers : (ds.map number).Nodup) :
    sort (ds.foldl (Ranked.keep count) []) = (sort ds).take count := by
  obtain ⟨dropped, hselects⟩ := h.selects count
  let kept := ds.foldl (Ranked.keep count) []
  have hkept : kept ⊆ ds := fun a ha => hselects.perm.mem_iff.2 (List.mem_append_left _ ha)
  have hdropped : dropped ⊆ ds := fun a ha => hselects.perm.mem_iff.2 (List.mem_append_right _ ha)
  -- The documents that are kept and then those that were dropped are all of them in order.
  have hsorted : (sort kept ++ sort dropped).Pairwise fun a b => a.key ≤ b.key := by
    refine List.pairwise_append.2
      ⟨(h.subset hkept).pairwise_sort, (h.subset hdropped).pairwise_sort, fun a ha b hb => ?_⟩
    exact hselects.key_le a ((perm_sort kept).mem_iff.1 ha) b ((perm_sort dropped).mem_iff.1 hb)
  have hperm : (sort ds).Perm (sort kept ++ sort dropped) :=
    ((perm_sort ds).trans hselects.perm).trans ((perm_sort kept).append (perm_sort dropped)).symm
  have hsplit : sort ds = sort kept ++ sort dropped := by
    refine hperm.eq_of_pairwise (fun a b ha hb hab hba => ?_) h.pairwise_sort hsorted
    refine List.inj_on_of_nodup_map hnumbers ((perm_sort ds).mem_iff.1 ha) ?_
      (number_eq_of_key_eq (le_antisymm hab hba))
    exact (perm_sort ds).mem_iff.1 (hperm.mem_iff.2 hb)
  have hlength : (sort kept).length = kept.length := (perm_sort kept).length_eq
  rw [hsplit]
  by_cases hnone : dropped = []
  · rw [hnone, show sort [] = [] from List.mergeSort_nil, List.append_nil,
      List.take_of_length_le (hlength.trans_le hselects.length_le)]
  · rw [List.take_left' (hlength.trans (hselects.length_eq hnone))]

end Ranked

namespace Node

variable {ix : Index} {q : Node} {found : DocSet} {n : Nat}

/-- The score that a search lists a document with: without a score it is `0`, and where documents
    are not ranked by the query it is `1`. -/
def rankScore (ix : Index) (q : Node) (n : Nat) : Single :=
  if q.isScoring then (q.score? ix n).getD 0 else 1

/-- A document with the score that it is listed with. -/
def entry (ix : Index) (q : Node) (n : Nat) : Ranked := ⟨n, q.rankScore ix n⟩

@[simp] theorem entry_number : (q.entry ix n).number = n := rfl

@[simp] theorem entry_score : (q.entry ix n).score = q.rankScore ix n := rfl

theorem entry_of_isScoring (hq : q.isScoring) : q.entry ix = q.scored ix := by
  funext n
  rw [entry, rankScore, if_pos hq, scored]

theorem entry_of_not_isScoring (hq : ¬ q.isScoring) : q.entry ix n = ⟨n, 1⟩ := by
  rw [entry, rankScore, if_neg hq]

/-- Documents that a query ranks are put in an order by it. Only a single term can give what is no
    number as a score, and it gives no other score. -/
theorem comparable_scored (hq : q.isScoring) (docs : List Nat) :
    Ranked.Comparable (docs.map (q.scored ix)) := by
  have hzero : (0 : Single).order = some 0 := Binary.order_zero
  cases q with
  | term q =>
    have hscore : ∀ n, (Node.term q).score? ix n = none ∨
        (Node.term q).score? ix n = some q.boost := by
      intro n
      rw [score?]
      split
      · exact .inr rfl
      · exact .inl rfl
    cases hboost : q.boost.order with
    | none =>
      refine .inr (List.forall_mem_map.2 fun n _ => ?_)
      rcases hscore n with h | h <;> simp [scored, h, hboost, hzero]
    | some i =>
      refine .inl (List.forall_mem_map.2 fun n _ => ?_)
      rcases hscore n with h | h <;> simp [scored, h, hboost, hzero]
  | range q => cases hq
  | all boost => cases hq
  | bool must should mustNot =>
    refine .inl (List.forall_mem_map.2 fun n _ => ?_)
    rw [scored, score?_bool]
    split
    · next hpos =>
      obtain ⟨_, _, j, hj, _⟩ := Binary.lt_iff.1 hpos
      rw [Option.getD_some, hj]
      rfl
    · rw [Option.getD_none, hzero]
      rfl

theorem nodup_docs (found : DocSet) : found.docs.Nodup := found.ascending.imp Nat.ne_of_lt

/-- No more documents are found than there are. -/
theorem size_find_le (ix : Index) (q : Node) : (q.find ix).size ≤ ix.size := by
  have hsub : (q.find ix).docs ⊆ List.range ix.size := fun n hn =>
    List.mem_range.2 (Index.mem_live.1 (mem_find.1 hn).1).1
  exact (List.subperm_of_subset (nodup_docs _) hsub).length_le.trans_eq List.length_range

theorem map_number_scored (docs : List Nat) :
    (docs.map (q.scored ix)).map Ranked.number = docs := by
  simp [scored, Function.comp_def]

theorem nodup_scored (found : DocSet) :
    ((found.docs.map (q.scored ix)).map Ranked.number).Nodup := by
  rw [map_number_scored]
  exact nodup_docs found

/-- To rank documents there must be room. Where there is, the best are the first in the order of the
    ranking. -/
theorem best?_of_isScoring (hq : q.isScoring) (count : Nat) :
    q.best? ix count found =
      if found.docs ≠ [] ∧ Ranked.room ≤ count then none
      else some ((Ranked.sort (found.docs.map (q.scored ix))).take count) := by
  have hds : Ranked.Comparable (found.docs.map (q.scored ix)) := comparable_scored hq found.docs
  have hkept := hds.sort_foldl_keep count (nodup_scored found)
  rw [best?, if_pos hq]
  split
  case isTrue hnone =>
    rcases hnone with hdocs | rfl
    · simp [hdocs, Ranked.sort]
    · simp [Ranked.room]
  case isFalse hsome =>
    rw [not_or] at hsome
    rw [hkept]
    exact if_congr (Nat.lt_succ_iff.trans (and_iff_right hsome.1).symm) rfl rfl

theorem best?_of_not_isScoring (hq : ¬ q.isScoring) (count : Nat) :
    q.best? ix count found = some ((found.docs.take count).map (q.entry ix)) := by
  rw [best?, if_neg hq]
  exact congrArg some (List.map_congr_left fun n _ => (entry_of_not_isScoring hq).symm)

/-- The best documents, where there is room for them, are the first in an order of the found ones
    that does not depend on how many are asked for. -/
theorem exists_order (ix : Index) (q : Node) (found : DocSet) :
    ∃ order : List Nat, order.Perm found.docs ∧
      order.Pairwise (fun m n => (q.entry ix m).before (q.entry ix n)) ∧
      ∀ count, q.best? ix count found =
        if q.isScoring ∧ found.docs ≠ [] ∧ Ranked.room ≤ count then none
        else some ((order.take count).map (q.entry ix)) := by
  by_cases hq : q.isScoring
  case pos =>
    let ds := found.docs.map (q.scored ix)
    have hds : Ranked.Comparable ds := comparable_scored hq found.docs
    have hnumbers : ds.map Ranked.number = found.docs := map_number_scored found.docs
    have hperm : (Ranked.sort ds).Perm ds := Ranked.perm_sort ds
    -- The documents of the ranking are listed with their scores.
    have hentry : ∀ a ∈ ds, q.entry ix a.number = a :=
      List.forall_mem_map.2 fun n _ => congrFun (entry_of_isScoring hq) n
    refine ⟨(Ranked.sort ds).map Ranked.number, hnumbers ▸ hperm.map Ranked.number, ?_,
      fun count => ?_⟩
    · refine List.pairwise_map.2 ((hds.pairwise_before (nodup_scored found)).imp_of_mem
        fun ha hb hbefore => ?_)
      rwa [hentry _ (hperm.mem_iff.1 ha), hentry _ (hperm.mem_iff.1 hb)]
    · have hmap : ((Ranked.sort ds).take count).map (q.entry ix ∘ Ranked.number) =
          ((Ranked.sort ds).take count).map id :=
        List.map_congr_left fun a ha => hentry a (hperm.mem_iff.1 (List.mem_of_mem_take ha))
      rw [best?_of_isScoring hq, ← List.map_take, List.map_map, hmap, List.map_id]
      exact if_congr (by simp [hq]) rfl rfl
  case neg =>
    refine ⟨found.docs, .refl _, ?_, fun count => ?_⟩
    · refine found.ascending.imp fun hlt => ?_
      simp [Ranked.before, entry_of_not_isScoring hq, hlt]
    · rw [best?_of_not_isScoring hq, if_neg fun hall => hq hall.1]

section Pairwise

variable {P Q : Nat → Prop} {listed : List Ranked}

/-- Documents with one property are listed after all with another, however many are listed, if any
    of the latter ranks before any of the former. -/
theorem pairwise_best (h : ∀ m ∈ found, ∀ n ∈ found, P m → Q n →
    (q.entry ix n).before (q.entry ix m)) {count : Nat}
    (hlisted : listed ∈ q.best? ix count found) :
    listed.Pairwise fun a b => P a.number → ¬ Q b.number := by
  obtain ⟨order, hperm, hpairwise, hbest⟩ := exists_order ix q found
  rw [hbest] at hlisted
  obtain ⟨-, rfl⟩ : _ ∧ (order.take count).map (q.entry ix) = listed := by
    simpa only [Option.mem_def, Option.ite_none_left_eq_some, Option.some.injEq] using hlisted
  rw [List.pairwise_map]
  refine (hpairwise.sublist (List.take_sublist _ _)).imp_of_mem fun ha hb hrank hP hQ => ?_
  have hmem := fun {n} (hn : n ∈ order.take count) => hperm.mem_iff.1 (List.mem_of_mem_take hn)
  exact Ranked.before_asymm hrank (h _ (hmem ha) _ (hmem hb) hP hQ)

/-- If there is room for all documents, they are listed so only if they are ranked so. -/
theorem before_of_pairwise_best (hPQ : ∀ n, P n → ¬ Q n) (hroom : found.size < Ranked.room)
    (h : ∀ count, ∀ listed ∈ q.best? ix count found,
      listed.Pairwise fun a b => P a.number → ¬ Q b.number) :
    ∀ m ∈ found, ∀ n ∈ found, P m → Q n → (q.entry ix n).before (q.entry ix m) := by
  obtain ⟨order, hperm, hpairwise, hbest⟩ := exists_order ix q found
  intro m hm n hn hP hQ
  have hall := h found.size _ <| (hbest _).trans <|
    if_neg fun hnone => (Nat.not_le_of_lt hroom) hnone.2.2
  rw [DocSet.size, ← hperm.length_eq, List.take_length, List.pairwise_map] at hall
  -- One of the two documents comes before the other in the order.
  let S : Nat → Nat → Prop := fun a b =>
    (P a → ¬ Q b) ∧ (q.entry ix a).before (q.entry ix b)
  have hsymm : Std.Symm fun a b => S a b ∨ S b a := ⟨fun _ _ => Or.symm⟩
  have hboth : order.Pairwise fun a b => S a b ∨ S b a := (hall.and hpairwise).imp .inl
  have hmn : m ≠ n := fun heq => hPQ m hP (heq ▸ hQ)
  rcases hboth.forall (hperm.mem_iff.2 hm) (hperm.mem_iff.2 hn) hmn with
    ⟨hnot, -⟩ | ⟨-, hrank⟩
  · exact absurd hQ (hnot hP)
  · exact hrank

end Pairwise

/-- Where the boost at the root of a tree is a number, so are all scores. -/
theorem score?_ne_nan (h : q.boost ≠ .nan) : q.score? ix n ≠ some .nan := by
  cases q with
  | term q =>
    rw [score?]
    split
    · exact fun hnan => h (Option.some.inj hnan)
    · rintro ⟨⟩
  | range q =>
    rw [score?]
    split
    · exact fun hnan => h (Option.some.inj hnan)
    · rintro ⟨⟩
  | all boost =>
    rw [score?]
    split
    · rintro ⟨⟩
    · exact fun hnan => h (Option.some.inj hnan)
  | bool must should mustNot =>
    rw [score?_bool]
    split
    · next hpos =>
      obtain ⟨_, _, j, hj, _⟩ := Binary.lt_iff.1 hpos
      intro hnan
      rw [Option.some.inj hnan] at hj
      cases hj
    · rintro ⟨⟩

/-- The score that a search by a parsed query lists a document with is a number. -/
theorem rankScore_ne_nan {field text : String} {op : Operator} (h : ofText field op text = .ok q)
    (n : Nat) : q.rankScore ix n ≠ .nan := by
  rw [rankScore]
  split
  case isTrue =>
    cases hscore : q.score? ix n with
    | none => exact Binary.ofNat_ne_nan 0
    | some s =>
      rintro rfl
      exact score?_ne_nan (boost_ne_nan_of_ofText h) hscore
  case isFalse => exact Binary.ofNat_ne_nan 1

/-- A search lists the first of the found documents in an order that ranks the higher score before
    the lower one and, where no score is higher, the smaller number before the larger one. It lists
    as many as are asked for, or all of them if these are fewer, each with its identity and its
    score, and so what is listed for a smaller count is listed first for a larger one. It comes to
    nothing exactly if the query ranks documents and finds some, and `2 ^ 60 - 1` of them or more
    are asked for. No score of a parsed query is without a value. -/
theorem search_eq_take (ix : Index) (q : Node) (cache : Cache) :
    (∃ order : List Nat, order.Perm (q.execute ix cache).1.docs ∧
      order.Pairwise (fun m n => (q.rankScore ix n).lt (q.rankScore ix m) ∨
        (q.rankScore ix m).lt (q.rankScore ix n) = false ∧ m < n) ∧
      ∀ count, (q.search ix count cache).1 =
        if q.isScoring ∧ (q.execute ix cache).1.docs ≠ [] ∧ 2 ^ 60 - 1 ≤ count then none
        else some ⟨(q.execute ix cache).1.size,
          (order.take count).map fun n => ⟨(ix.id? n).getD n, q.rankScore ix n⟩⟩) ∧
      (∀ k l, k ≤ l → ∀ few ∈ (q.search ix k cache).1, ∀ many ∈ (q.search ix l cache).1,
        few.hits <+: many.hits) ∧
      ∀ field op text, ofText field op text = .ok q → ∀ n, q.rankScore ix n ≠ .nan := by
  obtain ⟨order, hperm, hpairwise, hbest⟩ := exists_order ix q (q.execute ix cache).1
  have hsearch : ∀ count, (q.search ix count cache).1 =
      if q.isScoring ∧ (q.execute ix cache).1.docs ≠ [] ∧ 2 ^ 60 - 1 ≤ count then none
      else some ⟨(q.execute ix cache).1.size,
        (order.take count).map fun n => ⟨(ix.id? n).getD n, q.rankScore ix n⟩⟩ := by
    intro count
    simp only [search, hbest, apply_ite (Option.map _), Option.map_none, Option.map_some,
      List.map_map]
    rfl
  refine ⟨⟨order, hperm, hpairwise.imp fun hbefore => ?_, hsearch⟩,
    fun k l hkl few hfew many hmany => ?_, fun field op text h n => rankScore_ne_nan h n⟩
  · exact Ranked.before_iff.1 hbefore
  · rw [hsearch, Option.mem_def, Option.ite_none_left_eq_some] at hfew hmany
    obtain ⟨-, ⟨⟩⟩ := hfew
    obtain ⟨-, ⟨⟩⟩ := hmany
    exact (List.take_prefix_take_left hkl).map _

/-- The one document that is found is not listed if there is no room for as many documents as are
    asked for. -/
theorem no_hits_without_room :
    let ix : Index := .ofChanges [.add 1 [("size", 42)]]
    let search := fun count : Nat => (ofText "content" .or "size:42").toOption.map fun q =>
      (q.search ix count Table.empty).1
    search 10 = some (some ⟨1, [⟨1, 1⟩]⟩) ∧ search (2 ^ 64 - 2) = some none := by
  decide +kernel

end Node

end QuantityQuery
