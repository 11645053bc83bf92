import QuantityQuery.Proofs.Search.Execution

/-!
# Scores and what is found

A deleted document has no score, and a leaf scores only documents that it finds. A
combination of conditions adds up the scores of its parts and asks neither whether
all that has to hold does nor whether something holds that must not; so it also
scores documents that it does not find.

* `Node.unfound_unscored_iff`: exactly when a document that is not found has no
  score;
* `Node.Strict.score?_eq_none`: trees, at any depth, that score only what they find.
-/

namespace QuantityQuery

@[simp] theorem Binary.lt_self {F : Format} (x : Binary F) : x.lt x = false := by
  rw [lt, compareBy]
  split
  · next hi hj =>
    rw [Option.some.inj (hi.symm.trans hj)]
    simp
  · rfl

namespace Node

variable {ix : Index} {n : Nat}

theorem addScores_cons_some {total s : Single} {q : Node} {rest : List Node}
    (h : q.score? ix n = some s) :
    addScores ix total (q :: rest) n = addScores ix (total + s) rest n := by
  rw [addScores, h]

theorem addScores_cons_none {total : Single} {q : Node} {rest : List Node}
    (h : q.score? ix n = none) :
    addScores ix total (q :: rest) n = addScores ix total rest n := by
  rw [addScores, h]

theorem addScores_of_none {total : Single} {qs : List Node}
    (h : ∀ q ∈ qs, q.score? ix n = none) : addScores ix total qs n = total := by
  induction qs with
  | nil => rw [addScores]
  | cons q rest ih =>
    rw [addScores, h q List.mem_cons_self]
    exact ih fun r hr => h r (List.mem_cons_of_mem _ hr)

/-- The sum that a combination gives as its score, where it is positive. -/
def total (ix : Index) (must should : List Node) (n : Nat) : Single :=
  addScores ix (addScores ix 0 must n) should n

theorem score?_bool {must should mustNot : List Node} :
    (bool must should mustNot).score? ix n =
      if Binary.lt 0 (total ix must should n) then some (total ix must should n) else none := by
  rw [score?]; rfl

theorem not_lt_total_of_none {must should : List Node}
    (h : ∀ q ∈ must ++ should, q.score? ix n = none) :
    Binary.lt 0 (total ix must should n) = false := by
  rw [total, addScores_of_none fun q hq => h q (List.mem_append_right _ hq),
    addScores_of_none fun q hq => h q (List.mem_append_left _ hq), Binary.lt_self]

/-- A deleted document has no score. -/
theorem score?_of_isDeleted (q : Node) (h : ix.isDeleted n) : q.score? ix n = none := by
  induction q with
  | term q => simp [score?, h]
  | range q => simp [score?, h]
  | all boost => simp [score?, h]
  | bool must should mustNot ihmust ihshould _ =>
    rw [score?_bool, not_lt_total_of_none fun q hq =>
      (List.mem_append.1 hq).elim (ihmust q) (ihshould q)]
    rfl

/-- Outside of combinations, what has a score meets the condition. -/
theorem holds_of_score? {q : Node} (hleaf : ∀ must should mustNot, q ≠ bool must should mustNot)
    (h : q.score? ix n ≠ none) : q.Holds ix n := by
  cases q with
  | term q =>
    simp only [score?, ne_eq, ite_eq_right_iff, reduceCtorEq, imp_false, not_not,
      Bool.and_eq_true, Option.any_eq_true] at h
    obtain ⟨⟨target, htarget, v, hv, heq⟩, _⟩ := h
    rw [Holds]
    exact ⟨target, htarget, v, hv, heq⟩
  | range q =>
    simp only [score?, ne_eq, ite_eq_right_iff, reduceCtorEq, imp_false, not_not,
      Bool.and_eq_true, Option.any_eq_true] at h
    obtain ⟨⟨v, hv, hcontains⟩, _⟩ := h
    rw [Holds]
    exact ⟨v, hv, Bounds.contains_iff.1 hcontains⟩
  | all boost => exact holds_all
  | bool must should mustNot => exact absurd rfl (hleaf must should mustNot)

/-- Exactly when a document that is not found has no score: the query is no combination, or the
    document is deleted, or the scores of the parts have no positive sum, or the document meets
    the combination after all. -/
theorem unfound_unscored_iff (q : Node) (hn : n < ix.size) :
    (n ∉ q.find ix → q.score? ix n = none) ↔
      ∀ must should mustNot, q = bool must should mustNot → ix.isDeleted n = false →
        Binary.lt 0 (total ix must should n) →
          (∀ q ∈ must, q.Holds ix n) ∧ (must = [] → ∃ q ∈ should, q.Holds ix n) ∧
            ∀ q ∈ mustNot, ¬ q.Holds ix n := by
  constructor
  · rintro h must should mustNot rfl hlive hpos
    -- With a positive sum the document has a score, so it has been found.
    have hscore : (bool must should mustNot).score? ix n ≠ none := by
      rw [score?_bool, if_pos hpos]
      exact Option.some_ne_none _
    have hholds : (bool must should mustNot).Holds ix n := by
      by_contra hnot
      exact hscore (h fun hfind => hnot (mem_find.1 hfind).2)
    obtain ⟨hmust, hshould, hnone⟩ := holds_bool.1 hholds
    refine ⟨hmust, fun hempty => hshould hempty ?_, hnone⟩
    -- Without parts to add up, the sum would be zero.
    rintro rfl
    rw [hempty, not_lt_total_of_none (by simp)] at hpos
    exact Bool.false_ne_true hpos
  · intro h hunfound
    by_cases hdeleted : ix.isDeleted n = true
    · exact score?_of_isDeleted q hdeleted
    have hlive : ix.isDeleted n = false := by simpa using hdeleted
    have hnot : ¬ q.Holds ix n := fun hq => hunfound (mem_find.2 ⟨Index.mem_live.2 ⟨hn, hlive⟩, hq⟩)
    -- A document with a score would meet the query after all.
    by_contra hscore
    refine hnot ?_
    cases q with
    | bool must should mustNot =>
      rw [score?_bool] at hscore
      have hpos : Binary.lt 0 (total ix must should n) := by
        by_contra hpos
        exact hscore (if_neg hpos)
      obtain ⟨hmust, hshould, hnone⟩ := h must should mustNot rfl hlive hpos
      exact holds_bool.2 ⟨hmust, fun hempty _ => hshould hempty, hnone⟩
    | term q => exact holds_of_score? nofun hscore
    | range q => exact holds_of_score? nofun hscore
    | all boost => exact holds_all

theorem unfound_unscored_iff_single :
    let ix := Index.single [("size", 42), ("capacity", 100)]
    let q := bool [.term ⟨"size", "42", 1⟩] [] [.term ⟨"capacity", "100", 1⟩]
    0 < ix.size ∧
      ((0 ∉ q.find ix → q.score? ix 0 = none) ↔
        ∀ must should mustNot, q = bool must should mustNot → ix.isDeleted 0 = false →
          Binary.lt 0 (total ix must should 0) →
            (∀ q ∈ must, q.Holds ix 0) ∧ (must = [] → ∃ q ∈ should, q.Holds ix 0) ∧
              ∀ q ∈ mustNot, ¬ q.Holds ix 0) :=
  ⟨by decide +kernel, unfound_unscored_iff _ (by decide +kernel)⟩

/-- A document that is excluded has a score. -/
theorem score?_excluded :
    let ix := Index.single [("size", 42), ("capacity", 100)]
    let q := bool [.term ⟨"size", "42", 1⟩] [] [.term ⟨"capacity", "100", 1⟩]
    0 < ix.size ∧ 0 ∉ q.find ix ∧ q.score? ix 0 = some 1 := by
  decide +kernel

/-! ### Trees that score only what they find -/

/-- Whoever has a score by a part of a combination meets the combination: nothing is excluded,
    and what has to hold is a single condition, beside which nothing else is scored. -/
inductive Strict : Node → Prop
  | term (q : TermQuery) : Strict (.term q)
  | range (q : RangeQuery) : Strict (.range q)
  | all (boost : Single) : Strict (.all boost)
  | must {q : Node} : Strict q → Strict (.bool [q] [] [])
  | should {should : List Node} : (∀ q ∈ should, Strict q) → Strict (.bool [] should [])
  | mustNot (mustNot : List Node) : Strict (.bool [] [] mustNot)

theorem Strict.holds_of_score? {q : Node} (hq : q.Strict) (h : q.score? ix n ≠ none) :
    q.Holds ix n := by
  -- Some part of a combination with a score has a score.
  have hpart : ∀ {must should mustNot}, (bool must should mustNot).score? ix n ≠ none →
      ∃ q ∈ must ++ should, q.score? ix n ≠ none := by
    intro must should mustNot h
    by_contra hnone
    push Not at hnone
    rw [score?_bool, not_lt_total_of_none hnone] at h
    exact h rfl
  induction hq with
  | term q => exact Node.holds_of_score? nofun h
  | range q => exact Node.holds_of_score? nofun h
  | all boost => exact holds_all
  | must hq ih =>
    obtain ⟨r, hr, hscore⟩ := hpart h
    obtain rfl := List.mem_singleton.1 hr
    exact holds_bool.2 ⟨by simpa using ih hscore, by simp, by simp⟩
  | should hq ih =>
    obtain ⟨r, hr, hscore⟩ := hpart h
    exact holds_bool.2 ⟨by simp, fun _ _ => ⟨r, hr, ih r hr hscore⟩, by simp⟩
  | mustNot mustNot =>
    obtain ⟨r, hr, _⟩ := hpart h
    cases hr

/-- A strict tree, of any depth, scores only documents that it finds. -/
theorem Strict.score?_eq_none {q : Node} (hq : q.Strict) (hn : n < ix.size)
    (h : n ∉ q.find ix) : q.score? ix n = none := by
  by_cases hdeleted : ix.isDeleted n = true
  · exact score?_of_isDeleted q hdeleted
  · by_contra hscore
    have hlive : n ∈ ix.live := Index.mem_live.2 ⟨hn, by simpa using hdeleted⟩
    exact h (mem_find.2 ⟨hlive, hq.holds_of_score? hscore⟩)

end Node

end QuantityQuery
