import Mathlib.Tactic.Linarith
import Mathlib.Tactic.TFAE
import QuantityQuery.Proofs.Parser.Styles
import QuantityQuery.Proofs.Search.Ranking

/-!
# Exact amounts before near ones

For a single quantity with a gap, a detector in boost style asks for the amount, with the
boost of the unit, or for the range around it, with a boost of `1`. A document that has the
amount meets both conditions and scores the boost and one; a document that is only near
scores one (`Occurrence.rankScore_boostTree`). So documents that have the amount are
listed first as long as the boost is not lost in the sum, which it is if it is at most
`2 ^ -24` (`Detector.outranks_tfae`): then the documents are listed by their numbers,
and a near one may come first (`Detector.near_amount_first`).

* `Occurrence.weight`: the boost of the exact clause for a quantity;
* `Occurrence.boostTree`: the tree for a single quantity.
-/

namespace QuantityQuery

attribute [local instance (2000)] instPowNat

variable {ix : Index} {n : Nat} {cache : Cache}

namespace Index

theorem lt_size_of_isDeleted (h : ix.isDeleted n) : n < ix.size := by
  obtain ⟨d, hd, -⟩ := (Option.any_eq_true _ _).1 h
  exact (List.getElem?_eq_some_iff.1 hd).1

end Index

/-- Whatever is in the cache, no deleted document is found by alternatives. -/
theorem Node.isDeleted_of_mem_execute {q : Node} {rest : List Node}
    (h : n ∈ ((bool [] (q :: rest) []).execute ix cache).1) : ix.isDeleted n = false := by
  have hexecute : (bool [] (q :: rest) []).execute ix cache =
      without ix (widen ix (q.execute ix cache).1 rest (q.execute ix cache).2).1 []
        (widen ix (q.execute ix cache).1 rest (q.execute ix cache).2).2 := by
    rw [execute]
  rw [hexecute, without, DocSet.mem_diff, Index.mem_deleted] at h
  by_contra hdeleted
  rw [Bool.not_eq_false] at hdeleted
  exact h.2 ⟨Index.lt_size_of_isDeleted hdeleted, hdeleted⟩

namespace Occurrence

variable (o : Occurrence)

/-- The boost of the exact clause for a quantity. -/
def weight : Single := (o.unit.boost.map Boost.value).getD 1

/-- The tree for a quantity with a gap, in boost style and under the operator `or`. -/
def boostTree (gap : Gap) : Node :=
  .bool [] [(AmountClause.exact o.field o.amount o.unit.boost).condition,
    .range ⟨o.field, gap.bounds o.amount⟩] []

/-- A document is within the gap of the quantity, by the bounds that are read for it. -/
def isNear (gap : Gap) (ix : Index) (n : Nat) : Bool :=
  (ix.value? o.field n).any (gap.bounds o.amount).contains

variable {o} {gap : Gap}

/-! ### Weights -/

theorem isFinite_weight : o.weight.isFinite := by
  rw [weight]
  cases o.unit.boost with
  | none => decide +kernel
  | some b => exact b.isBoost.2.1

theorem weight_pos : Binary.lt 0 o.weight := by
  rw [weight]
  cases o.unit.boost with
  | none => decide +kernel
  | some b => exact b.isBoost.2.2

/-- Without a boost the weight is one, which is not small. -/
theorem lt_weight_iff : Binary.lt (.ofRatio false 1 (2 ^ 24)) o.weight ↔
    ∀ b ∈ o.unit.boost, Binary.lt (.ofRatio false 1 (2 ^ 24)) b.value := by
  rw [weight]
  cases o.unit.boost with
  | none =>
    refine iff_of_true ?_ nofun
    decide +kernel
  | some b => simp

/-! ### Documents and their scores -/

theorem le_maxAmount (ho : o.amount < 2 ^ 53) : o.amount ≤ maxAmount := ho.le.trans (by decide)

theorem isNear_iff : o.isNear gap ix n ↔
    ∃ v ∈ ix.value? o.field n, (gap.bounds o.amount).Admits v := by
  rw [isNear, Option.any_eq_true]
  simp only [Bounds.contains_iff, Option.mem_def]

theorem isNear_of_hasAmount (ho : o.amount < 2 ^ 53) (h : o.HasAmount ix n) :
    o.isNear gap ix n := by
  obtain ⟨v, hv, heq⟩ := h
  have hadmits := (gap.admits_amount_iff (le_maxAmount ho) heq).2 (ho.le.trans (by decide))
  exact isNear_iff.2 ⟨v, hv, hadmits⟩

theorem score?_exact (ho : o.amount ≤ maxAmount) (hlive : ix.isDeleted n = false) :
    (AmountClause.exact o.field o.amount o.unit.boost).condition.score? ix n =
      if o.HasAmount ix n then some o.weight else none := by
  have hhas : (ix.value? o.field n).any (·.eq (.ofInt o.amount)) ↔ o.HasAmount ix n :=
    Option.any_eq_true _ _
  rw [AmountClause.condition, Node.score?, TermQuery.value?_amount ho, hlive]
  simp only [Option.any_some, Bool.not_false, Bool.and_true, hhas, weight]

theorem score?_range (hlive : ix.isDeleted n = false) :
    (Node.range ⟨o.field, gap.bounds o.amount⟩).score? ix n =
      if o.isNear gap ix n then some 1 else none := by
  have hboost : (gap.bounds o.amount).boost = 1 := rfl
  rw [Node.score?, hlive, isNear]
  simp only [Bool.not_false, Bool.and_true, hboost]

/-- The scores of the two conditions are added up. -/
theorem total_boostTree (ho : o.amount < 2 ^ 53) (hlive : ix.isDeleted n = false) :
    Node.total ix [] [(AmountClause.exact o.field o.amount o.unit.boost).condition,
      .range ⟨o.field, gap.bounds o.amount⟩] n =
        if o.HasAmount ix n then o.weight + 1 else if o.isNear gap ix n then 1 else 0 := by
  have hexact := score?_exact (le_maxAmount ho) hlive
  have hrange : (Node.range ⟨o.field, gap.bounds o.amount⟩).score? ix n = _ := score?_range hlive
  rw [Node.total, Node.addScores]
  by_cases hhas : o.HasAmount ix n
  · rw [if_pos hhas] at hexact ⊢
    rw [if_pos (isNear_of_hasAmount ho hhas)] at hrange
    rw [Node.addScores_cons_some hexact, Node.addScores_cons_some hrange, Node.addScores,
      Binary.zero_add_of_pos isFinite_weight weight_pos]
  · rw [if_neg hhas] at hexact ⊢
    rw [Node.addScores_cons_none hexact]
    by_cases hnear : o.isNear gap ix n
    · have hone : (0 : Single) + 1 = 1 := by decide +kernel
      rw [if_pos hnear] at hrange ⊢
      rw [Node.addScores_cons_some hrange, Node.addScores, hone]
    · rw [if_neg hnear] at hrange ⊢
      rw [Node.addScores_cons_none hrange, Node.addScores]

theorem rankScore_boostTree (ho : o.amount < 2 ^ 53) (hlive : ix.isDeleted n = false) :
    (o.boostTree gap).rankScore ix n =
      if o.HasAmount ix n then o.weight + 1 else if o.isNear gap ix n then 1 else 0 := by
  have hscoring : (o.boostTree gap).isScoring := rfl
  rw [Node.rankScore, if_pos hscoring, boostTree, Node.score?_bool, total_boostTree ho hlive]
  have hpos : Binary.lt 0 (o.weight + 1) := Single.zero_lt_add_one isFinite_weight weight_pos
  have hone : Binary.lt 0 (1 : Single) := by decide +kernel
  by_cases hhas : o.HasAmount ix n
  · simp only [if_pos hhas, if_pos hpos, Option.getD_some]
  · by_cases hnear : o.isNear gap ix n
    · simp only [if_neg hhas, if_pos hnear, if_pos hone, Option.getD_some]
    · simp only [if_neg hhas, if_neg hnear, Binary.lt_self, if_neg Bool.false_ne_true,
        Option.getD_none]

/-- With a gap of distance zero, what is near has the amount. -/
theorem hasAmount_of_isNear (ho : o.amount < 2 ^ 53) (hzero : gap.distance = 0)
    (h : o.isNear gap ix n) : o.HasAmount ix n := by
  obtain ⟨v, hv, hadmits⟩ := isNear_iff.1 h
  have hlow : (gap.range o.amount).1 = o.amount := by rw [Gap.range, hzero, Nat.sub_zero]
  have hhigh : (gap.range o.amount).2 = o.amount := by
    rw [Gap.range, hzero, Nat.add_zero, min_eq_left (le_maxAmount ho)]
  have hplace : Double.place o.amount ≤ Double.place (2 ^ 63) :=
    Double.place_mono (ho.le.trans (by decide))
  obtain ⟨i, hi, hge, hle⟩ := (gap.admits_bounds_iff (le_maxAmount ho)).1 hadmits
  rw [hlow, min_eq_left hplace] at hge
  rw [hhigh, min_eq_left hplace] at hle
  refine ⟨v, hv, Binary.eq_iff.2 ⟨i, hi, ?_⟩⟩
  rw [Binary.order_ofInt (by decide), Int.le_antisymm hle hge]

/-! ### An index with a near document before an exact one -/

variable (o)

/-- Two documents, of which the first has the next amount and the second the amount itself. -/
def twoDocuments : Index :=
  .ofChanges [.add 1 [(o.field, .ofInt (o.amount + 1 : Nat))], .add 2 [(o.field, .ofInt o.amount)]]

variable {o}

theorem value?_twoDocuments_zero :
    o.twoDocuments.value? o.field 0 = some (.ofInt (o.amount + 1 : Nat)) :=
  (Table.get?_insert Table.empty).trans (if_pos rfl)

theorem value?_twoDocuments_one : o.twoDocuments.value? o.field 1 = some (.ofInt o.amount) :=
  (Table.get?_insert Table.empty).trans (if_pos rfl)

theorem hasAmount_twoDocuments_one : o.HasAmount o.twoDocuments 1 :=
  ⟨_, value?_twoDocuments_one, Binary.ofInt_eq_self (by decide) _⟩

theorem toRat?_ofInt {m : Nat} (h : m ≤ 2 ^ 53) : (Binary.ofInt m : Double).toRat? = some (m : ℚ) :=
  (Binary.eq_ofInt_iff (by decide) (Double.holds_whole h)).1 (Binary.ofInt_eq_self (by decide) m)

theorem not_hasAmount_twoDocuments_zero (ho : o.amount < 2 ^ 53) :
    ¬ o.HasAmount o.twoDocuments 0 := by
  rintro ⟨v, hv, heq⟩
  obtain rfl := Option.some.inj (value?_twoDocuments_zero.symm.trans hv)
  rw [Binary.eq_ofInt_iff (by decide) (Double.holds_whole ho.le), toRat?_ofInt ho,
    Option.some.injEq, Nat.cast_inj] at heq
  omega

theorem isNear_twoDocuments_zero (ho : o.amount < 2 ^ 53) (hgap : gap.distance ≠ 0) :
    o.isNear gap o.twoDocuments 0 := by
  have hlow : Double.place (gap.range o.amount).1 ≤ Double.place (o.amount + 1) :=
    Double.place_mono ((gap.range_fst_le o.amount).trans (Nat.le_succ _))
  have hhigh : Double.place (o.amount + 1) ≤ Double.place (gap.range o.amount).2 := by
    refine Double.place_mono (le_min (by omega) ?_)
    exact (Nat.succ_le_of_lt ho).trans (by decide)
  have hlast : Double.place (o.amount + 1) ≤ Double.place (2 ^ 63) :=
    Double.place_mono ((Nat.succ_le_of_lt ho).trans (by decide))
  refine isNear_iff.2 ⟨_, value?_twoDocuments_zero, (gap.admits_bounds_iff (le_maxAmount ho)).2 ?_⟩
  refine ⟨_, Binary.order_ofInt (by decide) _, ?_, ?_⟩
  · exact Int.ofNat_le.2 ((min_le_left ..).trans hlow)
  · exact Int.ofNat_le.2 (le_min hhigh hlast)

theorem met_twoDocuments_zero {c : Catalogue} (ho : o.amount < 2 ^ 53)
    (hgap : gap ∈ c.gap? o.field) (hdistance : gap.distance ≠ 0) : c.Met o.twoDocuments 0 o := by
  refine ⟨_, value?_twoDocuments_zero, _, toRat?_ofInt ho, ?_⟩
  have hpos : (1 : ℚ) ≤ gap.distance := by exact_mod_cast Nat.one_le_iff_ne_zero.2 hdistance
  have hnonneg : (0 : ℚ) ≤ o.amount := Nat.cast_nonneg _
  rw [Catalogue.Admits, Option.mem_def.1 hgap]
  push_cast
  exact ⟨max_le (by linarith) (by linarith), by linarith⟩

/-! ### Ranking -/

/-- A document that has the amount ranks before one that has it not, if the weight is not lost or
    nothing but the amount is near. -/
theorem before_of_hasAmount {m : Nat} (ho : o.amount < 2 ^ 53)
    (hweight : gap.distance = 0 ∨ Binary.lt (.ofRatio false 1 (2 ^ 24)) o.weight)
    (hm : ix.isDeleted m = false) (hn : ix.isDeleted n = false) (hnot : ¬ o.HasAmount ix m)
    (hhas : o.HasAmount ix n) :
    ((o.boostTree gap).entry ix n).before ((o.boostTree gap).entry ix m) := by
  refine Ranked.before_iff.2 (.inl ?_)
  rw [Node.entry_score, Node.entry_score, rankScore_boostTree ho hm, rankScore_boostTree ho hn,
    if_neg hnot, if_pos hhas]
  by_cases hnear : o.isNear gap ix m
  · rw [if_pos hnear, Single.one_lt_add_one_iff isFinite_weight weight_pos]
    exact hweight.resolve_left fun hzero => hnot (hasAmount_of_isNear ho hzero hnear)
  · rw [if_neg hnear]
    exact Single.zero_lt_add_one isFinite_weight weight_pos

/-- Where the weight is lost, the near one of the two documents ranks first. -/
theorem not_before_twoDocuments (ho : o.amount < 2 ^ 53) (hgap : gap.distance ≠ 0)
    (hweight : ¬ Binary.lt (.ofRatio false 1 (2 ^ 24)) o.weight) :
    ¬ ((o.boostTree gap).entry o.twoDocuments 1).before
      ((o.boostTree gap).entry o.twoDocuments 0) := by
  have hzero : (o.boostTree gap).rankScore o.twoDocuments 0 = 1 := by
    rw [rankScore_boostTree ho rfl, if_neg (not_hasAmount_twoDocuments_zero ho),
      if_pos (isNear_twoDocuments_zero ho hgap)]
  have hone : (o.boostTree gap).rankScore o.twoDocuments 1 = o.weight + 1 := by
    rw [rankScore_boostTree ho rfl, if_pos hasAmount_twoDocuments_one]
  rw [Ranked.before_iff, Node.entry_score, Node.entry_score, Node.entry_number, Node.entry_number,
    hzero, hone, Single.one_lt_add_one_iff isFinite_weight weight_pos]
  rintro (hlt | ⟨-, hnumber⟩)
  · exact hweight hlt
  · exact absurd hnumber (Nat.not_lt_zero 1)

theorem mem_find_boostTree (ho : o.amount < 2 ^ 53) (hlive : n ∈ ix.live)
    (h : o.HasAmount ix n ∨ o.isNear gap ix n) : n ∈ (o.boostTree gap).find ix := by
  refine Node.mem_find.2 ⟨hlive, Node.holds_bool.2 ⟨by simp, fun _ _ => ?_, by simp⟩⟩
  rcases h with h | h
  · exact ⟨_, List.mem_cons_self, (o.holds_exact (le_maxAmount ho) _).2 h⟩
  · refine ⟨_, List.mem_cons_of_mem _ List.mem_cons_self, ?_⟩
    rw [Node.Holds]
    exact isNear_iff.1 h

theorem isDeleted_of_mem_execute (h : n ∈ ((o.boostTree gap).execute ix cache).1) :
    ix.isDeleted n = false := by
  rw [boostTree] at h
  exact Node.isDeleted_of_mem_execute h

/-- Documents that have the amount are listed first, unless their weight is lost. -/
theorem forall_pairwise_best (ho : o.amount < 2 ^ 53)
    (hweight : gap.distance = 0 ∨ Binary.lt (.ofRatio false 1 (2 ^ 24)) o.weight) (ix : Index)
    (cache : Cache) (count : Nat) :
    ∀ listed ∈ (o.boostTree gap).best? ix count ((o.boostTree gap).execute ix cache).1,
      listed.Pairwise fun a b => ¬ o.HasAmount ix a.number → ¬ o.HasAmount ix b.number := by
  intro listed hlisted
  refine Node.pairwise_best (P := fun n => ¬ o.HasAmount ix n) (Q := o.HasAmount ix) ?_ hlisted
  intro m hm n hn hnot hhas
  exact before_of_hasAmount ho hweight (isDeleted_of_mem_execute hm) (isDeleted_of_mem_execute hn)
    hnot hhas

/-- If the weight is lost, a near document is listed before one that has the amount. -/
theorem not_forall_pairwise_best {c : Catalogue} (ho : o.amount < 2 ^ 53)
    (hgap : gap ∈ c.gap? o.field) (hdistance : gap.distance ≠ 0)
    (hweight : ¬ Binary.lt (.ofRatio false 1 (2 ^ 24)) o.weight) :
    ¬ ∀ count, ∀ listed ∈ (o.boostTree gap).best? o.twoDocuments count
        ((o.boostTree gap).find o.twoDocuments),
      listed.Pairwise fun a b =>
        c.Met o.twoDocuments a.number o ∧ ¬ o.HasAmount o.twoDocuments a.number →
          ¬ o.HasAmount o.twoDocuments b.number := by
  intro hlisted
  have hzero : 0 ∈ (o.boostTree gap).find o.twoDocuments :=
    mem_find_boostTree ho (Index.mem_live.2 ⟨Nat.zero_lt_two, rfl⟩)
      (.inr (isNear_twoDocuments_zero ho hdistance))
  have hone : 1 ∈ (o.boostTree gap).find o.twoDocuments :=
    mem_find_boostTree ho (Index.mem_live.2 ⟨Nat.one_lt_two, rfl⟩)
      (.inl hasAmount_twoDocuments_one)
  have hroom : ((o.boostTree gap).find o.twoDocuments).size < Ranked.room :=
    Nat.lt_of_le_of_lt (Node.size_find_le _ _) (show 2 < Ranked.room by decide)
  have hbefore := Node.before_of_pairwise_best
    (P := fun n => c.Met o.twoDocuments n o ∧ ¬ o.HasAmount o.twoDocuments n)
    (Q := o.HasAmount o.twoDocuments) (fun _ hnear => hnear.2) hroom hlisted 0 hzero 1 hone
    ⟨met_twoDocuments_zero ho hgap hdistance, not_hasAmount_twoDocuments_zero ho⟩
    hasAmount_twoDocuments_one
  exact not_before_twoDocuments ho hdistance hweight hbefore

end Occurrence

theorem Catalogue.treeOf_single {c : Catalogue} {o : Occurrence} {gap : Gap}
    (hgap : gap ∈ c.gap? o.field) :
    Operator.or.treeOf ([o].flatMap (c.conditions .boost)) = o.boostTree gap := by
  rw [List.flatMap_singleton, conditions_boost_of_gap hgap, filterClause_of_gap hgap]
  rfl

namespace Detector

variable {fields : List Field} {d : Detector} {r : Request} {o : Occurrence} {gap : Gap}

theorem parse_single (h : Catalogue.ofFields fields = .ok d.catalogue) (hstyle : d.style = .boost)
    (hop : d.host.operatorFor r = .or) (hdetect : d.detect r.query = [o])
    (hgap : gap ∈ d.catalogue.gap? o.field) : d.parse r r.query = .ok (o.boostTree gap) := by
  rw [d.parse_eq_treeOf h r r.query, hop, hstyle, hdetect, Catalogue.treeOf_single hgap]

/-- For a single quantity with a gap, in boost style and under the operator `or`, these are the
    same, whatever the index, the cache and the number of documents asked for: documents that have
    the amount are listed before those that have another value within the gap; they are listed
    before all others; the gap is zero, or the boost of the unit, if it has one, is more than
    `2 ^ -24`. -/
theorem outranks_tfae (h : Catalogue.ofFields fields = .ok d.catalogue) (hstyle : d.style = .boost)
    (hop : d.host.operatorFor r = .or) (hdetect : d.detect r.query = [o])
    (ho : o.amount < 2 ^ 53) (hgap : gap ∈ d.catalogue.gap? o.field) :
    ∃ q, d.parse r r.query = .ok q ∧
      [∀ ix cache count, ∀ listed ∈ q.best? ix count (q.execute ix cache).1,
          listed.Pairwise fun a b => d.catalogue.Met ix a.number o ∧ ¬ o.HasAmount ix a.number →
            ¬ o.HasAmount ix b.number,
        ∀ ix cache count, ∀ listed ∈ q.best? ix count (q.execute ix cache).1,
          listed.Pairwise fun a b => ¬ o.HasAmount ix a.number → ¬ o.HasAmount ix b.number,
        gap.distance = 0 ∨
          ∀ b ∈ o.unit.boost, Binary.lt (.ofRatio false 1 (2 ^ 24)) b.value].TFAE := by
  refine ⟨o.boostTree gap, parse_single h hstyle hop hdetect hgap, ?_⟩
  rw [← Occurrence.lt_weight_iff]
  tfae_have 2 → 1 := fun h ix cache count listed hlisted =>
    (h ix cache count listed hlisted).imp fun hab hnear => hab hnear.2
  tfae_have 3 → 2 := Occurrence.forall_pairwise_best ho
  tfae_have 1 → 3 := by
    intro hlisted
    by_contra hlost
    rw [not_or] at hlost
    refine Occurrence.not_forall_pairwise_best ho hgap hlost.1 hlost.2 fun count => ?_
    rw [Node.find]
    exact hlisted o.twoDocuments Table.empty count
  tfae_finish

theorem outranks_tfae_inch :
    let gap : Gap := ⟨.ofInt 1, by decide +kernel⟩
    let inch : MeasureUnit := ⟨"inch", ["in"], some ⟨"1.5", by decide +kernel⟩, none⟩
    let fields : List Field := [⟨"size", some gap, [inch]⟩]
    let d : Detector := ⟨"qty", .boost, ⟨fields⟩, {}⟩
    let r : Request := ⟨"42 in", .empty⟩
    let o : Occurrence := ⟨"size", 42, inch⟩
    Catalogue.ofFields fields = .ok d.catalogue ∧ d.style = .boost ∧ d.host.operatorFor r = .or ∧
      d.detect r.query = [o] ∧ o.amount < 2 ^ 53 ∧ gap ∈ d.catalogue.gap? o.field ∧
      ∃ q, d.parse r r.query = .ok q ∧
        ∀ ix cache count, ∀ listed ∈ q.best? ix count (q.execute ix cache).1,
          listed.Pairwise fun a b => ¬ o.HasAmount ix a.number → ¬ o.HasAmount ix b.number := by
  intro gap inch fields d r o
  have h : Catalogue.ofFields fields = .ok d.catalogue := by decide +kernel
  have hdetect : d.detect r.query = [o] := by decide +kernel
  have ho : o.amount < 2 ^ 53 := by decide
  have hgap : gap ∈ d.catalogue.gap? o.field := by decide +kernel
  obtain ⟨q, hq, htfae⟩ := outranks_tfae h rfl rfl hdetect ho hgap
  have hboost : ∀ b ∈ o.unit.boost, Binary.lt (.ofRatio false 1 (2 ^ 24)) b.value := by
    rintro b ⟨⟩
    decide +kernel
  exact ⟨h, rfl, rfl, hdetect, ho, hgap, q, hq, (htfae.out 1 2).2 (Or.inr hboost)⟩

/-- With a small boost both documents score one, and the near one is listed first. -/
theorem near_amount_first :
    let gap : Gap := ⟨.ofInt 1, by decide +kernel⟩
    let inch : MeasureUnit := ⟨"inch", ["in"], some ⟨"0.00000001", by decide +kernel⟩, none⟩
    let fields : List Field := [⟨"size", some gap, [inch]⟩]
    let d : Detector := ⟨"qty", .boost, ⟨fields⟩, {}⟩
    let r : Request := ⟨"42 in", .empty⟩
    let o : Occurrence := ⟨"size", 42, inch⟩
    let ix : Index := .ofChanges [.add 1 [("size", .ofInt 43)], .add 2 [("size", .ofInt 42)]]
    Catalogue.ofFields fields = .ok d.catalogue ∧ d.style = .boost ∧ d.host.operatorFor r = .or ∧
      d.detect r.query = [o] ∧ gap ∈ d.catalogue.gap? o.field ∧
      o.isNear gap ix 0 ∧ ¬ o.HasAmount ix 0 ∧ o.HasAmount ix 1 ∧
      ∃ q, d.parse r r.query = .ok q ∧ q.best? ix 10 (q.find ix) = some [⟨0, 1⟩, ⟨1, 1⟩] := by
  intro gap inch fields d r o ix
  have h : Catalogue.ofFields fields = .ok d.catalogue := by decide +kernel
  have hdetect : d.detect r.query = [o] := by decide +kernel
  have hgap : gap ∈ d.catalogue.gap? o.field := by decide +kernel
  refine ⟨h, rfl, rfl, hdetect, hgap, by decide +kernel, by decide +kernel, by decide +kernel,
    o.boostTree gap, parse_single h rfl rfl hdetect hgap, ?_⟩
  have hscoring : (o.boostTree gap).isScoring := rfl
  have hscored : ((o.boostTree gap).find ix).docs.map ((o.boostTree gap).scored ix) =
      [⟨0, 1⟩, ⟨1, 1⟩] := by decide +kernel
  have hbefore : Ranked.before ⟨0, 1⟩ ⟨1, 1⟩ := by decide +kernel
  have hroom : ¬ Ranked.room ≤ 10 := by decide
  rw [Node.best?_of_isScoring hscoring, hscored, if_neg (mt And.right hroom)]
  simp [Ranked.sort, List.mergeSort, Ranked.before_asymm hbefore]

end Detector

end QuantityQuery
