import QuantityQuery.Proofs.Parser.Found

/-!
# Both styles find the same documents

A quantity in boost style asks for what it asks for in filter style and, beside that, for
the amount itself (`Catalogue.exists_holds_boost_iff`). Under the operator `or` this adds
no document as long as the amount is found within its own gap, so detectors of both
styles find the same documents (`Detector.find_eq_find`).

The amounts for which this is so are those up to `2 ^ 63 + 2 ^ 10`: for every greater
amount with a gap there is an index in which the styles differ
(`Detector.find_eq_find_iff`).
-/

namespace QuantityQuery

attribute [local instance (2000)] instPowNat

variable {ix : Index} {n : Nat}

/-- The exact clause for a quantity asks for the documents that have its amount. -/
theorem Occurrence.holds_exact {o : Occurrence} (ho : o.amount ≤ maxAmount) (boost : Option Boost) :
    (AmountClause.exact o.field o.amount boost).condition.Holds ix n ↔ o.HasAmount ix n :=
  AmountClause.holds_exact ho

namespace Catalogue

variable {c : Catalogue} {o : Occurrence}

theorem holds_filterClause_of_none (h : c.gap? o.field = none) (ho : o.amount ≤ maxAmount) :
    (c.filterClause o).condition.Holds ix n ↔ o.HasAmount ix n := by
  rw [filterClause_of_none h, o.holds_exact ho]

theorem conditions_boost_of_none (h : c.gap? o.field = none) :
    c.conditions .boost o = [(AmountClause.exact o.field o.amount o.unit.boost).condition] := by
  rw [conditions, clauses, rangeClause?, h]
  rfl

theorem conditions_boost_of_gap {gap : Gap} (h : gap ∈ c.gap? o.field) :
    c.conditions .boost o =
      [(AmountClause.exact o.field o.amount o.unit.boost).condition,
        (c.filterClause o).condition] := by
  rw [conditions, clauses, filterClause_of_gap h, rangeClause?, Option.mem_def.1 h]
  rfl

/-- One of the conditions in boost style holds of the documents that have the amount, and of those
    that are found in filter style. -/
theorem exists_holds_boost_iff (ho : o.amount ≤ maxAmount) :
    (∃ q ∈ c.conditions .boost o, q.Holds ix n) ↔
      o.HasAmount ix n ∨ (c.filterClause o).condition.Holds ix n := by
  cases hgap : c.gap? o.field with
  | none =>
    rw [conditions_boost_of_none hgap, holds_filterClause_of_none hgap ho, or_self]
    simpa only [List.mem_singleton, exists_eq_left] using o.holds_exact ho _
  | some gap =>
    rw [conditions_boost_of_gap hgap, List.exists_mem_cons_iff, o.holds_exact ho]
    simp only [List.mem_singleton, exists_eq_left]

theorem holds_treeOf_boost {found : List Occurrence} (hfound : ∀ o ∈ found, o.amount ≤ maxAmount) :
    (Operator.or.treeOf (found.flatMap (c.conditions .boost))).Holds ix n ↔
      found = [] ∨ ∃ o ∈ found, o.HasAmount ix n ∨ (c.filterClause o).condition.Holds ix n := by
  have hnil : found.flatMap (c.conditions .boost) = [] ↔ found = [] := by
    cases found with
    | nil => simp
    | cons o rest => simp [conditions, clauses]
  rw [Node.holds_treeOf_or, hnil]
  refine or_congr_right ?_
  simp only [List.mem_flatMap, ← exists_and_right, and_assoc]
  rw [exists_comm]
  refine exists_congr fun o => ?_
  rw [exists_and_left]
  exact and_congr_right fun ho => exists_holds_boost_iff (hfound o ho)

end Catalogue

namespace Detector

variable {fields : List Field} {d d' : Detector} {r : Request}

/-- Two detectors of a catalogue, one of each style, find the same documents under the operator
    `or` exactly if no amount with a gap is rounded beyond `2 ^ 63`. -/
theorem find_eq_find_iff (h : Catalogue.ofFields fields = .ok d.catalogue)
    (hcatalogue : d'.catalogue = d.catalogue) (hboost : d.style = .boost)
    (hfilter : d'.style = .filter) (hop : d.host.operatorFor r = .or)
    (hop' : d'.host.operatorFor r = .or) :
    ∃ q q', d.parse r r.query = .ok q ∧ d'.parse r r.query = .ok q' ∧
      ((∀ ix, q.find ix = q'.find ix) ↔
        ∀ o ∈ d.detect r.query, ∀ gap ∈ d.catalogue.gap? o.field, o.amount ≤ 2 ^ 63 + 2 ^ 10) := by
  have hamount : ∀ o ∈ d.detect r.query, o.amount ≤ maxAmount :=
    fun o ho => (Catalogue.mem_scan ho).1
  have hdetect : d'.detect r.query = d.detect r.query := by rw [detect, hcatalogue, detect]
  refine ⟨_, _, d.parse_eq_treeOf h r r.query, d'.parse_eq_treeOf (hcatalogue ▸ h) r r.query, ?_⟩
  rw [hop, hop', hboost, hfilter, hdetect, hcatalogue, Catalogue.flatMap_conditions_filter]
  constructor
  · -- In the index with the amount as its only value, the exact clause finds it.
    intro heq o ho gap hgap
    have hmem : 0 ∈ (Operator.or.treeOf ((d.detect r.query).flatMap
        (d.catalogue.conditions .boost))).find (.single [(o.field, .ofInt o.amount)]) := by
      refine Node.mem_find.2 ⟨Index.mem_live_single _, ?_⟩
      refine (Catalogue.holds_treeOf_boost hamount).2 (.inr ⟨o, ho, .inl ?_⟩)
      exact ⟨_, Index.value?_single.trans (if_pos rfl), Binary.ofInt_eq_self (by decide) _⟩
    rw [heq] at hmem
    obtain ⟨o', ho', hholds⟩ := (Catalogue.holds_treeOf_filter.1
      (Node.mem_find.1 hmem).2).resolve_left (List.ne_nil_of_mem ho)
    exact Catalogue.le_of_holds_single hgap (hamount o' ho') hholds
  · intro hle ix
    ext n
    rw [Node.mem_find, Node.mem_find, Catalogue.holds_treeOf_boost hamount,
      Catalogue.holds_treeOf_filter]
    refine and_congr_right fun _ => or_congr_right (exists_congr fun o => and_congr_right ?_)
    intro ho
    refine or_iff_right_of_imp fun hhas => ?_
    cases hgap : d.catalogue.gap? o.field with
    | none => exact (Catalogue.holds_filterClause_of_none hgap (hamount o ho)).2 hhas
    | some gap =>
      exact Catalogue.holds_filterClause_of_hasAmount hgap (hamount o ho) (hle o ho gap hgap) hhas

/-- Under the operator `or`, a detector in boost style and one in filter style find the same
    documents in every index, if the amounts with a gap stay below `2 ^ 63` up to the end of their
    ranges. -/
theorem find_eq_find (h : Catalogue.ofFields fields = .ok d.catalogue)
    (hcatalogue : d'.catalogue = d.catalogue) (hboost : d.style = .boost)
    (hfilter : d'.style = .filter) (hop : d.host.operatorFor r = .or)
    (hop' : d'.host.operatorFor r = .or)
    (hbelow : ∀ o ∈ d.detect r.query, ∀ gap ∈ d.catalogue.gap? o.field,
      o.amount + gap.distance < 2 ^ 63) :
    ∃ q q', d.parse r r.query = .ok q ∧ d'.parse r r.query = .ok q' ∧
      ∀ ix, q.find ix = q'.find ix := by
  obtain ⟨q, q', hq, hq', hiff⟩ := find_eq_find_iff h hcatalogue hboost hfilter hop hop'
  refine ⟨q, q', hq, hq', hiff.2 fun o ho gap hgap => ?_⟩
  have := hbelow o ho gap hgap
  omega

theorem find_eq_find_terabyte :
    let gap : Gap := ⟨.ofInt 50, by decide +kernel⟩
    let gigabyte : MeasureUnit := ⟨"gigabyte", ["GB"], some ⟨"2.0", by decide +kernel⟩, none⟩
    let fields : List Field := [⟨"capacity", some gap, [gigabyte]⟩]
    let d : Detector := ⟨"qty", .boost, ⟨fields⟩, {}⟩
    let d' : Detector := ⟨"strict", .filter, ⟨fields⟩, {}⟩
    let r : Request := ⟨"500 gb or 1000 gb", .empty⟩
    Catalogue.ofFields fields = .ok d.catalogue ∧ d'.catalogue = d.catalogue ∧
      d.style = .boost ∧ d'.style = .filter ∧ d.host.operatorFor r = .or ∧
      d'.host.operatorFor r = .or ∧
      (∀ o ∈ d.detect r.query, ∀ gap ∈ d.catalogue.gap? o.field,
        o.amount + gap.distance < 2 ^ 63) ∧
      ∃ q q', d.parse r r.query = .ok q ∧ d'.parse r r.query = .ok q' ∧
        ∀ ix, q.find ix = q'.find ix := by
  intro gap gigabyte fields d d' r
  have h : Catalogue.ofFields fields = .ok d.catalogue := by decide +kernel
  have hbelow : ∀ o ∈ d.detect r.query, ∀ gap ∈ d.catalogue.gap? o.field,
      o.amount + gap.distance < 2 ^ 63 := by decide +kernel
  exact ⟨h, rfl, rfl, rfl, rfl, rfl, hbelow, find_eq_find h rfl rfl rfl rfl rfl hbelow⟩

end Detector

end QuantityQuery
