import QuantityQuery.Proofs.Parser.Detector
import QuantityQuery.Proofs.Query.Bounds
import QuantityQuery.Proofs.Search.Combination
import QuantityQuery.Proofs.Search.Execution

/-!
# What a detector finds

The tree that a detector makes of an input is executed against an index. As long as all
numbers are exact, a detector in filter style finds the documents with the values that
the quantities of the input ask for (`Detector.mem_find_filter`).

Ends of ranges do not stand beyond `2 ^ 63`, so a greater amount is not found within its
own gap: the amounts that are found are those up to `2 ^ 63 + 2 ^ 10`, which are rounded
down to it (`Detector.finds_amount_iff`). The largest amount is not found
(`Detector.amount_not_found`).

* `Catalogue.Admits`: the values that a quantity asks for;
* `Catalogue.Met`: a document has such a value;
* `Gap.bounds`: the bounds that are read for an amount with a gap.
-/

namespace QuantityQuery

attribute [local instance (2000)] instPowNat

variable {ix : Index} {n : Nat}

/-! ### Trees of conditions -/

namespace Node

variable {qs : List Node}

theorem holds_treeOf_and : (Operator.and.treeOf qs).Holds ix n ↔ ∀ q ∈ qs, q.Holds ix n := by
  cases qs with
  | nil => simp [Operator.treeOf]
  | cons q rest =>
    rw [Operator.treeOf_eq_combine (List.cons_ne_nil q rest)]
    exact holds_combine_and

theorem holds_treeOf_or :
    (Operator.or.treeOf qs).Holds ix n ↔ qs = [] ∨ ∃ q ∈ qs, q.Holds ix n := by
  cases qs with
  | nil => simp [Operator.treeOf]
  | cons q rest =>
    rw [or_iff_right (List.cons_ne_nil q rest),
      Operator.treeOf_eq_combine (List.cons_ne_nil q rest)]
    exact holds_combine_or

end Node

/-! ### Conditions on amounts -/

/-- The bounds of the amounts within a gap, as they are read. -/
def Gap.bounds (gap : Gap) (amount : Nat) : Bounds where
  gte := some (.ofNumber (.ofInt (gap.range amount).1))
  lte := some (.ofNumber (.ofInt (gap.range amount).2))

namespace Gap

variable {gap : Gap} {amount : Nat}

theorem range_fst_le (gap : Gap) (amount : Nat) : (gap.range amount).1 ≤ amount := Nat.sub_le ..

theorem le_range_snd (h : amount ≤ maxAmount) : amount ≤ (gap.range amount).2 :=
  le_min (Nat.le_add_right ..) h

theorem range_snd_le (gap : Gap) (amount : Nat) : (gap.range amount).2 ≤ maxAmount :=
  min_le_right ..

theorem cast_range_fst (gap : Gap) (amount : Nat) :
    ((gap.range amount).1 : ℚ) = max 0 ((amount : ℚ) - gap.distance) := by
  change ((amount - gap.distance : Nat) : ℚ) = _
  rcases Nat.le_total gap.distance amount with h | h
  · have hpos : (0 : ℚ) ≤ amount - gap.distance := sub_nonneg.2 (Nat.cast_le.2 h)
    rw [Nat.cast_sub h, max_eq_right hpos]
  · have hneg : (amount : ℚ) - gap.distance ≤ 0 := sub_nonpos.2 (Nat.cast_le.2 h)
    rw [Nat.sub_eq_zero_of_le h, max_eq_left hneg, Nat.cast_zero]

/-- An upper end that is below the largest amount is not cut. -/
theorem range_snd_eq (h : (gap.range amount).2 < maxAmount) :
    (gap.range amount).2 = amount + gap.distance :=
  min_eq_left (le_of_not_ge fun hge => absurd h (min_eq_right hge).not_lt)

theorem admits_bounds_iff (h : amount ≤ maxAmount) {v : Double} :
    (gap.bounds amount).Admits v ↔
      ∃ i, v.order = some i ∧
        (min (Double.place (gap.range amount).1) (Double.place (2 ^ 63)) : Nat) ≤ i ∧
        i ≤ (min (Double.place (gap.range amount).2) (Double.place (2 ^ 63)) : Nat) :=
  Bounds.admits_whole_iff (Nat.lt_of_le_of_lt ((gap.range_fst_le amount).trans h) (by decide))
    (Nat.lt_of_le_of_lt (gap.range_snd_le amount) (by decide))

/-- An amount that is read between two ends stands at most at `2 ^ 63`. -/
theorem le_of_admits (h : amount ≤ maxAmount) {m : Nat}
    (hm : (gap.bounds amount).Admits (.ofInt m)) : m ≤ 2 ^ 63 + 2 ^ 10 := by
  obtain ⟨i, hi, _, hle⟩ := (admits_bounds_iff h).1 hm
  rw [Binary.order_ofInt (by decide)] at hi
  obtain rfl := Option.some.inj hi
  exact Double.place_le_place_iff.1 ((Int.ofNat_le.1 hle).trans (min_le_right ..))

/-- An amount is read between the ends of its own range unless it is rounded beyond `2 ^ 63`. -/
theorem admits_amount_iff (h : amount ≤ maxAmount) {v : Double} (hv : v.eq (.ofInt amount)) :
    (gap.bounds amount).Admits v ↔ amount ≤ 2 ^ 63 + 2 ^ 10 := by
  obtain ⟨i, hvi, hi⟩ := Binary.eq_iff.1 hv
  rw [admits_bounds_iff h, hvi, ← hi, Binary.order_ofInt (by decide)]
  simp only [Option.some.injEq, exists_eq_left', Int.ofNat_le]
  have hlow := Double.place_mono (gap.range_fst_le amount)
  have hhigh := Double.place_mono (gap.le_range_snd h)
  rw [← Double.place_le_place_iff]
  constructor
  · rintro ⟨_, hle⟩
    exact hle.trans (min_le_right ..)
  · intro hle
    exact ⟨(min_le_left ..).trans hlow, le_min hhigh hle⟩

end Gap

namespace AmountClause

variable {field : String}

theorem holds_exact {amount : Nat} {boost : Option Boost} (h : amount ≤ maxAmount) :
    (exact field amount boost).condition.Holds ix n ↔
      ∃ v ∈ ix.value? field n, v.eq (.ofInt amount) := by
  rw [condition, Node.Holds, TermQuery.value?_amount h]
  simp only [Option.mem_some, exists_eq_left']

theorem holds_range {low high : Nat} :
    (range field low high).condition.Holds ix n ↔ ∃ v ∈ ix.value? field n,
      Bounds.Admits { gte := some (.ofNumber (.ofInt low)), lte := some (.ofNumber (.ofInt high)) }
        v := by
  rw [condition, Node.Holds]

/-- A clause asks for documents that have a value of its field. -/
theorem exists_value_of_holds {clause : AmountClause} (h : clause.condition.Holds ix n) :
    ∃ v, v ∈ ix.value? clause.field n := by
  cases clause with
  | exact field amount boost =>
    rw [condition, Node.Holds] at h
    obtain ⟨_, _, v, hv, _⟩ := h
    exact ⟨v, hv⟩
  | range field low high =>
    obtain ⟨v, hv, _⟩ := holds_range.1 h
    exact ⟨v, hv⟩

/-- A clause for an exact amount asks for the documents with this value. -/
theorem holds_exact_iff {amount : Nat} {boost : Option Boost} (h : amount ≤ 2 ^ 53) :
    (exact field amount boost).condition.Holds ix n ↔
      ∃ v ∈ ix.value? field n, ∃ x ∈ v.toRat?, x = amount := by
  rw [holds_exact (h.trans (by decide))]
  simp only [Binary.eq_ofInt_iff (by decide) (Double.holds_whole h), exists_eq_right,
    Option.mem_def]

/-- A clause for a range with exact ends asks for the documents with a value between them. -/
theorem holds_range_iff {low high : Nat} (hlow : low ≤ 2 ^ 53) (hhigh : high ≤ 2 ^ 53) :
    (range field low high).condition.Holds ix n ↔
      ∃ v ∈ ix.value? field n, ∃ x ∈ v.toRat?, (low : ℚ) ≤ x ∧ x ≤ high := by
  rw [holds_range]
  refine exists_congr fun v => and_congr_right fun _ => ?_
  rw [Bounds.admits_between_iff, Bound.ofNumber_ofInt hlow, Bound.ofNumber_ofInt hhigh,
    ← Binary.between_ofInt_iff (by decide) (Double.holds_whole hlow) (Double.holds_whole hhigh)]
  simp only [Bound.value?, Option.mem_some, exists_eq_left']

end AmountClause

/-! ### The detector in filter style -/

namespace Catalogue

variable (c : Catalogue) (o : Occurrence)

/-- The clause for a quantity in filter style. -/
def filterClause : AmountClause := (c.rangeClause? o).getD (.exact o.field o.amount none)

theorem flatMap_conditions_filter (found : List Occurrence) :
    found.flatMap (c.conditions .filter) = found.map fun o => (c.filterClause o).condition :=
  List.map_eq_flatMap.symm

variable {c o}

theorem holds_treeOf_filter {found : List Occurrence} :
    (Operator.or.treeOf (found.map fun o => (c.filterClause o).condition)).Holds ix n ↔
      found = [] ∨ ∃ o ∈ found, (c.filterClause o).condition.Holds ix n := by
  rw [Node.holds_treeOf_or, List.map_eq_nil_iff]
  simp only [List.mem_map, exists_exists_and_eq_and]

theorem filterClause_of_none (h : c.gap? o.field = none) :
    c.filterClause o = .exact o.field o.amount none := by
  rw [filterClause, rangeClause?, h]
  rfl

theorem filterClause_of_gap {gap : Gap} (h : gap ∈ c.gap? o.field) :
    c.filterClause o = .range o.field (gap.range o.amount).1 (gap.range o.amount).2 := by
  rw [filterClause, rangeClause?, Option.mem_def.1 h]
  rfl

variable (c o)

/-- The values that a quantity asks for: the amount itself or, where the field has a gap, what is
    not negative and not farther from the amount than the distance. -/
def Admits (x : ℚ) : Prop :=
  match c.gap? o.field with
  | none => x = o.amount
  | some gap => max 0 ((o.amount : ℚ) - gap.distance) ≤ x ∧ x ≤ o.amount + gap.distance

/-- A document has a value that a quantity asks for. -/
def Met (ix : Index) (n : Nat) (o : Occurrence) : Prop :=
  ∃ v ∈ ix.value? o.field n, ∃ x ∈ v.toRat?, c.Admits o x

/-- The numbers that a quantity asks for are exact. -/
def IsExact : Prop :=
  o.amount ≤ 2 ^ 53 ∧ ∀ gap ∈ c.gap? o.field, (gap.range o.amount).2 ≤ 2 ^ 53

instance : Decidable (c.IsExact o) := inferInstanceAs (Decidable (_ ∧ _))

variable {c o}

/-- The clause for a quantity finds the documents that have a value it asks for. -/
theorem holds_filterClause (h : c.IsExact o) :
    (c.filterClause o).condition.Holds ix n ↔ c.Met ix n o := by
  unfold Met Admits
  cases hgap : c.gap? o.field with
  | none =>
    rw [filterClause_of_none hgap]
    exact AmountClause.holds_exact_iff h.1
  | some gap =>
    have hhigh := h.2 gap hgap
    have hlow := (gap.range_fst_le o.amount).trans h.1
    have hend := gap.range_snd_eq (Nat.lt_of_le_of_lt hhigh (by decide))
    rw [filterClause_of_gap hgap, AmountClause.holds_range_iff hlow hhigh, gap.cast_range_fst,
      hend, Nat.cast_add]

end Catalogue

/-! ### Documents that have the amount -/

/-- A document has the amount of a quantity, rounded to a number of the index, in its field. -/
def Occurrence.HasAmount (o : Occurrence) (ix : Index) (n : Nat) : Prop :=
  ∃ v ∈ ix.value? o.field n, v.eq (.ofInt o.amount)

instance {o : Occurrence} : Decidable (o.HasAmount ix n) :=
  inferInstanceAs (Decidable (∃ v ∈ _, _))

namespace Catalogue

variable {c : Catalogue} {o : Occurrence} {gap : Gap}

theorem holds_filterClause_of_hasAmount (hgap : gap ∈ c.gap? o.field) (ho : o.amount ≤ maxAmount)
    (hle : o.amount ≤ 2 ^ 63 + 2 ^ 10) (h : o.HasAmount ix n) :
    (c.filterClause o).condition.Holds ix n := by
  obtain ⟨v, hv, heq⟩ := h
  rw [filterClause_of_gap hgap, AmountClause.holds_range]
  exact ⟨v, hv, (gap.admits_amount_iff ho heq).2 hle⟩

/-- If an only value of a field with a gap is found by any quantity, it is at most `2 ^ 63`. -/
theorem le_of_holds_single {field : String} (hgap : gap ∈ c.gap? field)
    (ho : o.amount ≤ maxAmount) {m : Nat}
    (h : (c.filterClause o).condition.Holds (.single [(field, .ofInt m)]) 0) :
    m ≤ 2 ^ 63 + 2 ^ 10 := by
  have hmem : c.filterClause o ∈ c.clauses .filter o := List.mem_singleton_self _
  obtain ⟨v, hv⟩ := AmountClause.exists_value_of_holds h
  rw [field_of_mem_clauses hmem, Index.value?_single] at hv
  split at hv
  case isTrue heq =>
    -- The quantity asks for the field, so it asks for a range.
    rw [filterClause_of_gap (heq ▸ hgap), AmountClause.holds_range, heq, Index.value?_single,
      if_pos rfl] at h
    obtain ⟨v, hv, hadmits⟩ := h
    obtain rfl := Option.some.inj hv
    exact gap.le_of_admits ho hadmits
  case isFalse => cases hv

theorem range_mem_conditions (hgap : gap ∈ c.gap? o.field) :
    .range ⟨o.field, gap.bounds o.amount⟩ ∈ c.conditions .boost o := by
  rw [conditions, clauses, rangeClause?, Option.mem_def.1 hgap]
  exact List.mem_cons_of_mem _ List.mem_cons_self

end Catalogue

/-! ### Detectors -/

namespace Detector

variable {fields : List Field}

/-- An amount with a gap up to `2 ^ 63 + 2 ^ 10` is found: by a detector in filter style in every
    document that has it, and by one in boost style within the range that goes with it. A greater
    amount is not: there is a document that has it and is not found, and the range is below it. -/
theorem finds_amount_iff {c : Catalogue} (h : Catalogue.ofFields fields = .ok c) (name : String)
    (host : LexicalParser) (r : Request) {input : String} {o : Occurrence} (ho : o ∈ c.scan input)
    {gap : Gap} (hgap : gap ∈ c.gap? o.field) :
    (host.operatorFor r = .or →
      ∃ q, (⟨name, .filter, c, host⟩ : Detector).parse r input = .ok q ∧
        ((∀ ix, ∀ n ∈ ix.live, o.HasAmount ix n → n ∈ q.find ix) ↔ o.amount ≤ 2 ^ 63 + 2 ^ 10)) ∧
    ∃ qs, (⟨name, .boost, c, host⟩ : Detector).parse r input =
        .ok ((host.operatorFor r).treeOf qs) ∧
      .range ⟨o.field, gap.bounds o.amount⟩ ∈ qs ∧
      ∀ v : Double, v.eq (.ofInt o.amount) →
        ((gap.bounds o.amount).contains v ↔ o.amount ≤ 2 ^ 63 + 2 ^ 10) := by
  have hamount := (Catalogue.mem_scan ho).1
  constructor
  · intro hop
    refine ⟨_, parse_eq_treeOf _ h r input, ?_⟩
    rw [hop, Catalogue.flatMap_conditions_filter]
    constructor
    · -- Of the index with the amount as its only value nothing is found if it is too great.
      intro hfinds
      have hfound := hfinds (.single [(o.field, .ofInt o.amount)]) 0 (Index.mem_live_single _)
        ⟨_, Index.value?_single.trans (if_pos rfl), Binary.ofInt_eq_self (by decide) _⟩
      obtain ⟨o', ho', hholds⟩ := (Catalogue.holds_treeOf_filter.1
        (Node.mem_find.1 hfound).2).resolve_left (List.ne_nil_of_mem ho)
      exact Catalogue.le_of_holds_single hgap (Catalogue.mem_scan ho').1 hholds
    · intro hle ix n hn hv
      refine Node.mem_find.2 ⟨hn, Catalogue.holds_treeOf_filter.2 (.inr ⟨o, ho, ?_⟩)⟩
      exact Catalogue.holds_filterClause_of_hasAmount hgap hamount hle hv
  · have hmem := List.mem_flatMap_of_mem ho (Catalogue.range_mem_conditions hgap)
    refine ⟨_, parse_eq_treeOf _ h r input, hmem, fun v hv => ?_⟩
    rw [Bounds.contains_iff]
    exact gap.admits_amount_iff hamount hv

theorem finds_amount_iff_gigabyte :
    let gap : Gap := ⟨.ofInt 10, by decide +kernel⟩
    let u : MeasureUnit := ⟨"gigabyte", ["GB"], none, none⟩
    let fields : List Field := [⟨"capacity", some gap, [u]⟩]
    let c : Catalogue := ⟨fields⟩
    let o : Occurrence := ⟨"capacity", 64, u⟩
    let r : Request := ⟨"64 gb", .empty⟩
    let host : LexicalParser := {}
    Catalogue.ofFields fields = .ok c ∧ o ∈ c.scan r.query ∧ gap ∈ c.gap? o.field ∧
      host.operatorFor r = .or ∧
      (∃ q, (⟨"qty", .filter, c, host⟩ : Detector).parse r r.query = .ok q ∧
        ((∀ ix, ∀ n ∈ ix.live, o.HasAmount ix n → n ∈ q.find ix) ↔ o.amount ≤ 2 ^ 63 + 2 ^ 10)) ∧
      ∃ qs, (⟨"qty", .boost, c, host⟩ : Detector).parse r r.query =
          .ok ((host.operatorFor r).treeOf qs) ∧
        .range ⟨o.field, gap.bounds o.amount⟩ ∈ qs ∧
        ∀ v : Double, v.eq (.ofInt o.amount) →
          ((gap.bounds o.amount).contains v ↔ o.amount ≤ 2 ^ 63 + 2 ^ 10) := by
  intro gap u fields c o r host
  have h : Catalogue.ofFields fields = .ok c := by decide +kernel
  have ho : o ∈ c.scan r.query := by decide +kernel
  have hgap : gap ∈ c.gap? o.field := by decide +kernel
  obtain ⟨hfilter, hboost⟩ := finds_amount_iff h "qty" host r ho hgap
  exact ⟨h, ho, hgap, rfl, hfilter rfl, hboost⟩

/-- The largest amount is not found within its own gap. -/
theorem amount_not_found :
    let gap : Gap := ⟨.ofInt 10, by decide +kernel⟩
    let u : MeasureUnit := ⟨"gigabyte", ["GB"], none, none⟩
    let fields : List Field := [⟨"capacity", some gap, [u]⟩]
    let d : Detector := ⟨"qty", .filter, ⟨fields⟩, {}⟩
    let o : Occurrence := ⟨"capacity", maxAmount, u⟩
    let r : Request := ⟨"18446744073709551615 gb", .empty⟩
    let ix : Index := .single [("capacity", .ofInt maxAmount)]
    Catalogue.ofFields fields = .ok d.catalogue ∧ o ∈ d.detect r.query ∧
      gap ∈ d.catalogue.gap? o.field ∧ d.host.operatorFor r = .or ∧
      0 ∈ ix.live ∧ o.HasAmount ix 0 ∧
      (d.parse r r.query).toOption.any fun q => 0 ∉ q.find ix := by
  decide +kernel

end Detector

end QuantityQuery
