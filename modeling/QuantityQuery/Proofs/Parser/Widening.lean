import QuantityQuery.Proofs.Detection.Comparison
import QuantityQuery.Proofs.Parser.Found

/-!
# Wider gaps

Where the gaps of a catalogue are replaced by gaps that are at least as wide, no document is
lost (`Detector.find_subset_of_widened`). The gaps have no part in what is found in a text
(`Catalogue.Widened.scan`), each quantity becomes the same clauses with wider ranges
(`Catalogue.Widened.clauses`), and rounding and cutting the ends of a range keeps their order
(`AmountClause.Within.holds`).

* `Field.withoutGaps`: all of a field but its gaps;
* `Catalogue.Widened`: the fields differ in gaps only, and the ones of the second catalogue are
  at least as wide;
* `AmountClause.Within`: a clause asks for no more amounts than another one.
-/

namespace QuantityQuery

variable {ix : Index} {n : Nat}

/-! ### Catalogues without gaps -/

/-- All of a unit but its gap. -/
def MeasureUnit.withoutGap (u : MeasureUnit) : MeasureUnit := { u with gap := none }

/-- All of a field but its gap and the gaps of its units. -/
def Field.withoutGaps (f : Field) : Field :=
  { f with gap := none, units := f.units.map MeasureUnit.withoutGap }

/-- All of a spelling but the gaps of its field and its unit. -/
def Spelling.withoutGaps (s : Spelling) : Spelling :=
  ⟨s.letters, s.field.withoutGaps, s.unit.withoutGap⟩

/-- A field that differs from another one in gaps only. Its own gap is at least as wide, and there
    is one exactly if the other has one. -/
structure Field.Widened (f f' : Field) : Prop where
  same : f.withoutGaps = f'.withoutGaps
  gap : Option.Rel (fun gap gap' => gap.distance ≤ gap'.distance) f.gap f'.gap

namespace Catalogue

variable {c c' : Catalogue}

/-- All of a catalogue but its gaps. -/
def withoutGaps (c : Catalogue) : Catalogue := ⟨c.fields.map Field.withoutGaps⟩

theorem declaredSpellings_withoutGaps :
    c.withoutGaps.declaredSpellings = c.declaredSpellings.map Spelling.withoutGaps := by
  simp [withoutGaps, declaredSpellings, List.flatMap_map, List.map_flatMap, Field.withoutGaps,
    MeasureUnit.withoutGap, Spelling.withoutGaps, Function.comp_def]

theorem spellings_withoutGaps :
    c.withoutGaps.spellings = c.spellings.map Spelling.withoutGaps := by
  rw [spellings, declaredSpellings_withoutGaps, spellings]
  refine (List.map_mergeSort ?_).symm
  exact fun _ _ _ _ => rfl

/-- Gaps have no part in which spelling is taken. -/
theorem spellingAt?_withoutGaps (text : List Char) :
    c.withoutGaps.spellingAt? text = (c.spellingAt? text).map Spelling.withoutGaps := by
  rw [spellingAt?, spellings_withoutGaps, List.find?_map]
  rfl

/-- The fields of two catalogues differ in gaps only, and each field has no gap in both of them, or
    one in the second that is at least as wide as the one in the first. -/
def Widened (c c' : Catalogue) : Prop := List.Forall₂ Field.Widened c.fields c'.fields

namespace Widened

theorem withoutGaps_eq (h : c.Widened c') : c.withoutGaps = c'.withoutGaps := by
  refine congrArg mk ?_
  rw [← List.forall₂_eq_eq_eq, List.forall₂_map_left_iff, List.forall₂_map_right_iff]
  exact h.imp fun _ _ hf => hf.same

/-- A field has a gap in both catalogues or in none, and the second is at least as wide. -/
theorem gap? (h : c.Widened c') (name : String) :
    Option.Rel (fun gap gap' => gap.distance ≤ gap'.distance) (c.gap? name) (c'.gap? name) := by
  rw [Catalogue.gap?, Catalogue.gap?, field?, field?]
  unfold Widened at h
  generalize c.fields = fields, c'.fields = fields' at h
  induction h with
  | nil => exact .none
  | @cons f f' _ _ hf _ ih =>
    have hname : f.withoutGaps.name = f'.withoutGaps.name := congrArg Field.name hf.same
    change f.name = f'.name at hname
    rw [List.find?_cons, List.find?_cons, hname]
    split
    · exact hf.gap
    · exact ih

end Widened

end Catalogue

/-- The same amount of a unit with the same boost, meant for the same field. -/
structure Occurrence.Alike (o o' : Occurrence) : Prop where
  field : o.field = o'.field
  amount : o.amount = o'.amount
  boost : o.unit.boost = o'.unit.boost

/-- In every text the same is found but for the gaps of the units. -/
theorem Catalogue.Widened.scan {c c' : Catalogue} (h : c.Widened c') (query : String) :
    List.Forall₂ Occurrence.Alike (c.scan query) (c'.scan query) := by
  have halike : TakesAlike (fun s s' => s.withoutGaps = s'.withoutGaps) Occurrence.Alike c c'
      (lowercase query.toList) :=
    { spellingAt? := fun rest _ => by
        have hmap : (c.spellingAt? rest).map Spelling.withoutGaps =
            (c'.spellingAt? rest).map Spelling.withoutGaps := by
          rw [← spellingAt?_withoutGaps, h.withoutGaps_eq, spellingAt?_withoutGaps]
        generalize c.spellingAt? rest = s, c'.spellingAt? rest = s' at hmap ⊢
        cases s <;> cases s'
        case none.none => exact .none
        case some.some => exact .some (Option.some.inj hmap)
        all_goals cases hmap
      letters := fun s s' heq =>
        show s.withoutGaps.letters = s'.withoutGaps.letters by rw [heq]
      found := fun s s' heq _ =>
        { field := show s.withoutGaps.field.name = s'.withoutGaps.field.name by rw [heq]
          amount := rfl
          boost := show s.withoutGaps.unit.boost = s'.withoutGaps.unit.boost by rw [heq] } }
  exact halike.scan

/-! ### Clauses -/

/-- Every amount that the first clause asks for the second one asks for, too: it is the same clause,
    or one for a range around that of the first. -/
inductive AmountClause.Within : AmountClause → AmountClause → Prop
  | refl (clause : AmountClause) : Within clause clause
  | range {field : String} {low high low' high' : Nat} (hlow : low' ≤ low) (hhigh : high ≤ high')
    (hlow_lt : low < 2 ^ 64) (hhigh_lt : high' < 2 ^ 64) :
    Within (.range field low high) (.range field low' high')

/-- A wider range holds of the documents that a narrower one holds of: places keep the order of
    whole numbers, and so does the cut at `2 ^ 63`. -/
theorem AmountClause.Within.holds {clause clause' : AmountClause} (h : clause.Within clause')
    (hholds : clause.condition.Holds ix n) : clause'.condition.Holds ix n := by
  cases h with
  | refl => exact hholds
  | @range field low high low' high' hlow hhigh hlow_lt hhigh_lt =>
    obtain ⟨v, hv, hadmits⟩ := holds_range.1 hholds
    obtain ⟨i, hi, hle, hge⟩ :=
      (Bounds.admits_whole_iff hlow_lt (Nat.lt_of_le_of_lt hhigh hhigh_lt)).1 hadmits
    refine holds_range.2 ⟨v, hv, (Bounds.admits_whole_iff (Nat.lt_of_le_of_lt hlow hlow_lt)
      hhigh_lt).2 ⟨i, hi, le_trans (Int.ofNat_le.2 ?_) hle, le_trans hge (Int.ofNat_le.2 ?_)⟩⟩
    · exact min_le_min_right _ (Double.place_mono hlow)
    · exact min_le_min_right _ (Double.place_mono hhigh)

namespace Catalogue.Widened

variable {c c' : Catalogue} {o o' : Occurrence}

theorem rangeClause? (h : c.Widened c') (ho : o.Alike o') (hamount : o.amount ≤ maxAmount) :
    Option.Rel AmountClause.Within (c.rangeClause? o) (c'.rangeClause? o') := by
  have hgap := h.gap? o.field
  rw [Catalogue.rangeClause?, Catalogue.rangeClause?, ← ho.field, ← ho.amount]
  generalize c.gap? o.field = gap, c'.gap? o.field = gap' at hgap
  cases hgap with
  | none => exact .none
  | @some gap gap' hle =>
    refine .some (.range (Nat.sub_le_sub_left hle _) ?_ ?_ ?_)
    · exact min_le_min_right _ (Nat.add_le_add_left hle _)
    · exact Nat.lt_of_le_of_lt ((gap.range_fst_le _).trans hamount) (by decide)
    · exact Nat.lt_of_le_of_lt (gap'.range_snd_le _) (by decide)

/-- A quantity becomes the same clauses, with ranges that are at least as wide. -/
theorem clauses (h : c.Widened c') (style : ClauseStyle) (ho : o.Alike o')
    (hamount : o.amount ≤ maxAmount) :
    List.Forall₂ AmountClause.Within (c.clauses style o) (c'.clauses style o') := by
  have hrange := h.rangeClause? ho hamount
  cases style with
  | boost =>
    rw [Catalogue.clauses, Catalogue.clauses, ← ho.field, ← ho.amount, ← ho.boost]
    generalize c.rangeClause? o = range, c'.rangeClause? o' = range' at hrange
    refine .cons (.refl _) ?_
    cases hrange with
    | none => exact .nil
    | some hwithin => exact .cons hwithin .nil
  | filter =>
    rw [Catalogue.clauses, Catalogue.clauses, ← ho.field, ← ho.amount]
    generalize c.rangeClause? o = range, c'.rangeClause? o' = range' at hrange
    refine .cons ?_ .nil
    cases hrange with
    | none => exact .refl _
    | some hwithin => exact hwithin

theorem flatMap_clauses (h : c.Widened c') (style : ClauseStyle) {found found' : List Occurrence}
    (hfound : List.Forall₂ Occurrence.Alike found found')
    (hamount : ∀ o ∈ found, o.amount ≤ maxAmount) :
    List.Forall₂ AmountClause.Within (found.flatMap (c.clauses style))
      (found'.flatMap (c'.clauses style)) := by
  induction hfound with
  | nil => exact .nil
  | cons ho _ ih =>
    obtain ⟨hhead, htail⟩ := List.forall_mem_cons.1 hamount
    exact List.rel_append (h.clauses style ho hhead) (ih htail)

end Catalogue.Widened

/-! ### Documents -/

/-- Where each condition of a list follows from the one in its place in another list, the tree of
    the one list follows from that of the other. -/
theorem Node.holds_treeOf_mono {op : Operator} {qs qs' : List Node}
    (h : List.Forall₂ (fun q q' => q.Holds ix n → q'.Holds ix n) qs qs')
    (hholds : (op.treeOf qs).Holds ix n) : (op.treeOf qs').Holds ix n := by
  cases op with
  | and =>
    rw [holds_treeOf_and] at hholds ⊢
    induction h with
    | nil => exact hholds
    | cons hhead _ ih =>
      rw [List.forall_mem_cons] at hholds ⊢
      exact ⟨hhead hholds.1, ih hholds.2⟩
  | or =>
    rw [holds_treeOf_or] at hholds ⊢
    refine hholds.imp (fun hnil => ?_) fun hexists => ?_
    · subst hnil
      exact List.forall₂_nil_left_iff.1 h
    · clear hholds
      induction h with
      | nil => exact hexists
      | cons hhead _ ih =>
        rw [List.exists_mem_cons_iff] at hexists ⊢
        exact hexists.imp hhead ih

namespace Detector

variable {fields fields' : List Field} {c c' : Catalogue}

/-- With wider gaps a detector finds at least the documents that it finds with narrower ones, in
    every style, for every operator in force, every text and every index. -/
theorem find_subset_of_widened (h : Catalogue.ofFields fields = .ok c)
    (h' : Catalogue.ofFields fields' = .ok c') (hwidened : c.Widened c') (name name' : String)
    (style : ClauseStyle) (host : LexicalParser) (r : Request) (input : String) :
    ∃ q q', (⟨name, style, c, host⟩ : Detector).parse r input = .ok q ∧
      (⟨name', style, c', host⟩ : Detector).parse r input = .ok q' ∧
      ∀ ix, ∀ n ∈ q.find ix, n ∈ q'.find ix := by
  refine ⟨_, _, parse_eq_treeOf _ h r input, parse_eq_treeOf _ h' r input, fun ix n hn => ?_⟩
  obtain ⟨hlive, hholds⟩ := Node.mem_find.1 hn
  refine Node.mem_find.2 ⟨hlive, Node.holds_treeOf_mono ?_ hholds⟩
  have hclauses := hwidened.flatMap_clauses style (hwidened.scan input)
    fun o ho => (Catalogue.mem_scan ho).1
  change List.Forall₂ _ ((c.scan input).flatMap fun o => (c.clauses style o).map _)
    ((c'.scan input).flatMap fun o => (c'.clauses style o).map _)
  rw [← List.map_flatMap, ← List.map_flatMap, List.forall₂_map_left_iff, List.forall₂_map_right_iff]
  exact hclauses.imp fun _ _ hwithin => hwithin.holds

/-- The gap of the field comes from its unit, and is wider in the second catalogue. -/
theorem find_subset_of_widened_gigabyte :
    let gap : Gap := ⟨.ofInt 15, by decide +kernel⟩
    let gap' : Gap := ⟨.ofRatio false 31 2, by decide +kernel⟩
    let fields (g : Gap) : List Field :=
      [⟨"capacity", none, [⟨"gigabyte", ["GB"], none, some g⟩]⟩]
    let c (g : Gap) : Catalogue := ⟨(fields g).map Field.normalise⟩
    let r : Request := ⟨"64 gb", .empty⟩
    Catalogue.ofFields (fields gap) = .ok (c gap) ∧
      Catalogue.ofFields (fields gap') = .ok (c gap') ∧
      (c gap).Widened (c gap') ∧
      ∃ q q', (⟨"qty", .filter, c gap, {}⟩ : Detector).parse r r.query = .ok q ∧
        (⟨"wide", .filter, c gap', {}⟩ : Detector).parse r r.query = .ok q' ∧
        ∀ ix, ∀ n ∈ q.find ix, n ∈ q'.find ix := by
  intro gap gap' fields c r
  have h : Catalogue.ofFields (fields gap) = .ok (c gap) := by decide +kernel
  have h' : Catalogue.ofFields (fields gap') = .ok (c gap') := by decide +kernel
  have hwidened : (c gap).Widened (c gap') :=
    .cons ⟨by decide +kernel, .some (by decide +kernel)⟩ .nil
  exact ⟨h, h', hwidened,
    find_subset_of_widened h h' hwidened "qty" "wide" .filter {} r r.query⟩

end Detector

end QuantityQuery
