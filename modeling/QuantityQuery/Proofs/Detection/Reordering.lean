import QuantityQuery.Detection.Expression
import QuantityQuery.Proofs.Catalogue.Reordering
import QuantityQuery.Proofs.Detection.Comparison
import QuantityQuery.Proofs.Detection.Longest

/-!
# Quantities for reordered fields

The order of the fields, of their units and of the variants decides what is found in a text
only where two variants have the same spelling. Where all spellings differ, the longest that
fits is the only one of its length (`Spelling.letters_eq_of_fits`), so it does not matter
where it stands in the table, and the scans go the same way
(`Catalogue.Reordered.takesAlike`). The clauses are then the same, too, as of a unit they only
say the boost, and of a gap only the distance.

* `Catalogue.Distinct`: all variants have different spellings;
* `Catalogue.reordered_detects`: reordered fields are accepted alike and detect the same.
-/

namespace QuantityQuery

/-! ### Spellings -/

namespace Spelling

variable {s s' : Spelling} {text : List Char}

/-- The same letters, for fields of one name and for reordered units. -/
structure Reordered (s s' : Spelling) : Prop where
  letters : s.letters = s'.letters
  field : s.field.name = s'.field.name
  unit : s.unit.Reordered s'.unit

theorem Reordered.symm (h : s.Reordered s') : s'.Reordered s :=
  ⟨h.letters.symm, h.field.symm, h.unit.symm⟩

theorem Reordered.fits (h : s.Reordered s') (hfits : s.fits text) : s'.fits text :=
  fits_of_letters h.letters hfits

end Spelling

namespace Catalogue

variable {fields fields' : List Field} {c c' : Catalogue}

/-- Without the blanks at their ends, all variants are different in lowercase. -/
def Distinct (fields : List Field) : Prop :=
  (fields.flatMap fun f => f.units.flatMap fun u =>
    u.variants.map fun v => lowercase (trim v.toList)).Nodup

instance (fields : List Field) : Decidable (Distinct fields) :=
  inferInstanceAs (Decidable (List.Nodup _))

/-- Where the variants are different, a spelling of the catalogue is known by its letters. -/
theorem Distinct.eq_of_letters (h : Distinct fields) (hc : ofFields fields = .ok c)
    {s t : Spelling} (hs : s ∈ c.spellings) (ht : t ∈ c.spellings)
    (hletters : s.letters = t.letters) : s = t := by
  obtain ⟨-, rfl⟩ := ofFields_eq_ok_iff.1 hc
  have hnodup : ((Catalogue.mk (fields.map Field.normalise)).declaredSpellings.map
      (·.letters)).Nodup := by
    simpa [declaredSpellings, List.map_flatMap, List.flatMap_map, Function.comp_def,
      Field.normalise, MeasureUnit.normalise, Distinct] using h
  rw [spellings, List.mem_mergeSort] at hs ht
  exact List.inj_on_of_nodup_map hnodup hs ht hletters

end Catalogue

/-! ### Scans -/

/-- The same amount, in fields of one name and in reordered units. -/
structure Occurrence.Reordered (o o' : Occurrence) : Prop where
  field : o.field = o'.field
  amount : o.amount = o'.amount
  unit : o.unit.Reordered o'.unit

namespace Catalogue

variable {fields fields' : List Field} {c c' : Catalogue}

namespace Reordered

theorem exists_spelling (h : Reordered c.fields c'.fields) {s : Spelling} (hs : s ∈ c.spellings) :
    ∃ s' ∈ c'.spellings, s.Reordered s' := by
  obtain ⟨f, hf, u, hu, v, hv, rfl⟩ := mem_spellings.1 hs
  obtain ⟨f', hf', hfield⟩ := exists_mem_of_rel h hf
  obtain ⟨u', hu', hunit⟩ := exists_mem_of_rel hfield.units hu
  have hmem := mem_spellings.2 ⟨f', hf', u', hu', v, hunit.variants.mem_iff.1 hv, rfl⟩
  exact ⟨_, hmem, rfl, hfield.name, hunit⟩

/-- Where no spelling fits, none of the reordered catalogue does. -/
theorem spellingAt?_eq_none (h : Reordered c.fields c'.fields) {text : List Char}
    (hnone : c.spellingAt? text = none) : c'.spellingAt? text = none := by
  refine List.find?_eq_none.2 fun s' hs' hfits => ?_
  obtain ⟨s, hs, hre⟩ := h.symm.exists_spelling hs'
  exact List.find?_eq_none.1 hnone s hs (hre.fits hfits)

variable (h : Reordered c.fields c'.fields)
  (hdistinct : ∀ s ∈ c.spellings, ∀ t ∈ c.spellings, s.letters = t.letters → s = t)

include h hdistinct

/-- The same spelling is taken, for it is the longest in both catalogues. -/
theorem spellingAt? (text : List Char) :
    Option.Rel Spelling.Reordered (c.spellingAt? text) (c'.spellingAt? text) := by
  cases hs : c.spellingAt? text with
  | none =>
    rw [h.spellingAt?_eq_none hs]
    exact .none
  | some s =>
    cases hs' : c'.spellingAt? text with
    | none =>
      rw [h.symm.spellingAt?_eq_none hs'] at hs
      cases hs
    | some s' =>
      have hmem := List.mem_of_find?_eq_some hs
      have hfits := List.find?_some hs
      have hfits' := List.find?_some hs'
      -- `r` and `t` are what `s` and `s'` are in the other catalogue.
      obtain ⟨r, hr, hsr⟩ := h.exists_spelling hmem
      obtain ⟨t, ht, hst⟩ := h.symm.exists_spelling (List.mem_of_find?_eq_some hs')
      have hle := length_le_of_spellingAt? hs ht (hst.fits hfits')
      have hge := length_le_of_spellingAt? hs' hr (hsr.fits hfits)
      rw [← hsr.letters] at hge
      rw [← hst.letters] at hle
      have hletters := Spelling.letters_eq_of_fits hfits hfits' (Nat.le_antisymm hge hle)
      rw [hdistinct s hmem t ht (hletters.trans hst.letters)]
      exact .some hst.symm

/-- Reordered catalogues take reordered spellings in every text. -/
theorem takesAlike (text : List Char) :
    TakesAlike Spelling.Reordered Occurrence.Reordered c c' text where
  spellingAt? := fun rest _ => h.spellingAt? hdistinct rest
  letters := fun _ _ hre => hre.letters
  found := fun _ _ hre _ => ⟨hre.field, rfl, hre.unit⟩

end Reordered

/-! ### Clauses -/

/-- A range clause is made of the name of the field, the amount and the distance of the gap. -/
theorem rangeClause?_eq (o : Occurrence) :
    c.rangeClause? o = ((c.gap? o.field).map Gap.distance).map fun distance =>
      .range o.field (o.amount - distance) (min (o.amount + distance) maxAmount) := by
  rw [rangeClause?, Option.map_map]
  rfl

/-- Where the gaps have the same distances, reordered quantities become the same clauses. -/
theorem clauses_eq (hgap : ∀ name, (c.gap? name).map Gap.distance = (c'.gap? name).map Gap.distance)
    (style : ClauseStyle) {o o' : Occurrence} (h : o.Reordered o') :
    c.clauses style o = c'.clauses style o' := by
  have hrange : c.rangeClause? o = c'.rangeClause? o' := by
    rw [rangeClause?_eq, rangeClause?_eq, hgap, h.field, h.amount]
  cases style <;> simp only [clauses, hrange, h.field, h.amount, h.unit.boost]

theorem flatMap_clauses_eq
    (hgap : ∀ name, (c.gap? name).map Gap.distance = (c'.gap? name).map Gap.distance)
    (style : ClauseStyle) {found found' : List Occurrence}
    (h : List.Forall₂ Occurrence.Reordered found found') :
    found.flatMap (c.clauses style) = found'.flatMap (c'.clauses style) := by
  induction h with
  | nil => rfl
  | cons hre _ ih => rw [List.flatMap_cons, List.flatMap_cons, clauses_eq hgap style hre, ih]

/-- Reordered fields are accepted or refused alike, and the gaps of the fields then have the same
    distances. Where all variants are different, the same amounts of the same units are found for
    the same fields in every text, and they become the same expression. -/
theorem reordered_detects (h : Reordered fields fields') :
    ((∃ c, ofFields fields = .ok c) ↔ ∃ c', ofFields fields' = .ok c') ∧
      ∀ c c', ofFields fields = .ok c → ofFields fields' = .ok c' →
        (∀ name, (c.gap? name).map Gap.distance = (c'.gap? name).map Gap.distance) ∧
          (Distinct fields → ∀ query : String,
            (c.scan query).map (fun o => (o.field, o.amount, o.unit.name)) =
                (c'.scan query).map (fun o => (o.field, o.amount, o.unit.name)) ∧
              ∀ style : ClauseStyle,
                c.expression style (c.scan query) = c'.expression style (c'.scan query)) := by
  refine ⟨⟨fun ⟨_, hc⟩ => h.exists_ofFields hc, fun ⟨_, hc'⟩ => h.symm.exists_ofFields hc'⟩, ?_⟩
  intro c c' hc hc'
  have hre := h.ofFields hc hc'
  have hgap := hre.gap? (wellFormed_of_ofFields hc).names
  refine ⟨hgap, fun hdistinct query => ?_⟩
  have hscan : List.Forall₂ Occurrence.Reordered (c.scan query) (c'.scan query) :=
    (hre.takesAlike (fun _ hs _ ht => hdistinct.eq_of_letters hc hs ht) _).scan
  constructor
  · rw [← List.forall₂_eq_eq_eq, List.forall₂_map_left_iff, List.forall₂_map_right_iff]
    exact hscan.imp fun o o' ho => by rw [ho.field, ho.amount, ho.unit.name]
  · intro style
    rw [expression, expression, flatMap_clauses_eq hgap style hscan]

/-- Two fields, the two units of one and the two variants of a unit change places. The gap of the
    field is another then, of the same distance. -/
theorem reordered_detects_gigabyte :
    let gap : Gap := ⟨.ofInt 12, by decide +kernel⟩
    let gap' : Gap := ⟨.ofRatio false 25 2, by decide +kernel⟩
    let gigabyte : MeasureUnit := ⟨"gigabyte", ["GB", "gigabyte"], none, some gap⟩
    let gigabyte' : MeasureUnit := ⟨"gigabyte", ["gigabyte", "GB"], none, some gap⟩
    let terabyte : MeasureUnit := ⟨"terabyte", ["TB"], none, some gap'⟩
    let size : Field := ⟨"size", none, [⟨"inch", ["in"], none, none⟩]⟩
    let fields : List Field := [⟨"capacity", none, [gigabyte, terabyte]⟩, size]
    let fields' : List Field := [size, ⟨"capacity", none, [terabyte, gigabyte']⟩]
    Reordered fields fields' ∧ Distinct fields ∧
      ∃ c c', ofFields fields = .ok c ∧ ofFields fields' = .ok c' ∧ c.gap? "capacity" = some gap ∧
        c'.gap? "capacity" = some gap' ∧ ∀ query style,
          c.expression style (c.scan query) = c'.expression style (c'.scan query) := by
  intro gap gap' gigabyte gigabyte' terabyte size fields fields'
  have hunits : Multiset.Rel MeasureUnit.Reordered [gigabyte, terabyte] [terabyte, gigabyte'] :=
    rel_of_perm (.swap ..) (.cons (.refl _) (.cons ⟨rfl, rfl, rfl, .swap ..⟩ .nil))
  have h : Reordered fields fields' :=
    rel_of_perm (.swap ..) (.cons (.refl _) (.cons ⟨rfl, rfl, hunits⟩ .nil))
  have hdistinct : Distinct fields := by decide +kernel
  have hc : ofFields fields = .ok ⟨fields.map Field.normalise⟩ := by decide +kernel
  have hc' : ofFields fields' = .ok ⟨fields'.map Field.normalise⟩ := by decide +kernel
  obtain ⟨-, hdetects⟩ := reordered_detects h
  exact ⟨h, hdistinct, _, _, hc, hc', by decide +kernel, by decide +kernel, fun query style =>
    ((hdetects _ _ hc hc').2 hdistinct query).2 style⟩

end Catalogue

end QuantityQuery
