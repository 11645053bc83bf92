import QuantityQuery.Detection.Expression
import QuantityQuery.Proofs.Detection.Comparison
import QuantityQuery.Proofs.Detection.Longest

/-!
# Further fields

Fields that are added to a catalogue at its end change nothing of what is found in a text
that none of their new spellings occurs in (`Catalogue.scan_append`). At a place in the text a
spelling of theirs can only fit where one of the catalogue with the same letters does, and
that one is declared before it (`Catalogue.spellingAt?_appendFields`). The gaps of the fields that
were there before stay what they are, and so do the expressions.
-/

namespace QuantityQuery.Catalogue

variable {fields more : List Field} {c c' : Catalogue} {letters text : List Char}

/-! ### Spellings -/

/-- What is declared by some fields is a spelling of their catalogue. -/
theorem declares_iff_mem : Declares fields letters ↔
    ∃ t ∈ (⟨fields.map Field.normalise⟩ : Catalogue).declaredSpellings, t.letters = letters := by
  simp [Declares, Field.Declares, MeasureUnit.Declares, declaredSpellings, Field.normalise,
    MeasureUnit.normalise, and_assoc]

/-- A catalogue of more fields has the spellings of the fewer ones before all others. -/
theorem exists_declaredSpellings_append (h : ofFields fields = .ok c)
    (h' : ofFields (fields ++ more) = .ok c') :
    ∃ added, c'.declaredSpellings = c.declaredSpellings ++ added ∧
      ∀ t ∈ added, Declares more t.letters := by
  obtain ⟨-, rfl⟩ := ofFields_eq_ok_iff.1 h
  obtain ⟨-, rfl⟩ := ofFields_eq_ok_iff.1 h'
  refine ⟨(⟨more.map Field.normalise⟩ : Catalogue).declaredSpellings, ?_, fun t ht =>
    declares_iff_mem.2 ⟨t, ht, rfl⟩⟩
  rw [declaredSpellings, declaredSpellings, declaredSpellings, List.map_append, List.flatMap_append]

/-- Where no spelling fits that only the added fields have, the same spelling is taken. -/
theorem spellingAt?_appendFields (h : ofFields fields = .ok c)
    (h' : ofFields (fields ++ more) = .ok c')
    (hmore : ∀ letters, Declares more letters → Declares fields letters ∨ ¬ letters <+: text) :
    c'.spellingAt? text = c.spellingAt? text := by
  obtain ⟨added, hadded, hdeclares⟩ := exists_declaredSpellings_append h h'
  -- An added spelling that fits has the letters of one that was there before.
  have hbefore : ∀ t ∈ added, t.fits text →
      ∃ r ∈ c.declaredSpellings, r.letters = t.letters ∧ r.fits text := by
    intro t ht hfits
    obtain ⟨after, htext, -⟩ := Spelling.fits_iff.1 hfits
    have hdeclared := (hmore _ (hdeclares t ht)).resolve_right (not_not.2 ⟨after, htext.symm⟩)
    obtain ⟨-, rfl⟩ := ofFields_eq_ok_iff.1 h
    obtain ⟨r, hr, hletters⟩ := declares_iff_mem.1 hdeclared
    exact ⟨r, hr, hletters, Spelling.fits_of_letters hletters.symm hfits⟩
  cases hs : c.spellingAt? text with
  | none =>
    rw [spellingAt?_eq_none_iff] at hs ⊢
    intro t ht hfits
    rcases List.mem_append.1 (hadded ▸ ht) with ht | ht
    · exact hs t ht hfits
    · obtain ⟨r, hr, -, hrfits⟩ := hbefore t ht hfits
      exact hs r hr hrfits
  | some s =>
    obtain ⟨hfits, hlongest, hfirst⟩ := spellingAt?_eq_some_iff.1 hs
    refine spellingAt?_eq_some_iff.2 ⟨hfits, fun t ht htfits => ?_, ?_⟩
    · rcases List.mem_append.1 (hadded ▸ ht) with ht | ht
      · exact hlongest t ht htfits
      · obtain ⟨r, hr, hletters, hrfits⟩ := hbefore t ht htfits
        exact hletters ▸ hlongest r hr hrfits
    · rw [hadded, List.find?_append, hfirst, Option.some_or]

/-! ### Gaps and clauses -/

/-- The fields that were there before keep their gaps. -/
theorem gap?_append (h : ofFields fields = .ok c) (h' : ofFields (fields ++ more) = .ok c')
    {f : Field} (hf : f ∈ c.fields) : c'.gap? f.name = c.gap? f.name := by
  obtain ⟨-, rfl⟩ := ofFields_eq_ok_iff.1 h
  obtain ⟨-, rfl⟩ := ofFields_eq_ok_iff.1 h'
  obtain ⟨g, hg⟩ := Option.isSome_iff_exists.1
    (List.find?_isSome (p := (·.name = f.name)).2 ⟨f, hf, decide_eq_true rfl⟩)
  dsimp only at hg
  rw [gap?, gap?, field?, field?, List.map_append, List.find?_append, hg, Option.some_or]

theorem clauses_append (h : ofFields fields = .ok c) (h' : ofFields (fields ++ more) = .ok c')
    (style : ClauseStyle) {query : String} {o : Occurrence} (ho : o ∈ c.scan query) :
    c'.clauses style o = c.clauses style o := by
  obtain ⟨-, f, hf, hfield, -⟩ := mem_scan ho
  have hgap := gap?_append h h' hf
  rw [← hfield] at hgap
  cases style <;> rw [clauses, clauses, rangeClause?, rangeClause?, hgap]

/-- Where every spelling of the added fields is one of the fields before them, or does not occur in
    the text, the same is found in the text and it becomes the same expression. -/
theorem scan_append (h : ofFields fields = .ok c) (h' : ofFields (fields ++ more) = .ok c')
    {query : String} (hmore : ∀ letters, Declares more letters →
      Declares fields letters ∨ ¬ letters <:+: lowercase query.toList) :
    c'.scan query = c.scan query ∧
      ∀ style, c'.expression style (c'.scan query) = c.expression style (c.scan query) := by
  have hscan : c'.scan query = c.scan query := by
    refine scan_eq_of_spellingAt? fun rest hrest => ?_
    refine spellingAt?_appendFields h h' fun letters hletters => ?_
    refine (hmore letters hletters).imp_right fun hnot hfront => ?_
    exact hnot (hfront.isInfix.trans hrest.isInfix)
  refine ⟨hscan, fun style => ?_⟩
  rw [hscan, expression, expression]
  exact congrArg expressionOf (List.flatMap_congr fun o ho => clauses_append h h' style ho)

/-- The added field has a spelling that is there already, and one that the text does not have. -/
theorem scan_append_gigabyte :
    let capacity : Field := ⟨"capacity", none, [⟨"gigabyte", ["GB"], none, none⟩]⟩
    let rate : Field := ⟨"rate", none, [⟨"gigabit", ["gb", "gbit"], none, none⟩]⟩
    let c : Catalogue := ⟨[capacity.normalise]⟩
    let c' : Catalogue := ⟨[capacity.normalise, rate.normalise]⟩
    ofFields [capacity] = .ok c ∧ ofFields ([capacity] ++ [rate]) = .ok c' ∧
      c'.scan "64 GB" = c.scan "64 GB" ∧
        ∀ style, c'.expression style (c'.scan "64 GB") = c.expression style (c.scan "64 GB") := by
  intro capacity rate c c'
  have h : ofFields [capacity] = .ok c := by decide +kernel
  have h' : ofFields ([capacity] ++ [rate]) = .ok c' := by decide +kernel
  refine ⟨h, h', scan_append h h' ?_⟩
  rintro letters ⟨f, hf, u, hu, v, hv, rfl⟩
  obtain rfl := List.mem_singleton.1 hf
  obtain rfl := List.mem_singleton.1 hu
  rcases List.mem_cons.1 hv with rfl | hv
  · refine .inl ⟨capacity, .head _, _, .head _, "GB", .head _, ?_⟩
    decide +kernel
  · obtain rfl := List.mem_singleton.1 hv
    refine .inr ?_
    decide +kernel

end QuantityQuery.Catalogue
