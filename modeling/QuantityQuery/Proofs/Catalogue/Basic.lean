import QuantityQuery.Proofs.Catalogue.WellFormed
import QuantityQuery.Proofs.Text.Character

/-!
# Accepted catalogues

What is true of the fields of every catalogue that was accepted, and of the spellings
that texts are searched by: names are valid (`Catalogue.nameFault?_of_ofFields`), and a
spelling begins with a character that is no blank (`Catalogue.exists_lowercase_eq_cons`).
-/

namespace QuantityQuery.Catalogue

variable {fields : List Field} {c : Catalogue}

/-- The fields of an accepted catalogue are well-formed. -/
theorem wellFormed_of_ofFields (h : ofFields fields = .ok c) : WellFormed c.fields := by
  obtain ⟨hwell, rfl⟩ := ofFields_eq_ok_iff.1 h
  exact hwell.normalise

/-- The fields of an accepted catalogue have valid names. -/
theorem nameFault?_of_ofFields (h : ofFields fields = .ok c) :
    ∀ f ∈ c.fields, Field.nameFault? f.name = none :=
  fun f hf => Field.nameFault?_eq_none_iff.2 ((wellFormed_of_ofFields h).each f hf).name

/-- The variants of the units of an accepted catalogue are trimmed. -/
theorem trim_variant_of_ofFields (h : ofFields fields = .ok c) {f : Field} (hf : f ∈ c.fields)
    {u : MeasureUnit} (hu : u ∈ f.units) {v : String} (hv : v ∈ u.variants) :
    trim v.toList = v.toList := by
  obtain ⟨-, rfl⟩ := ofFields_eq_ok_iff.1 h
  obtain ⟨f', _, rfl⟩ := List.mem_map.1 hf
  obtain ⟨u', _, rfl⟩ := List.mem_map.1 hu
  obtain ⟨v', _, rfl⟩ := List.mem_map.1 hv
  rw [toList_trimmed, trim_trim]

/-- A variant begins with a character that is neither a blank nor a digit. -/
theorem variant_of_ofFields (h : ofFields fields = .ok c) {f : Field} (hf : f ∈ c.fields)
    {u : MeasureUnit} (hu : u ∈ f.units) {v : String} (hv : v ∈ u.variants) :
    ∃ ch rest, v.toList = ch :: rest ∧ isBlank ch = false ∧ ch.isDigit = false := by
  have htrim := trim_variant_of_ofFields h hf hu hv
  obtain ⟨ch, rest, hcons, hdigit⟩ :=
    (((wellFormed_of_ofFields h).each f hf).units u hu).variants v hv
  have hstops := stops_trim v.toList
  rw [hcons] at hstops
  exact ⟨ch, rest, htrim ▸ hcons, stops_cons.1 hstops, hdigit⟩

/-- In lowercase, too, a variant begins with a character that is no blank. -/
theorem exists_lowercase_eq_cons (h : ofFields fields = .ok c) {f : Field} (hf : f ∈ c.fields)
    {u : MeasureUnit} (hu : u ∈ f.units) {v : String} (hv : v ∈ u.variants) :
    ∃ d rest, lowercase v.toList = d :: rest ∧ isBlank d = false := by
  obtain ⟨ch, more, hcons, hblank, -⟩ := variant_of_ofFields h hf hu hv
  obtain ⟨d, rest, hlower, hd⟩ := isBlank_lowercaseChar hblank
  exact ⟨d, rest ++ lowercase more,
    by rw [hcons, lowercase, List.flatMap_cons, hlower]; rfl, hd⟩

/-- The spellings are the lowercase variants of the units. -/
theorem mem_spellings {s : Spelling} :
    s ∈ c.spellings ↔ ∃ f ∈ c.fields, ∃ u ∈ f.units, ∃ v ∈ u.variants,
      s = ⟨lowercase v.toList, f, u⟩ := by
  simp only [spellings, List.mem_mergeSort, declaredSpellings, List.mem_flatMap, List.mem_map,
    eq_comm]

end QuantityQuery.Catalogue
