import QuantityQuery.Proofs.Detection.Scan

/-!
# The spelling that is taken

Of the spellings that fit at one place the longest is taken, and of those with the same
letters the one that is declared first (`Catalogue.spellingAt?_eq_some_iff`): the table is
sorted by length, and sorting keeps the order of declaration among equally long spellings.

* `Catalogue.Declares`: some field has a unit with a spelling;
* `Catalogue.FirstDeclares`: a field and a unit of it are the first that have it.
-/

namespace QuantityQuery

/-! ### Declarations -/

/-- A variant of the unit, without the blanks at its ends, has these letters in lowercase. -/
def MeasureUnit.Declares (u : MeasureUnit) (letters : List Char) : Prop :=
  ∃ v ∈ u.variants, lowercase (trim v.toList) = letters

/-- A unit of the field has a spelling. -/
def Field.Declares (f : Field) (letters : List Char) : Prop := ∃ u ∈ f.units, u.Declares letters

/-- A unit of one of the fields has a spelling. -/
def Catalogue.Declares (fields : List Field) (letters : List Char) : Prop :=
  ∃ f ∈ fields, f.Declares letters

/-- A field of the catalogue and a unit of it are the first that have a spelling. -/
structure Catalogue.FirstDeclares (c : Catalogue) (letters : List Char) (f : Field)
    (u : MeasureUnit) : Prop where
  field : ∃ earlier later, c.fields = earlier ++ f :: later ∧ ∀ g ∈ earlier, ¬ g.Declares letters
  unit : ∃ earlier later, f.units = earlier ++ u :: later ∧ ∀ w ∈ earlier, ¬ w.Declares letters
  declares : u.Declares letters

/-! ### Spellings that fit -/

namespace Spelling

variable {s t : Spelling} {text : List Char}

theorem length_le_of_fits (h : s.fits text) : s.letters.length ≤ text.length := by
  obtain ⟨after, rfl, -⟩ := fits_iff.1 h
  rw [List.length_append]
  exact Nat.le_add_right ..

/-- A spelling fits where its letters are all that is left of a text. -/
theorem fits_letters (s : Spelling) : s.fits s.letters :=
  fits_iff.2 ⟨[], (List.append_nil _).symm, fun _ _ _ => stops_nil⟩

theorem fits_of_letters (h : s.letters = t.letters) (hfits : s.fits text) : t.fits text := by
  rw [fits_iff, ← h]
  exact fits_iff.1 hfits

/-- Spellings of one length that fit at one place have the same letters. -/
theorem letters_eq_of_fits (hs : s.fits text) (ht : t.fits text)
    (hlength : s.letters.length = t.letters.length) : s.letters = t.letters := by
  obtain ⟨after, rfl, -⟩ := fits_iff.1 hs
  obtain ⟨after', heq, -⟩ := fits_iff.1 ht
  exact (List.append_inj heq hlength).1

end Spelling

namespace Catalogue

variable {fields : List Field} {c : Catalogue} {s : Spelling} {text letters : List Char}

/-! ### The order of the table -/

/-- The order that the table of spellings is sorted by. -/
theorem length_trans (a b d : Spelling) (hab : decide (b.letters.length ≤ a.letters.length))
    (hbd : decide (d.letters.length ≤ b.letters.length)) :
    decide (d.letters.length ≤ a.letters.length) := by
  simp only [decide_eq_true_eq] at hab hbd ⊢
  exact Nat.le_trans hbd hab

theorem length_total (a b : Spelling) :
    decide (b.letters.length ≤ a.letters.length) ||
      decide (a.letters.length ≤ b.letters.length) := by
  simp only [Bool.or_eq_true, decide_eq_true_eq]
  exact Nat.le_total ..

/-- Longer spellings stand in the table before shorter ones. -/
theorem pairwise_spellings :
    c.spellings.Pairwise fun s t => t.letters.length ≤ s.letters.length :=
  (List.pairwise_mergeSort length_trans length_total c.declaredSpellings).imp of_decide_eq_true

/-- Spellings of one length stand in the table as they are declared. -/
theorem filter_spellings_of_length {p : Spelling → Bool} {n : Nat}
    (hp : ∀ s, p s → s.letters.length = n) :
    c.spellings.filter p = c.declaredSpellings.filter p := by
  have hequal : (c.declaredSpellings.filter p).Pairwise
      fun a b => decide (b.letters.length ≤ a.letters.length) := by
    refine List.pairwise_of_forall_mem_list fun a ha b hb => ?_
    rw [hp a (List.mem_filter.1 ha).2, hp b (List.mem_filter.1 hb).2]
    exact decide_eq_true (Nat.le_refl _)
  have hsublist := List.sublist_mergeSort length_trans length_total hequal List.filter_sublist
  have hfilter := hsublist.filter p
  rw [List.filter_filter] at hfilter
  simp only [Bool.and_self] at hfilter
  refine (hfilter.eq_of_length ?_).symm
  exact ((List.mergeSort_perm _ _).filter _).length_eq.symm

/-- Spellings with the same letters stand in the table as they are declared. -/
theorem filter_spellings (letters : List Char) :
    c.spellings.filter (·.letters = letters) =
      c.declaredSpellings.filter (·.letters = letters) :=
  filter_spellings_of_length fun _ h => congrArg List.length (of_decide_eq_true h)

theorem find?_spellings (letters : List Char) :
    c.spellings.find? (·.letters = letters) = c.declaredSpellings.find? (·.letters = letters) := by
  rw [← List.head?_filter, filter_spellings, List.head?_filter]

/-- No spelling that fits is longer than the one that is taken. -/
theorem length_le_of_spellingAt? {t : Spelling} (h : c.spellingAt? text = some s)
    (ht : t ∈ c.spellings) (hfits : t.fits text) : t.letters.length ≤ s.letters.length := by
  have hsorted := c.pairwise_spellings
  obtain ⟨-, earlier, later, heq, hnone⟩ := List.find?_eq_some_iff_append.1 h
  rw [heq] at ht hsorted
  rcases List.mem_append.1 ht with ht | ht
  · exact absurd hfits (by simpa using hnone t ht)
  · rcases List.mem_cons.1 ht with rfl | ht
    · exact Nat.le_refl _
    · have hafter := List.pairwise_cons.1 (List.pairwise_append.1 hsorted).2.1
      exact hafter.1 t ht

/-- The spelling that is taken is the first in the table with its letters. -/
theorem find?_letters_of_spellingAt? (h : c.spellingAt? text = some s) :
    c.declaredSpellings.find? (·.letters = s.letters) = some s := by
  obtain ⟨hfits, earlier, later, heq, hnone⟩ := List.find?_eq_some_iff_append.1 h
  rw [← find?_spellings, List.find?_eq_some_iff_append]
  refine ⟨decide_eq_true rfl, earlier, later, heq, fun t ht => ?_⟩
  have hnot := hnone t ht
  rw [Bool.not_eq_true', decide_eq_false_iff_not]
  intro hletters
  rw [Spelling.fits_of_letters hletters.symm hfits] at hnot
  cases hnot

theorem fits_of_spellingAt? (h : c.spellingAt? text = some s) : s.fits text := by
  have hfits := List.find?_some h
  exact hfits

/-- The spelling that is taken fits, no longer one does, and it is the first declared with its
    letters. -/
theorem spellingAt?_eq_some_iff :
    c.spellingAt? text = some s ↔
      s.fits text ∧ (∀ t ∈ c.declaredSpellings, t.fits text →
        t.letters.length ≤ s.letters.length) ∧
      c.declaredSpellings.find? (·.letters = s.letters) = some s := by
  constructor
  · intro h
    refine ⟨fits_of_spellingAt? h, fun t ht hfits => ?_, find?_letters_of_spellingAt? h⟩
    exact length_le_of_spellingAt? h (List.mem_mergeSort.2 ht) hfits
  · rintro ⟨hfits, hlongest, hfirst⟩
    have hmem : s ∈ c.declaredSpellings := List.mem_of_find?_eq_some hfirst
    obtain ⟨t, ht⟩ := Option.isSome_iff_exists.1
      (List.find?_isSome (p := (·.fits text)).2 ⟨s, List.mem_mergeSort.2 hmem, hfits⟩)
    change c.spellingAt? text = some t at ht
    -- Both are longest, so they have the same letters, and there is one first with these.
    have hfitst := fits_of_spellingAt? ht
    have hmemt : t ∈ c.declaredSpellings := List.mem_mergeSort.1 (List.mem_of_find?_eq_some ht)
    have hle := length_le_of_spellingAt? ht (List.mem_mergeSort.2 hmem) hfits
    have hletters := Spelling.letters_eq_of_fits hfits hfitst
      (Nat.le_antisymm hle (hlongest t hmemt hfitst))
    have hfirstt := find?_letters_of_spellingAt? ht
    rw [← hletters, hfirst] at hfirstt
    rw [ht, hfirstt]

theorem spellingAt?_eq_none_iff :
    c.spellingAt? text = none ↔ ∀ t ∈ c.declaredSpellings, ¬ t.fits text := by
  rw [spellingAt?, List.find?_eq_none]
  exact forall_congr' fun t => by rw [spellings, List.mem_mergeSort]

/-! ### The first declaration -/

/-- Where all that is left of a text are the letters of a spelling, this spelling is taken. -/
theorem spellingAt?_letters (h : ∃ t ∈ c.declaredSpellings, t.letters = letters) :
    c.spellingAt? letters = c.declaredSpellings.find? (·.letters = letters) := by
  obtain ⟨t, ht, hletters⟩ := h
  obtain ⟨s, hs⟩ := Option.isSome_iff_exists.1
    (List.find?_isSome (p := (·.letters = letters)).2 ⟨t, ht, decide_eq_true hletters⟩)
  have heq : s.letters = letters := by simpa using List.find?_some hs
  rw [hs, spellingAt?_eq_some_iff, heq]
  refine ⟨heq ▸ s.fits_letters, fun t _ hfits => t.length_le_of_fits hfits, hs⟩

theorem declares_iff (h : ofFields fields = .ok c) {f : Field} (hf : f ∈ c.fields)
    {u : MeasureUnit} (hu : u ∈ f.units) :
    u.Declares letters ↔ ∃ v ∈ u.variants, lowercase v.toList = letters := by
  refine exists_congr fun v => and_congr_right fun hv => ?_
  rw [trim_variant_of_ofFields h hf hu hv]

/-- What is found first among the declared spellings belongs to the first field and unit that have
    it. -/
theorem firstDeclares_of_find? (h : ofFields fields = .ok c)
    (hs : c.declaredSpellings.find? (·.letters = letters) = some s) :
    c.FirstDeclares letters s.field s.unit := by
  rw [declaredSpellings, List.find?_flatMap] at hs
  obtain ⟨earlier, f, later, heq, hfound, hbefore⟩ := List.findSome?_eq_some_iff.1 hs
  rw [List.find?_flatMap] at hfound
  obtain ⟨earlier', u, later', heq', hvariant, hbefore'⟩ := List.findSome?_eq_some_iff.1 hfound
  obtain ⟨v, hv, rfl⟩ := List.mem_map.1 (List.mem_of_find?_eq_some hvariant)
  have hletters : lowercase v.toList = letters := by simpa using List.find?_some hvariant
  -- Where nothing is found, no unit has the spelling.
  have hnone : ∀ g ∈ c.fields, ∀ w ∈ g.units,
      (w.variants.map fun v => (⟨lowercase v.toList, g, w⟩ : Spelling)).find?
        (·.letters = letters) = none → ¬ w.Declares letters := by
    intro g hg w hw hnone hdeclares
    obtain ⟨x, hx, hxletters⟩ := (declares_iff h hg hw).1 hdeclares
    have := List.find?_eq_none.1 hnone _ (List.mem_map_of_mem hx)
    simp [hxletters] at this
  have hf : f ∈ c.fields := by simp [heq]
  refine ⟨⟨earlier, later, heq, ?_⟩, ⟨earlier', later', heq', ?_⟩, ?_⟩
  · rintro g hg ⟨w, hw, hdeclares⟩
    have hfree := hbefore g hg
    rw [List.find?_flatMap, List.findSome?_eq_none_iff] at hfree
    exact hnone g (by simp [heq, hg]) w hw (hfree w hw) hdeclares
  · intro w hw
    exact hnone f hf w (by simp [heq', hw]) (hbefore' w hw)
  · exact (declares_iff h hf (by simp [heq'])).2 ⟨v, hv, hletters⟩

end Catalogue

end QuantityQuery
