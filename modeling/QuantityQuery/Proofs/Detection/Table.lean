import QuantityQuery.Proofs.Detection.Longest

/-!
# The table of spellings

Every variant of an accepted catalogue has one entry in the table of spellings, by which
its field and its unit are found again (`Catalogue.IsTable`). Longer entries stand before
shorter ones, and entries of one length in the order of their declaration. So the first
entry that fits somewhere in a text is the one to take: a longest one, and of several
longest ones the first declared (`Catalogue.spellings_isTable`).

* `Spelling.StandsAt`: a spelling is written at a position of a text, where its word ends;
* `Catalogue.Takes`: the spelling to take at a position.

A longest spelling that runs into a word does not stand there. A shorter one, which ends
in a sign before that word, can still be taken.
-/

namespace QuantityQuery

/-- The spelling of a variant. -/
def Spelling.ofVariant : Field × MeasureUnit × String → Spelling
  | (f, u, v) => ⟨lowercase v.toList, f, u⟩

/-- The letters of the spelling begin at a position of the text, and the word at their end does
    not go on. -/
def Spelling.StandsAt (s : Spelling) (text : List Char) (position : Nat) : Prop :=
  ∃ after, text.drop position = s.letters ++ after ∧ EndsWord s.letters after

namespace Catalogue

variable {fields : List Field} {c : Catalogue} {s : Spelling} {text : List Char} {position : Nat}

/-- The entries are the spellings of all variants, sorted by their length. -/
structure IsTable (c : Catalogue) (table : List Spelling) : Prop where
  /-- There is one entry for each variant of a unit of a field. -/
  perm : table.Perm (c.declaredVariants.map Spelling.ofVariant)
  sorted : table.Pairwise fun s t => t.letters.length ≤ s.letters.length
  /-- Entries of one length stand in the order of their declaration. -/
  stable : ∀ n, table.filter (·.letters.length = n) =
    (c.declaredVariants.map Spelling.ofVariant).filter (·.letters.length = n)
  /-- The names of an entry lead to its field and its unit, which declares the spelling. -/
  resolves : ∀ s ∈ table, c.field? s.field.name = some s.field ∧
    s.field.unit? s.unit.name = some s.unit ∧
      ∃ v ∈ s.unit.variants, lowercase v.toList = s.letters

/-- The spelling stands at a position, no longer one does, and no earlier declared one of its
    length. -/
structure Takes (c : Catalogue) (text : List Char) (position : Nat) (s : Spelling) : Prop where
  stands : s.StandsAt text position
  longest : ∀ t ∈ c.declaredSpellings, t.StandsAt text position →
    t.letters.length ≤ s.letters.length
  first : ∃ earlier later, c.declaredSpellings = earlier ++ s :: later ∧
    ∀ t ∈ earlier, t.StandsAt text position → t.letters.length ≠ s.letters.length

/-! ### Entries -/

theorem declaredSpellings_eq_map :
    c.declaredSpellings = c.declaredVariants.map Spelling.ofVariant := by
  simp only [declaredSpellings, declaredVariants, List.map_flatMap, List.map_map]
  rfl

theorem spellings_perm : c.spellings.Perm (c.declaredVariants.map Spelling.ofVariant) := by
  rw [← declaredSpellings_eq_map]
  exact List.mergeSort_perm ..

/-- Among units whose names differ, a unit is found by its name. -/
theorem unit?_eq_some (h : ofFields fields = .ok c) {f : Field} (hf : f ∈ c.fields)
    {u : MeasureUnit} (hu : u ∈ f.units) : f.unit? u.name = some u :=
  (find?_name_eq_some_iff ((wellFormed_of_ofFields h).each f hf).unitNames).2 ⟨hu, rfl⟩

theorem isTable_spellings (h : ofFields fields = .ok c) : c.IsTable c.spellings where
  perm := spellings_perm
  sorted := pairwise_spellings
  stable n := by
    rw [← declaredSpellings_eq_map]
    exact filter_spellings_of_length fun s hs => of_decide_eq_true hs
  resolves s hs := by
    obtain ⟨f, hf, u, hu, v, hv, rfl⟩ := mem_spellings.1 hs
    have hfield := (field?_eq_some_iff (wellFormed_of_ofFields h).names).2 ⟨hf, rfl⟩
    exact ⟨hfield, unit?_eq_some h hf hu, v, hv, rfl⟩

/-! ### The entry that is taken -/

/-- Where a spelling stands, the spellings of its length that stand there have its letters. So it
    is the first of this length exactly if it is the first with these letters. -/
theorem find?_letters_eq_some_iff (hs : s.StandsAt text position) :
    c.declaredSpellings.find? (·.letters = s.letters) = some s ↔
      ∃ earlier later, c.declaredSpellings = earlier ++ s :: later ∧
        ∀ t ∈ earlier, t.StandsAt text position → t.letters.length ≠ s.letters.length := by
  have hsame : ∀ t : Spelling, (t.StandsAt text position → t.letters.length ≠ s.letters.length) ↔
      t.letters ≠ s.letters := by
    refine fun t => ⟨fun ht hletters => ?_, fun ht hstands hlength => ?_⟩
    · refine ht ?_ (congrArg List.length hletters)
      rw [Spelling.StandsAt, hletters]
      exact hs
    · exact ht (Spelling.letters_eq_of_fits (Spelling.fits_iff.2 hstands)
        (Spelling.fits_iff.2 hs) hlength)
  simp [List.find?_eq_some_iff_append, hsame]

theorem spellingAt?_eq_some_iff_takes :
    c.spellingAt? (text.drop position) = some s ↔ c.Takes text position s := by
  simp only [spellingAt?_eq_some_iff, Spelling.fits_iff]
  constructor
  · rintro ⟨hstands, hlongest, hfirst⟩
    exact ⟨hstands, hlongest, (find?_letters_eq_some_iff hstands).1 hfirst⟩
  · rintro ⟨hstands, hlongest, hfirst⟩
    exact ⟨hstands, hlongest, (find?_letters_eq_some_iff hstands).2 hfirst⟩

/-- The spellings of an accepted catalogue are the table of its variants. At every position of a
    text a spelling is taken if and only if one stands there: the longest, and of several longest
    ones the first declared. -/
theorem spellings_isTable (h : ofFields fields = .ok c) :
    c.IsTable c.spellings ∧ ∀ (text : List Char) (position : Nat),
      (c.spellingAt? (text.drop position) = none ↔
        ∀ s ∈ c.declaredSpellings, ¬ s.StandsAt text position) ∧
      ∀ s, c.spellingAt? (text.drop position) = some s ↔ c.Takes text position s := by
  refine ⟨isTable_spellings h, fun text position => ⟨?_, fun s => spellingAt?_eq_some_iff_takes⟩⟩
  simp only [spellingAt?_eq_none_iff, Spelling.fits_iff]
  rfl

/-- The longest spelling runs into a word here. The next one is declared for two fields, and taken
    for the first of them. -/
theorem spellings_isTable_inch :
    let inch : MeasureUnit := ⟨"inch", ["in", "in-a"], none, none⟩
    let inches : MeasureUnit := ⟨"inches", ["IN"], none, none⟩
    let size : Field := ⟨"size", none, [inch]⟩
    let fields : List Field := [size, ⟨"depth", none, [inches]⟩]
    let c : Catalogue := ⟨fields⟩
    ofFields fields = .ok c ∧ c.IsTable c.spellings ∧
      c.spellingAt? ("5 in-a1".toList.drop 2) = some ⟨"in".toList, size, inch⟩ := by
  intro inch inches size fields c
  have h : ofFields fields = .ok c := by decide +kernel
  obtain ⟨htable, htaken⟩ := spellings_isTable h
  have hlongest : ∀ t ∈ c.declaredSpellings, t.fits ("5 in-a1".toList.drop 2) →
      t.letters.length ≤ 2 := by
    decide +kernel
  refine ⟨h, htable, ((htaken _ 2).2 _).2 ⟨Spelling.fits_iff.1 (by decide), ?_, ?_⟩⟩
  · exact fun t ht hstands => hlongest t ht (Spelling.fits_iff.2 hstands)
  · exact ⟨[], _, rfl, List.forall_mem_nil _⟩

end Catalogue

end QuantityQuery
