import QuantityQuery.Proofs.Detection.Longest

/-!
# Spellings that are declared

Every variant of an accepted catalogue can be written: after an amount, with blanks between
them or not, it is found as the one quantity of the text, whatever capital letters it is
written with (`Catalogue.scan_spelled`). It is found for the first field and unit that have the
spelling. Only directly after the amount a variant as `.5in` would be taken for decimals.

The digits end where the variant begins, for nothing becomes a digit, a point or a comma in
lowercase (`eq_cons_of_lowercase_eq_cons`).
-/

namespace QuantityQuery

/-! ### Lowercase texts -/

theorem exists_lowercaseChar_eq_cons (c : Char) : ∃ d rest, lowercaseChar c = d :: rest := by
  cases hblank : isBlank c with
  | true => exact ⟨c, [], lowercaseChar_of_isBlank hblank⟩
  | false =>
    obtain ⟨d, rest, hlower, -⟩ := isBlank_lowercaseChar hblank
    exact ⟨d, rest, hlower⟩

theorem lowercase_eq_self {text : List Char} (h : ∀ c ∈ text, lowercaseChar c = [c]) :
    lowercase text = text := by
  induction text with
  | nil => rfl
  | cons c text ih =>
    obtain ⟨hc, htext⟩ := List.forall_mem_cons.1 h
    rw [lowercase, List.flatMap_cons, hc, ← lowercase, ih htext]
    rfl

/-- What begins with a digit, or a sign before the letters, in lowercase begins with it. -/
theorem eq_cons_of_lowercase_eq_cons {text more : List Char} {d : Char}
    (h : lowercase text = d :: more) (hpos : 0 < d.toNat) (hlt : d.toNat < 65) :
    ∃ rest, text = d :: rest ∧ lowercase rest = more := by
  cases text with
  | nil => cases h
  | cons c rest =>
    obtain ⟨e, rest', hlower⟩ := exists_lowercaseChar_eq_cons c
    rw [lowercase, List.flatMap_cons, hlower] at h
    obtain ⟨rfl, hrest⟩ := List.cons.inj h
    obtain ⟨rfl, rfl⟩ := eq_of_lowercaseChar_eq_cons hlower hpos hlt
    exact ⟨rest, rfl, hrest⟩

theorem isFractional_of_lowercase {text : List Char} (h : IsFractional (lowercase text)) :
    IsFractional text := by
  obtain ⟨point, next, more, heq, hpoint, hnext⟩ := h
  have hrange : 0 < point.toNat ∧ point.toNat < 65 := by rcases hpoint with rfl | rfl <;> decide
  have hdigit := isDigit_iff.1 hnext
  obtain ⟨rest, rfl, hrest⟩ := eq_cons_of_lowercase_eq_cons heq hrange.1 hrange.2
  obtain ⟨rest', rfl, -⟩ := eq_cons_of_lowercase_eq_cons hrest (by omega) (by omega)
  exact ⟨point, next, rest', rfl, hpoint, hnext⟩

/-- After blanks there are no decimals. -/
theorem not_isFractional_append {blanks rest : List Char} (hblanks : ∀ ch ∈ blanks, isBlank ch)
    (h : blanks = [] → ¬ IsFractional rest) : ¬ IsFractional (blanks ++ rest) := by
  cases blanks with
  | nil => exact h rfl
  | cons b blanks =>
    rintro ⟨point, next, more, heq, hpoint, -⟩
    obtain rfl := List.head_eq_of_cons_eq heq
    have hb := hblanks b List.mem_cons_self
    rcases hpoint with rfl | rfl <;> exact absurd hb (by decide)

namespace Catalogue

variable {fields : List Field} {c : Catalogue} {f : Field} {u : MeasureUnit} {v : String}

/-- In lowercase, too, a variant does not begin with a digit. -/
theorem stops_lowercase (h : ofFields fields = .ok c) (hf : f ∈ c.fields) (hu : u ∈ f.units)
    (hv : v ∈ u.variants) : Stops Char.isDigit (lowercase v.toList) := by
  intro d hd
  rw [Bool.eq_false_iff]
  intro hdigit
  have hrange := isDigit_iff.1 hdigit
  obtain ⟨more, hmore⟩ := List.head?_eq_some_iff.1 hd
  obtain ⟨rest, hrest, -⟩ := eq_cons_of_lowercase_eq_cons hmore (by omega) (by omega)
  obtain ⟨ch, rest', hcons, -, hch⟩ := variant_of_ofFields h hf hu hv
  obtain rfl := List.head_eq_of_cons_eq (hrest.symm.trans hcons)
  rw [hdigit] at hch
  cases hch

/-- Of the spellings that fit where only the letters of a variant are left, the one that is declared
    first is taken. -/
theorem exists_spellingAt?_lowercase (h : ofFields fields = .ok c) (hf : f ∈ c.fields)
    (hu : u ∈ f.units) (hv : v ∈ u.variants) :
    ∃ s, c.spellingAt? (lowercase v.toList) = some s ∧ s.letters = lowercase v.toList ∧
      c.FirstDeclares (lowercase v.toList) s.field s.unit := by
  have hmem : ⟨lowercase v.toList, f, u⟩ ∈ c.declaredSpellings :=
    List.mem_mergeSort.1 (mem_spellings.2 ⟨f, hf, u, hu, v, hv, rfl⟩)
  obtain ⟨s, hs⟩ := Option.isSome_iff_exists.1
    (List.find?_isSome (p := (·.letters = lowercase v.toList)).2 ⟨_, hmem, decide_eq_true rfl⟩)
  refine ⟨s, ?_, by simpa using List.find?_some hs, firstDeclares_of_find? h hs⟩
  rw [spellingAt?_letters ⟨_, hmem, rfl⟩, hs]

/-- Where the whole text is read as a quantity, nothing else is found. -/
theorem scanFrom_eq_singleton {before : Before} {ch : Char} {more : List Char} {o : Occurrence}
    (hch : ch.isDigit) (hfree : before.isFree)
    (hread : c.readQuantity before (ch :: more) = (some o, (ch :: more).length)) :
    c.scanFrom before (ch :: more) = [o] := by
  rw [scanFrom, if_pos (by rw [hch, hfree]; rfl), hread]
  simp [scanFrom]

/-- An amount, blanks or none, and a variant in capital or small letters: this is one quantity, for
    the first field and the first unit that have the spelling. -/
theorem scan_spelled (h : ofFields fields = .ok c) (hf : f ∈ c.fields) (hu : u ∈ f.units)
    (hv : v ∈ u.variants) {amount : Nat} (hamount : amount ≤ maxAmount) {blanks spelled : String}
    (hblanks : ∀ ch ∈ blanks.toList, isBlank ch)
    (hwhole : blanks = "" → ¬ IsFractional v.toList)
    (hspelled : lowercase spelled.toList = lowercase v.toList) :
    ∃ f' u', c.FirstDeclares (lowercase v.toList) f' u' ∧
      c.scan (toString amount ++ blanks ++ spelled) = [⟨f'.name, amount, u'⟩] := by
  obtain ⟨s, hs, hletters, hfirst⟩ := exists_spellingAt?_lowercase h hf hu hv
  refine ⟨s.field, s.unit, hfirst, ?_⟩
  obtain ⟨d, more, hcons, hd⟩ := exists_lowercase_eq_cons h hf hu hv
  have hstart : Stops isBlank (lowercase v.toList) := by
    rw [hcons]
    exact stops_cons.2 hd
  -- The digits and the blanks are their own lowercase.
  have hlower : lowercase (toString amount ++ blanks ++ spelled).toList =
      decimalDigits amount ++ (blanks.toList ++ lowercase v.toList) := by
    rw [String.toList_append, String.toList_append, lowercase, List.flatMap_append,
      List.flatMap_append, ← lowercase, ← lowercase, ← lowercase, hspelled, List.append_assoc,
      lowercase_eq_self fun ch hch => lowercaseChar_of_isBlank (hblanks ch hch),
      show (toString amount).toList = decimalDigits amount from Nat.toList_repr,
      lowercase_eq_self fun ch hch => lowercaseChar_of_isDigit (isDigit_of_mem_decimalDigits hch)]
  have hstops : Stops Char.isDigit (blanks.toList ++ lowercase v.toList) := by
    cases hb : blanks.toList with
    | nil => exact stops_lowercase h hf hu hv
    | cons b rest =>
      refine stops_cons.2 (Bool.eq_false_iff.2 fun hdigit => ?_)
      have hblank := hblanks b (by simp [hb])
      rw [isBlank_of_isDigit hdigit] at hblank
      cases hblank
  have hfrac : ¬ IsFractional (blanks.toList ++ lowercase v.toList) :=
    not_isFractional_append hblanks fun hnil hfrac =>
      hwhole (String.toList_eq_nil_iff.1 hnil) (isFractional_of_lowercase hfrac)
  -- The unit is read up to the end of the text.
  have hunit : c.unitAfter? (blanks.toList ++ lowercase v.toList) =
      some (s, blanks.toList ++ lowercase v.toList) := by
    rw [unitAfter?, dropWhile_append_of_stops hblanks hstart,
      takeWhile_append_of_stops hblanks hstart, hs, Option.map_some, hletters]
  have hread := readQuantity_whole (c := c) (isDigits_decimalDigits amount) hstops hfrac .start
  rw [digitsValue_decimalDigits, if_pos ⟨hamount, rfl⟩, hunit, Option.elim_some,
    ← List.length_append] at hread
  rw [scan, hlower]
  obtain ⟨ch, rest, hdigits⟩ := List.exists_cons_of_ne_nil (decimalDigits_ne_nil amount)
  rw [hdigits, List.cons_append] at hread ⊢
  have hch : ch ∈ decimalDigits amount := by simp [hdigits]
  exact scanFrom_eq_singleton (isDigit_of_mem_decimalDigits hch) rfl hread

/-- Two units have the spelling `gb`; it is found for the one that is declared first, also when it
    is asked for by the variant of the other one. -/
theorem scan_spelled_gigabyte :
    let gigabyte : MeasureUnit := ⟨"gigabyte", ["GB"], none, none⟩
    let gigabit : MeasureUnit := ⟨"gigabit", [" gb ", "gbit"], none, none⟩
    let fields : List Field := [⟨"capacity", none, [gigabyte]⟩, ⟨"rate", none, [gigabit]⟩]
    let c : Catalogue := ⟨fields.map Field.normalise⟩
    ofFields fields = .ok c ∧
      ∃ f' u', c.FirstDeclares (lowercase "gb".toList) f' u' ∧
        c.scan (toString 64 ++ "" ++ "Gb") = [⟨f'.name, 64, u'⟩] := by
  intro gigabyte gigabit fields c
  have h : ofFields fields = .ok c := by decide +kernel
  refine ⟨h, scan_spelled h (f := ⟨"rate", none, [gigabit.normalise]⟩) (u := gigabit.normalise)
    ?_ ?_ ?_ ?_ ?_ ?_ ?_⟩
  · exact .tail _ (.head _)
  · exact .head _
  · decide +kernel
  · decide
  · exact fun ch hch => absurd hch List.not_mem_nil
  · rintro - ⟨point, next, more, heq, hpoint, -⟩
    obtain rfl : 'g' = point := List.head_eq_of_cons_eq heq
    rcases hpoint with hpoint | hpoint <;> exact absurd hpoint (by decide)
  · decide +kernel

end Catalogue

end QuantityQuery
