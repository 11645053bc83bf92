import Mathlib.Data.List.Nodup
import Mathlib.Logic.ExistsUnique
import QuantityQuery.Catalogue.Basic
import QuantityQuery.Proofs.Text.Span

/-!
# Well-formed catalogues

What the fields of a catalogue have to be like, said of all of them at once, and not in the
order in which they are looked at: names are words and differ, units have spellings, the
gaps of a field agree. Fields are accepted exactly if they are well-formed, and are
accepted in their normal form, which is its own normal form
(`Catalogue.ofFields_wellFormed`).

* `MeasureUnit.WellFormed`, `Field.WellFormed`, `Catalogue.WellFormed`: the conditions;
* `Field.gaps`: the gaps of a field and of its units;
* `Catalogue.IsNormalForm`: what is made of accepted fields.
-/

namespace QuantityQuery

/-! ### Trimmed texts -/

/-- A trimmed text does not begin with a blank. -/
theorem stops_trim (text : List Char) : Stops isBlank (trim text) := by
  have hsuffix := List.dropWhile_suffix isBlank (l := (text.dropWhile isBlank).reverse)
  obtain ⟨rest, hrest⟩ := List.reverse_prefix.2 hsuffix
  rw [List.reverse_reverse] at hrest
  have hstops := stops_dropWhile isBlank text
  rw [← hrest] at hstops
  exact hstops.of_append

/-- A trimmed text does not end with a blank. -/
theorem stops_reverse_trim (text : List Char) : Stops isBlank (trim text).reverse := by
  rw [trim, List.reverse_reverse]
  exact stops_dropWhile isBlank _

@[simp] theorem trim_trim (text : List Char) : trim (trim text) = trim text := by
  rw [trim, (stops_trim text).dropWhile_eq_self, (stops_reverse_trim text).dropWhile_eq_self,
    List.reverse_reverse]

@[simp] theorem toList_trimmed (text : String) : (trimmed text).toList = trim text.toList :=
  String.toList_ofList

@[simp] theorem trimmed_trimmed (text : String) : trimmed (trimmed text) = trimmed text := by
  rw [trimmed, toList_trimmed, trim_trim, trimmed]

/-! ### Names that differ -/

/-- The names differ from each other and from those that were seen before them. -/
def Fresh (seen names : List String) : Prop := names.Nodup ∧ ∀ name ∈ names, name ∉ seen

@[simp] theorem fresh_nil {seen : List String} : Fresh seen [] := ⟨.nil, fun _ h => nomatch h⟩

theorem fresh_cons {seen names : List String} {name : String} :
    Fresh seen (name :: names) ↔ name ∉ seen ∧ Fresh (name :: seen) names := by
  rw [Fresh, List.nodup_cons, List.forall_mem_cons]
  constructor
  · rintro ⟨⟨hname, hnodup⟩, hseen, hnames⟩
    refine ⟨hseen, hnodup, fun n hn => List.not_mem_cons_of_ne_of_not_mem ?_ (hnames n hn)⟩
    exact fun heq => hname (heq ▸ hn)
  · rintro ⟨hseen, hnodup, hnames⟩
    have hnot : name ∉ names := fun hname => hnames name hname List.mem_cons_self
    exact ⟨⟨hnot, hnodup⟩, hseen, fun n hn => List.not_mem_of_not_mem_cons (hnames n hn)⟩

theorem fresh_nil_left {names : List String} : Fresh [] names ↔ names.Nodup :=
  and_iff_left fun _ _ => List.not_mem_nil

/-! ### Units -/

namespace MeasureUnit

/-- A unit with a name and with spellings, none of which begins with a digit. -/
structure WellFormed (u : MeasureUnit) : Prop where
  /-- Something in the name is no blank. -/
  name : ∃ c ∈ u.name.toList, isBlank c = false
  variants_ne_nil : u.variants ≠ []
  /-- Without the blanks at its ends, a variant begins with something that is no digit. -/
  variants : ∀ v ∈ u.variants, ∃ c rest, trim v.toList = c :: rest ∧ c.isDigit = false

theorem variantFault?_eq_none_iff {unit field v : String} :
    variantFault? unit field v = none ↔
      ∃ c rest, trim v.toList = c :: rest ∧ c.isDigit = false := by
  rw [variantFault?]
  cases trim v.toList with
  | nil => simp
  | cons c rest => simp

theorem fault?_eq_none_iff {u : MeasureUnit} {field : String} :
    u.fault? field = none ↔ u.WellFormed := by
  rw [fault?]
  constructor
  · intro h
    split at h
    · cases h
    · next hname =>
      split at h
      · cases h
      · next hvariants =>
        refine ⟨?_, by simpa using hvariants, fun v hv => ?_⟩
        · simpa [isBlankText] using hname
        · exact variantFault?_eq_none_iff.1 (List.findSome?_eq_none_iff.1 h v hv)
  · rintro ⟨hname, hne, hvariants⟩
    rw [if_neg (by simpa [isBlankText] using hname), if_neg (by simpa using hne),
      List.findSome?_eq_none_iff]
    exact fun v hv => variantFault?_eq_none_iff.2 (hvariants v hv)

theorem WellFormed.normalise {u : MeasureUnit} (h : u.WellFormed) : u.normalise.WellFormed where
  name := h.name
  variants_ne_nil := by simpa [MeasureUnit.normalise] using h.variants_ne_nil
  variants := by
    intro v hv
    obtain ⟨w, hw, rfl⟩ := List.mem_map.1 hv
    rw [toList_trimmed, trim_trim]
    exact h.variants w hw

@[simp] theorem normalise_normalise (u : MeasureUnit) : u.normalise.normalise = u.normalise := by
  simp [normalise]

end MeasureUnit

/-! ### Fields -/

/-- The gaps are all of one distance. -/
def Gap.Agree (gaps : List Gap) : Prop := ∀ g ∈ gaps, ∀ g' ∈ gaps, g.distance = g'.distance

/-- Gaps agree if they agree with the first of them. -/
theorem Gap.agree_cons {g : Gap} {gaps : List Gap} :
    Agree (g :: gaps) ↔ ∀ g' ∈ gaps, g.distance = g'.distance := by
  constructor
  · intro h g' hg'
    exact h g List.mem_cons_self g' (List.mem_cons_of_mem _ hg')
  · intro h
    have hfirst : ∀ g' ∈ g :: gaps, g.distance = g'.distance := List.forall_mem_cons.2 ⟨rfl, h⟩
    exact fun a ha b hb => (hfirst a ha).symm.trans (hfirst b hb)

namespace Field

/-- A letter or an underscore, then letters, digits, underscores, hyphens and points. -/
structure WellNamed (name : String) : Prop where
  word : ∃ first rest, name.toList = first :: rest ∧ (isAlphabetic first ∨ first = '_') ∧
    ∀ c ∈ rest, isAlphanumeric c ∨ c = '_' ∨ c = '-' ∨ c = '.'
  /-- In capital letters the name is no word of the query language. -/
  not_reserved : ∀ word ∈ reservedWords, name.toList.map Char.toUpper ≠ word.toList

theorem nameFault?_eq_none_iff {name : String} : nameFault? name = none ↔ WellNamed name := by
  have hword : isName name.toList ↔
      ∃ first rest, name.toList = first :: rest ∧ (isAlphabetic first ∨ first = '_') ∧
        ∀ c ∈ rest, isAlphanumeric c ∨ c = '_' ∨ c = '-' ∨ c = '.' := by
    cases name.toList with
    | nil => simp [isName]
    | cons first rest => simp [isName, or_assoc, and_assoc]
  have hreserved : ¬ reservedWords.any (isWord · name.toList) ↔
      ∀ word ∈ reservedWords, name.toList.map Char.toUpper ≠ word.toList := by
    simp [isWord]
  rw [nameFault?]
  constructor
  · intro h
    split at h
    · cases h
    · next hname =>
      split at h
      · cases h
      · next hfree => exact ⟨hword.1 (by simpa using hname), hreserved.1 hfree⟩
  · rintro ⟨hname, hfree⟩
    rw [if_neg (by simpa using hword.2 hname), if_neg (hreserved.2 hfree)]

/-- The gaps that a field and its units declare. -/
def gaps (f : Field) : List Gap := f.gap.toList ++ f.units.filterMap (·.gap)

/-- A field with a valid name and with well-formed units, whose names differ and whose gaps agree
    with each other and with the gap of the field. -/
structure WellFormed (f : Field) : Prop where
  name : WellNamed f.name
  units_ne_nil : f.units ≠ []
  units : ∀ u ∈ f.units, u.WellFormed
  unitNames : (f.units.map (·.name)).Nodup
  gaps : Gap.Agree f.gaps

theorem gapFault?_eq_none_iff {field : String} {gap : Option Gap} {u : MeasureUnit} :
    gapFault? field gap u = none ↔
      ∀ shared ∈ gap, ∀ own ∈ u.gap, shared.distance = own.distance := by
  cases gap with
  | none => simp [gapFault?]
  | some shared => cases h : u.gap <;> simp [gapFault?, h]

/-- Gaps agree if the one in force agrees with the next, and the one in force then with the rest. -/
theorem agree_settle_iff (field : String) {gap : Option Gap} {u : MeasureUnit} {gaps : List Gap} :
    Gap.Agree (gap.toList ++ (u.gap.toList ++ gaps)) ↔
      gapFault? field gap u = none ∧ Gap.Agree ((settle gap u).toList ++ gaps) := by
  rw [gapFault?_eq_none_iff, settle]
  cases gap with
  | none => simp
  | some shared => cases u.gap <;> simp [Gap.agree_cons]

/-- Units have no fault exactly if they are well-formed, their names differ from each other and from
    those before them, and their gaps agree with the gap in force. -/
theorem unitsFault?_eq_none_iff {field : String} {seen : List String} {gap : Option Gap}
    {units : List MeasureUnit} :
    unitsFault? field seen gap units = none ↔
      (∀ u ∈ units, u.WellFormed) ∧ Fresh seen (units.map (·.name)) ∧
        Gap.Agree (gap.toList ++ units.filterMap (·.gap)) := by
  induction units generalizing seen gap with
  | nil => cases gap <;> simp [unitsFault?, Gap.Agree]
  | cons u rest ih =>
    have hgaps : (u :: rest).filterMap (·.gap) = u.gap.toList ++ rest.filterMap (·.gap) := by
      cases h : u.gap <;> simp [h]
    have hname :
        (if u.name ∈ seen then some (ConfigError.unitTwice u.name field) else none) = none ↔
          u.name ∉ seen := by simp
    rw [unitsFault?, Option.or_eq_none_iff, Option.or_eq_none_iff, Option.or_eq_none_iff, ih, hname,
      MeasureUnit.fault?_eq_none_iff, hgaps, agree_settle_iff field, List.map_cons,
      fresh_cons, List.forall_mem_cons]
    exact ⟨fun ⟨hu, hnew, hgap, hrest, hfresh, hagree⟩ =>
        ⟨⟨hu, hrest⟩, ⟨hnew, hfresh⟩, hgap, hagree⟩,
      fun ⟨⟨hu, hrest⟩, ⟨hnew, hfresh⟩, hgap, hagree⟩ => ⟨hu, hnew, hgap, hrest, hfresh, hagree⟩⟩

theorem fault?_eq_none_iff {f : Field} : f.fault? = none ↔ f.WellFormed := by
  rw [fault?, Option.or_eq_none_iff, nameFault?_eq_none_iff]
  constructor
  · rintro ⟨hname, hunits⟩
    split at hunits
    case isTrue => cases hunits
    case isFalse hne =>
      obtain ⟨hunits, hfresh, hgaps⟩ := unitsFault?_eq_none_iff.1 hunits
      exact ⟨hname, by simpa using hne, hunits, fresh_nil_left.1 hfresh, hgaps⟩
  · rintro ⟨hname, hne, hunits, hnodup, hgaps⟩
    rw [if_neg (by simpa using hne), unitsFault?_eq_none_iff]
    exact ⟨hname, hunits, fresh_nil_left.2 hnodup, hgaps⟩

/-! ### The normal form of a field -/

theorem foldl_settle (gap : Option Gap) (units : List MeasureUnit) :
    units.foldl settle gap = gap.or (units.findSome? (·.gap)) := by
  induction units generalizing gap with
  | nil => simp
  | cons u rest ih =>
    rw [List.foldl_cons, ih, settle, Option.or_assoc, List.findSome?_cons]
    cases u.gap <;> rfl

/-- A field without a gap takes the first gap of its units. -/
theorem normalise_eq (f : Field) :
    f.normalise =
      ⟨f.name, f.gap.or (f.units.findSome? (·.gap)), f.units.map MeasureUnit.normalise⟩ := by
  rw [normalise, foldl_settle]

/-- The gap in the normal form of a field is the first gap that is declared. -/
theorem gap_normalise (f : Field) : f.normalise.gap = f.gaps.head? := by
  rw [normalise_eq, gaps, List.head?_append, List.head?_filterMap]
  cases f.gap <;> rfl

/-- The normal form declares no gap that the field does not declare. -/
theorem gaps_normalise_subset (f : Field) : f.normalise.gaps ⊆ f.gaps := by
  have hunits : f.normalise.units.filterMap (·.gap) = f.units.filterMap (·.gap) :=
    List.filterMap_map ..
  intro g hg
  rw [gaps, hunits, gap_normalise] at hg
  rcases List.mem_append.1 hg with hg | hg
  · exact List.mem_of_mem_head? (Option.mem_toList.1 hg)
  · exact List.mem_append_right _ hg

@[simp] theorem normalise_normalise (f : Field) : f.normalise.normalise = f.normalise := by
  have hgaps : f.normalise.units.findSome? (·.gap) = f.units.findSome? (·.gap) :=
    List.findSome?_map ..
  rw [normalise_eq f.normalise, hgaps, normalise_eq f, Option.or_assoc, Option.or_self]
  simp [Function.comp_def]

theorem WellFormed.normalise {f : Field} (h : f.WellFormed) : f.normalise.WellFormed where
  name := h.name
  units_ne_nil := by simpa [Field.normalise] using h.units_ne_nil
  units := by
    intro u hu
    obtain ⟨v, hv, rfl⟩ := List.mem_map.1 hu
    exact (h.units v hv).normalise
  unitNames := by
    rw [normalise_eq, List.map_map]
    exact h.unitNames
  gaps := fun g hg g' hg' => h.gaps g (f.gaps_normalise_subset hg) g' (f.gaps_normalise_subset hg')

end Field

/-! ### Catalogues -/

namespace Catalogue

/-- Well-formed fields whose names differ. -/
structure WellFormed (fields : List Field) : Prop where
  each : ∀ f ∈ fields, f.WellFormed
  names : (fields.map (·.name)).Nodup

variable {fields : List Field} {c : Catalogue}

theorem fieldsFault?_eq_none_iff {seen : List String} :
    fieldsFault? seen fields = none ↔
      (∀ f ∈ fields, f.WellFormed) ∧ Fresh seen (fields.map (·.name)) := by
  induction fields generalizing seen with
  | nil => simp [fieldsFault?]
  | cons f rest ih =>
    have hname : (if f.name ∈ seen then some (ConfigError.fieldTwice f.name) else none) = none ↔
        f.name ∉ seen := by simp
    rw [fieldsFault?, Option.or_eq_none_iff, Option.or_eq_none_iff, ih, hname,
      Field.fault?_eq_none_iff, List.map_cons, fresh_cons, List.forall_mem_cons]
    exact ⟨fun ⟨hf, hnew, hrest, hfresh⟩ => ⟨⟨hf, hrest⟩, hnew, hfresh⟩,
      fun ⟨⟨hf, hrest⟩, hnew, hfresh⟩ => ⟨hf, hnew, hrest, hfresh⟩⟩

/-- Fields are accepted exactly if they are well-formed, and in their normal form. -/
theorem ofFields_eq_ok_iff :
    ofFields fields = .ok c ↔ WellFormed fields ∧ c = ⟨fields.map Field.normalise⟩ := by
  have hnone : fieldsFault? [] fields = none ↔ WellFormed fields := by
    rw [fieldsFault?_eq_none_iff, fresh_nil_left]
    exact ⟨fun ⟨heach, hnames⟩ => ⟨heach, hnames⟩, fun ⟨heach, hnames⟩ => ⟨heach, hnames⟩⟩
  rw [ofFields, ← hnone]
  split
  · next fault h => simp [h]
  · next h => simp [h, eq_comm]

/-- The normal forms of well-formed fields are well-formed. -/
theorem WellFormed.normalise (h : WellFormed fields) : WellFormed (fields.map Field.normalise) where
  each := List.forall_mem_map.2 fun f hf => (h.each f hf).normalise
  names := by
    rw [List.map_map]
    exact h.names

/-! ### Looking up by name -/

/-- Where names differ, an item is found by its name. -/
theorem find?_name_eq_some_iff {α : Type} {name : α → String} {items : List α}
    (h : (items.map name).Nodup) {k : String} {a : α} :
    items.find? (name · = k) = some a ↔ a ∈ items ∧ name a = k := by
  constructor
  · intro ha
    exact ⟨List.mem_of_find?_eq_some ha, by simpa using List.find?_some ha⟩
  · rintro ⟨ha, rfl⟩
    obtain ⟨b, hb⟩ := Option.isSome_iff_exists.1
      (List.find?_isSome (p := (name · = name a)).2 ⟨a, ha, by simp⟩)
    have hname : name b = name a := by simpa using List.find?_some hb
    rw [hb, List.inj_on_of_nodup_map h (List.mem_of_find?_eq_some hb) ha hname]

/-- Among fields whose names differ, a field is found by its name. -/
theorem field?_eq_some_iff (h : (c.fields.map (·.name)).Nodup) {name : String} {f : Field} :
    c.field? name = some f ↔ f ∈ c.fields ∧ f.name = name :=
  find?_name_eq_some_iff h

/-- The normal form of some fields: variants are trimmed, and a field without a gap has the first
    gap of its units. Every field is found by its name, at its own place, and no other field; and
    the fields of the catalogue are accepted again, as the same catalogue, with the same
    spellings. -/
structure IsNormalForm (c : Catalogue) (fields : List Field) : Prop where
  fields_eq : c.fields = fields.map fun f =>
    { name := f.name
      gap := f.gap.or (f.units.findSome? (·.gap))
      units := f.units.map fun u => { u with variants := u.variants.map trimmed } }
  field?_of_getElem? : ∀ (i : Nat) (f : Field), c.fields[i]? = some f → c.field? f.name = some f
  of_field?_eq_some : ∀ (name : String) (f : Field), c.field? name = some f →
    f.name = name ∧ ∃! i : Nat, c.fields[i]? = some f
  ofFields_again : ∃ c', ofFields c.fields = .ok c' ∧ c'.fields = c.fields ∧
    c'.spellings = c.spellings

/-- Fields are accepted exactly if they are well-formed, and refused with a fault otherwise. What
    is accepted is the normal form of the fields. -/
theorem ofFields_wellFormed (fields : List Field) :
    ((∃ c, ofFields fields = .ok c) ↔ WellFormed fields) ∧
      ((∃ fault : ConfigError, ofFields fields = .error fault) ↔ ¬ WellFormed fields) ∧
      ∀ c, ofFields fields = .ok c → c.IsNormalForm fields := by
  have haccepts : (∃ c, ofFields fields = .ok c) ↔ WellFormed fields :=
    ⟨fun ⟨_, hc⟩ => (ofFields_eq_ok_iff.1 hc).1, fun h => ⟨_, ofFields_eq_ok_iff.2 ⟨h, rfl⟩⟩⟩
  refine ⟨haccepts, ?_, fun c hc => ?_⟩
  · rw [← haccepts]
    cases ofFields fields <;> simp
  · obtain ⟨hwell, rfl⟩ := ofFields_eq_ok_iff.1 hc
    have hnames := hwell.normalise.names
    refine ⟨List.map_congr_left fun f _ => f.normalise_eq, ?_, ?_, ?_⟩
    · intro i f hf
      exact (field?_eq_some_iff hnames).2 ⟨List.mem_of_getElem? hf, rfl⟩
    · intro name f hf
      obtain ⟨hmem, hname⟩ := (field?_eq_some_iff hnames).1 hf
      obtain ⟨i, hi⟩ := List.mem_iff_getElem?.1 hmem
      refine ⟨hname, i, hi, fun j hj => ?_⟩
      have hlt : j < _ := (List.getElem?_eq_some_iff.1 hj).1
      exact (List.getElem?_inj hlt (.of_map _ hnames)).1 (hj.trans hi.symm)
    · refine ⟨_, ofFields_eq_ok_iff.2 ⟨hwell.normalise, rfl⟩, ?_⟩
      simp [Function.comp_def]

theorem ofFields_wellFormed_gigabyte :
    let gap : Gap := ⟨.ofInt 8, by decide +kernel⟩
    let fields : List Field :=
      [⟨"capacity", none, [⟨"gigabyte", [" GB", "gigabyte "], none, none⟩,
        ⟨"terabyte", ["TB"], none, some gap⟩]⟩]
    let c : Catalogue :=
      ⟨[⟨"capacity", some gap, [⟨"gigabyte", ["GB", "gigabyte"], none, none⟩,
        ⟨"terabyte", ["TB"], none, some gap⟩]⟩]⟩
    ofFields fields = .ok c ∧ WellFormed fields ∧ c.IsNormalForm fields := by
  intro gap fields c
  have h : ofFields fields = .ok c := by decide +kernel
  obtain ⟨haccepts, _, hnormal⟩ := ofFields_wellFormed fields
  exact ⟨h, haccepts.1 ⟨c, h⟩, hnormal c h⟩

end Catalogue

end QuantityQuery
