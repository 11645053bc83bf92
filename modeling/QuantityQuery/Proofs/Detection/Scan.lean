import Mathlib.Data.List.Forall2
import QuantityQuery.Proofs.Detection.Occurrence
import QuantityQuery.Proofs.Number.Numeral

/-!
# The quantities of a text

What is reported of a text is written in it, at places one after the other, and no
amount that is followed by a unit is left out (`Catalogue.scan_covers`).

* `IsNumber`: digits that stand alone;
* `Phrase`: a place in a text where a quantity can be written;
* `Catalogue.Writes`: a quantity is written at a place;
* `Catalogue.Covers`: the places of the quantities of a text, complete from one place on.

A scan goes on after what it has read: a number without a quantity
(`Catalogue.Covers.skip`) or a quantity (`Catalogue.Covers.cons`). No place is left out
between, for inside of a number no number begins: a digit there stands after a digit, a
point or a comma (`not_isFree_inside`).
-/

namespace QuantityQuery

/-! ### Places in a text -/

/-- A character that a digit after it goes on from. -/
def IsJoint (c : Char) : Prop := isAlphanumeric c ∨ c = '.' ∨ c = ','

/-- A digit after `before` goes on neither a word nor a number. -/
def IsFree (before : List Char) : Prop := ∀ c ∈ before.getLast?, ¬ IsJoint c

/-- There is a hyphen at the end of `before` that does not join two words. -/
def IsSigned (before : List Char) : Prop :=
  ∃ earlier, before = earlier ++ ['-'] ∧ ∀ c ∈ earlier.getLast?, isAlphanumeric c = false

/-- Decimals, or a group of digits, are next. -/
def IsFractional (rest : List Char) : Prop :=
  ∃ point next more, rest = point :: next :: more ∧ (point = '.' ∨ point = ',') ∧ next.isDigit

/-- The word at the end of `letters` does not go on. -/
def EndsWord (letters rest : List Char) : Prop :=
  ∀ c ∈ letters.getLast?, isAlphanumeric c → Stops isAlphanumeric rest

/-- All digits of a number that goes on neither a word nor a number. -/
structure IsNumber (before digits rest : List Char) : Prop where
  isFree : IsFree before
  isDigits : IsDigits digits
  stops : Stops Char.isDigit rest

/-- A place in a text where a quantity can be written, with what stands around it. -/
structure Phrase where
  before : List Char
  digits : List Char
  blanks : List Char
  letters : List Char
  after : List Char

namespace Phrase

variable (p : Phrase)

/-- What stands after the digits. -/
def rest : List Char := p.blanks ++ (p.letters ++ p.after)

/-- The whole text. -/
def text : List Char := p.before ++ (p.digits ++ p.rest)

/-- The place of the first digit. -/
def start : Nat := p.before.length

/-- The place after the last letter. -/
def stop : Nat := p.start + (p.digits.length + (p.blanks.length + p.letters.length))

end Phrase

namespace Catalogue

variable (c : Catalogue)

/-- The letters are the lowercase of a variant of a unit that belongs to a field. -/
def Spells (letters : List Char) (field : String) (u : MeasureUnit) : Prop :=
  ∃ f ∈ c.fields, field = f.name ∧ u ∈ f.units ∧ ∃ v ∈ u.variants, letters = lowercase v.toList

/-- A quantity is written at a place. -/
structure Writes (p : Phrase) (o : Occurrence) : Prop where
  isNumber : IsNumber p.before p.digits p.rest
  unsigned : ¬ IsSigned p.before
  whole : ¬ IsFractional p.rest
  amount_eq : o.amount = digitsValue p.digits
  amount_lt : o.amount < 2 ^ 64
  blanks : ∀ ch ∈ p.blanks, isBlank ch
  spells : c.Spells p.letters o.field o.unit
  endsWord : EndsWord p.letters p.after

/-- A unit is next, with blanks before it or not. -/
def UnitFollows (rest : List Char) : Prop :=
  ∃ blanks letters after field u, rest = blanks ++ (letters ++ after) ∧
    (∀ ch ∈ blanks, isBlank ch) ∧ c.Spells letters field u ∧ EndsWord letters after

/-- A number is no amount, or no unit follows it. -/
def IsBare (before digits rest : List Char) : Prop :=
  IsSigned before ∨ IsFractional rest ∨ 2 ^ 64 ≤ digitsValue digits ∨ ¬ c.UnitFollows rest

/-- The quantities `found` are written at the places of `phrases` in the text, one after the other,
    and from `start` on no other place has one. -/
structure Covers (text : List Char) (start : Nat) (phrases : List Phrase)
    (found : List Occurrence) : Prop where
  text_eq : ∀ p ∈ phrases, p.text = text
  start_le : ∀ p ∈ phrases, start ≤ p.start
  ordered : phrases.Pairwise fun p q => p.stop ≤ q.start
  writes : List.Forall₂ c.Writes phrases found
  complete : ∀ before digits rest, before ++ (digits ++ rest) = text → start ≤ before.length →
    IsNumber before digits rest →
    (∀ p ∈ phrases, ¬ (p.start ≤ before.length ∧ before.length < p.stop)) →
    c.IsBare before digits rest

end Catalogue

/-! ### What stands before a place -/

namespace Before

theorem pushAll_append (b : Before) (l m : List Char) :
    b.pushAll (l ++ m) = (b.pushAll l).pushAll m := List.foldl_append

theorem push_pushAll (b : Before) (l : List Char) (ch : Char) :
    (b.pushAll l).push ch = b.pushAll (l ++ [ch]) := by
  rw [pushAll_append]
  rfl

theorem last_pushAll (before : List Char) : (start.pushAll before).last = before.getLast? := by
  rcases List.eq_nil_or_concat before with rfl | ⟨earlier, ch, rfl⟩
  · rfl
  · rw [List.concat_eq_append, pushAll_append, List.getLast?_concat]
    rfl

theorem isFree_iff {before : List Char} : (start.pushAll before).isFree ↔ IsFree before := by
  rw [isFree, last_pushAll, IsFree]
  cases before.getLast? with
  | none => simp
  | some ch => simp [IsJoint, and_assoc]

theorem isSigned_push (b : Before) (ch : Char) :
    (b.push ch).isSigned ↔ ch = '-' ∧ ∀ c ∈ b.last, isAlphanumeric c = false := by
  rw [isSigned, push]
  cases b.last <;> simp

theorem isSigned_iff {before : List Char} : (start.pushAll before).isSigned ↔ IsSigned before := by
  rcases List.eq_nil_or_concat before with rfl | ⟨earlier, ch, rfl⟩
  · simp [IsSigned, isSigned, start, pushAll]
  · rw [List.concat_eq_append, ← push_pushAll, isSigned_push, last_pushAll]
    constructor
    · rintro ⟨rfl, hlast⟩
      exact ⟨earlier, rfl, hlast⟩
    · rintro ⟨earlier', heq, hlast⟩
      obtain ⟨rfl, hch⟩ := List.append_inj' heq rfl
      exact ⟨List.head_eq_of_cons_eq hch, hlast⟩

end Before

namespace IsNumber

variable {before digits rest : List Char}

theorem isJoint (h : IsNumber before digits rest) : ∀ ch ∈ digits, IsJoint ch :=
  fun ch hch => .inl (isAlphanumeric_of_isDigit (h.isDigits.2 ch hch))

/-- The digits of a number at the beginning of a text are settled by the text. -/
theorem eq_of_append {before' digits' rest' : List Char} (h : IsNumber before digits rest)
    (h' : IsNumber before' digits' rest') (heq : digits ++ rest = digits' ++ rest') :
    digits = digits' ∧ rest = rest' := by
  have hspan := spanDigits_append h.isDigits.2 h.stops
  rw [heq, spanDigits_append h'.isDigits.2 h'.stops] at hspan
  exact (Prod.mk.inj hspan).imp Eq.symm Eq.symm

end IsNumber

/-- Inside of a number no number begins. -/
theorem not_isFree_inside {pre number rest before more : List Char}
    (hnumber : ∀ ch ∈ number, IsJoint ch) (h : before ++ more = pre ++ (number ++ rest))
    (hlow : pre.length < before.length) (hhigh : before.length < (pre ++ number).length) :
    ¬ IsFree before := by
  rw [List.length_append] at hhigh
  rcases List.append_eq_append_iff.1 h with ⟨part, rfl, _⟩ | ⟨part, rfl, hpart⟩
  · rw [List.length_append] at hlow
    omega
  · -- The place is after a part of the number.
    rw [List.length_append] at hlow hhigh
    have hbegins : part <+: number :=
      List.prefix_of_prefix_length_le ⟨more, hpart.symm⟩ ⟨rest, rfl⟩ (by omega)
    rcases List.eq_nil_or_concat part with rfl | ⟨earlier, ch, rfl⟩
    · exact absurd hlow (Nat.lt_irrefl _)
    · rw [List.concat_eq_append] at hbegins ⊢
      intro hfree
      refine hfree ch ?_ (hnumber ch (hbegins.subset (by simp)))
      rw [← List.append_assoc]
      exact List.getLast?_concat

/-! ### Numbers -/

namespace Literal

variable {digits rest : List Char}

theorem read_whole (hd : IsDigits digits) (hstops : Stops Char.isDigit rest)
    (hwhole : ¬ IsFractional rest) :
    read (digits ++ rest) = ⟨digits, readNat? maxAmount digits⟩ := by
  rw [read, spanDigits_append hd.2 hstops]
  rcases rest with _ | ⟨point, _ | ⟨next, more⟩⟩
  · rfl
  · rfl
  · exact if_neg fun hfrac => hwhole ⟨point, next, more, rfl, hfrac⟩

theorem read_fractional {point next : Char} {more : List Char} (hd : IsDigits digits)
    (hpoint : point = '.' ∨ point = ',') (hnext : next.isDigit) :
    read (digits ++ point :: next :: more) =
      ⟨digits ++ point :: (next :: more).takeWhile Char.isDigit, none⟩ := by
  have hstops : Stops Char.isDigit (point :: next :: more) := by
    rcases hpoint with rfl | rfl <;> exact stops_cons.2 rfl
  rw [read, spanDigits_append hd.2 hstops]
  exact if_pos ⟨hpoint, hnext⟩

end Literal

/-! ### Units after numbers -/

namespace Spelling

variable {s : Spelling} {text : List Char}

theorem endsBefore_iff : s.endsBefore text ↔ EndsWord s.letters text := by
  rw [endsBefore, EndsWord]
  cases s.letters.getLast? with
  | none => simp
  | some ch =>
    cases text with
    | nil => simp
    | cons next more => cases hch : isAlphanumeric ch <;> simp [hch]

theorem fits_iff : s.fits text ↔ ∃ after, text = s.letters ++ after ∧ EndsWord s.letters after := by
  rw [fits, Bool.and_eq_true, List.isPrefixOf_iff_prefix, endsBefore_iff]
  constructor
  · rintro ⟨⟨after, rfl⟩, hends⟩
    rw [List.drop_left] at hends
    exact ⟨after, rfl, hends⟩
  · rintro ⟨after, rfl, hends⟩
    rw [List.drop_left]
    exact ⟨⟨after, rfl⟩, hends⟩

end Spelling

namespace Catalogue

variable {c : Catalogue} {fields : List Field} {rest : List Char}

theorem unitAfter?_eq_some {s : Spelling} {skipped : List Char}
    (h : c.unitAfter? rest = some (s, skipped)) :
    ∃ blanks after, rest = blanks ++ (s.letters ++ after) ∧ skipped = blanks ++ s.letters ∧
      (∀ ch ∈ blanks, isBlank ch) ∧ c.Spells s.letters s.field.name s.unit ∧
      EndsWord s.letters after := by
  obtain ⟨s, hs, heq⟩ := Option.map_eq_some_iff.1 h
  obtain ⟨rfl, rfl⟩ := Prod.mk.inj heq
  rw [spellingAt?] at hs
  have hfits := List.find?_some hs
  obtain ⟨after, hafter, hends⟩ := Spelling.fits_iff.1 hfits
  refine ⟨rest.takeWhile isBlank, after, ?_, rfl, ?_, ?_, hends⟩
  · rw [← hafter, List.takeWhile_append_dropWhile]
  · exact List.all_eq_true.1 List.all_takeWhile
  · obtain ⟨f, hf, u, hu, v, hv, rfl⟩ := mem_spellings.1 (List.mem_of_find?_eq_some hs)
    exact ⟨f, hf, rfl, hu, v, hv, rfl⟩

/-- Where no unit is read, none follows: a variant does not begin with a blank, so all blanks have
    to be skipped before it. -/
theorem not_unitFollows (h : ofFields fields = .ok c) (hnone : c.unitAfter? rest = none) :
    ¬ c.UnitFollows rest := by
  rintro ⟨blanks, letters, after, field, u, rfl, hblanks, ⟨f, hf, -, hu, v, hv, rfl⟩, hends⟩
  have hstops : Stops isBlank (lowercase v.toList ++ after) := by
    obtain ⟨d, more, hcons, hd⟩ := exists_lowercase_eq_cons h hf hu hv
    rw [hcons]
    exact stops_cons.2 hd
  have hspelling := Option.map_eq_none_iff.1 hnone
  rw [dropWhile_append_of_stops hblanks hstops] at hspelling
  have hmem : ⟨lowercase v.toList, f, u⟩ ∈ c.spellings := mem_spellings.2 ⟨f, hf, u, hu, v, hv, rfl⟩
  exact List.find?_eq_none.1 hspelling _ hmem (Spelling.fits_iff.2 ⟨after, rfl, hends⟩)

/-! ### Numbers that are read -/

theorem readQuantity_whole {digits : List Char} (hdigits : IsDigits digits)
    (hstops : Stops Char.isDigit rest) (hwhole : ¬ IsFractional rest) (before : Before) :
    c.readQuantity before (digits ++ rest) =
      if digitsValue digits ≤ maxAmount ∧ before.isSigned = false then
        (c.unitAfter? rest).elim (none, digits.length) fun u =>
          (some ⟨u.1.field.name, digitsValue digits, u.1.unit⟩, digits.length + u.2.length)
      else (none, digits.length) := by
  rw [readQuantity, Literal.read_whole hdigits hstops hwhole, hdigits.readNat?]
  by_cases hle : digitsValue digits ≤ maxAmount
  · cases before.isSigned with
    | true => simp [hle]
    | false => cases hunit : c.unitAfter? rest <;> simp [hle, hunit]
  · simp [hle]

/-- A number with decimals is read to the end of its decimals. -/
theorem readQuantity_fractional {digits : List Char} (hdigits : IsDigits digits)
    (hfrac : IsFractional rest) (before : Before) :
    ∃ more after, rest = more ++ after ∧ (∀ ch ∈ more, IsJoint ch) ∧
      c.readQuantity before (digits ++ rest) = (none, (digits ++ more).length) := by
  obtain ⟨point, next, more, rfl, hpoint, hnext⟩ := hfrac
  refine ⟨point :: (next :: more).takeWhile Char.isDigit, (next :: more).dropWhile Char.isDigit,
    ?_, ?_, ?_⟩
  · rw [List.cons_append, List.takeWhile_append_dropWhile]
  · intro ch hch
    rcases List.mem_cons.1 hch with rfl | hch
    · exact .inr hpoint
    · exact .inl (isAlphanumeric_of_isDigit (List.all_eq_true.1 List.all_takeWhile ch hch))
  · rw [readQuantity, Literal.read_fractional hdigits hpoint hnext]

/-- A number is read either without a quantity, up to its own end, or with the quantity that is
    written there, up to the end of the unit. -/
theorem readQuantity_cases (h : ofFields fields = .ok c) {before digits : List Char}
    (hnumber : IsNumber before digits rest) :
    (∃ more after, rest = more ++ after ∧ (∀ ch ∈ more, IsJoint ch) ∧
      c.readQuantity (.pushAll .start before) (digits ++ rest) = (none, (digits ++ more).length) ∧
      c.IsBare before digits rest) ∨
    ∃ blanks letters after o, rest = blanks ++ (letters ++ after) ∧
      c.readQuantity (.pushAll .start before) (digits ++ rest) =
        (some o, (digits ++ (blanks ++ letters)).length) ∧
      c.Writes ⟨before, digits, blanks, letters, after⟩ o := by
  by_cases hfrac : IsFractional rest
  · obtain ⟨more, after, hrest, hjoint, hread⟩ :=
      readQuantity_fractional (c := c) hnumber.isDigits hfrac (.pushAll .start before)
    exact .inl ⟨more, after, hrest, hjoint, hread, .inr (.inl hfrac)⟩
  · -- Without a quantity, what is read are the digits.
    obtain ⟨more, after', hrest, hjoint, hend⟩ : ∃ more after', rest = more ++ after' ∧
        (∀ ch ∈ more, IsJoint ch) ∧ digits.length = (digits ++ more).length :=
      ⟨[], rest, rfl, fun _ hch => absurd hch List.not_mem_nil, by rw [List.append_nil]⟩
    rw [readQuantity_whole hnumber.isDigits hnumber.stops hfrac]
    split
    case isTrue hamount =>
      obtain ⟨hle, hunsigned⟩ := hamount
      cases hunit : c.unitAfter? rest with
      | none =>
        refine .inl ⟨more, after', hrest, hjoint, congrArg (none, ·) hend, ?_⟩
        exact .inr (.inr (.inr (not_unitFollows h hunit)))
      | some found =>
        obtain ⟨s, skipped⟩ := found
        obtain ⟨blanks, after, rfl, rfl, hblanks, hspells, hends⟩ := unitAfter?_eq_some hunit
        let o : Occurrence := ⟨s.field.name, digitsValue digits, s.unit⟩
        refine .inr ⟨blanks, s.letters, after, o, rfl, ?_, ?_⟩
        · exact congrArg (some o, ·) List.length_append.symm
        · rw [← Bool.not_eq_true, Before.isSigned_iff] at hunsigned
          exact
            { isNumber := hnumber
              unsigned := hunsigned
              whole := hfrac
              amount_eq := rfl
              amount_lt := Nat.lt_of_le_of_lt hle (by decide)
              blanks := hblanks
              spells := hspells
              endsWord := hends }
    case isFalse hamount =>
      refine .inl ⟨more, after', hrest, hjoint, congrArg (none, ·) hend, ?_⟩
      by_cases hle : digitsValue digits ≤ maxAmount
      · refine .inl (Before.isSigned_iff.1 ?_)
        rw [← Bool.not_eq_false]
        exact fun hunsigned => hamount ⟨hle, hunsigned⟩
      · exact .inr (.inr (.inl (Nat.lt_of_not_le hle)))

/-! ### The scan -/

namespace Covers

variable {text : List Char} {start : Nat} {phrases : List Phrase} {found : List Occurrence}

/-- At the end of a text there are no quantities. -/
theorem nil (text : List Char) : c.Covers text text.length [] [] where
  text_eq := fun _ hp => absurd hp List.not_mem_nil
  start_le := fun _ hp => absurd hp List.not_mem_nil
  ordered := .nil
  writes := .nil
  complete := by
    rintro before digits rest rfl hlow hnumber -
    have hpos := List.length_pos_iff.2 hnumber.isDigits.1
    rw [List.length_append, List.length_append] at hlow
    omega

/-- Places without an amount with a unit are passed over. -/
theorem skip {start' : Nat} (h : c.Covers text start' phrases found) (hle : start ≤ start')
    (hbare : ∀ before digits rest, before ++ (digits ++ rest) = text → start ≤ before.length →
      before.length < start' → IsNumber before digits rest → c.IsBare before digits rest) :
    c.Covers text start phrases found where
  text_eq := h.text_eq
  start_le := fun p hp => Nat.le_trans hle (h.start_le p hp)
  ordered := h.ordered
  writes := h.writes
  complete := by
    intro before digits rest htext hlow hnumber hout
    by_cases hlt : before.length < start'
    · exact hbare before digits rest htext hlow hlt hnumber
    · exact h.complete before digits rest htext (Nat.le_of_not_lt hlt) hnumber hout

/-- A quantity stands before the ones after it. -/
theorem cons {p : Phrase} {o : Occurrence} (hp : c.Writes p o) (htext : p.text = text)
    (h : c.Covers text p.stop phrases found) :
    c.Covers text p.start (p :: phrases) (o :: found) where
  text_eq := List.forall_mem_cons.2 ⟨htext, h.text_eq⟩
  start_le := List.forall_mem_cons.2
    ⟨Nat.le_refl _, fun q hq => Nat.le_trans (Nat.le_add_right ..) (h.start_le q hq)⟩
  ordered := List.pairwise_cons.2 ⟨h.start_le, h.ordered⟩
  writes := .cons hp h.writes
  complete := by
    intro before digits rest htext hlow hnumber hout
    obtain ⟨hfirst, hmore⟩ := List.forall_mem_cons.1 hout
    have hstop : p.stop ≤ before.length := Nat.le_of_not_lt fun hlt => hfirst ⟨hlow, hlt⟩
    exact h.complete before digits rest htext hstop hnumber hmore

end Covers

/-- From the beginning of a number the rest of a text is its digits and what follows them. -/
theorem exists_isNumber {before : List Char} {ch : Char} (hch : ch.isDigit)
    (hfree : IsFree before) (more : List Char) :
    ∃ digits rest, ch :: more = digits ++ rest ∧ IsNumber before digits rest := by
  refine ⟨(ch :: more).takeWhile Char.isDigit, (ch :: more).dropWhile Char.isDigit,
    List.takeWhile_append_dropWhile.symm, hfree, ⟨?_, ?_⟩, stops_dropWhile _ _⟩
  · rw [List.takeWhile_cons_of_pos hch]
    exact List.cons_ne_nil _ _
  · exact List.all_eq_true.1 List.all_takeWhile

/-- The scan goes on behind the characters that were read. -/
theorem take_drop_of_append {ch : Char} {more taken after : List Char}
    (h : ch :: more = taken ++ after) (hne : taken ≠ []) :
    ch :: more.take (taken.length - 1) = taken ∧ more.drop (taken.length - 1) = after := by
  obtain ⟨d, taken, rfl⟩ := List.exists_cons_of_ne_nil hne
  rw [List.cons_append, List.cons.injEq] at h
  obtain ⟨rfl, rfl⟩ := h
  simp

/-- Where a scan does not stop, no number begins. -/
theorem not_isNumber_of_not_start {pre : List Char} {ch : Char} {more : List Char}
    (hstart : ¬ (ch.isDigit && (Before.start.pushAll pre).isFree)) {before digits rest : List Char}
    (htext : before ++ (digits ++ rest) = pre ++ ch :: more) (hplace : before.length = pre.length) :
    ¬ IsNumber before digits rest := by
  intro hnumber
  obtain ⟨rfl, hmore⟩ := List.append_inj htext hplace
  obtain ⟨d, digits, rfl⟩ := List.exists_cons_of_ne_nil hnumber.isDigits.1
  obtain rfl := List.head_eq_of_cons_eq hmore
  rw [Bool.and_eq_true, Before.isFree_iff] at hstart
  exact hstart ⟨hnumber.isDigits.2 d List.mem_cons_self, hnumber.isFree⟩

/-- Among the places of a number that is read without a quantity, only the first one can have a
    number at all, and it is this one. -/
theorem isBare_of_read {pre digits joint after : List Char}
    (hnumber : IsNumber pre digits (joint ++ after)) (hjoint : ∀ ch ∈ joint, IsJoint ch)
    (hbare : c.IsBare pre digits (joint ++ after)) {before digits' rest : List Char}
    (htext : before ++ (digits' ++ rest) = pre ++ (digits ++ joint ++ after))
    (hlow : pre.length ≤ before.length) (hhigh : before.length < (pre ++ (digits ++ joint)).length)
    (hnumber' : IsNumber before digits' rest) : c.IsBare before digits' rest := by
  rcases Nat.lt_or_eq_of_le hlow with hlt | heq
  · have hall : ∀ ch ∈ digits ++ joint, IsJoint ch :=
      List.forall_mem_append.2 ⟨hnumber.isJoint, hjoint⟩
    exact absurd hnumber'.isFree (not_isFree_inside hall htext hlt hhigh)
  · obtain ⟨rfl, hdigits⟩ := List.append_inj htext heq.symm
    rw [List.append_assoc] at hdigits
    obtain ⟨rfl, rfl⟩ := hnumber'.eq_of_append hnumber hdigits
    exact hbare

/-- A scan that goes on after `pre` covers the text from there on. -/
theorem exists_covers (h : ofFields fields = .ok c) (before : Before) (text pre : List Char)
    (hbefore : before = .pushAll .start pre) :
    ∃ phrases, c.Covers (pre ++ text) pre.length phrases (c.scanFrom before text) := by
  fun_induction scanFrom c before text generalizing pre with
  | case1 before => exact ⟨[], by simpa using Covers.nil pre⟩
  | case2 before ch more hstart found size hread ih =>
    subst hbefore
    rw [Bool.and_eq_true, Before.isFree_iff] at hstart
    obtain ⟨digits, rest, htext, hnumber⟩ := exists_isNumber hstart.1 hstart.2 more
    -- Whatever was read, the scan covers the text after it.
    have hcovered : ∀ {taken after : List Char}, ch :: more = (digits ++ taken) ++ after →
        size = (digits ++ taken).length →
        ∃ phrases, c.Covers (pre ++ ch :: more) (pre ++ (digits ++ taken)).length phrases
          (c.scanFrom ((Before.start.pushAll pre).pushAll (ch :: more.take (size - 1)))
            (more.drop (size - 1))) := by
      rintro taken after hsplit rfl
      have hne : digits ++ taken ≠ [] := List.append_ne_nil_of_left_ne_nil hnumber.isDigits.1 _
      obtain ⟨htake, hdrop⟩ := take_drop_of_append hsplit hne
      rw [htake, hdrop] at ih ⊢
      obtain ⟨phrases, hcovers⟩ := ih (pre ++ (digits ++ taken)) (Before.pushAll_append ..).symm
      rw [List.append_assoc, ← hsplit] at hcovers
      exact ⟨phrases, hcovers⟩
    rw [htext] at hread
    rcases readQuantity_cases h hnumber with
      ⟨joint, after, rfl, hjoint, hcase, hbare⟩ | ⟨blanks, letters, after, o, rfl, hcase, hwrites⟩
    · obtain ⟨rfl, hsize⟩ := Prod.mk.inj (hread.symm.trans hcase)
      rw [← List.append_assoc] at htext
      obtain ⟨phrases, hcovers⟩ := hcovered htext hsize
      refine ⟨phrases, hcovers.skip (by simp) ?_⟩
      rw [htext]
      exact fun _ _ _ => isBare_of_read hnumber hjoint hbare
    · obtain ⟨rfl, hsize⟩ := Prod.mk.inj (hread.symm.trans hcase)
      let p : Phrase := ⟨pre, digits, blanks, letters, after⟩
      have hstop : (pre ++ (digits ++ (blanks ++ letters))).length = p.stop := by
        simp only [List.length_append]
        rfl
      have hsplit : ch :: more = (digits ++ (blanks ++ letters)) ++ after := by
        rw [htext, List.append_assoc, List.append_assoc]
      obtain ⟨phrases, hcovers⟩ := hcovered hsplit hsize
      rw [hstop] at hcovers
      exact ⟨p :: phrases, hcovers.cons hwrites (congrArg (pre ++ ·) htext.symm)⟩
  | case3 before ch more hstart ih =>
    subst hbefore
    obtain ⟨phrases, hcovers⟩ := ih (pre ++ [ch]) (Before.push_pushAll ..)
    rw [List.append_assoc] at hcovers
    refine ⟨phrases, hcovers.skip (by simp) ?_⟩
    intro before digits rest htext hlow hhigh hnumber
    rw [List.length_append, List.length_singleton] at hhigh
    exact absurd hnumber (not_isNumber_of_not_start hstart htext (by omega))

/-- What is reported of a text is written in it, one after the other, and every other number of the
    text is no amount or has no unit after it. -/
theorem scan_covers (h : ofFields fields = .ok c) (query : String) :
    ∃ phrases, c.Covers (lowercase query.toList) 0 phrases (c.scan query) :=
  exists_covers h .start _ [] rfl

theorem scan_covers_gigabyte :
    let fields : List Field := [⟨"capacity", none, [⟨"gigabyte", ["GB"], none, none⟩]⟩]
    let c : Catalogue := ⟨fields⟩
    ofFields fields = .ok c ∧
      ∃ phrases, c.Covers (lowercase "1.5 inch, 64 GB".toList) 0 phrases
        (c.scan "1.5 inch, 64 GB") :=
  have h : ofFields _ = .ok _ := by decide +kernel
  ⟨h, scan_covers h _⟩

end Catalogue

end QuantityQuery
