import Mathlib.Algebra.Group.Nat.Defs
import QuantityQuery.Number.Numeral
import QuantityQuery.Proofs.Text.Span

/-!
# Reading numerals

What `readDecimal?` makes of digits, of digits around a point, and of a power of
ten after them. The decimal digits of a whole number read back as the number
(`digitsValue_decimalDigits`). And what reads as a finite number is written with
few characters (`isNumeralChar_of_readBinary?`).
-/

namespace QuantityQuery

/-! ### Digits -/

theorem digitsValue_eq (digits : List Char) :
    digitsValue digits = Nat.ofDigitChars 10 digits 0 :=
  Nat.ofDigitChars_eq_foldl.symm

theorem digitsValue_decimalDigits (n : Nat) : digitsValue (decimalDigits n) = n := by
  rw [digitsValue_eq, decimalDigits, Nat.ofDigitChars_ten_toDigits]

theorem digitsValue_append (l m : List Char) :
    digitsValue (l ++ m) = digitsValue l * 10 ^ m.length + digitsValue m := by
  rw [digitsValue_eq, Nat.ofDigitChars_append, Nat.ofDigitChars_eq_ofDigitChars_zero,
    Nat.mul_comm, digitsValue_eq, digitsValue_eq]

@[simp] theorem digitsValue_zeros (k : Nat) : digitsValue (List.replicate k '0') = 0 := by
  rw [digitsValue_eq, Nat.ofDigitChars_replicate_zero, Nat.mul_zero]

theorem isDigit_of_mem_decimalDigits {n : Nat} {c : Char} (h : c ∈ decimalDigits n) : c.isDigit :=
  Nat.isDigit_of_mem_toDigits (by decide) (by decide) h

theorem decimalDigits_ne_nil (n : Nat) : decimalDigits n ≠ [] := Nat.toDigits_ne_nil

theorem isDigit_of_mem_zeros {k : Nat} {c : Char} (h : c ∈ List.replicate k '0') : c.isDigit := by
  rw [List.eq_of_mem_replicate h]
  rfl

/-- A text of digits, with at least one of them. -/
def IsDigits (text : List Char) : Prop := text ≠ [] ∧ ∀ c ∈ text, c.isDigit

theorem isDigits_decimalDigits (n : Nat) : IsDigits (decimalDigits n) :=
  ⟨decimalDigits_ne_nil n, fun _ => isDigit_of_mem_decimalDigits⟩

theorem IsDigits.readDigits? {text : List Char} (h : IsDigits text) :
    readDigits? text = some (digitsValue text) :=
  if_pos ⟨h.1, List.all_eq_true.2 h.2⟩

theorem IsDigits.readNat? {text : List Char} (h : IsDigits text) (high : Nat) :
    readNat? high text = if digitsValue text ≤ high then some (digitsValue text) else none := by
  rw [QuantityQuery.readNat?, h.readDigits?]
  rfl

theorem spanDigits_append {digits rest : List Char} (hd : ∀ c ∈ digits, c.isDigit)
    (hrest : Stops Char.isDigit rest) : spanDigits (digits ++ rest) = (digits, rest) := by
  rw [spanDigits, takeWhile_append_of_stops hd hrest, dropWhile_append_of_stops hd hrest]

/-! ### Powers of ten -/

/-- A power of ten is neither a digit nor a point. -/
theorem stops_of_readExponent? {power : List Char} {e : Int} (h : readExponent? power = some e) :
    Stops Char.isDigit power ∧ Stops (· = '.') power := by
  cases power with
  | nil => exact ⟨stops_nil, stops_nil⟩
  | cons c rest =>
    rw [readExponent?] at h
    split at h
    case isFalse => cases h
    case isTrue hc => rcases hc with rfl | rfl <;> exact ⟨stops_cons.2 rfl, stops_cons.2 rfl⟩

/-- A digit is not a sign. -/
theorem spanSign_of_isDigit {c : Char} (hc : c.isDigit) (rest : List Char) :
    spanSign (c :: rest) = (false, c :: rest) := by
  have hminus : c ≠ '-' := ne_of_class hc rfl
  have hplus : c ≠ '+' := ne_of_class hc rfl
  simp [spanSign, hminus, hplus]

theorem spanSign_of_isDigits {text : List Char} (h : IsDigits text) :
    spanSign text = (false, text) := by
  obtain ⟨c, rest, rfl⟩ := List.exists_cons_of_ne_nil h.1
  exact spanSign_of_isDigit (h.2 c List.mem_cons_self) rest

/-- A written power of ten is read, with or without a plus. -/
theorem readExponent?_digits {plus : List Char} (hplus : plus = [] ∨ plus = ['+']) (e : Int) :
    readExponent? ('e' :: (if e < 0 then ['-'] else plus) ++ decimalDigits e.natAbs) = some e := by
  have hread := (isDigits_decimalDigits e.natAbs).readDigits?
  rw [digitsValue_decimalDigits] at hread
  rw [List.cons_append, readExponent?, if_pos (.inl rfl)]
  by_cases he : e < 0
  · simp only [he, if_true, List.cons_append, List.nil_append, spanSign, hread, Option.map_some,
      signed]
    congr 1
    omega
  · have hsign : spanSign ((if e < 0 then ['-'] else plus) ++ decimalDigits e.natAbs) =
        (false, decimalDigits e.natAbs) := by
      rw [if_neg he]
      rcases hplus with rfl | rfl
      · exact spanSign_of_isDigits (isDigits_decimalDigits _)
      · rfl
    simp only [hsign, hread, Option.map_some, signed]
    congr 1
    simp only [Bool.false_eq_true, if_false]
    omega

/-! ### Whole numbers -/

theorem toList_toString_int (i : Int) :
    (toString i).toList = (if i < 0 then ['-'] else []) ++ decimalDigits i.natAbs := by
  rw [Int.toString_eq_repr, Int.repr_eq_if]
  by_cases hi : i < 0
  · have habs : (-i).toNat = i.natAbs := by omega
    rw [if_neg (by omega), if_pos hi, String.toList_append, Nat.toList_repr, habs]
    rfl
  · have habs : i.toNat = i.natAbs := by omega
    rw [if_pos (by omega), if_neg hi, Nat.toList_repr, habs]
    rfl

theorem toString_int_injective {i j : Int} (h : toString i = toString j) : i = j := by
  have hi := readExponent?_digits (.inl (rfl : ([] : List Char) = [])) i
  rw [List.cons_append, ← toList_toString_int, h, toList_toString_int, ← List.cons_append,
    readExponent?_digits (.inl rfl)] at hi
  exact (Option.some.inj hi).symm

/-! ### Decimals -/

section

variable (negative : Bool) {whole fraction power : List Char} {e : Int}

theorem readDecimal?_whole (hw : IsDigits whole) (hp : readExponent? power = some e) :
    readDecimal? negative (whole ++ power) = some ⟨negative, digitsValue whole, e⟩ := by
  obtain ⟨hdigit, hpoint⟩ := stops_of_readExponent? hp
  have hfraction : spanFraction power = ([], power) := by
    unfold spanFraction
    split
    · simp [Stops] at hpoint
    · rfl
  simp only [readDecimal?, spanDigits_append hw.2 hdigit, hfraction, List.append_nil, hw.1,
    if_false, hp, Option.map_some, List.length_nil]
  simp

theorem readDecimal?_fraction (hw : IsDigits whole) (hf : ∀ c ∈ fraction, c.isDigit)
    (hp : readExponent? power = some e) :
    readDecimal? negative (whole ++ '.' :: (fraction ++ power)) =
      some ⟨negative, digitsValue (whole ++ fraction), e - fraction.length⟩ := by
  obtain ⟨hdigit, _⟩ := stops_of_readExponent? hp
  have hne : whole ++ fraction ≠ [] := by simp [hw.1]
  simp only [readDecimal?, spanDigits_append hw.2 (stops_cons.2 (rfl : Char.isDigit '.' = false)),
    spanFraction, spanDigits_append hf hdigit, hne, if_false, hp, Option.map_some]

/-- Digits alone. -/
theorem readDecimal?_digits (hw : IsDigits whole) :
    readDecimal? negative whole = some ⟨negative, digitsValue whole, 0⟩ := by
  have hread := readDecimal?_whole negative hw (rfl : readExponent? [] = some 0)
  rwa [List.append_nil] at hread

/-- Digits around a point. -/
theorem readDecimal?_point (hw : IsDigits whole) (hf : ∀ c ∈ fraction, c.isDigit) :
    readDecimal? negative (whole ++ '.' :: fraction) =
      some ⟨negative, digitsValue (whole ++ fraction), -fraction.length⟩ := by
  have hread := readDecimal?_fraction negative hw hf (rfl : readExponent? [] = some 0)
  rwa [List.append_nil, Int.zero_sub] at hread

end

theorem toLower_of_isDigit {c : Char} (hc : c.isDigit) : c.toLower = c := by
  refine dif_neg fun h => ?_
  simp only [Char.isDigit, Bool.and_eq_true, decide_eq_true_eq, ge_iff_le,
    UInt32.le_iff_toNat_le] at hc h
  have : '9'.val.toNat < 'A'.val.toNat := by decide
  omega

/-- What begins with a digit is none of the words that numbers are written with. -/
theorem readBinary?_of_isDigit {F : Format} {c : Char} (hc : c.isDigit) (rest : List Char) :
    readBinary? F (c :: rest) = (readDecimal? false (c :: rest)).map (Decimal.toBinary F) ∧
    readBinary? F ('-' :: c :: rest) =
      (readDecimal? true (c :: rest)).map (Decimal.toBinary F) := by
  have hsign := spanSign_of_isDigit hc rest
  -- All the words begin with a small letter, and so does not what is read.
  have hword : ∀ d : Char, d.isDigit = false → ∀ more : List Char,
      String.ofList ((c :: rest).map Char.toLower) ≠ String.ofList (d :: more) := by
    intro d hd more h
    have heq : c.toLower = d := List.head_eq_of_cons_eq (String.ofList_injective h)
    rw [toLower_of_isDigit hc] at heq
    exact ne_of_class hc hd heq
  have hinf := hword 'i' rfl ['n', 'f']
  have hinfinity := hword 'i' rfl ['n', 'f', 'i', 'n', 'i', 't', 'y']
  have hnan := hword 'n' rfl ['a', 'n']
  constructor
  · simp only [readBinary?, hsign]
    rw [if_neg (not_or.2 ⟨hinf, hinfinity⟩), if_neg hnan]
  · simp only [readBinary?, spanSign]
    rw [if_neg (not_or.2 ⟨hinf, hinfinity⟩), if_neg hnan]

/-! ### The characters of numerals -/

/-- The characters that finite numbers are written with. -/
def isNumeralChar (c : Char) : Bool := c.isDigit || ['+', '-', '.', 'e', 'E'].contains c

theorem isNumeralChar_of_isDigit {c : Char} (h : c.isDigit) : isNumeralChar c := by
  rw [isNumeralChar, h, Bool.true_or]

theorem mem_of_spanSign {text : List Char} {c : Char} (hc : c ∈ text) :
    isNumeralChar c ∨ c ∈ (spanSign text).2 := by
  unfold spanSign
  split
  · exact (List.mem_cons.1 hc).imp_left (by rintro rfl; rfl)
  · exact (List.mem_cons.1 hc).imp_left (by rintro rfl; rfl)
  · exact .inr hc

theorem mem_of_spanDigits {text : List Char} {c : Char} (hc : c ∈ text) :
    isNumeralChar c ∨ c ∈ (spanDigits text).2 := by
  rw [← List.takeWhile_append_dropWhile (p := Char.isDigit) (l := text), List.mem_append] at hc
  exact hc.imp_left fun h => isNumeralChar_of_isDigit (List.all_eq_true.1 List.all_takeWhile c h)

theorem mem_of_spanFraction {text : List Char} {c : Char} (hc : c ∈ text) :
    isNumeralChar c ∨ c ∈ (spanFraction text).2 := by
  unfold spanFraction
  split
  · rcases List.mem_cons.1 hc with rfl | hc
    · exact .inl rfl
    · exact mem_of_spanDigits hc
  · exact .inr hc

theorem isNumeralChar_of_readExponent? {text : List Char} {e : Int}
    (h : readExponent? text = some e) : ∀ c ∈ text, isNumeralChar c := by
  cases text with
  | nil => exact fun _ hc => nomatch hc
  | cons d rest =>
    intro c hc
    rw [readExponent?] at h
    by_cases hd : d = 'e' ∨ d = 'E'
    case neg => rw [if_neg hd] at h; cases h
    case pos =>
      rw [if_pos hd] at h
      rcases List.mem_cons.1 hc with rfl | hc
      · rcases hd with rfl | rfl <;> rfl
      · have hsign := mem_of_spanSign hc
        rcases hs : spanSign rest with ⟨negative, digits⟩
        rw [hs] at h hsign
        obtain ⟨n, hn, _⟩ := Option.map_eq_some_iff.1 h
        refine hsign.elim id fun hc => isNumeralChar_of_isDigit ?_
        rw [readDigits?] at hn
        split at hn
        case isFalse => cases hn
        case isTrue hdigits => exact List.all_eq_true.1 hdigits.2 c hc

theorem isNumeralChar_of_readDecimal? {negative : Bool} {text : List Char} {d : Decimal}
    (h : readDecimal? negative text = some d) : ∀ c ∈ text, isNumeralChar c := by
  intro c hc
  -- Digits, the point with its digits and the power of ten come off one after the other.
  have hdigits := mem_of_spanDigits hc
  rcases hs : spanDigits text with ⟨whole, rest⟩
  rw [hs] at hdigits
  have hpoint := hdigits.imp_right mem_of_spanFraction
  rcases hf : spanFraction rest with ⟨fraction, power⟩
  rw [hf] at hpoint
  simp only [readDecimal?, hs, hf] at h
  split at h
  case isTrue => cases h
  case isFalse =>
    obtain ⟨e, he, _⟩ := Option.map_eq_some_iff.1 h
    exact hpoint.elim id fun h => h.elim id (isNumeralChar_of_readExponent? he c)

/-- A text that reads as a finite number has no other characters. -/
theorem isNumeralChar_of_readBinary? {F : Format} {text : List Char} {x : Binary F}
    (h : readBinary? F text = some x) (hx : x.isFinite) : ∀ c ∈ text, isNumeralChar c := by
  intro c hc
  -- The sign comes off first; the words after it stand for no finite number.
  have hsign := mem_of_spanSign hc
  rcases hs : spanSign text with ⟨negative, magnitude⟩
  rw [hs] at hsign
  simp only [readBinary?, hs] at h
  split at h
  case isTrue => cases h; cases hx
  case isFalse =>
    split at h
    case isTrue => cases h; cases hx
    case isFalse =>
      obtain ⟨d, hd, _⟩ := Option.map_eq_some_iff.1 h
      exact hsign.elim id (isNumeralChar_of_readDecimal? hd c)

end QuantityQuery
