import QuantityQuery.Number.Decimal

/-!
# Numerals

Reading numbers from text. The whole text has to be the numeral: blanks,
separators and trailing text are refused.

* `readBinary?` reads decimal notation with an optional sign, point and power of
  ten, and the words for what is not a finite number;
* `readInt?` reads a whole number with an optional sign, within bounds;
* `readNat?` reads a whole number up to a bound.
-/

namespace QuantityQuery

/-- The digits a text begins with, and the rest. -/
def spanDigits (text : List Char) : List Char × List Char :=
  (text.takeWhile Char.isDigit, text.dropWhile Char.isDigit)

/-- The number that a text of digits alone writes; a numeral has at least one digit. -/
def readDigits? (text : List Char) : Option Nat :=
  if text ≠ [] ∧ text.all Char.isDigit then some (digitsValue text) else none

/-- A leading sign, true for minus, and the rest. -/
def spanSign : List Char → Bool × List Char
  | '-' :: rest => (true, rest)
  | '+' :: rest => (false, rest)
  | text => (false, text)

/-- The power of ten after the digits of a numeral; none is the power zero. -/
def readExponent? : List Char → Option Int
  | [] => some 0
  | c :: rest =>
    if c = 'e' ∨ c = 'E' then
      let (negative, digits) := spanSign rest
      (readDigits? digits).map (signed negative)
    else none

/-- The digits after the point of a numeral, if it has a point, and the rest. -/
def spanFraction : List Char → List Char × List Char
  | '.' :: rest => spanDigits rest
  | text => ([], text)

/-- The decimal that an unsigned numeral writes. There is a digit before or after the point. -/
def readDecimal? (negative : Bool) (text : List Char) : Option Decimal :=
  let (whole, rest) := spanDigits text
  let (fraction, power) := spanFraction rest
  if whole ++ fraction = [] then none
  else (readExponent? power).map fun e =>
    ⟨negative, digitsValue (whole ++ fraction), e - fraction.length⟩

/-- The number of the format `F` that a text writes: a decimal numeral, rounded to the nearest
    number, or one of the words `inf`, `infinity` and `nan` in any case. -/
def readBinary? (F : Format) (text : List Char) : Option (Binary F) :=
  let (negative, magnitude) := spanSign text
  let word := String.ofList (magnitude.map Char.toLower)
  if word = "inf" ∨ word = "infinity" then some (.infinite negative)
  else if word = "nan" then some .nan
  else (readDecimal? negative magnitude).map (Decimal.toBinary F)

/-- The whole number from `low` to `high` that a text writes. -/
def readInt? (low high : Int) (text : List Char) : Option Int :=
  let (negative, digits) := spanSign text
  (readDigits? digits).bind fun n =>
    let i := signed negative n
    if low ≤ i ∧ i ≤ high then some i else none

/-- The number up to `high` that a text of digits writes. -/
def readNat? (high : Nat) (digits : List Char) : Option Nat :=
  (readDigits? digits).bind fun n => if n ≤ high then some n else none

end QuantityQuery
