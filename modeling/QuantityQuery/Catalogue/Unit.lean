import QuantityQuery.Catalogue.Error
import QuantityQuery.Number.Numeral
import QuantityQuery.Text.Character

/-!
# Units of measure

A unit has a name, the *variants* by which texts spell it, and two optional
settings: a *boost*, which raises the score of documents that hold exactly the
amount asked for, and a *gap*, the distance from that amount at which documents
still match.

* `Boost` keeps the text it was written with: boosts `2` and `2.0` are two
  boosts of one value;
* `Gap.distance`: the whole part of a gap, which is all that counts of it.
-/

namespace QuantityQuery

/-! ### Boosts -/

/-- Digits with at most one point, which stands between digits. -/
def isPlainDecimal (text : List Char) : Bool :=
  !text.isEmpty && text.all (fun c => c.isDigit || c = '.') && text.count '.' ≤ 1 &&
    text.head? != some '.' && text.getLast? != some '.'

/-- The value of a boost text; no number where the text is none. -/
def boostValue (text : String) : Single := (readBinary? _ text.toList).getD .nan

/-- A text that can be a boost: a plain decimal with a positive finite value. -/
def IsBoost (text : String) : Prop :=
  isPlainDecimal text.toList ∧ (boostValue text).isFinite ∧ Binary.lt 0 (boostValue text)

instance (text : String) : Decidable (IsBoost text) := inferInstanceAs (Decidable (_ ∧ _ ∧ _))

/-- A positive factor, as written. -/
structure Boost where
  text : String
  isBoost : IsBoost text
  deriving DecidableEq

namespace Boost

/-- The factor as a number. -/
def value (b : Boost) : Single := boostValue b.text

/-- Reads a boost, which may have blanks around it. -/
def ofText (text : String) : Except ConfigError Boost :=
  let text := String.ofList (trim text.toList)
  if !isPlainDecimal text.toList then .error (.boostNotDecimal text)
  else if h : IsBoost text then .ok ⟨text, h⟩
  else .error (.boostNotPositive text)

end Boost

/-! ### Gaps -/

/-- A number that can be a gap: finite and not negative. -/
def IsGap (value : Double) : Prop := value.isFinite ∧ Binary.le 0 value

instance (value : Double) : Decidable (IsGap value) := inferInstanceAs (Decidable (_ ∧ _))

/-- The half-width of the range around an amount. -/
structure Gap where
  value : Double
  isGap : IsGap value
  deriving DecidableEq

/-- The largest amount. -/
def maxAmount : Nat := 0xFFFF_FFFF_FFFF_FFFF

namespace Gap

/-- The gap of a number. -/
def ofValue (value : Double) : Except ConfigError Gap :=
  if h : IsGap value then .ok ⟨value, h⟩ else .error (.gapNegative value)

/-- The whole part of a gap, at most the largest amount. -/
def distance (g : Gap) : Nat := (g.value.clamp 0 maxAmount).toNat

/-- The amounts from `amount` less the distance to `amount` and the distance, cut at both ends of
    the amounts. -/
def range (g : Gap) (amount : Nat) : Nat × Nat :=
  (amount - g.distance, min (amount + g.distance) maxAmount)

end Gap

/-! ### Units -/

/-- A unit of measure. -/
structure MeasureUnit where
  name : String
  /-- The spellings of the unit in texts, in the order of their declaration. -/
  variants : List String
  boost : Option Boost
  gap : Option Gap
  deriving DecidableEq

/-- A text without the blanks at its ends. -/
def trimmed (text : String) : String := String.ofList (trim text.toList)

namespace MeasureUnit

/-- What is wrong with a variant. -/
def variantFault? (unit field variant : String) : Option ConfigError :=
  match trim variant.toList with
  | [] => some (.variantBlank unit field)
  | c :: _ => if c.isDigit then some (.variantDigit (trimmed variant) unit) else none

/-- The first of the things that are wrong with a unit of the field `field`. -/
def fault? (u : MeasureUnit) (field : String) : Option ConfigError :=
  if isBlankText u.name.toList then some (.unitUnnamed field)
  else if u.variants.isEmpty then some (.unitWithoutVariants u.name field)
  else u.variants.findSome? (variantFault? u.name field)

/-- The unit with its variants trimmed. -/
def normalise (u : MeasureUnit) : MeasureUnit := { u with variants := u.variants.map trimmed }

end MeasureUnit

end QuantityQuery
