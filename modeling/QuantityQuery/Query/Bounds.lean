import QuantityQuery.Number.Numeral
import QuantityQuery.Query.Token

/-!
# Bounds

Bounds of ranges. A bound is a number, whole or not, or a text; a text that is no
number admits no value at all.

* `Bound.value?`: the number that values are compared with;
* `Bounds.contains`: the values within the bounds.
-/

namespace QuantityQuery

/-- The least whole number that a bound can be. -/
def minWhole : Int := -0x8000_0000_0000_0000

/-- The greatest whole number that a bound can be. -/
def maxWhole : Int := 0x7FFF_FFFF_FFFF_FFFF

/-- A bound of a range. -/
inductive Bound
  | whole (value : Int)
  | real (value : Double)
  | text (value : String)
  deriving DecidableEq

namespace Bound

/-- The number that a bound stands for, if it does. -/
def value? : Bound → Option Double
  | whole i => some (.ofInt i)
  | real x => some x
  | text s => readBinary? _ s.toList

/-- The bound of a number: a whole number where it is one, cut at the ends of their range. -/
def ofNumber (x : Double) : Bound :=
  if x.isWhole then whole (x.clamp minWhole maxWhole) else real x

/-- The bound of a text: a whole number where it writes one. -/
def ofText (s : String) : Bound :=
  match readInt? minWhole maxWhole s.toList with
  | some i => whole i
  | none => text s

/-- The description of a bound. -/
def describe : Bound → String
  | whole i => "Long(" ++ toString i ++ ")"
  | real x => "Double(" ++ Layout.debug.write x ++ ")"
  | text s => "String(" ++ quote s ++ ")"

end Bound

/-- The bounds of a range, and the boost of the documents within them. -/
structure Bounds where
  /-- Values are at least this one. -/
  gte : Option Bound := none
  /-- Values are greater than this one. -/
  gt : Option Bound := none
  /-- Values are at most this one. -/
  lte : Option Bound := none
  /-- Values are less than this one. -/
  lt : Option Bound := none
  boost : Single := 1
  deriving DecidableEq

namespace Bounds

/-- A value keeps to a bound. A missing bound admits every value. -/
def keeps (test : Double → Double → Bool) (value : Double) : Option Bound → Bool
  | none => true
  | some bound => bound.value?.any (test value)

/-- A value lies within the bounds. -/
def contains (b : Bounds) (value : Double) : Bool :=
  keeps (fun v w => w.le v) value b.gte && keeps (fun v w => w.lt v) value b.gt &&
    keeps Binary.le value b.lte && keeps Binary.lt value b.lt

/-- The description of the bounds with their boost. -/
def describe (b : Bounds) : String :=
  "RangeBounds \x7b gte: " ++ describeOption Bound.describe b.gte ++
    ", gt: " ++ describeOption Bound.describe b.gt ++
    ", lte: " ++ describeOption Bound.describe b.lte ++
    ", lt: " ++ describeOption Bound.describe b.lt ++
    ", boost: " ++ Layout.debug.write b.boost ++ " \x7d"

end Bounds

end QuantityQuery
