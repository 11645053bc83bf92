import QuantityQuery.Number.Binary

/-!
# Decimal numbers

A decimal number is a sign, a whole number and a power of ten. `Decimal.toBinary`
rounds it to the nearest number of a binary format. An exponent that takes the
decimal beyond every number of the format, or below half of its quantum, is
answered from its size alone, so that no power of ten is built for it.
-/

namespace QuantityQuery

attribute [local instance (2000)] instPowNat

/-- The value of a digit. -/
def digitValue (c : Char) : Nat := c.toNat - '0'.toNat

/-- The number that a sequence of decimal digits writes. -/
def digitsValue (digits : List Char) : Nat :=
  digits.foldl (fun n c => 10 * n + digitValue c) 0

/-- The decimal digits of a number, the first one first. -/
def decimalDigits (n : Nat) : List Char := Nat.toDigits 10 n

/-- The number `±digits * 10 ^ exponent`. -/
structure Decimal where
  negative : Bool
  digits : Nat
  exponent : Int
  deriving DecidableEq, Repr

namespace Decimal

/-- The number of the format `F` nearest to a decimal. -/
def toBinary (F : Format) (d : Decimal) : Binary F :=
  if d.digits = 0 then .zero d.negative
  else if 0 ≤ d.exponent then
    if (F.limit : Int) < d.exponent then .infinite d.negative
    else .ofRatio d.negative (d.digits * 10 ^ d.exponent.toNat) 1
  else if d.exponent + (d.digits.log2 + 1 + F.scale : Nat) < 0 then .zero d.negative
  else .ofRatio d.negative d.digits (10 ^ (-d.exponent).toNat)

end Decimal

end QuantityQuery
