import QuantityQuery.Number.Decimal

/-!
# Writing numbers

The *shortest* digits of a number are the fewest decimal digits that read back as
the number, the nearest to it where several do. A number of `n` quanta is exactly
`n * 5 ^ scale` units in the last of `scale` decimal places, so its neighbours
with fewer digits come from dividing this whole number by powers of ten.

* `Format.shortest`: the shortest digits of a magnitude;
* `Layout`: where the digits, the point and the power of ten are put;
* `Layout.write`: a number in a layout;
* `Binary.writePlaces`: a number with a fixed count of decimal places.
-/

namespace QuantityQuery

attribute [local instance (2000)] instPowNat

/-- Which of two equally near decimals is taken. -/
inductive Tie
  | up
  | even
  deriving DecidableEq, Repr

namespace Format

variable (F : Format)

/-- A magnitude of `n` quanta in units of `10 ^ -scale`. -/
def decimalUnits (n : Nat) : Nat := n * 5 ^ F.scale

/-- The decimal of `units` units reads back as a magnitude of `n` quanta. -/
def readsBack (units n : Nat) : Bool := F.nearest units (5 ^ F.scale) = n

/-- The multiple of `10 ^ cut` units next to a magnitude of `n` quanta that reads back as it,
    counted in `10 ^ cut` units. -/
def neighbour? (tie : Tie) (n cut : Nat) : Option Nat :=
  let units := F.decimalUnits n
  let low := units / 10 ^ cut
  let beyond := 2 * (units % 10 ^ cut)
  match F.readsBack (low * 10 ^ cut) n, F.readsBack ((low + 1) * 10 ^ cut) n with
  | false, false => none
  | true, false => some low
  | false, true => some (low + 1)
  | true, true =>
    if beyond < 10 ^ cut then some low
    else if 10 ^ cut < beyond then some (low + 1)
    else match tie with
      | .up => some (low + 1)
      | .even => some (low + low % 2)

/-- The first neighbour that reads back, from the coarsest of the cuts up to `cut`. At no cut the
    magnitude itself is left. -/
def shortestFrom (tie : Tie) (n : Nat) : (cut : Nat) → Nat × Nat
  | 0 => (F.decimalUnits n, 0)
  | cut + 1 =>
    match F.neighbour? tie n (cut + 1) with
    | some digits => (digits, cut + 1)
    | none => shortestFrom tie n cut

/-- The shortest digits of a magnitude of `n` quanta, and the power of ten they count. -/
def shortest (tie : Tie) (n : Nat) : Nat × Int :=
  let (digits, cut) := F.shortestFrom tie n (decimalDigits (F.decimalUnits n)).length
  (digits, cut - F.scale)

end Format

/-- How the shortest digits of a number are laid out. -/
structure Layout where
  /-- The numbers written without a power of ten, by the power of ten of their first digit. -/
  positional : Int → Bool
  /-- Whole numbers end in a point and a zero. -/
  pointed : Bool
  /-- What stands before a power of ten that is not negative. -/
  plus : List Char
  /-- The choice between two equally near decimals. -/
  tie : Tie

namespace Layout

variable (l : Layout)

/-- The end of a whole number. -/
def pointZero : List Char := if l.pointed then ['.', '0'] else []

/-- The digits with the point after the first `point` of them; zeros fill the gap when the point
    lies outside of the digits. -/
def placePoint (digits : List Char) (point : Int) : List Char :=
  if point ≤ 0 then '0' :: '.' :: List.replicate (-point).toNat '0' ++ digits
  else if digits.length ≤ point.toNat then
    digits ++ List.replicate (point.toNat - digits.length) '0' ++ l.pointZero
  else digits.take point.toNat ++ '.' :: digits.drop point.toNat

/-- The digits with the point after the first one, and the power of ten `e`. -/
def placePower (digits : List Char) (e : Int) : List Char :=
  let fraction := match digits.drop 1 with
    | [] => []
    | rest => '.' :: rest
  let sign := if e < 0 then ['-'] else l.plus
  digits.take 1 ++ fraction ++ 'e' :: sign ++ decimalDigits e.natAbs

/-- A magnitude of `n` quanta of the format `F`. -/
def magnitude (F : Format) (n : Nat) : List Char :=
  if n = 0 then '0' :: l.pointZero
  else
    let (number, power) := F.shortest l.tie n
    let digits := decimalDigits number
    let e := power + digits.length - 1
    if l.positional e then l.placePoint digits (e + 1) else l.placePower digits e

/-- The sign of a negative number. -/
def sign (negative : Bool) : List Char := if negative then ['-'] else []

/-- A number in this layout. -/
def write {F : Format} : Binary F → String
  | .nan => "NaN"
  | .infinite negative => String.ofList (sign negative ++ ['i', 'n', 'f'])
  | .finite negative n _ => String.ofList (sign negative ++ l.magnitude F n)

/-- Positional everywhere, and a whole number as an integer. -/
def plain : Layout := ⟨fun _ => true, false, [], .up⟩

/-- Positional from `1e-4` up to `1e16`, whole numbers with a point and a zero. -/
def debug : Layout := ⟨fun e => -4 ≤ e && e < 16, true, [], .up⟩

end Layout

/-- A number with `places` decimal places, the nearest such, halves to even. -/
def Binary.writePlaces (places : Nat) {F : Format} : Binary F → String
  | .nan => "NaN"
  | .infinite negative => String.ofList (Layout.sign negative ++ ['i', 'n', 'f'])
  | .finite negative n _ =>
    let scaled := roundHalfEven (n * 10 ^ places) (2 ^ F.scale)
    let digits := decimalDigits scaled
    let padded := List.replicate (places + 1 - digits.length) '0' ++ digits
    let whole := padded.length - places
    String.ofList (Layout.sign negative ++ padded.take whole ++ '.' :: padded.drop whole)

end QuantityQuery
