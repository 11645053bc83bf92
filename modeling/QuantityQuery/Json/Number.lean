import QuantityQuery.Json.Reader
import QuantityQuery.Number.Shortest

/-!
# Numbers in JSON

The value of a number in a JSON text. A number without point and power of ten is a
whole number where 64 bits hold it. All others are rounded in two steps: the digits
make a whole number of at most 64 bits, what does not fit being dropped, which is
rounded and then multiplied or divided by a power of ten. The result can be off by
the last bit; a number beyond all finite ones is refused.

* `JsonNumber.ofLiteral?`: the value of a number as it is written;
* `JsonNumber.text`: a value as it is written when it stands for a text.
-/

namespace QuantityQuery

/-- The value of a number in a JSON text. -/
inductive JsonNumber
  /-- A whole number from `0` up to `2 ^ 64`. -/
  | natural (value : Nat)
  /-- A whole number below `0`, down to `-2 ^ 63`. -/
  | negative (value : Int)
  | real (value : Double)
  deriving DecidableEq

namespace JsonNumber

/-- The greatest whole number of 64 bits. -/
def maxNatural : Nat := 0xFFFF_FFFF_FFFF_FFFF

/-- The greatest power of ten, which is the greatest that is a finite number. -/
def maxPower : Nat := 308

/-- The greatest power of ten that is looked at. -/
def maxExponent : Nat := 0x7FFF_FFFF

/-- A power of ten as a number. -/
def powerOfTen (e : Nat) : Double := Decimal.toBinary _ ⟨false, 1, e⟩

/-- The digits that fit into 64 bits after `n`, joined to it, and the digits that are left. -/
def joinDigits (n : Nat) : List Char → Nat × List Char
  | [] => (n, [])
  | c :: rest =>
    let m := 10 * n + digitValue c
    if m ≤ maxNatural then joinDigits m rest else (n, c :: rest)

/-- A number divided by a power of ten, in steps of the greatest power. -/
def divideByPower (x : Double) (e : Nat) : Double :=
  if e ≤ maxPower then x / powerOfTen e
  else if x.eq 0 then x
  else divideByPower (x / powerOfTen maxPower) (e - maxPower)
termination_by e
decreasing_by simp only [maxPower] at *; omega

/-- The number `digits * 10 ^ e`, unless it is beyond all finite numbers. -/
def scale? (digits : Nat) (e : Int) : Option Double :=
  let x : Double := .ofInt digits
  if e < 0 then some (divideByPower x e.natAbs)
  else if maxPower < e.toNat then if digits = 0 then some x else none
  else some (x * powerOfTen e.toNat) |>.filter (·.isFinite)

/-- The number with the opposite sign. -/
def negate : Double → Double
  | .nan => .nan
  | .infinite s => .infinite !s
  | .finite s n h => .finite (!s) n h

/-- The parts of a number as it is written. -/
structure Parts where
  minus : Bool
  whole : List Char
  /-- The digits after the point; none where there is no point. -/
  fraction : List Char
  /-- The sign and digits of the power of ten, true for a minus. -/
  power : Option (Bool × List Char)

/-- The parts of a number. -/
def Parts.ofLiteral (literal : List Char) : Parts :=
  let minus := literal.head? = some '-'
  let (whole, rest) := spanDigits (if minus then literal.drop 1 else literal)
  let (fraction, rest) := spanFraction rest
  let power := match rest with
    | [] => none
    | _ :: rest => some (spanSign rest)
  ⟨minus, whole, fraction, power⟩

/-- The digits of a number as a whole number of at most 64 bits, and the power of ten that it is
    to be multiplied by. Digits before the point that do not fit count as zeros, those after it
    not at all. -/
def Parts.joined (p : Parts) : Nat × Int :=
  let (n, dropped) := joinDigits 0 p.whole
  let (m, left) := joinDigits n p.fraction
  (m, (dropped.length : Int) - (p.fraction.length - left.length : Nat))

/-- The value of a number that has a point, a power of ten or too many digits. -/
def Parts.real? (p : Parts) : Option Double :=
  let (n, e) := p.joined
  let magnitude := match p.power with
    | none => scale? n e
    | some (down, digits) =>
      match readNat? maxExponent digits with
      | some power => scale? n (e + signed down power)
      | none => if down || n = 0 then some 0 else none
  if p.minus then magnitude.map negate else magnitude

/-- The value of a number as it is written; none where it is beyond all finite numbers. -/
def ofLiteral? (literal : List Char) : Option JsonNumber :=
  let p := Parts.ofLiteral literal
  let n := digitsValue p.whole
  if p.fraction = [] ∧ p.power = none ∧ n ≤ maxNatural then
    if !p.minus then some (natural n)
    else if 0 < n ∧ n ≤ 0x8000_0000_0000_0000 then some (negative (-n))
    else some (real (negate (.ofInt n)))
  else p.real?.map real

/-- A number of the format `F` nearest to a value. -/
def toBinary {F : Format} : JsonNumber → Binary F
  | natural n => .ofInt n
  | negative i => .ofInt i
  | real x => x.convert

/-- Doubles in JSON: positional from `1e-5` up to `1e16`. -/
def doubleLayout : Layout := ⟨fun e => -5 ≤ e && e < 16, true, ['+'], .even⟩

/-- Singles in JSON: positional from `1e-6` up to `1e13`. -/
def singleLayout : Layout := ⟨fun e => -6 ≤ e && e < 13, true, ['+'], .even⟩

/-- A value as it is written. -/
def text : JsonNumber → String
  | natural n => toString n
  | negative i => toString i
  | real x => doubleLayout.write x

end JsonNumber

namespace Json

/-- A finite number in a layout. What is not finite has no number in JSON. -/
def ofBinary (l : Layout) {F : Format} (x : Binary F) : Json :=
  if x.isFinite then number (l.write x).toList else null

/-- The tree of a double. -/
def ofDouble (x : Double) : Json := ofBinary JsonNumber.doubleLayout x

/-- The tree of a single. -/
def ofSingle (x : Single) : Json := ofBinary JsonNumber.singleLayout x

/-- The tree of a whole number. -/
def ofInt (i : Int) : Json := number (toString i).toList

/-- How deep values that are kept for later may be nested. -/
def maxDepth : Nat := 127

mutual

/-- A value that can be kept for later at a nesting of `depth`: there is no break in it, no number
    out of range, no string without text, and its nesting has a limit. -/
def isKeepable (depth : Nat) : Json → Bool
  | number literal => (JsonNumber.ofLiteral? literal).isSome
  | string text => text.isSome
  | array items => depth < maxDepth && allKeepable (depth + 1) items
  | object members => depth < maxDepth && allMembersKeepable (depth + 1) members
  | broken => false
  | _ => true

/-- All items can be kept for later. -/
def allKeepable (depth : Nat) : List Json → Bool
  | [] => true
  | item :: rest => item.isKeepable depth && allKeepable depth rest

/-- All members can be kept for later. -/
def allMembersKeepable (depth : Nat) : List (Option String × Json) → Bool
  | [] => true
  | (key, value) :: rest =>
    key.isSome && value.isKeepable depth && allMembersKeepable depth rest

end

end Json

end QuantityQuery
