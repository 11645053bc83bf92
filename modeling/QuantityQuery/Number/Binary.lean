/-!
# Binary floating-point numbers

Exact binary floating-point arithmetic. The finite numbers of a format are
multiples of its least positive number, the *quantum* `2 ^ -scale`; a finite
number is held as a sign and a count of quanta. Order, sums and conversions are
thus questions about whole numbers, and rounding is the only place where
anything is lost.

* `Format.step`: the distance between neighbouring numbers of a format;
* `Format.nearest`: rounding a quotient to the nearest number, halves to even;
* `Binary.order`: the place of a number on the line, by which all comparisons go;
* `Double` and `Single`: the numbers with 53 and with 24 significant bits.
-/

namespace QuantityQuery

-- Powers are the ones of the core library, whatever else is imported.
attribute [local instance (2000)] instPowNat

/-- A binary floating-point format. -/
structure Format where
  /-- How many binary digits a number can have, from the first to the last one. -/
  precision : Nat
  /-- The quantum, which is the least positive number, is `2 ^ -scale`. -/
  scale : Nat
  /-- Every finite magnitude is less than `2 ^ limit` quanta. -/
  limit : Nat
  deriving DecidableEq, Repr

/-- The quotient `num / den` rounded to the nearest whole number, halves to the even one. -/
def roundHalfEven (num den : Nat) : Nat :=
  let q := num / den
  let r := 2 * (num % den)
  if r < den then q else if den < r then q + 1 else q + q % 2

namespace Format

variable (F : Format)

/-- The distance, in quanta, between neighbouring numbers at a magnitude of `n` quanta. -/
def step (n : Nat) : Nat := 2 ^ (n.log2 + 1 - F.precision)

/-- A magnitude of `n` quanta is a number of the format. -/
def Holds (n : Nat) : Prop := F.step n ∣ n ∧ n < 2 ^ F.limit

instance (n : Nat) : Decidable (F.Holds n) := inferInstanceAs (Decidable (_ ∧ _))

/-- The multiple of the step at `num / den` quanta that is nearest to it, halves to even. -/
def nearest (num den : Nat) : Nat :=
  let s := F.step (num / den)
  roundHalfEven num (den * s) * s

theorem holds_zero : F.Holds 0 := ⟨Nat.dvd_zero _, Nat.two_pow_pos _⟩

end Format

/-- A number of the format `F`. -/
inductive Binary (F : Format)
  /-- What is no number. -/
  | nan
  /-- One of the two infinities. -/
  | infinite (negative : Bool)
  /-- A sign and a count of quanta. Zero has both signs. -/
  | finite (negative : Bool) (quanta : Nat) (holds : F.Holds quanta)
  deriving DecidableEq

/-- The numbers with 53 significant bits. -/
abbrev Double := Binary ⟨53, 1074, 2098⟩

/-- The numbers with 24 significant bits. -/
abbrev Single := Binary ⟨24, 149, 277⟩

/-- The number with the magnitude `n` and the given sign. -/
def signed (negative : Bool) (n : Nat) : Int := if negative then -(n : Int) else n

namespace Binary

variable {F G : Format}

/-! ### Rounding -/

/-- Zero with the given sign. -/
def zero (negative : Bool) : Binary F := finite negative 0 F.holds_zero

/-- The number nearest to `num / den` quanta; infinite when that is beyond the format. -/
def ofQuanta (negative : Bool) (num den : Nat) : Binary F :=
  let n := F.nearest num den
  if h : F.Holds n then finite negative n h else infinite negative

/-- The number nearest to the quotient `num / den`. -/
def ofRatio (negative : Bool) (num den : Nat) : Binary F :=
  ofQuanta negative (num * 2 ^ F.scale) den

/-- The number nearest to the whole number `i`. -/
def ofInt (i : Int) : Binary F := ofRatio (i < 0) i.natAbs 1

instance (n : Nat) : OfNat (Binary F) n := ⟨ofInt n⟩

instance : Inhabited (Binary F) := ⟨0⟩

/-- The number of the format `G` nearest to a number. -/
def convert : Binary F → Binary G
  | nan => nan
  | infinite negative => infinite negative
  | finite negative n _ => ofRatio negative n (2 ^ F.scale)

/-! ### Order -/

/-- Neither infinite nor without a value. -/
def isFinite : Binary F → Bool
  | finite .. => true
  | _ => false

/-- The place of a number on the line, in quanta. The infinities stand beyond all
    finite numbers, the two zeros at one place. -/
def order : Binary F → Option Int
  | nan => none
  | infinite negative => some (signed negative (2 ^ F.limit))
  | finite negative n _ => some (signed negative n)

/-- The comparison `test` of two places; false when one of the numbers has no place. -/
def compareBy (test : Int → Int → Bool) (x y : Binary F) : Bool :=
  match x.order, y.order with
  | some i, some j => test i j
  | _, _ => false

/-- The numbers stand at one place. -/
def eq : Binary F → Binary F → Bool := compareBy fun i j => i = j

/-- The first number stands before the second. -/
def lt : Binary F → Binary F → Bool := compareBy fun i j => i < j

/-- The first number stands before or at the second. -/
def le : Binary F → Binary F → Bool := compareBy fun i j => i ≤ j

/-! ### Arithmetic -/

/-- The sum, rounded once. An exact sum of zero is negative only for two negative zeros. -/
def add : Binary F → Binary F → Binary F
  | nan, _ => nan
  | _, nan => nan
  | infinite a, infinite b => if a = b then infinite a else nan
  | infinite a, finite .. => infinite a
  | finite .., infinite b => infinite b
  | finite a m _, finite b n _ =>
    let sum := signed a m + signed b n
    if sum = 0 then zero (a && b) else ofQuanta (sum < 0) sum.natAbs 1

/-- The product, rounded once. -/
def mul : Binary F → Binary F → Binary F
  | nan, _ => nan
  | _, nan => nan
  | infinite a, infinite b => infinite (a ^^ b)
  | infinite a, finite b n _ => if n = 0 then nan else infinite (a ^^ b)
  | finite a m _, infinite b => if m = 0 then nan else infinite (a ^^ b)
  | finite a m _, finite b n _ => ofQuanta (a ^^ b) (m * n) (2 ^ F.scale)

/-- The quotient, rounded once. -/
def div : Binary F → Binary F → Binary F
  | nan, _ => nan
  | _, nan => nan
  | infinite _, infinite _ => nan
  | infinite a, finite b .. => infinite (a ^^ b)
  | finite a .., infinite b => zero (a ^^ b)
  | finite a m _, finite b n _ =>
    if n = 0 then if m = 0 then nan else infinite (a ^^ b)
    else ofRatio (a ^^ b) m n

instance : Add (Binary F) := ⟨add⟩
instance : Mul (Binary F) := ⟨mul⟩
instance : Div (Binary F) := ⟨div⟩

/-! ### Whole numbers -/

/-- The number is finite and whole. -/
def isWhole : Binary F → Bool
  | finite _ n _ => n % 2 ^ F.scale = 0
  | _ => false

/-- The whole part of a number, brought into the range from `low` to `high`; `0` for what is
    no number. -/
def clamp (low high : Int) : Binary F → Int
  | nan => 0
  | infinite negative => if negative then low else high
  | finite negative n _ => max low (min high (signed negative (n / 2 ^ F.scale)))

end Binary

end QuantityQuery
