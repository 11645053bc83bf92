import QuantityQuery.Catalogue.Basic

/-!
# Quantities in a text

A quantity is written as a whole number, blanks, and a spelling of a unit from the
catalogue, as in `42 inch`. `Catalogue.scan` finds the quantities of a text from
left to right, in lowercase.

A number counts as an amount when it stands alone: it does not continue a word or
a number, has no decimal places or groups of digits, no sign before it, and is not
too large. A hyphen is a sign unless a word ends before it, so `usb-64gb` has the
amount 64. Of several spellings that fit, the longest is taken, and one that ends
in a letter or digit fits only where the word ends.

* `Literal.read`: a number in the text and the amount it writes, if any;
* `Catalogue.spellingAt?`: the spelling at the beginning of a text;
* `Catalogue.scanFrom`: the scan, which keeps the two characters before it in view.
-/

namespace QuantityQuery

/-- A quantity found in a text: an amount of a unit, meant for a field. -/
structure Occurrence where
  field : String
  amount : Nat
  unit : MeasureUnit
  deriving DecidableEq

/-- The report of a found quantity. -/
def Occurrence.event (o : Occurrence) : Event := .quantityDetected o.amount o.unit.name o.field

/-- What stands before a place in a text: the last character and the one before it. -/
structure Before where
  last : Option Char
  secondLast : Option Char
  deriving DecidableEq

namespace Before

/-- The beginning of a text. -/
def start : Before := ⟨none, none⟩

/-- What stands before the place after `c`. -/
def push (b : Before) (c : Char) : Before := ⟨some c, b.last⟩

/-- What stands before the place after `text`. -/
def pushAll (b : Before) (text : List Char) : Before := text.foldl push b

/-- A digit here neither continues a word nor a number. -/
def isFree (b : Before) : Bool :=
  !b.last.any fun c => isAlphanumeric c || c = '.' || c = ','

/-- There is a hyphen before this place that does not join two words. -/
def isSigned (b : Before) : Bool := b.last = some '-' && !b.secondLast.any isAlphanumeric

end Before

/-- A number in a text. -/
structure Literal where
  /-- The characters of the number. -/
  text : List Char
  /-- The whole number it writes, unless it has decimals or is too large. -/
  amount : Option Nat
  deriving DecidableEq

/-- The number at the beginning of a text that begins with a digit. -/
def Literal.read (text : List Char) : Literal :=
  let (digits, rest) := spanDigits text
  match rest with
  | point :: next :: rest =>
    if (point = '.' ∨ point = ',') ∧ next.isDigit then
      ⟨digits ++ point :: (next :: rest).takeWhile Char.isDigit, none⟩
    else ⟨digits, readNat? maxAmount digits⟩
  | _ => ⟨digits, readNat? maxAmount digits⟩

/-- A spelling that ends in a letter or digit does not run into a word. -/
def Spelling.endsBefore (s : Spelling) (rest : List Char) : Bool :=
  !(s.letters.getLast?.any isAlphanumeric && rest.head?.any isAlphanumeric)

/-- The text begins with the spelling, at whose end no word goes on. -/
def Spelling.fits (s : Spelling) (text : List Char) : Bool :=
  s.letters.isPrefixOf text && s.endsBefore (text.drop s.letters.length)

namespace Catalogue

variable (c : Catalogue)

/-- The first of the spellings that fit at the beginning of a text. -/
def spellingAt? (text : List Char) : Option Spelling := c.spellings.find? (·.fits text)

/-- The spelling of a unit after an amount, blanks between them being skipped, and the characters
    up to its end. -/
def unitAfter? (text : List Char) : Option (Spelling × List Char) :=
  let blanks := text.takeWhile isBlank
  (c.spellingAt? (text.dropWhile isBlank)).map fun s => (s, blanks ++ s.letters)

/-- What a scan makes of the text from a digit on where a number may begin: the quantity there,
    if any, and how many characters are done with it. -/
def readQuantity (before : Before) (text : List Char) : Option Occurrence × Nat :=
  let literal := Literal.read text
  let size := literal.text.length
  match literal.amount with
  | none => (none, size)
  | some amount =>
    if before.isSigned then (none, size)
    else
      match c.unitAfter? (text.drop size) with
      | none => (none, size)
      | some (s, skipped) => (some ⟨s.field.name, amount, s.unit⟩, size + skipped.length)

/-- The quantities in the text after `before`. -/
def scanFrom (before : Before) : (text : List Char) → List Occurrence
  | [] => []
  | ch :: rest =>
    if ch.isDigit && before.isFree then
      let (found, size) := c.readQuantity before (ch :: rest)
      found.toList ++
        scanFrom (before.pushAll (ch :: rest.take (size - 1))) (rest.drop (size - 1))
    else scanFrom (before.push ch) rest
termination_by text => text.length
decreasing_by all_goals simp only [List.length_drop, List.length_cons]; omega

/-- The quantities in a text, in the order of their places. -/
def scan (query : String) : List Occurrence := c.scanFrom .start (lowercase query.toList)

end Catalogue

end QuantityQuery
