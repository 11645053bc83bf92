import QuantityQuery.Text.Alphabetic
import QuantityQuery.Text.Blank
import QuantityQuery.Text.Lowercase
import QuantityQuery.Text.Numeric

/-!
# Characters

The classes of characters that words, numbers and blanks are told apart by, and
lowercase. Below code point 128 they are the classes of `Char` and blanks from
tab to carriage return; beyond, tables of ranges decide.
-/

namespace QuantityQuery

/-- The code point of `c` lies in one of the ranges. -/
def inRanges (ranges : List (Nat × Nat)) (c : Char) : Bool :=
  ranges.any fun (first, last) => first ≤ c.toNat && c.toNat ≤ last

/-- Letters, and marks that count as letters. -/
def isAlphabetic (c : Char) : Bool :=
  if c.toNat < 128 then c.isAlpha else inRanges alphabeticRanges c

/-- Digits, and letters and signs used as numbers. -/
def isNumeric (c : Char) : Bool :=
  if c.toNat < 128 then c.isDigit else inRanges numericRanges c

/-- The characters of words and numbers. -/
def isAlphanumeric (c : Char) : Bool := isAlphabetic c || isNumeric c

/-- Spaces, tabs and line ends. -/
def isBlank (c : Char) : Bool :=
  if c.toNat < 128 then c = ' ' || ('\t' ≤ c && c ≤ '\r') else inRanges blankRanges c

/-- A text with nothing but blanks in it. -/
def isBlankText (text : List Char) : Bool := text.all isBlank

/-- The small letter at the place of a capital letter in a run. -/
def CapitalRun.smallLetter? (run : CapitalRun) (c : Char) : Option Char :=
  let n := c.toNat
  if run.first ≤ n ∧ n ≤ run.last ∧ (n - run.first) % run.stride = 0 then
    some (Char.ofNat (n + run.shift).toNat)
  else none

/-- The lowercase of one character. Of all characters only the capital I with a dot has two
    characters: the small letter and the dot. -/
def lowercaseChar (c : Char) : List Char :=
  if c.toNat < 128 then [c.toLower]
  else if c = 'İ' then ['i', '\u0307']
  else [(capitalRuns.findSome? fun run => run.smallLetter? c).getD c]

/-- The lowercase of a text, character by character. -/
def lowercase (text : List Char) : List Char := text.flatMap lowercaseChar

/-- A text without the blanks at its ends. -/
def trim (text : List Char) : List Char :=
  ((text.dropWhile isBlank).reverse.dropWhile isBlank).reverse

/-- A text is a word of capital letters, whatever the case of its own letters. Only the letters of
    ASCII have another case here. -/
def isWord (word : String) (text : List Char) : Bool := text.map Char.toUpper = word.toList

end QuantityQuery
