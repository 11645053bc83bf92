import QuantityQuery.Json.Tree
import QuantityQuery.Number.Numeral

/-!
# Reading JSON

The tree of a text. Reading stops at the first character that cannot be part of a
JSON text; the tree then ends in a broken part.

* `Json.readString`: a string after its opening quote;
* `Json.readLiteral`: a number;
* `Json.ofText`: the tree of a text, and whether the text ends with it.
-/

namespace QuantityQuery

namespace Json

/-- The blanks between the parts of a JSON text. -/
def isSpace (c : Char) : Bool := c = ' ' || c = '\t' || c = '\n' || c = '\r'

/-- What is left of a text after at least one character. -/
abbrev Rest (text : List Char) := { rest : List Char // rest.length < text.length }

/-- The first character of a text that is no blank, and what is left after it. -/
def next? : (text : List Char) → Option (Char × Rest text)
  | [] => none
  | c :: text =>
    if isSpace c then
      (next? text).map fun (d, ⟨rest, h⟩) => (d, ⟨rest, by simp only [List.length_cons]; omega⟩)
    else some (c, ⟨text, by simp⟩)

/-! ### Strings -/

/-- The value of a digit in base sixteen. -/
def hexValue? (c : Char) : Option Nat :=
  if c.isDigit then some (digitValue c)
  else if 'a' ≤ c ∧ c ≤ 'f' then some (c.toNat - 'a'.toNat + 10)
  else if 'A' ≤ c ∧ c ≤ 'F' then some (c.toNat - 'A'.toNat + 10)
  else none

/-- The number of four digits in base sixteen. -/
def hexValue4? (a b c d : Char) : Option Nat := do
  return ((← hexValue? a) * 16 + (← hexValue? b)) * 256 + (← hexValue? c) * 16 + (← hexValue? d)

/-- The first half of a pair of surrogates. -/
def isHighSurrogate (n : Nat) : Bool := 0xd800 ≤ n && n < 0xdc00

/-- The second half of a pair of surrogates. -/
def isLowSurrogate (n : Nat) : Bool := 0xdc00 ≤ n && n < 0xe000

/-- The character of a pair of surrogates. -/
def surrogatePair (high low : Nat) : Char :=
  Char.ofNat (0x10000 + (high - 0xd800) * 0x400 + (low - 0xdc00))

/-- The character of a short escape. -/
def shortEscape? : Char → Option Char
  | '"' => some '"'
  | '\\' => some '\\'
  | '/' => some '/'
  | 'b' => some '\x08'
  | 'f' => some '\x0c'
  | 'n' => some '\n'
  | 'r' => some '\r'
  | 't' => some '\t'
  | _ => none

/-- The code points of a string after its opening quote, and how many characters it is written
    with, the closing quote among them. An escape can stand for a surrogate, which is no
    character. -/
def readPoints : List Char → Option (List Nat × Nat)
  | [] => none
  | '"' :: _ => some ([], 1)
  | '\\' :: 'u' :: a :: b :: c :: d :: rest =>
    match hexValue4? a b c d with
    | none => none
    | some point => (readPoints rest).map fun (points, size) => (point :: points, size + 6)
  | '\\' :: c :: rest =>
    match shortEscape? c with
    | none => none
    | some e => (readPoints rest).map fun (points, size) => (e.toNat :: points, size + 2)
  | c :: rest =>
    if c < ' ' || c = '\\' then none
    else (readPoints rest).map fun (points, size) => (c.toNat :: points, size + 1)

/-- The text of code points, in which pairs of surrogates are characters; none where half a pair
    stands alone. -/
def joinPairs : List Nat → Option (List Char)
  | [] => some []
  | [n] => if isHighSurrogate n || isLowSurrogate n then none else some [Char.ofNat n]
  | n :: m :: rest =>
    if isHighSurrogate n && isLowSurrogate m then
      (joinPairs rest).map (surrogatePair n m :: ·)
    else if isHighSurrogate n || isLowSurrogate n then none
    else (joinPairs (m :: rest)).map (Char.ofNat n :: ·)

/-- A string after its opening quote: its text, if it has one, and how many characters it is
    written with, the closing quote among them. -/
def readString (text : List Char) : Option (Option String × Nat) :=
  (readPoints text).map fun (points, size) => ((joinPairs points).map String.ofList, size)

/-! ### Numbers -/

/-- One or more digits at the beginning of a text. -/
def readDigitRun (text : List Char) : Option (List Char) :=
  match text.takeWhile Char.isDigit with
  | [] => none
  | digits => some digits

/-- The digits of a number before its point: a zero alone, or digits that begin with another. -/
def readWhole : List Char → Option (List Char)
  | '0' :: rest => if rest.head?.any Char.isDigit then none else some ['0']
  | text => readDigitRun text

/-- The point and the digits after it, if there is a point. -/
def readFraction : List Char → Option (List Char)
  | '.' :: rest => (readDigitRun rest).map ('.' :: ·)
  | _ => some []

/-- The power of ten, if there is one. -/
def readPower : List Char → Option (List Char)
  | e :: rest =>
    if e = 'e' ∨ e = 'E' then
      match rest with
      | '+' :: rest => (readDigitRun rest).map (e :: '+' :: ·)
      | '-' :: rest => (readDigitRun rest).map (e :: '-' :: ·)
      | rest => (readDigitRun rest).map (e :: ·)
    else some []
  | [] => some []

/-- The sign of a number, if there is one. -/
def readMinus : List Char → List Char
  | '-' :: _ => ['-']
  | _ => []

/-- The characters of the number at the beginning of a text. -/
def readLiteral (text : List Char) : Option (List Char) := do
  let minus := readMinus text
  let rest := text.drop minus.length
  let whole ← readWhole rest
  let rest := rest.drop whole.length
  let fraction ← readFraction rest
  let rest := rest.drop fraction.length
  let power ← readPower rest
  return minus ++ whole ++ fraction ++ power

/-! ### Trees -/

/-- The words of JSON that begin with a letter, and what they stand for. -/
def words : List (String × Json) := [("true", bool true), ("false", bool false), ("null", null)]

/-- The value of the word that begins with `c`, and how many characters come after `c`. -/
def readWord? (c : Char) (rest : List Char) : Option (Json × Nat) :=
  (words.find? fun (word, _) => word.toList.isPrefixOf (c :: rest)).map fun (word, value) =>
    (value, word.length - 1)

mutual

/-- The value at the beginning of a text, and what is left of the text where nothing is broken. -/
def readValue (text : List Char) : Json × Option (Rest text) :=
  match next? text with
  | none => (broken, none)
  | some (c, ⟨rest, h⟩) =>
    if c = '"' then
      match readString rest with
      | none => (broken, none)
      | some (text, size) =>
        (string text,
          some ⟨rest.drop size, by simp only [List.length_drop]; omega⟩)
    else if c = '[' then
      match next? rest with
      | some (']', ⟨rest, _⟩) => (array [], some ⟨rest, by omega⟩)
      | _ =>
        match readItems rest with
        | (items, none) => (array items, none)
        | (items, some ⟨rest, _⟩) => (array items, some ⟨rest, by omega⟩)
    else if c = '\x7b' then
      match next? rest with
      | some ('\x7d', ⟨rest, _⟩) => (object [], some ⟨rest, by omega⟩)
      | _ =>
        match readMembers rest with
        | (members, none) => (object members, none)
        | (members, some ⟨rest, _⟩) => (object members, some ⟨rest, by omega⟩)
    else
      match readWord? c rest with
      | some (value, size) =>
        (value, some ⟨rest.drop size, by simp only [List.length_drop]; omega⟩)
      | none =>
        match readLiteral (c :: rest) with
        | none => (broken, none)
        | some literal =>
          (number literal,
            some ⟨rest.drop (literal.length - 1), by simp only [List.length_drop]; omega⟩)
termination_by 2 * text.length

/-- The items of an array up to its end, and what is left where nothing is broken. -/
def readItems (text : List Char) : List Json × Option (Rest text) :=
  match readValue text with
  | (item, none) => ([item], none)
  | (item, some ⟨rest, _⟩) =>
    match next? rest with
    | some (']', ⟨rest, _⟩) => ([item], some ⟨rest, by omega⟩)
    | some (',', ⟨rest, _⟩) =>
      match readItems rest with
      | (items, none) => (item :: items, none)
      | (items, some ⟨rest, _⟩) => (item :: items, some ⟨rest, by omega⟩)
    | _ => ([item, broken], none)
termination_by 2 * text.length + 1

/-- The members of an object up to its end, and what is left where nothing is broken. -/
def readMembers (text : List Char) : List (Option String × Json) × Option (Rest text) :=
  match next? text with
  | some ('"', ⟨rest, _⟩) =>
    match readString rest with
    | none => ([(none, broken)], none)
    | some (key, size) =>
      let rest := rest.drop size
      have : rest.length < text.length := by simp only [rest, List.length_drop]; omega
      match next? rest with
      | some (':', ⟨rest, _⟩) =>
        match readValue rest with
        | (value, none) => ([(key, value)], none)
        | (value, some ⟨rest, _⟩) =>
          match next? rest with
          | some ('\x7d', ⟨rest, _⟩) => ([(key, value)], some ⟨rest, by omega⟩)
          | some (',', ⟨rest, _⟩) =>
            match readMembers rest with
            | (members, none) => ((key, value) :: members, none)
            | (members, some ⟨rest, _⟩) => ((key, value) :: members, some ⟨rest, by omega⟩)
          | _ => ([(key, value), (none, broken)], none)
      | _ => ([(key, broken)], none)
  | _ => ([(none, broken)], none)
termination_by 2 * text.length + 1

end

/-- The tree of a text, and whether nothing but blanks comes after it. -/
def ofText (text : String) : Json × Bool :=
  match readValue text.toList with
  | (json, none) => (json, false)
  | (json, some ⟨rest, _⟩) => (json, rest.all isSpace)

end Json

end QuantityQuery
