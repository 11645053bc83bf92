import QuantityQuery.Number.Numeral
import QuantityQuery.Query.Error

/-!
# Lexemes

The text of a query falls into lexemes: a token, the characters it is written with
and the blanks before them. Reading goes on up to the first character that begins
no token, or to an open quote; what was read before it stands.

* `Token.read`: the token that begins with a character, and how many characters
  after it belong to it;
* `Reading.ofText`: the lexemes of a text.
-/

namespace QuantityQuery

/-! ### Characters of words -/

/-- A word begins with a letter, a digit or one of three signs. -/
def isTermStart (c : Char) : Bool := isAlphanumeric c || c = '_' || c = '@' || c = '#'

/-- The characters of a word. -/
def isTermChar (c : Char) : Bool :=
  isTermStart c || c = '-' || c = '.' || c = '*' || c = '?'

namespace Token

/-! ### Tokens of one character -/

/-- The token of a punctuation mark. -/
def punctuation? : Char → Option Token
  | ':' => some colon
  | '*' => some asterisk
  | '[' => some leftBracket
  | ']' => some rightBracket
  | '\x7b' => some leftBrace
  | '\x7d' => some rightBrace
  | '(' => some leftParen
  | ')' => some rightParen
  | '+' => some plus
  | '-' => some minus
  | _ => none

/-! ### Words and numbers -/

/-- The token of a word: one of the four words of the language in any case, else a term. -/
def ofWord (text : List Char) : Token :=
  if isWord "AND" text then and
  else if isWord "OR" text then or
  else if isWord "NOT" text then not
  else if isWord "TO" text then upTo
  else term (String.ofList text)

/-- The characters that go on a word or number which began with a digit. A point goes on only
    once, and like a hyphen only before a digit. -/
def spanNumeric (pointed : Bool) : List Char → List Char
  | [] => []
  | c :: rest =>
    let beforeDigit := rest.head?.any Char.isDigit
    if c.isDigit || c = '_' || isAlphabetic c || (c = '-' && beforeDigit) then
      c :: spanNumeric pointed rest
    else if c = '.' && !pointed && beforeDigit then c :: spanNumeric true rest
    else []

/-- The token of a text that began with a digit: a number where it has nothing but digits and a
    point, else a term. -/
def ofNumeric (text : List Char) : Token :=
  if text.all fun c => c.isDigit || c = '.' then number ((readBinary? _ text).getD .nan)
  else term (String.ofList text)

/-- The digits after a caret, with a point among or beside them. -/
def spanBoost (text : List Char) : List Char :=
  let (digits, rest) := spanDigits text
  match rest with
  | '.' :: rest => digits ++ '.' :: rest.takeWhile Char.isDigit
  | _ => digits

/-! ### Quoted texts -/

/-- What a backslash and the character after it stand for. A backslash before any other
    character stands for itself. -/
def unescape (mark c : Char) : List Char :=
  if c = mark ∨ c = '\\' then [c]
  else if c = 'n' then ['\n']
  else if c = 't' then ['\t']
  else ['\\', c]

/-- The text up to the closing quote, and how many characters it is written with, the quote
    among them. -/
def readQuoted (mark : Char) : List Char → Option (List Char × Nat)
  | [] => none
  | [c] => if c = mark then some ([], 1) else none
  | c :: d :: rest =>
    if c = mark then some ([], 1)
    else if c = '\\' then
      (readQuoted mark rest).map fun (text, size) => (unescape mark d ++ text, size + 2)
    else (readQuoted mark (d :: rest)).map fun (text, size) => (c :: text, size + 1)

/-! ### All tokens -/

/-- The largest distance after a tilde. -/
def maxDistance : Nat := 0xFFFF_FFFF

/-- The token that begins with `c` at a position of the text, and how many of the characters
    after `c` belong to it. -/
def read (position : Nat) (c : Char) (rest : List Char) : Except QueryError (Token × Nat) :=
  match punctuation? c with
  | some token => .ok (token, 0)
  | none =>
    if c = '~' then
      let digits := rest.takeWhile Char.isDigit
      .ok (tilde (readNat? maxDistance digits), digits.length)
    else if c = '^' then
      let text := spanBoost rest
      .ok (caret (readBinary? _ text), text.length)
    else if c = '"' ∨ c = '\'' then
      match readQuoted c rest with
      | none => .error .unterminated
      | some (text, size) => .ok (quoted (String.ofList text), size)
    else if c.isDigit then
      let more := spanNumeric false rest
      .ok (ofNumeric (c :: more), more.length)
    else if isTermStart c then
      let more := rest.takeWhile isTermChar
      .ok (ofWord (c :: more), more.length)
    else .error (.unexpectedCharacter position c)

end Token

/-- A token in the text of a query. -/
structure Lexeme where
  /-- The blanks before the token. -/
  blanks : List Char
  token : Token
  /-- The characters of the token. -/
  text : List Char
  deriving DecidableEq

/-- What was read of a text. -/
structure Reading where
  lexemes : List Lexeme
  /-- Why reading stopped before the end of the text, if it did. -/
  fault : Option QueryError
  /-- What is left of the text: blanks at its end, else all from the blanks before the fault. -/
  left : List Char
  deriving DecidableEq

namespace Reading

/-- The reading of a text that begins at a position. -/
def readFrom (position : Nat) (text : List Char) : Reading :=
  match h : text.dropWhile isBlank with
  | [] => ⟨[], none, text⟩
  | c :: rest =>
    let blanks := text.takeWhile isBlank
    let start := position + blanks.length
    match Token.read start c rest with
    | .error fault => ⟨[], some fault, text⟩
    | .ok (token, size) =>
      have : rest.length - size < text.length := by
        have := (List.dropWhile_suffix isBlank (l := text)).length_le
        simp only [h, List.length_cons] at this
        omega
      let more := readFrom (start + 1 + size) (rest.drop size)
      { more with lexemes := ⟨blanks, token, c :: rest.take size⟩ :: more.lexemes }
termination_by text.length

/-- The lexemes of a text. -/
def ofText (text : String) : Reading := readFrom 0 text.toList

/-- The tokens that were read. -/
def tokens (r : Reading) : List Token := r.lexemes.map (·.token)

end Reading

end QuantityQuery
