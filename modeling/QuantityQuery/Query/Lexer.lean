import QuantityQuery.Query.Lexeme

/-!
# A lexer that is asked for tokens

A lexer stands at a position of a text. Asked for a token it skips the blanks there, reads
the token that begins after them and stands at its end. A reader that asks for one token
after the other has only read as much of the text as it needs; asked until it has no more
tokens, the lexer has read the lexemes of the text.
-/

namespace QuantityQuery

/-- What a lexer answers: a token, none at the end of the text, or why no token begins here. -/
abbrev Answer := Except QueryError (Option Token)

/-- A position in a text. -/
structure Lexer where
  position : Nat
  /-- The characters from the position on. -/
  left : List Char
  deriving DecidableEq

namespace Lexer

/-- The lexer at the start of a text. -/
def ofText (text : String) : Lexer := ⟨0, text.toList⟩

/-- Asks for the next token. An open quote is looked for up to the end of the text; a character
    that begins no token is not passed. -/
def next (l : Lexer) : Answer × Lexer :=
  let start := l.position + (l.left.takeWhile isBlank).length
  match l.left.dropWhile isBlank with
  | [] => (.ok none, ⟨start, []⟩)
  | c :: rest =>
    match Token.read start c rest with
    | .ok (token, size) => (.ok (some token), ⟨start + 1 + size, rest.drop size⟩)
    | .error .unterminated => (.error .unterminated, ⟨start + 1 + rest.length, []⟩)
    | .error fault => (.error fault, ⟨start, c :: rest⟩)

end Lexer

end QuantityQuery
