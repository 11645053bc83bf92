import QuantityQuery.Number.Shortest
import QuantityQuery.Text.Quoted

/-!
# Tokens

The tokens of the query language, and their description in messages.
-/

namespace QuantityQuery

/-- A token of the query language. -/
inductive Token
  /-- A word that is none of the words below. -/
  | term (text : String)
  /-- A text that was written between quotes. -/
  | quoted (text : String)
  | number (value : Double)
  /-- A tilde, which asks for nearness, and the distance after it. -/
  | tilde (distance : Option Nat)
  /-- A caret, which weighs a clause, and the boost after it. -/
  | caret (boost : Option Single)
  | and
  | or
  | not
  /-- The word between the bounds of a range. -/
  | upTo
  | colon
  | asterisk
  | leftBracket
  | rightBracket
  | leftBrace
  | rightBrace
  | leftParen
  | rightParen
  | plus
  | minus
  deriving DecidableEq

/-- The description of an optional value. -/
def describeOption {α : Type} (describe : α → String) : Option α → String
  | none => "None"
  | some a => "Some(" ++ describe a ++ ")"

namespace Token

/-- The description of a token. -/
def describe : Token → String
  | term text => "Term(" ++ quote text ++ ")"
  | quoted text => "QuotedString(" ++ quote text ++ ")"
  | number value => "Number(" ++ Layout.debug.write value ++ ")"
  | tilde distance => "Tilde(" ++ describeOption toString distance ++ ")"
  | caret boost => "Caret(" ++ describeOption Layout.debug.write boost ++ ")"
  | and => "And"
  | or => "Or"
  | not => "Not"
  | upTo => "To"
  | colon => "Colon"
  | asterisk => "Asterisk"
  | leftBracket => "LeftBracket"
  | rightBracket => "RightBracket"
  | leftBrace => "LeftBrace"
  | rightBrace => "RightBrace"
  | leftParen => "LeftParen"
  | rightParen => "RightParen"
  | plus => "Plus"
  | minus => "Minus"

/-- The description of the token that comes next, which may be the end of the text. -/
def describeNext : Option Token → String
  | none => "Eof"
  | some token => token.describe

end Token

end QuantityQuery
