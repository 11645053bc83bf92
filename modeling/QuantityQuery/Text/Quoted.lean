import QuantityQuery.Text.Character
import QuantityQuery.Text.Invisible

/-!
# Quoted text

A text between double quotes, in which a backslash marks the characters that
would end it or could not be seen.
-/

namespace QuantityQuery

/-- The digits of a number in base sixteen, small letters for the digits from ten. -/
def hexDigits (n : Nat) : List Char := Nat.toDigits 16 n

/-- A character between double quotes. -/
def quoteChar (c : Char) : List Char :=
  match c with
  | '"' => ['\\', '"']
  | '\\' => ['\\', '\\']
  | '\n' => ['\\', 'n']
  | '\t' => ['\\', 't']
  | '\r' => ['\\', 'r']
  | '\x00' => ['\\', '0']
  | c =>
    if inRanges invisibleRanges c then '\\' :: 'u' :: '\x7b' :: hexDigits c.toNat ++ ['\x7d']
    else [c]

/-- A text in double quotes. -/
def quote (text : String) : String :=
  String.ofList ('"' :: text.toList.flatMap quoteChar ++ ['"'])

end QuantityQuery
