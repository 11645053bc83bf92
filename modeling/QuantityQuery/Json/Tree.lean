import QuantityQuery.Text.Quoted

/-!
# JSON

JSON texts as trees. A tree also says how far a text could be read: where the text
stops being JSON, the tree has a `broken` part, and nothing after it. So a reader
that walks the tree in the order of the text meets first what comes first in the
text, be it a break or a value that it refuses.

Numbers are kept as they are written. A string is none where an escape in it
stands for half a pair of surrogates, which is text of no string.

* `Json.isWhole`: there is no break in a tree;
* `Json.write`: the text of a tree, without blanks.
-/

namespace QuantityQuery

/-- What a text says as JSON. -/
inductive Json
  | null
  | bool (value : Bool)
  | number (literal : List Char)
  | string (text : Option String)
  | array (items : List Json)
  | object (members : List (Option String × Json))
  /-- The text is no JSON from here on. -/
  | broken

namespace Json

mutual

/-- There is no break in the tree. -/
def isWhole : Json → Bool
  | broken => false
  | array items => allWhole items
  | object members => allMembersWhole members
  | _ => true

/-- There is no break in the items. -/
def allWhole : List Json → Bool
  | [] => true
  | item :: rest => item.isWhole && allWhole rest

/-- There is no break in the members. -/
def allMembersWhole : List (Option String × Json) → Bool
  | [] => true
  | (_, value) :: rest => value.isWhole && allMembersWhole rest

end

/-! ### Writing -/

/-- A character in a JSON string. -/
def escapeChar (c : Char) : List Char :=
  match c with
  | '"' => ['\\', '"']
  | '\\' => ['\\', '\\']
  | '\x08' => ['\\', 'b']
  | '\x0c' => ['\\', 'f']
  | '\n' => ['\\', 'n']
  | '\r' => ['\\', 'r']
  | '\t' => ['\\', 't']
  | c =>
    if c < ' ' then
      let digits := hexDigits c.toNat
      '\\' :: 'u' :: List.replicate (4 - digits.length) '0' ++ digits
    else [c]

/-- A JSON string. -/
def writeString (text : String) : List Char :=
  '"' :: text.toList.flatMap escapeChar ++ ['"']

mutual

/-- The text of a tree, without blanks. Nothing is written for what could not be read. -/
def write : Json → List Char
  | null => "null".toList
  | bool true => "true".toList
  | bool false => "false".toList
  | number literal => literal
  | string text => text.elim [] writeString
  | array items => '[' :: writeItems items ++ [']']
  | object members => '\x7b' :: writeMembers members ++ ['\x7d']
  | broken => []

/-- Items with commas between them. -/
def writeItems : List Json → List Char
  | [] => []
  | [item] => item.write
  | item :: rest => item.write ++ ',' :: writeItems rest

/-- Members with commas between them. -/
def writeMembers : List (Option String × Json) → List Char
  | [] => []
  | [(key, value)] => key.elim [] writeString ++ ':' :: value.write
  | (key, value) :: rest =>
    key.elim [] writeString ++ ':' :: value.write ++ ',' :: writeMembers rest

end

/-- The tree of a string. -/
def ofString (text : String) : Json := string (some text)

/-- The tree of an object. -/
def ofMembers (members : List (String × Json)) : Json :=
  object (members.map fun (key, value) => (some key, value))

/-- A member that is left out where there is no value. -/
def optionMember {α : Type} (key : String) (write : α → Json) (value : Option α) :
    List (String × Json) :=
  value.toList.map fun a => (key, write a)

end Json

end QuantityQuery
