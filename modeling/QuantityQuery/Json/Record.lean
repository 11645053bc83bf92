import QuantityQuery.Catalogue.Error
import QuantityQuery.Json.Number
import QuantityQuery.Table

/-!
# Values in JSON

Reading values out of a JSON tree. A record is written as an object, whose members
can come in any order and among others, or as an array of its members in their own
order. Members are read in the order of the text, and the first that is refused
says why.

* `Json.readRecord`: the members of a record;
* `Json.Members.required`, `.optional`, `.withDefault`: one of the members;
* `Json.readText`: a value from a text.
-/

namespace QuantityQuery

/-- Why a value cannot be read: it breaks a rule of its own, or, where there is none, the data has
    another shape. -/
abbrev Refusal := Option ConfigError

/-- A way to read values. -/
abbrev Decoder (α : Type) := Json → Except Refusal α

namespace Json

/-- The data has another shape. -/
def malformed : Refusal := none

/-- A value, or a refusal where there is none. -/
def orMalformed {α : Type} : Option α → Except Refusal α
  | some a => .ok a
  | none => .error malformed

/-! ### Plain values -/

/-- Reads a string. -/
def readText : Decoder String
  | string text => orMalformed text
  | _ => .error malformed

/-- Reads a number. -/
def readNumber : Decoder JsonNumber
  | number literal => orMalformed (JsonNumber.ofLiteral? literal)
  | _ => .error malformed

/-- Reads a number of the format `F`. -/
def readBinary {F : Format} : Decoder (Binary F) := fun json => return (← json.readNumber).toBinary

/-- Reads a whole number that is not negative. -/
def readNatural : Decoder Nat := fun json => do
  match ← json.readNumber with
  | .natural n => return n
  | _ => .error malformed

/-- Reads a value or nothing. -/
def readOption {α : Type} (read : Decoder α) : Decoder (Option α)
  | null => .ok none
  | json => some <$> read json

/-- Reads values one after the other. -/
def readEach {α : Type} (read : Decoder α) : List Json → Except Refusal (List α)
  | [] => .ok []
  | item :: rest => do return (← read item) :: (← readEach read rest)

/-- Reads an array of values. -/
def readList {α : Type} (read : Decoder α) : Decoder (List α)
  | array items => readEach read items
  | _ => .error malformed

/-- Reads members one after the other. -/
def readEntries {α : Type} (read : Decoder α) :
    List (Option String × Json) → Except Refusal (List (String × α))
  | [] => .ok []
  | (none, _) :: _ => .error malformed
  | (some key, value) :: rest => do return (key, ← read value) :: (← readEntries read rest)

/-- Reads an object whose members all have values of one kind. -/
def readTable {α : Type} (read : Decoder α) : Decoder (Table α)
  | object members => Table.ofList <$> readEntries read members
  | _ => .error malformed

/-- Reads one of some names. A name can also be the only key of an object, over a null. -/
def readName {α : Type} (names : List (String × α)) : Decoder α
  | string (some name) => orMalformed (names.lookup name)
  | object [(some name, null)] => orMalformed (names.lookup name)
  | _ => .error malformed

/-! ### Records -/

/-- A member of a record: its name, whether an array can end before it, and a test of its
    value. -/
structure Member where
  name : String
  omissible : Bool
  check : Json → Except Refusal Unit

namespace Member

/-- A member with a value. -/
def value {α : Type} (name : String) (read : Decoder α) : Member :=
  ⟨name, false, fun json => (read json).map fun _ => ()⟩

/-- A member that an array can end before. -/
def omissibleValue {α : Type} (name : String) (read : Decoder α) : Member :=
  { value name read with omissible := true }

end Member

/-- The members of a record that were found. -/
abbrev Members := List (String × Json)

/-- The members of a record in an object, when `found` are those before `members`. Other members
    are passed over. -/
def readObject (record : List Member) (found : Members) :
    (members : List (Option String × Json)) → Except Refusal Members
  | [] => .ok found
  | (none, _) :: _ => .error malformed
  | (some key, value) :: rest =>
    match record.find? (·.name = key) with
    | none => if value.isWhole then readObject record found rest else .error malformed
    | some member =>
      if (found.lookup key).isSome then .error malformed
      else do
        member.check value
        readObject record ((key, value) :: found) rest

/-- The members of a record in an array. -/
def readArray : (record : List Member) → (items : List Json) → Except Refusal Members
  | record, [] => if record.all (·.omissible) then .ok [] else .error malformed
  | [], _ :: _ => .error malformed
  | member :: record, item :: items => do
    member.check item
    return (member.name, item) :: (← readArray record items)

/-- The members of a record. -/
def readRecord (record : List Member) : Decoder Members
  | object members => readObject record [] members
  | array items => readArray record items
  | _ => .error malformed

namespace Members

variable {α : Type} (found : Members) (name : String) (read : Decoder α)

/-- The value of a member that has to be there. -/
def required : Except Refusal α :=
  match found.lookup name with
  | some json => read json
  | none => .error malformed

/-- The value of a member that need not be there, or can be null. -/
def optional : Except Refusal (Option α) :=
  match found.lookup name with
  | some json => readOption read json
  | none => .ok none

/-- The value of a member, or another value where it is not there. -/
def withDefault (other : α) : Except Refusal α :=
  match found.lookup name with
  | some json => read json
  | none => .ok other

end Members

/-! ### Texts -/

/-- Reads a value from a text that has nothing else in it. -/
def decode {α : Type} (read : Decoder α) (text : String) : Except Refusal α := do
  let (json, ends) := ofText text
  let a ← read json
  if ends then return a else .error malformed

/-- The text of a tree. -/
def encode (json : Json) : String := String.ofList json.write

end Json

end QuantityQuery
