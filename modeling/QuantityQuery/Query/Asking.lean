import QuantityQuery.Query.Grammar
import QuantityQuery.Query.Lexer

/-!
# Reading queries token by token

The grammar of queries read from a lexer. One token is looked at, and only after it was taken
is the lexer asked for the next one; so nothing is read of the text behind the token that
decides what a clause, a chain or a query is, and a fault of the text is met no sooner than a
token that does not fit.

A reader is a step on a *feed*: the lexer, the token that is looked at, and all that the lexer
has answered. Clauses and chains contain each other, and nothing in how they are read says that
this ends. So their readers are given a depth, to which they may call each other: below it
they have no outcome.

* `Asking.clause`, `Asking.chain`: the readers of the grammar;
* `Asking.ofText`: the chain that a text writes, with the answers of the lexer on the way.
-/

namespace QuantityQuery

/-- Where a reader stands. -/
structure Feed where
  lexer : Lexer
  /-- The token that is looked at; none at the end of the text. -/
  current : Option Token
  /-- What the lexer has answered so far. -/
  answers : List Answer

/-- Readers that ask a lexer for tokens. They have no outcome where their depth is not enough. -/
abbrev Asking := ExceptT QueryError (StateT Feed Option)

namespace Asking

/-- The token that comes next. -/
def look : Asking (Option Token) := return (← get).current

/-- Asks for the token after the one that is looked at. -/
def advance : Asking Unit := do
  let feed ← get
  let (answer, lexer) := feed.lexer.next
  let answers := feed.answers ++ [answer]
  match answer with
  | .ok current => set (⟨lexer, current, answers⟩ : Feed)
  | .error fault => do
    set (⟨lexer, feed.current, answers⟩ : Feed)
    throw fault

/-- Takes the token `wanted`. -/
def expect (wanted : Token) : Asking Unit := do
  let met ← look
  if met = some wanted then advance else throw (.expected wanted met)

/-- Takes the boost after a condition; `1` where there is none. -/
def boost : Asking Single := do
  match ← look with
  | some (.tilde _) => throw .nearness
  | some (.caret boost) =>
    advance
    return boost.getD defaultBoost
  | _ => return 1

/-- Takes what follows a value. -/
def term (field : Option String) (text : String) : Asking Leaf := do
  if isWildcard text then throw (.wildcard text)
  else return .term field text (← boost)

/-- Takes a bound of a range; none where the range is open. -/
def bound : Asking (Option Bound) := do
  match ← look with
  | some .asterisk =>
    advance
    return none
  | some (.number value) =>
    advance
    return some (.ofNumber value)
  | some (.term text) | some (.quoted text) =>
    advance
    return some (.ofText text)
  | met => throw (.notBound met)

/-- Takes the mark that closes a range, true if the upper bound belongs to the range. -/
def closing : Asking Bool := do
  match ← look with
  | some .rightBracket =>
    advance
    return true
  | some .rightBrace =>
    advance
    return false
  | _ => throw .rangeOpen

/-- Takes a range after its opening mark. -/
def range (field : String) (lowerIn : Bool) : Asking Leaf := do
  let lower ← bound
  expect .upTo
  let upper ← bound
  let upperIn ← closing
  return .range field (.between lower upper lowerIn upperIn (← boost))

/-- Takes the value after a field and a colon. -/
def fieldValue (field : String) : Asking Leaf := do
  match ← look with
  | some .leftBracket =>
    advance
    range field true
  | some .leftBrace =>
    advance
    range field false
  | some .asterisk =>
    advance
    return .range field { boost := ← boost }
  | some .leftParen => throw (.groupAfterField field)
  | some (.term text) | some (.quoted text) =>
    advance
    term (some field) text
  | some (.number value) =>
    advance
    term (some field) (Layout.plain.write value)
  | met => throw (.notValue field met)

/-- Takes a condition that is no group. -/
def leaf : Asking Leaf := do
  match ← look with
  | some .asterisk =>
    advance
    if (← look) = some .colon then
      advance
      expect .asterisk
    return .all (← boost)
  | some (.term text) =>
    advance
    if (← look) = some .colon then
      advance
      fieldValue text
    else term none text
  | some (.quoted text) =>
    advance
    term none text
  | some (.number value) =>
    advance
    term none (Layout.plain.write value)
  | met => throw (.notClause met)

/-- Takes the sign of a clause. -/
def sign : Asking Sign := do
  match ← look with
  | some .not | some .minus =>
    advance
    return .excluded
  | some .plus =>
    advance
    return .required
  | _ => return .plain

/-- A reader without outcome. -/
def exhausted {α : Type} : Asking α := fun _ => none

mutual

/-- Takes a clause. -/
def clause : (depth : Nat) → Asking Clause
  | 0 => exhausted
  | depth + 1 => do
    let sign ← sign
    if (← look) = some .leftParen then
      advance
      let chain ← chain depth
      expect .rightParen
      return .group sign chain
    else return .leaf sign (← leaf)

/-- Takes a chain. -/
def chain : (depth : Nat) → Asking Chain
  | 0 => exhausted
  | depth + 1 => do alternatives depth (← conjunction depth .one)

/-- Takes the alternatives after a chain. -/
def alternatives : (depth : Nat) → Chain → Asking Chain
  | 0, _ => exhausted
  | depth + 1, before => do
    if (← look) = some .or then
      advance
      alternatives depth (← conjunction depth (.link before .or))
    else return before

/-- Takes the clauses up to the next alternative. The first one makes a chain with what stands
    before it. -/
def conjunction : (depth : Nat) → (Clause → Chain) → Asking Chain
  | 0, _ => exhausted
  | depth + 1, begin => do requirements depth (begin (← clause depth))

/-- Takes the further clauses up to the next alternative. -/
def requirements : (depth : Nat) → Chain → Asking Chain
  | 0, _ => exhausted
  | depth + 1, before => do
    match ← look with
    | some .and =>
      advance
      requirements depth (.link before .and (← clause depth))
    | some .not | some .minus | some .plus | some (.term _) | some (.quoted _)
    | some (.number _) | some .leftParen | some .asterisk =>
      requirements depth (.link before .beside (← clause depth))
    | _ => return before

end

/-- Takes a chain up to the end of the text. -/
def query (depth : Nat) : Asking Chain := do
  if (← look) = none then throw .empty
  let chain ← chain depth
  let met ← look
  if met = none then return chain else throw (.trailing met)

/-- The chain that a text writes, and what the lexer answered on the way. -/
def ofText (depth : Nat) (text : String) : Option (Except QueryError Chain × List Answer) :=
  match (Lexer.ofText text).next with
  | (.error fault, _) => some (.error fault, [.error fault])
  | (.ok current, lexer) =>
    ((query depth).run.run ⟨lexer, current, [.ok current]⟩).map fun (outcome, feed) =>
      (outcome, feed.answers)

end Asking

end QuantityQuery
