import QuantityQuery.Query.Lexeme
import QuantityQuery.Query.Syntax

/-!
# Reading queries

Tokens become a chain of clauses by the grammar

* `chain := clause (link clause)*`, where a link is `OR`, `AND` or nothing;
* `clause := sign? (leaf | '(' chain ')')`, where a sign is `NOT`, `-` or `+`;
* `leaf := '*' (':' '*')? boost? | term ':' value | term ':' '*' boost? | term ':' range | value`;
* `value := (term | quoted | number) boost?`;
* `range := ('[' | '{') bound TO bound (']' | '}') boost?`;
* `bound := '*' | term | quoted | number`.

Tokens are taken one by one, and where the text has a fault the tokens before it are
taken first: only on reaching the fault is it reported (`reach`). Every step leaves
fewer tokens than it found, which is what the reading functions return with the
tokens left.

* `Chain.ofTokens`: the chain that a list of tokens writes, to its end;
* `Node.ofText`: the tree that a text writes, with a default field and operator.
-/

namespace QuantityQuery

/-- The tokens left after some of `ts`. -/
abbrev Left (ts : List Token) := { rest : List Token // rest.length ≤ ts.length }

/-- The tokens left after at least one of `ts`. -/
abbrev Fewer (ts : List Token) := { rest : List Token // rest.length < ts.length }

variable (fault : Option QueryError)

/-- After a token, the next one is reached: a token, the end of the text, or its fault. -/
def reach (rest : List Token) : Except QueryError Unit :=
  match rest, fault with
  | [], some e => .error e
  | _, _ => .ok ()

/-- Takes the token `wanted`. Tokens that carry a value are not asked for. -/
def expect (wanted : Token) : (ts : List Token) → Except QueryError (Fewer ts)
  | [] => .error (.expected wanted none)
  | token :: rest =>
    if token = wanted then do
      reach fault rest
      return ⟨rest, by simp⟩
    else .error (.expected wanted (some token))

/-- The boost of a caret without number. -/
def defaultBoost : Single := 2

/-- Takes the boost after a condition; `1` where there is none. -/
def readBoost : (ts : List Token) → Except QueryError (Single × Left ts)
  | .tilde _ :: _ => .error .nearness
  | .caret boost :: rest => do
    reach fault rest
    return (boost.getD defaultBoost, ⟨rest, by simp⟩)
  | ts => return (1, ⟨ts, Nat.le_refl _⟩)

/-- A term with a sign for any characters. -/
def isWildcard (text : String) : Bool := text.toList.any fun c => c = '*' || c = '?'

/-- Takes what follows a value. -/
def readTerm (field : Option String) (text : String) (ts : List Token) :
    Except QueryError (Leaf × Left ts) :=
  if isWildcard text then .error (.wildcard text)
  else do
    let (boost, rest) ← readBoost fault ts
    return (.term field text boost, rest)

/-- Takes a bound of a range; none where the range is open. -/
def readBound : (ts : List Token) → Except QueryError (Option Bound × Fewer ts)
  | .asterisk :: rest => do
    reach fault rest
    return (none, ⟨rest, by simp⟩)
  | .number value :: rest => do
    reach fault rest
    return (some (.ofNumber value), ⟨rest, by simp⟩)
  | .term text :: rest | .quoted text :: rest => do
    reach fault rest
    return (some (.ofText text), ⟨rest, by simp⟩)
  | ts => .error (.notBound ts.head?)

/-- Takes the mark that closes a range, true if the upper bound belongs to the range. -/
def readClosing : (ts : List Token) → Except QueryError (Bool × Fewer ts)
  | .rightBracket :: rest => do
    reach fault rest
    return (true, ⟨rest, by simp⟩)
  | .rightBrace :: rest => do
    reach fault rest
    return (false, ⟨rest, by simp⟩)
  | _ => .error .rangeOpen

/-- The bounds of a range, with a bound that belongs to it or not at either end. -/
def Bounds.between (lower upper : Option Bound) (lowerIn upperIn : Bool) (boost : Single) :
    Bounds where
  gte := if lowerIn then lower else none
  gt := if lowerIn then none else lower
  lte := if upperIn then upper else none
  lt := if upperIn then none else upper
  boost := boost

/-- Takes a range after its opening mark. -/
def readRange (field : String) (lowerIn : Bool) (ts : List Token) :
    Except QueryError (Leaf × Left ts) := do
  let (lower, ⟨ts₁, h₁⟩) ← readBound fault ts
  let ⟨ts₂, h₂⟩ ← expect fault .upTo ts₁
  let (upper, ⟨ts₃, h₃⟩) ← readBound fault ts₂
  let (upperIn, ⟨ts₄, h₄⟩) ← readClosing fault ts₃
  let (boost, ⟨rest, h₅⟩) ← readBoost fault ts₄
  return (.range field (.between lower upper lowerIn upperIn boost), ⟨rest, by omega⟩)

/-- Takes the value after a field and a colon. -/
def readFieldValue (field : String) : (ts : List Token) → Except QueryError (Leaf × Fewer ts)
  | .leftBracket :: rest => do
    reach fault rest
    let (leaf, ⟨rest, h⟩) ← readRange fault field true rest
    return (leaf, ⟨rest, by simp only [List.length_cons]; omega⟩)
  | .leftBrace :: rest => do
    reach fault rest
    let (leaf, ⟨rest, h⟩) ← readRange fault field false rest
    return (leaf, ⟨rest, by simp only [List.length_cons]; omega⟩)
  | .asterisk :: rest => do
    reach fault rest
    let (boost, ⟨rest, h⟩) ← readBoost fault rest
    return (.range field { boost }, ⟨rest, by simp only [List.length_cons]; omega⟩)
  | .leftParen :: _ => .error (.groupAfterField field)
  | .term text :: rest | .quoted text :: rest => do
    reach fault rest
    let (leaf, ⟨rest, h⟩) ← readTerm fault (some field) text rest
    return (leaf, ⟨rest, by simp only [List.length_cons]; omega⟩)
  | .number value :: rest => do
    reach fault rest
    let (leaf, ⟨rest, h⟩) ← readTerm fault (some field) (Layout.plain.write value) rest
    return (leaf, ⟨rest, by simp only [List.length_cons]; omega⟩)
  | ts => .error (.notValue field ts.head?)

/-- Takes a condition that is no group. -/
def readLeaf : (ts : List Token) → Except QueryError (Leaf × Fewer ts)
  | .asterisk :: .colon :: rest => do
    reach fault rest
    let ⟨rest, h₁⟩ ← expect fault .asterisk rest
    let (boost, ⟨rest, h₂⟩) ← readBoost fault rest
    return (.all boost, ⟨rest, by simp only [List.length_cons]; omega⟩)
  | .asterisk :: rest => do
    reach fault rest
    let (boost, ⟨rest, h⟩) ← readBoost fault rest
    return (.all boost, ⟨rest, by simp only [List.length_cons]; omega⟩)
  | .term field :: .colon :: rest => do
    reach fault rest
    let (leaf, ⟨rest, h⟩) ← readFieldValue fault field rest
    return (leaf, ⟨rest, by simp only [List.length_cons]; omega⟩)
  | .term text :: rest | .quoted text :: rest => do
    reach fault rest
    let (leaf, ⟨rest, h⟩) ← readTerm fault none text rest
    return (leaf, ⟨rest, by simp only [List.length_cons]; omega⟩)
  | .number value :: rest => do
    reach fault rest
    let (leaf, ⟨rest, h⟩) ← readTerm fault none (Layout.plain.write value) rest
    return (leaf, ⟨rest, by simp only [List.length_cons]; omega⟩)
  | ts => .error (.notClause ts.head?)

/-- Takes the sign of a clause. -/
def readSign : (ts : List Token) → Except QueryError (Sign × Left ts)
  | .not :: rest | .minus :: rest => do
    reach fault rest
    return (.excluded, ⟨rest, by simp⟩)
  | .plus :: rest => do
    reach fault rest
    return (.required, ⟨rest, by simp⟩)
  | ts => return (.plain, ⟨ts, Nat.le_refl _⟩)

/-- Takes the parenthesis that opens a group, if one comes next. -/
def readOpening : (ts : List Token) → Except QueryError (Option (Fewer ts))
  | .leftParen :: rest => do
    reach fault rest
    return some ⟨rest, by simp⟩
  | _ => return none

/-- Takes the link to a further clause; none where the chain is over. Where clauses stand beside
    each other, no token is taken. -/
def readLink : (ts : List Token) → Except QueryError (Option (Link × Left ts))
  | .and :: rest => do
    reach fault rest
    return some (.and, ⟨rest, by simp⟩)
  | .or :: rest => do
    reach fault rest
    return some (.or, ⟨rest, by simp⟩)
  | ts => match ts.head? with
    | some (.not) | some (.minus) | some (.plus) | some (.term _) | some (.quoted _)
    | some (.number _) | some (.leftParen) | some (.asterisk) =>
      return some (.beside, ⟨ts, Nat.le_refl _⟩)
    | _ => return none

mutual

/-- Takes a clause. -/
def readClause (ts : List Token) : Except QueryError (Clause × Fewer ts) :=
  match readSign fault ts with
  | .error e => .error e
  | .ok (sign, ⟨ts₁, h₁⟩) =>
    match readOpening fault ts₁ with
    | .error e => .error e
    | .ok none =>
      match readLeaf fault ts₁ with
      | .error e => .error e
      | .ok (leaf, ⟨rest, h₂⟩) => .ok (.leaf sign leaf, ⟨rest, by omega⟩)
    | .ok (some ⟨ts₂, h₂⟩) =>
      match readChain ts₂ with
      | .error e => .error e
      | .ok (chain, ⟨ts₃, h₃⟩) =>
        match expect fault .rightParen ts₃ with
        | .error e => .error e
        | .ok ⟨rest, h₄⟩ => .ok (.group sign chain, ⟨rest, by omega⟩)
termination_by 2 * ts.length

/-- Takes a chain. -/
def readChain (ts : List Token) : Except QueryError (Chain × Fewer ts) :=
  match readClause ts with
  | .error e => .error e
  | .ok (clause, ⟨rest, h⟩) =>
    match readLinks (.one clause) rest with
    | .error e => .error e
    | .ok (chain, ⟨rest₁, h₁⟩) => .ok (chain, ⟨rest₁, by omega⟩)
termination_by 2 * ts.length + 1

/-- Takes the clauses that are linked to a chain. -/
def readLinks (chain : Chain) (ts : List Token) : Except QueryError (Chain × Left ts) :=
  match readLink fault ts with
  | .error e => .error e
  | .ok none => .ok (chain, ⟨ts, Nat.le_refl _⟩)
  | .ok (some (link, ⟨ts₁, h₁⟩)) =>
    match readClause ts₁ with
    | .error e => .error e
    | .ok (clause, ⟨rest, h₂⟩) =>
      match readLinks (.link chain link clause) rest with
      | .error e => .error e
      | .ok (chain, ⟨rest₁, h₃⟩) => .ok (chain, ⟨rest₁, by omega⟩)
termination_by 2 * ts.length + 1

end

/-- The chain that tokens write, to the end of the text. -/
def Chain.ofTokens (ts : List Token) : Except QueryError Chain := do
  reach fault ts
  if ts.isEmpty then .error .empty
  else
    let (chain, ⟨rest, _⟩) ← readChain fault ts
    if rest.isEmpty then return chain else .error (.trailing rest.head?)

/-- The chain that a text writes. -/
def Chain.ofText (text : String) : Except QueryError Chain :=
  let reading := Reading.ofText text
  Chain.ofTokens reading.fault reading.tokens

/-- The tree that a text writes, with a default field and a default operator. -/
def Node.ofText (field : String) (op : Operator) (text : String) : Except QueryError Node :=
  (Chain.ofText text).map (Chain.toNode field op)

end QuantityQuery
