import QuantityQuery.Proofs.Number.Shortest
import QuantityQuery.Proofs.Text.Span
import QuantityQuery.Query.Grammar

/-!
# The grammar of queries

Which tokens a query is written with, said of its syntax alone: no order of reading, no
looking ahead and no faults. A condition can be written in several ways, so this is a
relation.

* `Leaf.WrittenAs`, `Clause.WrittenAs`, `Chain.WrittenAs`: the tokens of a condition, of a
  clause and of a chain.

The tokens a clause begins and ends with tell it apart from what stands around it:
nothing that can stand after a clause goes on with it (`Token.goesOnLeaf`), and a clause
begins with a token that no link is written with (`Token.startsClause`).
-/

namespace QuantityQuery

/-! ### Conditions -/

/-- The tokens of a boost: a caret, or nothing for the boost of `1`. -/
inductive BoostWritten : Single → List Token → Prop
  | absent : BoostWritten 1 []
  | caret (boost : Option Single) : BoostWritten (boost.getD defaultBoost) [.caret boost]

/-- The token of a value: a number, or a text without signs for any characters. -/
inductive ValueWritten : String → Token → Prop
  | number (value : Double) : ValueWritten (Layout.plain.write value) (.number value)
  | term {text : String} : isWildcard text = false → ValueWritten text (.term text)
  | quoted {text : String} : isWildcard text = false → ValueWritten text (.quoted text)

/-- The token of a bound; an asterisk where the range is open. -/
inductive BoundWritten : Option Bound → Token → Prop
  | asterisk : BoundWritten none .asterisk
  | number (value : Double) : BoundWritten (some (.ofNumber value)) (.number value)
  | term (text : String) : BoundWritten (some (.ofText text)) (.term text)
  | quoted (text : String) : BoundWritten (some (.ofText text)) (.quoted text)

/-- The mark that opens a range, by whether the lower bound belongs to it. -/
def Token.opening : (lowerIn : Bool) → Token
  | true => leftBracket
  | false => leftBrace

/-- The mark that closes a range, by whether the upper bound belongs to it. -/
def Token.closing : (upperIn : Bool) → Token
  | true => rightBracket
  | false => rightBrace

/-- The tokens of a condition. -/
inductive Leaf.WrittenAs : Leaf → List Token → Prop
  /-- `*` and a boost. -/
  | all {boost : Single} {bs : List Token} : BoostWritten boost bs →
      WrittenAs (.all boost) (.asterisk :: bs)
  /-- `*:*` and a boost. -/
  | allFields {boost : Single} {bs : List Token} : BoostWritten boost bs →
      WrittenAs (.all boost) (.asterisk :: .colon :: .asterisk :: bs)
  /-- A value and a boost. -/
  | value {text : String} {t : Token} {boost : Single} {bs : List Token} : ValueWritten text t →
      BoostWritten boost bs → WrittenAs (.term none text boost) (t :: bs)
  /-- A field, a colon, a value and a boost. -/
  | fieldValue {field text : String} {t : Token} {boost : Single} {bs : List Token} :
      ValueWritten text t → BoostWritten boost bs →
      WrittenAs (.term (some field) text boost) (.term field :: .colon :: t :: bs)
  /-- A field, a colon, `*` and a boost. -/
  | fieldAny {field : String} {boost : Single} {bs : List Token} : BoostWritten boost bs →
      WrittenAs (.range field { boost }) (.term field :: .colon :: .asterisk :: bs)
  /-- A field, a colon, two bounds with the word between them, in brackets or braces, and a
      boost. -/
  | fieldRange {field : String} {lowerIn upperIn : Bool} {lower upper : Option Bound}
      {t u : Token} {boost : Single} {bs : List Token} :
      BoundWritten lower t → BoundWritten upper u → BoostWritten boost bs →
      WrittenAs (.range field (.between lower upper lowerIn upperIn boost))
        (.term field :: .colon :: .opening lowerIn :: t :: .upTo :: u :: .closing upperIn :: bs)

/-! ### Clauses and chains -/

/-- The token of a sign, if it has one. -/
inductive SignWritten : Sign → List Token → Prop
  | plain : SignWritten .plain []
  | plus : SignWritten .required [.plus]
  | minus : SignWritten .excluded [.minus]
  | not : SignWritten .excluded [.not]

/-- The token of a link, if it has one. -/
inductive LinkWritten : Link → List Token → Prop
  | and : LinkWritten .and [.and]
  | or : LinkWritten .or [.or]
  | beside : LinkWritten .beside []

mutual

/-- The tokens of a clause: those of its sign, and of a condition or a chain in parentheses. -/
inductive Clause.WrittenAs : Clause → List Token → Prop
  | leaf {sign : Sign} {l : Leaf} {ss ts : List Token} : SignWritten sign ss → l.WrittenAs ts →
      Clause.WrittenAs (.leaf sign l) (ss ++ ts)
  | group {sign : Sign} {chain : Chain} {ss ts : List Token} : SignWritten sign ss →
      Chain.WrittenAs chain ts →
      Clause.WrittenAs (.group sign chain) (ss ++ .leftParen :: (ts ++ [.rightParen]))

/-- The tokens of a chain: those of its clauses with the links between them. -/
inductive Chain.WrittenAs : Chain → List Token → Prop
  | one {clause : Clause} {ts : List Token} : Clause.WrittenAs clause ts →
      Chain.WrittenAs (.one clause) ts
  | link {before : Chain} {l : Link} {clause : Clause} {ts ls us : List Token} :
      Chain.WrittenAs before ts → LinkWritten l ls → Clause.WrittenAs clause us →
      Chain.WrittenAs (.link before l clause) (ts ++ (ls ++ us))

end

theorem not_isWildcard_write (x : Double) : isWildcard (Layout.plain.write x) = false := by
  refine List.any_eq_false.2 fun c hc => ?_
  rcases Layout.plain.mem_write (by decide) (.inl rfl) x hc with h | h
  · have hne : c ≠ '*' ∧ c ≠ '?' := by
      constructor <;> (rintro rfl; exact absurd h (by decide))
    simp [hne]
  · simp only [List.mem_cons, List.not_mem_nil, or_false] at h
    rcases h with rfl | rfl | rfl | rfl | rfl <;> decide

/-- The term that a finite number is written as has the number as its value. -/
theorem TermQuery.value?_write {x : Double} (hfinite : x.isFinite) (field : String)
    (boost : Single) : TermQuery.value? ⟨field, Layout.plain.write x, boost⟩ = some x := by
  rw [value?, Layout.plain.readBinary?_write (by decide) (.inl rfl), Option.filter_some,
    if_pos hfinite]

theorem ValueWritten.isWildcard {text : String} {t : Token} (h : ValueWritten text t) :
    isWildcard text = false := by
  cases h with
  | number x => exact not_isWildcard_write x
  | term h => exact h
  | quoted h => exact h

/-! ### The tokens at the ends of clauses -/

namespace Token

/-- A token that goes on a condition. -/
def goesOnLeaf : Token → Bool
  | colon | caret _ | tilde _ => true
  | _ => false

/-- A token that a condition begins with. -/
def startsLeaf : Token → Bool
  | term _ | quoted _ | number _ | asterisk => true
  | _ => false

/-- A token that a clause begins with. -/
def startsClause : Token → Bool
  | not | minus | plus | leftParen => true
  | t => t.startsLeaf

/-- A token that goes on a chain. -/
def goesOnChain : Token → Bool
  | and | or => true
  | t => t.startsClause

/-- A token that a sign is written with. -/
def isSign : Token → Bool
  | not | minus | plus => true
  | _ => false

/-- A token that a clause ends with. -/
def endsClause : Token → Bool
  | number _ | asterisk | caret _ | rightBracket | rightBrace | rightParen => true
  | term text | quoted text => !isWildcard text
  | _ => false

theorem endsClause_closing (upperIn : Bool) : (closing upperIn).endsClause := by
  cases upperIn <;> rfl

theorem startsClause_of_startsLeaf {t : Token} (h : t.startsLeaf) : t.startsClause := by
  cases t <;> first | rfl | cases h

theorem isSign_of_startsLeaf {t : Token} (h : t.startsLeaf) : t.isSign = false := by
  cases t <;> first | rfl | cases h

theorem goesOnLeaf_of_startsClause {t : Token} (h : t.startsClause) : t.goesOnLeaf = false := by
  cases t <;> first | rfl | cases h

end Token

variable {ts : List Token}

theorem ValueWritten.startsLeaf {text : String} {t : Token} (h : ValueWritten text t) :
    t.startsLeaf := by
  cases h <;> rfl

theorem Leaf.WrittenAs.eq_cons {leaf : Leaf} (h : leaf.WrittenAs ts) :
    ∃ t more, ts = t :: more ∧ t.startsLeaf := by
  cases h with
  | value hvalue => exact ⟨_, _, rfl, hvalue.startsLeaf⟩
  | all => exact ⟨_, _, rfl, rfl⟩
  | allFields => exact ⟨_, _, rfl, rfl⟩
  | fieldValue => exact ⟨_, _, rfl, rfl⟩
  | fieldAny => exact ⟨_, _, rfl, rfl⟩
  | fieldRange => exact ⟨_, _, rfl, rfl⟩

theorem SignWritten.eq_nil_or {sign : Sign} {ss : List Token} (h : SignWritten sign ss) :
    ss = [] ∨ ∃ t, ss = [t] ∧ t.startsClause := by
  cases h with
  | plain => exact .inl rfl
  | plus => exact .inr ⟨_, rfl, rfl⟩
  | minus => exact .inr ⟨_, rfl, rfl⟩
  | not => exact .inr ⟨_, rfl, rfl⟩

/-- A link before a clause does not go on a condition. -/
theorem LinkWritten.stops {l : Link} {ls : List Token} (h : LinkWritten l ls) {t : Token}
    (ht : t.startsClause) : Stops Token.goesOnLeaf (ls ++ t :: ts) := by
  cases h with
  | and => exact stops_cons.2 rfl
  | or => exact stops_cons.2 rfl
  | beside => exact stops_cons.2 (Token.goesOnLeaf_of_startsClause ht)

theorem Clause.WrittenAs.eq_cons {clause : Clause} (h : clause.WrittenAs ts) :
    ∃ t more, ts = t :: more ∧ t.startsClause := by
  cases h with
  | leaf hsign hleaf =>
    rcases hsign.eq_nil_or with rfl | ⟨t, rfl, ht⟩
    · obtain ⟨t, more, rfl, ht⟩ := hleaf.eq_cons
      exact ⟨t, more, rfl, Token.startsClause_of_startsLeaf ht⟩
    · exact ⟨t, _, rfl, ht⟩
  | group hsign =>
    rcases hsign.eq_nil_or with rfl | ⟨t, rfl, ht⟩
    · exact ⟨_, _, rfl, rfl⟩
    · exact ⟨t, _, rfl, ht⟩

theorem Chain.WrittenAs.eq_cons {chain : Chain} {ts : List Token} :
    chain.WrittenAs ts → ∃ t more, ts = t :: more ∧ t.startsClause
  | .one hclause => hclause.eq_cons
  | .link hbefore _ _ => by
    obtain ⟨t, more, rfl, ht⟩ := hbefore.eq_cons
    exact ⟨t, _, rfl, ht⟩

/-! Every clause and chain ends with a token that clauses end with. -/

theorem ValueWritten.endsClause {text : String} {t : Token} (h : ValueWritten text t) :
    t.endsClause := by
  cases h with
  | number => rfl
  | term hw => simp [Token.endsClause, hw]
  | quoted hw => simp [Token.endsClause, hw]

theorem BoostWritten.eq_concat {boost : Single} {bs : List Token} (h : BoostWritten boost bs)
    {t : Token} (ht : t.endsClause) (ts : List Token) :
    ∃ before u, ts ++ t :: bs = before ++ [u] ∧ u.endsClause := by
  cases h with
  | absent => exact ⟨ts, t, rfl, ht⟩
  | caret boost => exact ⟨ts ++ [t], .caret boost, by simp, rfl⟩

theorem Leaf.WrittenAs.eq_concat {leaf : Leaf} (h : leaf.WrittenAs ts) :
    ∃ before t, ts = before ++ [t] ∧ t.endsClause := by
  cases h with
  | all hboost => exact hboost.eq_concat rfl []
  | allFields hboost => exact hboost.eq_concat rfl [.asterisk, .colon]
  | value hvalue hboost => exact hboost.eq_concat hvalue.endsClause []
  | fieldValue hvalue hboost => exact hboost.eq_concat hvalue.endsClause [_, .colon]
  | fieldAny hboost => exact hboost.eq_concat rfl [_, .colon]
  | fieldRange _ _ hboost =>
    exact hboost.eq_concat (Token.endsClause_closing _) [_, .colon, _, _, .upTo, _]

theorem Clause.WrittenAs.eq_concat {clause : Clause} (h : clause.WrittenAs ts) :
    ∃ before t, ts = before ++ [t] ∧ t.endsClause := by
  cases h with
  | @leaf _ _ ss _ _ hleaf =>
    obtain ⟨before, t, rfl, ht⟩ := hleaf.eq_concat
    exact ⟨ss ++ before, t, (List.append_assoc ..).symm, ht⟩
  | @group _ _ ss ts => exact ⟨ss ++ .leftParen :: ts, .rightParen, by simp, rfl⟩

theorem Chain.WrittenAs.eq_concat {chain : Chain} (h : chain.WrittenAs ts) :
    ∃ before t, ts = before ++ [t] ∧ t.endsClause := by
  cases h with
  | one hclause => exact hclause.eq_concat
  | @link _ _ _ ts ls _ _ _ hclause =>
    obtain ⟨before, t, rfl, ht⟩ := hclause.eq_concat
    exact ⟨ts ++ (ls ++ before), t, by simp only [List.append_assoc], ht⟩

end QuantityQuery
