import QuantityQuery.Detection.Expression
import QuantityQuery.Proofs.Number.Shortest
import QuantityQuery.Proofs.Number.Whole
import QuantityQuery.Proofs.Query.Linking
import QuantityQuery.Proofs.Query.Parsing
import QuantityQuery.Proofs.Query.Runs

/-!
# Expressions are read as they are meant

The clauses for quantities, written in the query language and read again, are the
conditions they were written for (`Node.ofText_expressionOf`). The text of a clause is
followed through the tokens (`AmountClause.lexes`) and the reading of conditions
(`AmountClause.writtenAs`); all that is needed is that the name of the field is valid.

* `AmountClause.condition`: the condition of a clause, said without its text.
-/

namespace QuantityQuery

/-- The text of a boost is read as its value. -/
theorem Boost.readBinary?_text (b : Boost) : readBinary? _ b.text.toList = some b.value := by
  have hfinite := b.isBoost.2.1
  rw [boostValue] at hfinite
  rw [Boost.value, boostValue]
  cases hread : readBinary? ⟨24, 149, 277⟩ b.text.toList with
  | none => rw [hread] at hfinite; cases hfinite
  | some x => rfl

/-! ### Clauses -/

namespace AmountClause

/-- The field of a clause. -/
def field : AmountClause → String
  | exact field _ _ => field
  | range field _ _ => field

/-- The condition that a clause stands for. -/
def condition : AmountClause → Node
  | exact field amount boost =>
    .term ⟨field, Layout.plain.write (.ofInt amount : Double), (boost.map Boost.value).getD 1⟩
  | range field low high =>
    .range ⟨field, { gte := some (.ofNumber (.ofInt low)), lte := some (.ofNumber (.ofInt high)) }⟩

/-- The condition of a clause as it is written. -/
def leaf : AmountClause → Leaf
  | exact field amount boost =>
    .term (some field) (Layout.plain.write (.ofInt amount : Double))
      ((boost.map Boost.value).getD 1)
  | range field low high =>
    .range field (.between (some (.ofNumber (.ofInt low))) (some (.ofNumber (.ofInt high)))
      true true 1)

/-- The tokens of a boost after a clause. -/
def boostTokens (boost : Option Boost) : List Token :=
  (boost.map fun b => .caret (some b.value)).toList

/-- The tokens that a clause is written with. -/
def tokens : AmountClause → List Token
  | exact field amount boost =>
    .term field :: .colon :: .number (.ofInt amount) :: boostTokens boost
  | range field low high =>
    [.term field, .colon, .leftBracket, .number (.ofInt low), .upTo, .number (.ofInt high),
      .rightBracket]

theorem toNode_leaf (field : String) (clause : AmountClause) :
    clause.leaf.toNode field = clause.condition := by
  cases clause <;> rfl

variable {rest : List Char} {ts : List Token}

theorem lexes_boost (boost : Option Boost) (h : Lexes rest ts) :
    Lexes ((boostText boost).toList ++ ' ' :: rest) (boostTokens boost ++ ts) := by
  have hrest : Lexes (' ' :: rest) ts := .blank (by decide) h
  cases boost with
  | none => simpa [boostText, boostTokens] using hrest
  | some b =>
    have hboost := Lexes.boost b.isBoost.1 (stops_cons.2 (by decide)) hrest
    rw [b.readBinary?_text] at hboost
    simpa [boostText, boostTokens] using hboost

theorem stops_boostText (boost : Option Boost) (rest : List Char) :
    Stops Token.goesOnNumeric ((boostText boost).toList ++ ' ' :: rest) := by
  cases boost with
  | none => exact stops_cons.2 (by decide)
  | some b =>
    rw [boostText, String.toList_append]
    exact stops_cons.2 (by decide)

/-- The text of a clause is read as its tokens. -/
theorem lexes (clause : AmountClause) (hname : Field.nameFault? clause.field = none)
    (h : Lexes rest ts) : Lexes (clause.text.toList ++ rest) (clause.tokens ++ ts) := by
  have hdigits : ∀ {n : Nat} {c : Char} {rest : List Char} {ts : List Token},
      Token.goesOnNumeric c = false → Lexes (c :: rest) ts →
        Lexes (decimalDigits n ++ c :: rest) (.number (.ofInt n) :: ts) := fun hc h =>
    .digits (isDigits_decimalDigits _) (readBinary?_decimalDigits (by decide) _)
      (stops_cons.2 hc) h
  cases clause with
  | exact field amount boost =>
    have hamount := Lexes.digits (isDigits_decimalDigits amount)
      (readBinary?_decimalDigits (by decide) amount) (stops_boostText boost rest)
      (lexes_boost boost h)
    have hcolon : Lexes (':' :: _) (.colon :: _) := .punctuation rfl (by decide) hamount
    have hclause := Lexes.fieldName hname (by decide) hcolon
    simpa [text, tokens, AmountClause.field, decimalDigits] using hclause
  | range field low high =>
    -- From the closing bracket back to the name, each token is put in front.
    have hclosing : Lexes (']' :: ' ' :: rest) (.rightBracket :: ts) :=
      .punctuation rfl (by decide) (.blank (by decide) h)
    have hhigh : Lexes (' ' :: (decimalDigits high ++ ']' :: ' ' :: rest)) _ :=
      .blank (by decide) (hdigits (by decide) hclosing)
    have hto : Lexes ('T' :: (['O'] ++ ' ' :: (decimalDigits high ++ ']' :: ' ' :: rest)))
        (.upTo :: _) :=
      .name (by decide) (List.forall_mem_singleton.2 (by decide)) (stops_cons.2 (by decide)) hhigh
    have hlow : Lexes ('[' :: (decimalDigits low ++ ' ' :: _)) (.leftBracket :: _) :=
      .punctuation rfl (by decide) (hdigits (by decide) (.blank (by decide) hto))
    have hclause := Lexes.fieldName hname (by decide)
      (.punctuation (c := ':') rfl (by decide) hlow)
    simpa [text, tokens, AmountClause.field, decimalDigits] using hclause

theorem boostWritten (boost : Option Boost) :
    BoostWritten ((boost.map Boost.value).getD 1) (boostTokens boost) := by
  cases boost with
  | none => exact .absent
  | some b => exact .caret (some b.value)

/-- The tokens of a clause write its condition. -/
theorem writtenAs (clause : AmountClause) :
    (Clause.leaf .plain clause.leaf).WrittenAs clause.tokens := by
  cases clause with
  | exact field amount boost => exact .leaf .plain (.fieldValue (.number _) (boostWritten boost))
  | range field low high =>
    have hrange : (AmountClause.range field low high).leaf.WrittenAs
        (.term field :: .colon :: .opening true :: _ :: .upTo :: _ :: [.closing true]) :=
      .fieldRange (.number _) (.number _) .absent
    exact .leaf .plain hrange

end AmountClause

namespace Catalogue

/-- The clauses for a quantity are about its field. -/
theorem field_of_mem_clauses {c : Catalogue} {style : ClauseStyle} {o : Occurrence}
    {clause : AmountClause} (h : clause ∈ c.clauses style o) :
    clause.field = o.field := by
  have hrange : ∀ clause ∈ c.rangeClause? o, clause.field = o.field := by
    intro clause h
    obtain ⟨gap, _, rfl⟩ := Option.map_eq_some_iff.1 h
    rfl
  cases style with
  | boost =>
    rcases List.mem_cons.1 h with rfl | h
    · rfl
    · exact hrange clause (Option.mem_toList.1 h)
  | filter =>
    obtain rfl := List.mem_singleton.1 h
    cases hclause : c.rangeClause? o with
    | none => rfl
    | some clause => exact hrange clause hclause

end Catalogue

/-! ### Expressions -/

section

variable {clauses : List AmountClause}

theorem lexes_flatMap (h : ∀ clause ∈ clauses, Field.nameFault? clause.field = none) :
    Lexes (clauses.flatMap (·.text.toList)) (clauses.flatMap (·.tokens)) := by
  induction clauses with
  | nil => exact .nil
  | cons clause rest ih =>
    exact clause.lexes (h clause List.mem_cons_self) (ih (List.forall_mem_cons.1 h).2)

/-- The expression for all documents. -/
theorem Node.ofText_matchAll (field : String) (op : Operator) :
    Node.ofText field op matchAll = .ok (.all 1) := by
  have hlexes : Lexes matchAll.toList [.asterisk, .colon, .asterisk] :=
    .punctuation rfl (by decide) <| .punctuation rfl (by decide) <|
      .punctuation rfl (by decide) .nil
  have hwritten : (Chain.one (.leaf .plain (.all 1))).WrittenAs [.asterisk, .colon, .asterisk] :=
    .one (.leaf .plain (.allFields .absent))
  exact hlexes.ofText_eq_ok hwritten

/-- An expression of clauses with valid fields is read as the tree that they stand for. -/
theorem Node.ofText_expressionOf (field : String) (op : Operator)
    (h : ∀ clause ∈ clauses, Field.nameFault? clause.field = none) :
    Node.ofText field op (expressionOf clauses) =
      .ok (op.treeOf (clauses.map AmountClause.condition)) := by
  cases clauses with
  | nil => exact Node.ofText_matchAll field op
  | cons clause rest =>
    have hlexes : Lexes (expressionOf (clause :: rest)).toList
        ((clause :: rest).flatMap (·.tokens)) := by
      have hexpression : expressionOf (clause :: rest) =
          String.join ((clause :: rest).map AmountClause.text) := rfl
      rw [hexpression, String.toList_join, List.flatMap_map]
      exact lexes_flatMap h
    have hwritten := Chain.WrittenAs.linked (.one clause.writtenAs) .beside
      fun clause (_ : clause ∈ rest) => clause.writtenAs
    have hplain : ∀ c ∈ rest.map fun clause => Clause.leaf .plain clause.leaf,
        c.sign ≠ .excluded :=
      List.forall_mem_map.2 fun _ _ h => nomatch h
    have hnodes : (rest.map fun clause => Clause.leaf .plain clause.leaf).map
        (Clause.toNode field op) = rest.map AmountClause.condition := by
      rw [List.map_map]
      exact List.map_congr_left fun clause _ => clause.toNode_leaf field
    rw [hlexes.ofText_eq_ok hwritten, Chain.toNode_linked hplain, List.map_cons, hnodes,
      List.map_cons, ← clause.toNode_leaf field, Operator.treeOf_eq_combine (List.cons_ne_nil _ _)]
    rfl

end

end QuantityQuery
