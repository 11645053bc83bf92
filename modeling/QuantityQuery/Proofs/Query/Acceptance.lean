import QuantityQuery.Proofs.Query.Parsing

/-!
# The texts that are queries

The grammar of the language in its levels, each a set of token lists:

* `IsQuery`: conjunctions with `OR` between them;
* `IsConjunction`: clauses beside each other or with `AND` between them;
* `IsClause`: a primary with an optional sign;
* `IsPrimary`: a group in parentheses or a condition.

The levels say how clauses bind, which a chain does not: it has the clauses in the order
they are written. All the same, the queries are the token lists that write some chain
(`isQuery_iff`), so a text is read as a tree if and only if its tokens are a query
(`Node.exists_ofText_iff`).
-/

namespace QuantityQuery

/-- A token that stands for a value; a text with a sign for any characters does not. -/
def Token.isValue : Token → Bool
  | number _ => true
  | term text | quoted text => !isWildcard text
  | _ => false

/-- A token that stands for a bound. -/
def Token.isBound : Token → Bool
  | asterisk | number _ | term _ | quoted _ => true
  | _ => false

/-- A boost, or nothing. -/
inductive IsOptionalBoost : List Token → Prop
  | absent : IsOptionalBoost []
  | caret (boost : Option Single) : IsOptionalBoost [.caret boost]

mutual

/-- Conjunctions with `OR` between them. -/
inductive IsQuery : List Token → Prop
  | one {ts : List Token} : IsConjunction ts → IsQuery ts
  | or {ts us : List Token} : IsQuery ts → IsConjunction us → IsQuery (ts ++ .or :: us)

/-- Clauses beside each other or with `AND` between them. -/
inductive IsConjunction : List Token → Prop
  | one {ts : List Token} : IsClause ts → IsConjunction ts
  | and {ts us : List Token} : IsConjunction ts → IsClause us → IsConjunction (ts ++ .and :: us)
  | beside {ts us : List Token} : IsConjunction ts → IsClause us → IsConjunction (ts ++ us)

/-- A primary with an optional sign. -/
inductive IsClause : List Token → Prop
  | plain {ts : List Token} : IsPrimary ts → IsClause ts
  | sign {t : Token} {ts : List Token} : t.isSign → IsPrimary ts → IsClause (t :: ts)

/-- A group in parentheses or a condition. -/
inductive IsPrimary : List Token → Prop
  | group {ts : List Token} : IsQuery ts → IsPrimary (.leftParen :: (ts ++ [.rightParen]))
  | all {bs : List Token} : IsOptionalBoost bs → IsPrimary (.asterisk :: bs)
  | allFields {bs : List Token} : IsOptionalBoost bs →
      IsPrimary (.asterisk :: .colon :: .asterisk :: bs)
  | fieldRange (field : String) (lowerIn upperIn : Bool) {t u : Token} {bs : List Token} :
      t.isBound → u.isBound → IsOptionalBoost bs →
      IsPrimary (.term field :: .colon :: .opening lowerIn :: t :: .upTo :: u ::
        .closing upperIn :: bs)
  | fieldAny (field : String) {bs : List Token} : IsOptionalBoost bs →
      IsPrimary (.term field :: .colon :: .asterisk :: bs)
  | fieldValue (field : String) {t : Token} {bs : List Token} : t.isValue → IsOptionalBoost bs →
      IsPrimary (.term field :: .colon :: t :: bs)
  | value {t : Token} {bs : List Token} : t.isValue → IsOptionalBoost bs → IsPrimary (t :: bs)

end

/-! ### Tokens of conditions -/

variable {ts us bs : List Token} {t : Token}

theorem isOptionalBoost_iff : IsOptionalBoost bs ↔ ∃ boost, BoostWritten boost bs := by
  constructor
  · rintro (_ | boost)
    · exact ⟨_, .absent⟩
    · exact ⟨_, .caret boost⟩
  · rintro ⟨_, _ | boost⟩
    · exact .absent
    · exact .caret boost

theorem isValue_iff : t.isValue ↔ ∃ text, ValueWritten text t := by
  constructor
  · intro h
    cases t with
    | number x => exact ⟨_, .number x⟩
    | term text => exact ⟨text, .term (by simpa [Token.isValue] using h)⟩
    | quoted text => exact ⟨text, .quoted (by simpa [Token.isValue] using h)⟩
    | _ => cases h
  · rintro ⟨_, h⟩
    cases h with
    | number x => rfl
    | term h => simp [Token.isValue, h]
    | quoted h => simp [Token.isValue, h]

theorem isBound_iff : t.isBound ↔ ∃ bound, BoundWritten bound t := by
  constructor
  · intro h
    cases t with
    | asterisk => exact ⟨_, .asterisk⟩
    | number x => exact ⟨_, .number x⟩
    | term text => exact ⟨_, .term text⟩
    | quoted text => exact ⟨_, .quoted text⟩
    | _ => cases h
  · rintro ⟨_, h⟩
    cases h <;> rfl

theorem isSign_iff : t.isSign ↔ ∃ sign, SignWritten sign [t] := by
  constructor
  · intro h
    cases t with
    | not => exact ⟨_, .not⟩
    | minus => exact ⟨_, .minus⟩
    | plus => exact ⟨_, .plus⟩
    | _ => cases h
  · rintro ⟨_, h⟩
    cases h <;> rfl

/-! ### Written chains are queries -/

theorem Leaf.WrittenAs.isPrimary {leaf : Leaf} (h : leaf.WrittenAs ts) : IsPrimary ts := by
  cases h with
  | all hboost => exact .all (isOptionalBoost_iff.2 ⟨_, hboost⟩)
  | allFields hboost => exact .allFields (isOptionalBoost_iff.2 ⟨_, hboost⟩)
  | value hvalue hboost =>
    exact .value (isValue_iff.2 ⟨_, hvalue⟩) (isOptionalBoost_iff.2 ⟨_, hboost⟩)
  | fieldValue hvalue hboost =>
    exact .fieldValue _ (isValue_iff.2 ⟨_, hvalue⟩) (isOptionalBoost_iff.2 ⟨_, hboost⟩)
  | fieldAny hboost => exact .fieldAny _ (isOptionalBoost_iff.2 ⟨_, hboost⟩)
  | fieldRange hlower hupper hboost =>
    exact .fieldRange _ _ _ (isBound_iff.2 ⟨_, hlower⟩) (isBound_iff.2 ⟨_, hupper⟩)
      (isOptionalBoost_iff.2 ⟨_, hboost⟩)

theorem SignWritten.isClause {sign : Sign} {ss : List Token} (h : SignWritten sign ss)
    (hprimary : IsPrimary ts) : IsClause (ss ++ ts) := by
  cases h with
  | plain => exact .plain hprimary
  | plus => exact .sign rfl hprimary
  | minus => exact .sign rfl hprimary
  | not => exact .sign rfl hprimary

/-- A further clause joins the last conjunction, or is the next one. -/
theorem LinkWritten.isQuery {l : Link} {ls : List Token} (h : LinkWritten l ls) (hts : IsQuery ts)
    (hus : IsClause us) : IsQuery (ts ++ (ls ++ us)) := by
  -- Within the last conjunction the clause is put at its end.
  have hlast : (∀ ts, IsConjunction ts → IsConjunction (ts ++ (ls ++ us))) →
      IsQuery (ts ++ (ls ++ us)) := by
    intro hjoin
    cases hts with
    | one hconj => exact .one (hjoin _ hconj)
    | or hquery hconj =>
      rw [List.append_assoc]
      exact .or hquery (hjoin _ hconj)
  cases h with
  | and => exact hlast fun _ hconj => .and hconj hus
  | or => exact .or hts (.one hus)
  | beside => exact hlast fun _ hconj => .beside hconj hus

mutual

theorem Clause.WrittenAs.isClause {clause : Clause} {ts : List Token} :
    clause.WrittenAs ts → IsClause ts
  | .leaf hsign hleaf => hsign.isClause hleaf.isPrimary
  | .group hsign hchain => hsign.isClause (.group hchain.isQuery)

theorem Chain.WrittenAs.isQuery {chain : Chain} {ts : List Token} :
    chain.WrittenAs ts → IsQuery ts
  | .one hclause => .one (.one hclause.isClause)
  | .link hbefore hlink hclause => hlink.isQuery hbefore.isQuery hclause.isClause

end

/-! ### Queries are written chains -/

/-- A chain after a chain. -/
theorem Chain.WrittenAs.append {before chain : Chain} {l : Link} {ls us : List Token}
    (hbefore : before.WrittenAs ts) (hl : LinkWritten l ls) :
    chain.WrittenAs us → ∃ both : Chain, both.WrittenAs (ts ++ (ls ++ us))
  | .one hclause => ⟨_, .link hbefore hl hclause⟩
  | .link hchain hlink hclause => by
    obtain ⟨both, hboth⟩ := hbefore.append hl hchain
    have hlinked := Chain.WrittenAs.link hboth hlink hclause
    simp only [List.append_assoc] at hlinked ⊢
    exact ⟨_, hlinked⟩

mutual

theorem IsQuery.exists_writtenAs {ts : List Token} :
    IsQuery ts → ∃ chain : Chain, chain.WrittenAs ts
  | .one hconj => hconj.exists_writtenAs
  | .or hquery hconj => by
    obtain ⟨_, hbefore⟩ := hquery.exists_writtenAs
    obtain ⟨_, hchain⟩ := hconj.exists_writtenAs
    exact hbefore.append .or hchain

theorem IsConjunction.exists_writtenAs {ts : List Token} :
    IsConjunction ts → ∃ chain : Chain, chain.WrittenAs ts
  | .one hclause => by
    obtain ⟨_, hclause⟩ := hclause.exists_writtenAs
    exact ⟨_, .one hclause⟩
  | .and hconj hclause => by
    obtain ⟨_, hbefore⟩ := hconj.exists_writtenAs
    obtain ⟨_, hclause⟩ := hclause.exists_writtenAs
    exact ⟨_, .link hbefore .and hclause⟩
  | .beside hconj hclause => by
    obtain ⟨_, hbefore⟩ := hconj.exists_writtenAs
    obtain ⟨_, hclause⟩ := hclause.exists_writtenAs
    exact ⟨_, .link hbefore .beside hclause⟩

theorem IsClause.exists_writtenAs {ts : List Token} :
    IsClause ts → ∃ clause : Clause, clause.WrittenAs ts
  | .plain hprimary => hprimary.exists_writtenAs .plain
  | .sign ht hprimary => by
    obtain ⟨_, hsign⟩ := isSign_iff.1 ht
    exact hprimary.exists_writtenAs hsign

/-- A primary may have any sign. -/
theorem IsPrimary.exists_writtenAs {ts ss : List Token} {sign : Sign}
    (hsign : SignWritten sign ss) :
    IsPrimary ts → ∃ clause : Clause, clause.WrittenAs (ss ++ ts)
  | .group hquery => by
    obtain ⟨_, hchain⟩ := hquery.exists_writtenAs
    exact ⟨_, .group hsign hchain⟩
  | .all hboost => by
    obtain ⟨_, hboost⟩ := isOptionalBoost_iff.1 hboost
    exact ⟨_, .leaf hsign (.all hboost)⟩
  | .allFields hboost => by
    obtain ⟨_, hboost⟩ := isOptionalBoost_iff.1 hboost
    exact ⟨_, .leaf hsign (.allFields hboost)⟩
  | .fieldRange field lowerIn upperIn hlower hupper hboost => by
    obtain ⟨_, hlower⟩ := isBound_iff.1 hlower
    obtain ⟨_, hupper⟩ := isBound_iff.1 hupper
    obtain ⟨_, hboost⟩ := isOptionalBoost_iff.1 hboost
    exact ⟨_, .leaf hsign (.fieldRange hlower hupper hboost)⟩
  | .fieldAny field hboost => by
    obtain ⟨_, hboost⟩ := isOptionalBoost_iff.1 hboost
    exact ⟨_, .leaf hsign (.fieldAny hboost)⟩
  | .fieldValue field hvalue hboost => by
    obtain ⟨_, hvalue⟩ := isValue_iff.1 hvalue
    obtain ⟨_, hboost⟩ := isOptionalBoost_iff.1 hboost
    exact ⟨_, .leaf hsign (.fieldValue hvalue hboost)⟩
  | .value hvalue hboost => by
    obtain ⟨_, hvalue⟩ := isValue_iff.1 hvalue
    obtain ⟨_, hboost⟩ := isOptionalBoost_iff.1 hboost
    exact ⟨_, .leaf hsign (.value hvalue hboost)⟩

end

/-- The queries are the token lists that write some chain. -/
theorem isQuery_iff : IsQuery ts ↔ ∃ chain : Chain, chain.WrittenAs ts :=
  ⟨IsQuery.exists_writtenAs, fun ⟨_, h⟩ => h.isQuery⟩

/-! ### No tildes -/

section

variable {distance : Option Nat}

theorem BoostWritten.tilde_not_mem {boost : Single} (h : BoostWritten boost bs) :
    .tilde distance ∉ bs := by
  cases h <;> simp

theorem ValueWritten.ne_tilde {text : String} (h : ValueWritten text t) : t ≠ .tilde distance := by
  cases h <;> exact fun h => nomatch h

theorem BoundWritten.ne_tilde {bound : Option Bound} (h : BoundWritten bound t) :
    t ≠ .tilde distance := by
  cases h <;> exact fun h => nomatch h

theorem Leaf.WrittenAs.tilde_not_mem {leaf : Leaf} (h : leaf.WrittenAs ts) :
    .tilde distance ∉ ts := by
  cases h with
  | all hboost => simp [hboost.tilde_not_mem]
  | allFields hboost => simp [hboost.tilde_not_mem]
  | value hvalue hboost => simp [hvalue.ne_tilde.symm, hboost.tilde_not_mem]
  | fieldValue hvalue hboost => simp [hvalue.ne_tilde.symm, hboost.tilde_not_mem]
  | fieldAny hboost => simp [hboost.tilde_not_mem]
  | @fieldRange _ lowerIn upperIn _ _ _ _ _ _ hlower hupper hboost =>
    have hopening : Token.tilde distance ≠ .opening lowerIn := by
      cases lowerIn <;> exact fun h => nomatch h
    have hclosing : Token.tilde distance ≠ .closing upperIn := by
      cases upperIn <;> exact fun h => nomatch h
    simp [hopening, hclosing, hlower.ne_tilde.symm, hupper.ne_tilde.symm, hboost.tilde_not_mem]

theorem SignWritten.tilde_not_mem {sign : Sign} {ss : List Token} (h : SignWritten sign ss) :
    .tilde distance ∉ ss := by
  cases h <;> simp

theorem LinkWritten.tilde_not_mem {l : Link} {ls : List Token} (h : LinkWritten l ls) :
    .tilde distance ∉ ls := by
  cases h <;> simp

end

mutual

theorem Clause.WrittenAs.tilde_not_mem {distance : Option Nat} {clause : Clause}
    {ts : List Token} : clause.WrittenAs ts → .tilde distance ∉ ts
  | .leaf hsign hleaf => by simp [hsign.tilde_not_mem, hleaf.tilde_not_mem]
  | .group hsign hchain => by simp [hsign.tilde_not_mem, hchain.tilde_not_mem]

theorem Chain.WrittenAs.tilde_not_mem {distance : Option Nat} {chain : Chain}
    {ts : List Token} : chain.WrittenAs ts → .tilde distance ∉ ts
  | .one hclause => hclause.tilde_not_mem
  | .link hbefore hlink hclause => by
    simp [hbefore.tilde_not_mem, hlink.tilde_not_mem, hclause.tilde_not_mem]

end

/-! ### Acceptance -/

theorem Node.ofText_accepts_iff {field text : String} {op : Operator} :
    (∃ q, Node.ofText field op text = .ok q) ↔
      (Reading.ofText text).fault = none ∧ IsQuery (Reading.ofText text).tokens := by
  simp only [Node.ofText_eq_ok_iff, Chain.ofText_eq_ok_iff, isQuery_iff]
  constructor
  · rintro ⟨_, chain, ⟨hfault, hchain⟩, -⟩
    exact ⟨hfault, chain, hchain⟩
  · rintro ⟨hfault, chain, hchain⟩
    exact ⟨_, chain, ⟨hfault, hchain⟩, rfl⟩

/-- A text is read as a tree if and only if it falls into tokens to its end, and they are a
    query. Otherwise it is refused for a fault of the query. No text with a tilde is read. -/
theorem Node.exists_ofText_iff (field : String) (op : Operator) (text : String) :
    ((∃ q, Node.ofText field op text = .ok q) ↔
      (Reading.ofText text).fault = none ∧ IsQuery (Reading.ofText text).tokens) ∧
    ((∃ fault : QueryError, Node.ofText field op text = .error fault) ↔
      ¬ ((Reading.ofText text).fault = none ∧ IsQuery (Reading.ofText text).tokens)) ∧
    ¬ ((∃ q, Node.ofText field op text = .ok q) ∧
      ∃ distance, .tilde distance ∈ (Reading.ofText text).tokens) := by
  refine ⟨Node.ofText_accepts_iff, ?_, ?_⟩
  · rw [← Node.ofText_accepts_iff]
    cases Node.ofText field op text <;> simp
  · rintro ⟨hread, distance, htilde⟩
    obtain ⟨chain, hchain⟩ := isQuery_iff.1 (Node.ofText_accepts_iff.1 hread).2
    exact hchain.tilde_not_mem htilde

end QuantityQuery
