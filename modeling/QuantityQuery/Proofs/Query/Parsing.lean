import QuantityQuery.Proofs.Query.Grammar
import QuantityQuery.Proofs.Query.Lexing

/-!
# Reading queries by their grammar

The readers of tokens take what the grammar says, and no other tokens. Tokens that write
a condition, a clause or a chain are read as such, whatever stands after them that does
not go on with them (`Chain.WrittenAs.taken_readChain`); and what was read is written
with the tokens that were taken (`takes_of_readChain`). A chain is therefore read from
the tokens of a text if and only if it is written with them, and the text has no fault
(`Chain.ofTokens_eq_ok_iff`).
-/

namespace QuantityQuery

/-! ### Readers -/

@[simp] theorem reach_none (rest : List Token) : reach none rest = .ok () := by
  cases rest <;> rfl

/-- What a reader takes, and the tokens it leaves. -/
def taken {α : Type} {P : List Token → Prop}
    (out : Except QueryError (α × { rest : List Token // P rest })) :
    Except QueryError (α × List Token) :=
  out.map fun (a, rest) => (a, rest.1)

theorem exists_of_taken {α : Type} {P : List Token → Prop} {a : α} {rest : List Token}
    {out : Except QueryError (α × { rest : List Token // P rest })}
    (h : taken out = .ok (a, rest)) : ∃ hrest, out = .ok (a, ⟨rest, hrest⟩) := by
  rcases out with e | ⟨b, rest', hrest'⟩
  · cases h
  · cases h
    exact ⟨hrest', rfl⟩

/-! ### What is written is read -/

section

variable {field text : String} {boost : Single} {bs ts us rest : List Token} {t u : Token}

theorem BoostWritten.taken_readBoost (h : BoostWritten boost bs)
    (hrest : Stops Token.goesOnLeaf rest) :
    taken (readBoost none (bs ++ rest)) = .ok (boost, rest) := by
  cases h with
  | absent =>
    rw [List.nil_append]
    unfold readBoost
    split
    · cases stops_cons.1 hrest
    · cases stops_cons.1 hrest
    · rfl
  | caret x =>
    rw [List.singleton_append]
    simp only [readBoost, reach_none, bind, Except.bind]
    rfl

/-- After a condition no colon stands. -/
theorem BoostWritten.ne_colon (h : BoostWritten boost bs) (hrest : Stops Token.goesOnLeaf rest)
    (more : List Token) : bs ++ rest ≠ .colon :: more := by
  cases h with
  | absent =>
    rintro heq
    rw [List.nil_append] at heq
    subst heq
    cases stops_cons.1 hrest
  | caret x => exact fun heq => nomatch heq

theorem taken_readTerm (own : Option String) (hw : isWildcard text = false)
    (h : taken (readBoost none ts) = .ok (boost, rest)) :
    taken (readTerm none own text ts) = .ok (.term own text boost, rest) := by
  obtain ⟨_, h⟩ := exists_of_taken h
  simp only [readTerm, hw, h, bind, Except.bind]
  rfl

theorem ValueWritten.taken_readFieldValue (hvalue : ValueWritten text t)
    (h : taken (readBoost none ts) = .ok (boost, rest)) :
    taken (readFieldValue none field (t :: ts)) = .ok (.term (some field) text boost, rest) := by
  obtain ⟨_, h⟩ := exists_of_taken (taken_readTerm (some field) hvalue.isWildcard h)
  cases hvalue with
  | number x => simp only [readFieldValue, reach_none, h, bind, Except.bind]; rfl
  | term _ => simp only [readFieldValue, reach_none, h, bind, Except.bind]; rfl
  | quoted _ => simp only [readFieldValue, reach_none, h, bind, Except.bind]; rfl

theorem ValueWritten.taken_readLeaf (hvalue : ValueWritten text t)
    (hcolon : ∀ more, ts ≠ .colon :: more) (h : taken (readBoost none ts) = .ok (boost, rest)) :
    taken (readLeaf none (t :: ts)) = .ok (.term none text boost, rest) := by
  obtain ⟨_, h⟩ := exists_of_taken (taken_readTerm none hvalue.isWildcard h)
  cases hvalue with
  | number x => simp only [readLeaf, reach_none, h, bind, Except.bind]; rfl
  | term _ =>
    rw [readLeaf.eq_4 _ _ _ hcolon]
    simp only [reach_none, h, bind, Except.bind]
    rfl
  | quoted _ => simp only [readLeaf, reach_none, h, bind, Except.bind]; rfl

theorem taken_readFieldValue_asterisk (h : taken (readBoost none ts) = .ok (boost, rest)) :
    taken (readFieldValue none field (.asterisk :: ts)) =
      .ok (.range field { boost }, rest) := by
  obtain ⟨_, h⟩ := exists_of_taken h
  simp only [readFieldValue, reach_none, h, bind, Except.bind]
  rfl

theorem BoundWritten.taken_readBound {bound : Option Bound} (h : BoundWritten bound t)
    (ts : List Token) :
    taken (readBound none (t :: ts)) = .ok (bound, ts) := by
  cases h <;> simp only [readBound, reach_none, bind, Except.bind] <;> rfl

@[simp] theorem expect_cons (t : Token) (ts : List Token) :
    expect none t (t :: ts) = .ok ⟨ts, Nat.lt_succ_self _⟩ := by
  simp only [expect, if_true, reach_none]
  rfl

theorem readClosing_cons (upperIn : Bool) (ts : List Token) :
    readClosing none (.closing upperIn :: ts) =
      .ok (upperIn, ⟨ts, Nat.lt_succ_self _⟩) := by
  cases upperIn <;> simp only [Token.closing, readClosing, reach_none] <;> rfl

theorem taken_readRange {lower upper : Option Bound} {lowerIn upperIn : Bool}
    (hlower : BoundWritten lower t) (hupper : BoundWritten upper u)
    (h : taken (readBoost none ts) = .ok (boost, rest)) :
    taken (readRange none field lowerIn (t :: .upTo :: u :: .closing upperIn :: ts)) =
      .ok (.range field (.between lower upper lowerIn upperIn boost), rest) := by
  obtain ⟨_, hlower⟩ := exists_of_taken
    (hlower.taken_readBound (.upTo :: u :: .closing upperIn :: ts))
  obtain ⟨_, hupper⟩ := exists_of_taken (hupper.taken_readBound (.closing upperIn :: ts))
  obtain ⟨_, h⟩ := exists_of_taken h
  simp only [readRange, hlower, expect_cons, hupper, readClosing_cons, h, bind, Except.bind]
  rfl

theorem taken_readFieldValue_opening {lowerIn : Bool} {leaf : Leaf}
    (h : taken (readRange none field lowerIn ts) = .ok (leaf, rest)) :
    taken (readFieldValue none field (.opening lowerIn :: ts)) = .ok (leaf, rest) := by
  obtain ⟨_, h⟩ := exists_of_taken h
  cases lowerIn with
  | false => simp only [Token.opening, readFieldValue, reach_none, h, bind, Except.bind]; rfl
  | true => simp only [Token.opening, readFieldValue, reach_none, h, bind, Except.bind]; rfl

theorem taken_readLeaf_field {leaf : Leaf}
    (h : taken (readFieldValue none field ts) = .ok (leaf, rest)) :
    taken (readLeaf none (.term field :: .colon :: ts)) = .ok (leaf, rest) := by
  obtain ⟨_, h⟩ := exists_of_taken h
  simp only [readLeaf, reach_none, h, bind, Except.bind]
  rfl

/-- The tokens of a condition are read as the condition. -/
theorem Leaf.WrittenAs.taken_readLeaf {leaf : Leaf} (h : leaf.WrittenAs us)
    (hrest : Stops Token.goesOnLeaf rest) :
    taken (readLeaf none (us ++ rest)) = .ok (leaf, rest) := by
  cases h with
  | all hboost =>
    obtain ⟨_, hread⟩ := exists_of_taken (hboost.taken_readBoost hrest)
    rw [List.cons_append, readLeaf.eq_2 _ _ (hboost.ne_colon hrest)]
    simp only [reach_none, hread, bind, Except.bind]
    rfl
  | allFields hboost =>
    obtain ⟨_, hread⟩ := exists_of_taken (hboost.taken_readBoost hrest)
    simp only [List.cons_append, readLeaf, reach_none, expect_cons, hread, bind, Except.bind]
    rfl
  | value hvalue hboost =>
    exact hvalue.taken_readLeaf (hboost.ne_colon hrest) (hboost.taken_readBoost hrest)
  | fieldValue hvalue hboost =>
    exact taken_readLeaf_field (hvalue.taken_readFieldValue (hboost.taken_readBoost hrest))
  | fieldAny hboost =>
    exact taken_readLeaf_field (taken_readFieldValue_asterisk (hboost.taken_readBoost hrest))
  | fieldRange hlower hupper hboost =>
    exact taken_readLeaf_field (taken_readFieldValue_opening
      (taken_readRange hlower hupper (hboost.taken_readBoost hrest)))

/-- A sign is read before a condition or a group. -/
theorem SignWritten.taken_readSign {sign : Sign} {ss : List Token} (h : SignWritten sign ss)
    (hts : Stops Token.isSign ts) : taken (readSign none (ss ++ ts)) = .ok (sign, ts) := by
  cases h with
  | plain =>
    rw [List.nil_append]
    unfold readSign
    split
    · cases stops_cons.1 hts
    · cases stops_cons.1 hts
    · cases stops_cons.1 hts
    · rfl
  | plus => simp only [List.singleton_append, readSign, reach_none, bind, Except.bind]; rfl
  | minus => simp only [List.singleton_append, readSign, reach_none, bind, Except.bind]; rfl
  | not => simp only [List.singleton_append, readSign, reach_none, bind, Except.bind]; rfl

theorem readOpening_leftParen (ts : List Token) :
    readOpening none (.leftParen :: ts) = .ok (some ⟨ts, Nat.lt_succ_self _⟩) := by
  simp only [readOpening, reach_none]
  rfl

theorem readOpening_of_startsLeaf (ht : t.startsLeaf) :
    readOpening none (t :: ts) = .ok none := by
  cases t <;> first | rfl | cases ht

/-- A further clause stands after its link. -/
theorem LinkWritten.readLink {l : Link} {ls : List Token} (h : LinkWritten l ls)
    (ht : t.startsClause) (ts : List Token) :
    ∃ hrest, readLink none (ls ++ t :: ts) = .ok (some (l, ⟨t :: ts, hrest⟩)) := by
  cases h with
  | and => exact ⟨_, by simp only [List.singleton_append, QuantityQuery.readLink, reach_none]; rfl⟩
  | or => exact ⟨_, by simp only [List.singleton_append, QuantityQuery.readLink, reach_none]; rfl⟩
  | beside =>
    refine ⟨Nat.le_refl _, ?_⟩
    cases t <;> first | rfl | cases ht

theorem readLink_eq_none (hrest : Stops Token.goesOnChain rest) :
    readLink none rest = .ok none := by
  cases rest with
  | nil => rfl
  | cons t rest =>
    have ht := stops_cons.1 hrest
    cases t <;> first | rfl | cases ht

theorem taken_readChain_one {clause : Clause}
    (h : taken (readClause none ts) = .ok (clause, rest)) :
    taken (readChain none ts) = taken (readLinks none (.one clause) rest) := by
  obtain ⟨_, h⟩ := exists_of_taken h
  rw [readChain]
  simp only [h]
  cases readLinks none (.one clause) rest <;> rfl

theorem taken_readLinks_link {before : Chain} {l : Link} {clause : Clause} {hus}
    (hlink : readLink none ts = .ok (some (l, ⟨us, hus⟩)))
    (h : taken (readClause none us) = .ok (clause, rest)) :
    taken (readLinks none before ts) = taken (readLinks none (.link before l clause) rest) := by
  obtain ⟨_, h⟩ := exists_of_taken h
  rw [readLinks]
  simp only [hlink, h]
  cases readLinks none (.link before l clause) rest <;> rfl

theorem taken_readLinks_of_stops (chain : Chain) (hrest : Stops Token.goesOnChain rest) :
    taken (readLinks none chain rest) = .ok (chain, rest) := by
  rw [readLinks]
  simp only [readLink_eq_none hrest]
  rfl

theorem taken_readClause_leaf {sign : Sign} {leaf : Leaf}
    (hsign : taken (readSign none ts) = .ok (sign, t :: us)) (ht : t.startsLeaf)
    (h : taken (readLeaf none (t :: us)) = .ok (leaf, rest)) :
    taken (readClause none ts) = .ok (.leaf sign leaf, rest) := by
  obtain ⟨_, hsign⟩ := exists_of_taken hsign
  obtain ⟨_, h⟩ := exists_of_taken h
  rw [readClause]
  simp only [hsign, readOpening_of_startsLeaf ht, h]
  rfl

theorem taken_readClause_group {sign : Sign} {chain : Chain}
    (hsign : taken (readSign none ts) = .ok (sign, .leftParen :: us))
    (h : taken (readChain none us) = .ok (chain, .rightParen :: rest)) :
    taken (readClause none ts) = .ok (.group sign chain, rest) := by
  obtain ⟨_, hsign⟩ := exists_of_taken hsign
  obtain ⟨_, h⟩ := exists_of_taken h
  rw [readClause]
  simp only [hsign, readOpening_leftParen, h, expect_cons]
  rfl

end

mutual

/-- The tokens of a clause are read as the clause. -/
theorem Clause.WrittenAs.taken_readClause {clause : Clause} {us rest : List Token}
    (h : clause.WrittenAs us) (hrest : Stops Token.goesOnLeaf rest) :
    taken (readClause none (us ++ rest)) = .ok (clause, rest) := by
  cases h with
  | leaf hsign hleaf =>
    obtain ⟨t, more, rfl, ht⟩ := hleaf.eq_cons
    have hread := hleaf.taken_readLeaf hrest
    rw [List.append_assoc]
    exact taken_readClause_leaf (hsign.taken_readSign
      (stops_cons.2 (Token.isSign_of_startsLeaf ht))) ht hread
  | group hsign hchain =>
    -- The parenthesis after the chain ends it.
    have hread : taken (readChain none (_ ++ .rightParen :: rest)) = _ :=
      hchain.taken_readChain (stops_cons.2 rfl)
    rw [taken_readLinks_of_stops _ (stops_cons.2 rfl)] at hread
    rw [List.append_assoc, List.cons_append, List.append_assoc, List.singleton_append]
    exact taken_readClause_group (hsign.taken_readSign (stops_cons.2 rfl)) hread

/-- After the tokens of a chain, its reading goes on with what is linked to it. -/
theorem Chain.WrittenAs.taken_readChain {chain : Chain} {us rest : List Token}
    (h : chain.WrittenAs us) (hrest : Stops Token.goesOnLeaf rest) :
    taken (readChain none (us ++ rest)) = taken (readLinks none chain rest) := by
  cases h with
  | one hclause => exact taken_readChain_one (hclause.taken_readClause hrest)
  | link hbefore hlink hclause =>
    have hread := hclause.taken_readClause hrest
    obtain ⟨t, more, rfl, ht⟩ := hclause.eq_cons
    obtain ⟨_, hreadLink⟩ := hlink.readLink ht (more ++ rest)
    rw [List.append_assoc, List.append_assoc, List.cons_append,
      hbefore.taken_readChain (hlink.stops ht)]
    exact taken_readLinks_link hreadLink hread

end

/-! ### What is read is written

A reader takes tokens from the front, and before it is done it has reached what is left:
the next token, or the end of a text without fault. This is what the induction over the
readers carries, so at the end of a query the text has no fault. -/

/-- A reader took tokens with the property `P` from the front of `ts`, and reached `rest`. -/
def Takes (fault : Option QueryError) (P : List Token → Prop) (ts rest : List Token) : Prop :=
  ∃ us, ts = us ++ rest ∧ P us ∧ (rest = [] → fault = none)

theorem exists_of_bind {ε α β : Type} {x : Except ε α} {f : α → Except ε β} {b : β}
    (h : x >>= f = .ok b) : ∃ a, x = .ok a ∧ f a = .ok b := by
  cases x with
  | error e => cases h
  | ok a => exact ⟨a, rfl, h⟩

section

variable {fault : Option QueryError} {field text : String} {boost : Single} {leaf : Leaf}
  {ts rest : List Token}

/-- What follows a token was read only where the next one, or the end, was reached. -/
theorem reached_of_bind {α : Type} {f : Unit → Except QueryError α} {a : α}
    (h : reach fault rest >>= f = .ok a) : (rest = [] → fault = none) ∧ f () = .ok a := by
  obtain ⟨_, hreach, h⟩ := exists_of_bind h
  refine ⟨?_, h⟩
  rintro rfl
  cases fault with
  | none => rfl
  | some e => cases hreach

/-- A token before those that were taken. -/
theorem Takes.cons {P Q : List Token → Prop} {t : Token} (h : Takes fault P ts rest)
    (hPQ : ∀ us, P us → Q (t :: us)) : Takes fault Q (t :: ts) rest := by
  obtain ⟨us, rfl, hP, hreached⟩ := h
  exact ⟨t :: us, rfl, hPQ us hP, hreached⟩

theorem takes_of_readBoost {hrest} (h : readBoost fault ts = .ok (boost, ⟨rest, hrest⟩))
    (hts : ts = [] → fault = none) : Takes fault (BoostWritten boost) ts rest := by
  unfold readBoost at h
  split at h
  · cases h
  · obtain ⟨hreached, h⟩ := reached_of_bind h
    cases h
    exact ⟨_, rfl, .caret _, hreached⟩
  · cases h
    exact ⟨[], rfl, .absent, hts⟩

theorem takes_of_readTerm {own : Option String} {hrest}
    (h : readTerm fault own text ts = .ok (leaf, ⟨rest, hrest⟩)) (hts : ts = [] → fault = none) :
    isWildcard text = false ∧
      ∃ boost, leaf = .term own text boost ∧ Takes fault (BoostWritten boost) ts rest := by
  rw [readTerm] at h
  split at h
  · cases h
  · next hw =>
    obtain ⟨⟨boost, _, _⟩, hboost, h⟩ := exists_of_bind h
    cases h
    exact ⟨Bool.eq_false_iff.2 hw, boost, rfl, takes_of_readBoost hboost hts⟩

theorem takes_of_readBound {bound : Option Bound} {hrest}
    (h : readBound fault ts = .ok (bound, ⟨rest, hrest⟩)) :
    ∃ t, ts = t :: rest ∧ BoundWritten bound t ∧ (rest = [] → fault = none) := by
  unfold readBound at h
  split at h
  case h_5 => cases h
  all_goals
    obtain ⟨hreached, h⟩ := reached_of_bind h
    cases h
    exact ⟨_, rfl, by constructor, hreached⟩

theorem takes_of_expect {wanted : Token} {hrest}
    (h : expect fault wanted ts = .ok ⟨rest, hrest⟩) :
    ts = wanted :: rest ∧ (rest = [] → fault = none) := by
  unfold expect at h
  split at h
  · cases h
  · split at h
    · next htoken =>
      obtain ⟨hreached, h⟩ := reached_of_bind h
      cases h
      exact ⟨congrArg (· :: _) htoken, hreached⟩
    · cases h

theorem takes_of_readClosing {upperIn : Bool} {hrest}
    (h : readClosing fault ts = .ok (upperIn, ⟨rest, hrest⟩)) :
    ts = .closing upperIn :: rest ∧ (rest = [] → fault = none) := by
  unfold readClosing at h
  split at h
  case h_3 => cases h
  all_goals
    obtain ⟨hreached, h⟩ := reached_of_bind h
    cases h
    exact ⟨rfl, hreached⟩

theorem takes_of_readRange {lowerIn : Bool} {hrest}
    (h : readRange fault field lowerIn ts = .ok (leaf, ⟨rest, hrest⟩)) :
    Takes fault (fun us => leaf.WrittenAs (.term field :: .colon :: .opening lowerIn :: us))
      ts rest := by
  obtain ⟨⟨lower, ts₁, _⟩, hlower, h⟩ := exists_of_bind h
  obtain ⟨⟨ts₂, _⟩, hto, h⟩ := exists_of_bind h
  obtain ⟨⟨upper, ts₃, _⟩, hupper, h⟩ := exists_of_bind h
  obtain ⟨⟨upperIn, ts₄, _⟩, hclosing, h⟩ := exists_of_bind h
  obtain ⟨⟨boost, _, _⟩, hboost, h⟩ := exists_of_bind h
  cases h
  obtain ⟨t, rfl, hlowerWritten, -⟩ := takes_of_readBound hlower
  obtain ⟨rfl, -⟩ := takes_of_expect hto
  obtain ⟨u, rfl, hupperWritten, -⟩ := takes_of_readBound hupper
  obtain ⟨rfl, hreached⟩ := takes_of_readClosing hclosing
  obtain ⟨bs, rfl, hboostWritten, hreached⟩ := takes_of_readBoost hboost hreached
  exact ⟨t :: .upTo :: u :: .closing upperIn :: bs, rfl,
    .fieldRange hlowerWritten hupperWritten hboostWritten, hreached⟩

/-- A value after its field. -/
theorem takes_of_fieldValue {t : Token} (hvalue : isWildcard text = false → ValueWritten text t)
    {hrest} (h : readTerm fault (some field) text ts = .ok (leaf, ⟨rest, hrest⟩))
    (hts : ts = [] → fault = none) :
    Takes fault (fun us => leaf.WrittenAs (.term field :: .colon :: us)) (t :: ts) rest := by
  obtain ⟨hw, boost, rfl, bs, rfl, hboost, hreached⟩ := takes_of_readTerm h hts
  exact ⟨t :: bs, rfl, .fieldValue (hvalue hw) hboost, hreached⟩

theorem takes_of_readFieldValue {hrest}
    (h : readFieldValue fault field ts = .ok (leaf, ⟨rest, hrest⟩)) :
    Takes fault (fun us => leaf.WrittenAs (.term field :: .colon :: us)) ts rest := by
  unfold readFieldValue at h
  split at h
  · obtain ⟨-, h⟩ := reached_of_bind h
    obtain ⟨⟨leaf, _, _⟩, hrange, h⟩ := exists_of_bind h
    cases h
    exact (takes_of_readRange hrange).cons fun _ h => h
  · obtain ⟨-, h⟩ := reached_of_bind h
    obtain ⟨⟨leaf, _, _⟩, hrange, h⟩ := exists_of_bind h
    cases h
    exact (takes_of_readRange hrange).cons fun _ h => h
  · obtain ⟨hreached, h⟩ := reached_of_bind h
    obtain ⟨⟨boost, _, _⟩, hboost, h⟩ := exists_of_bind h
    cases h
    exact (takes_of_readBoost hboost hreached).cons fun _ => .fieldAny
  · cases h
  · obtain ⟨hreached, h⟩ := reached_of_bind h
    obtain ⟨⟨leaf, _, _⟩, hterm, h⟩ := exists_of_bind h
    cases h
    exact takes_of_fieldValue .term hterm hreached
  · obtain ⟨hreached, h⟩ := reached_of_bind h
    obtain ⟨⟨leaf, _, _⟩, hterm, h⟩ := exists_of_bind h
    cases h
    exact takes_of_fieldValue .quoted hterm hreached
  · obtain ⟨hreached, h⟩ := reached_of_bind h
    obtain ⟨⟨leaf, _, _⟩, hterm, h⟩ := exists_of_bind h
    cases h
    exact takes_of_fieldValue (fun _ => .number _) hterm hreached
  · cases h

/-- A value without field. -/
theorem takes_of_value {t : Token} (hvalue : isWildcard text = false → ValueWritten text t)
    {hrest} (h : readTerm fault none text ts = .ok (leaf, ⟨rest, hrest⟩))
    (hts : ts = [] → fault = none) :
    Takes fault leaf.WrittenAs (t :: ts) rest := by
  obtain ⟨hw, boost, rfl, bs, rfl, hboost, hreached⟩ := takes_of_readTerm h hts
  exact ⟨t :: bs, rfl, .value (hvalue hw) hboost, hreached⟩

/-- A condition that was read is written with the tokens that were taken. -/
theorem takes_of_readLeaf {hrest} (h : readLeaf fault ts = .ok (leaf, ⟨rest, hrest⟩)) :
    Takes fault leaf.WrittenAs ts rest := by
  unfold readLeaf at h
  split at h
  · obtain ⟨-, h⟩ := reached_of_bind h
    obtain ⟨⟨ts₁, _⟩, hexpect, h⟩ := exists_of_bind h
    obtain ⟨⟨boost, _, _⟩, hboost, h⟩ := exists_of_bind h
    cases h
    obtain ⟨rfl, hreached⟩ := takes_of_expect hexpect
    obtain ⟨bs, rfl, hboost, hreached⟩ := takes_of_readBoost hboost hreached
    exact ⟨.asterisk :: .colon :: .asterisk :: bs, rfl, .allFields hboost, hreached⟩
  · obtain ⟨hreached, h⟩ := reached_of_bind h
    obtain ⟨⟨boost, _, _⟩, hboost, h⟩ := exists_of_bind h
    cases h
    exact (takes_of_readBoost hboost hreached).cons fun _ => .all
  · obtain ⟨-, h⟩ := reached_of_bind h
    obtain ⟨⟨leaf, _, _⟩, hvalue, h⟩ := exists_of_bind h
    cases h
    obtain ⟨us, rfl, hleaf, hreached⟩ := takes_of_readFieldValue hvalue
    exact ⟨.term _ :: .colon :: us, rfl, hleaf, hreached⟩
  · obtain ⟨hreached, h⟩ := reached_of_bind h
    obtain ⟨⟨leaf, _, _⟩, hterm, h⟩ := exists_of_bind h
    cases h
    exact takes_of_value .term hterm hreached
  · obtain ⟨hreached, h⟩ := reached_of_bind h
    obtain ⟨⟨leaf, _, _⟩, hterm, h⟩ := exists_of_bind h
    cases h
    exact takes_of_value .quoted hterm hreached
  · obtain ⟨hreached, h⟩ := reached_of_bind h
    obtain ⟨⟨leaf, _, _⟩, hterm, h⟩ := exists_of_bind h
    cases h
    exact takes_of_value (fun _ => .number _) hterm hreached
  · cases h

theorem written_of_readSign {sign : Sign} {hrest}
    (h : readSign fault ts = .ok (sign, ⟨rest, hrest⟩)) :
    ∃ ss, ts = ss ++ rest ∧ SignWritten sign ss := by
  unfold readSign at h
  split at h
  · obtain ⟨-, h⟩ := reached_of_bind h
    cases h
    exact ⟨_, rfl, .not⟩
  · obtain ⟨-, h⟩ := reached_of_bind h
    cases h
    exact ⟨_, rfl, .minus⟩
  · obtain ⟨-, h⟩ := reached_of_bind h
    cases h
    exact ⟨_, rfl, .plus⟩
  · cases h
    exact ⟨[], rfl, .plain⟩

theorem eq_leftParen_of_readOpening {hrest} (h : readOpening fault ts = .ok (some ⟨rest, hrest⟩)) :
    ts = .leftParen :: rest := by
  unfold readOpening at h
  split at h
  · obtain ⟨-, h⟩ := reached_of_bind h
    cases h
    rfl
  · cases h

theorem written_of_readLink {l : Link} {hrest}
    (h : readLink fault ts = .ok (some (l, ⟨rest, hrest⟩))) :
    ∃ ls, ts = ls ++ rest ∧ LinkWritten l ls := by
  unfold readLink at h
  split at h
  · obtain ⟨-, h⟩ := reached_of_bind h
    cases h
    exact ⟨_, rfl, .and⟩
  · obtain ⟨-, h⟩ := reached_of_bind h
    cases h
    exact ⟨_, rfl, .or⟩
  · split at h
    case h_9 => cases h
    all_goals
      cases h
      exact ⟨[], rfl, .beside⟩

end

mutual

/-- A clause that was read is written with the tokens that were taken. -/
theorem takes_of_readClause {fault : Option QueryError} {clause : Clause} {ts rest : List Token}
    {hrest} (h : readClause fault ts = .ok (clause, ⟨rest, hrest⟩)) :
    Takes fault clause.WrittenAs ts rest := by
  rw [readClause] at h
  split at h
  · cases h
  · next sign ts₁ _ hreadSign =>
    obtain ⟨ss, rfl, hsign⟩ := written_of_readSign hreadSign
    split at h
    · cases h
    · split at h
      · cases h
      · next leaf _ _ hreadLeaf =>
        cases h
        obtain ⟨us, rfl, hleaf, hreached⟩ := takes_of_readLeaf hreadLeaf
        exact ⟨ss ++ us, (List.append_assoc ..).symm, .leaf hsign hleaf, hreached⟩
    · next ts₂ _ hopening =>
      obtain rfl := eq_leftParen_of_readOpening hopening
      split at h
      · cases h
      · next chain ts₃ _ hreadChain =>
        split at h
        · cases h
        · next hclosing =>
          cases h
          obtain ⟨us, rfl, hchain, -⟩ := takes_of_readChain hreadChain
          obtain ⟨rfl, hreached⟩ := takes_of_expect hclosing
          exact ⟨ss ++ .leftParen :: (us ++ [.rightParen]), by simp, .group hsign hchain, hreached⟩
termination_by 2 * ts.length

/-- A chain that was read is written with the tokens that were taken. -/
theorem takes_of_readChain {fault : Option QueryError} {chain : Chain} {ts rest : List Token}
    {hrest} (h : readChain fault ts = .ok (chain, ⟨rest, hrest⟩)) :
    Takes fault chain.WrittenAs ts rest := by
  rw [readChain] at h
  split at h
  · cases h
  · next clause ts₁ _ hclause =>
    split at h
    · cases h
    · next hlinks =>
      cases h
      obtain ⟨us, rfl, hclause, hreached⟩ := takes_of_readClause hclause
      obtain ⟨vs, rfl, hchain, hreached⟩ := takes_of_readLinks hlinks (.one hclause) hreached
      exact ⟨us ++ vs, (List.append_assoc ..).symm, hchain, hreached⟩
termination_by 2 * ts.length + 1

/-- What is linked to a chain is written after its tokens. -/
theorem takes_of_readLinks {fault : Option QueryError} {before chain : Chain}
    {us ts rest : List Token} {hrest}
    (h : readLinks fault before ts = .ok (chain, ⟨rest, hrest⟩)) (hbefore : before.WrittenAs us)
    (hts : ts = [] → fault = none) :
    Takes fault (fun vs => chain.WrittenAs (us ++ vs)) ts rest := by
  rw [readLinks] at h
  split at h
  · cases h
  · cases h
    exact ⟨[], rfl, by simpa only [List.append_nil] using hbefore, hts⟩
  · next hreadLink =>
    obtain ⟨ls, rfl, hlink⟩ := written_of_readLink hreadLink
    split at h
    · cases h
    · next clause ts₁ _ hclause =>
      split at h
      · cases h
      · next hlinks =>
        cases h
        obtain ⟨vs, rfl, hclause, hreached⟩ := takes_of_readClause hclause
        obtain ⟨ws, rfl, hchain, hreached⟩ :=
          takes_of_readLinks hlinks (.link hbefore hlink hclause) hreached
        refine ⟨ls ++ (vs ++ ws), by simp only [List.append_assoc], ?_, hreached⟩
        simpa only [List.append_assoc] using hchain
termination_by 2 * ts.length + 1

end

/-! ### Whole texts -/

namespace Chain

/-- A chain is read from all tokens if and only if they are its tokens, and the text has no
    fault. -/
theorem ofTokens_eq_ok_iff {fault : Option QueryError} {ts : List Token} {chain : Chain} :
    ofTokens fault ts = .ok chain ↔ fault = none ∧ chain.WrittenAs ts := by
  constructor
  · intro h
    rw [ofTokens] at h
    obtain ⟨-, h⟩ := reached_of_bind h
    split at h
    · cases h
    · obtain ⟨⟨chain', rest, _⟩, hread, h⟩ := exists_of_bind h
      dsimp only at h
      split at h
      · next hrest =>
        cases h
        obtain rfl := List.isEmpty_iff.1 hrest
        obtain ⟨us, rfl, hchain, hreached⟩ := takes_of_readChain hread
        exact ⟨hreached rfl, by rwa [List.append_nil]⟩
      · cases h
  · rintro ⟨rfl, h⟩
    have hread := h.taken_readChain stops_nil
    rw [taken_readLinks_of_stops _ stops_nil, List.append_nil] at hread
    obtain ⟨_, hread⟩ := exists_of_taken hread
    obtain ⟨t, more, rfl, -⟩ := h.eq_cons
    simp only [ofTokens, reach_none, List.isEmpty_cons, hread, bind, Except.bind]
    rfl

theorem ofText_eq_ok_iff {text : String} {chain : Chain} :
    ofText text = .ok chain ↔
      (Reading.ofText text).fault = none ∧ chain.WrittenAs (Reading.ofText text).tokens :=
  ofTokens_eq_ok_iff

theorem ofText_eq_ok_iff_of_lexes {text : String} {ts : List Token} {chain : Chain}
    (h : Lexes text.toList ts) : ofText text = .ok chain ↔ chain.WrittenAs ts := by
  rw [ofText_eq_ok_iff, Reading.ofText, h.fault_eq, h.tokens_eq]
  exact and_iff_right rfl

end Chain

theorem Node.ofText_eq_ok_iff {field text : String} {op : Operator} {q : Node} :
    Node.ofText field op text = .ok q ↔
      ∃ chain, Chain.ofText text = .ok chain ∧ chain.toNode field op = q := by
  rw [Node.ofText]
  cases Chain.ofText text with
  | error e =>
    constructor
    · rintro ⟨⟩
    · rintro ⟨_, ⟨⟩, _⟩
  | ok chain =>
    constructor
    · intro h
      exact ⟨chain, rfl, Except.ok.inj h⟩
    · rintro ⟨_, h, rfl⟩
      cases h
      rfl

/-- A text with the tokens that a chain is written with is read as the tree of the chain. -/
theorem Lexes.ofText_eq_ok {field text : String} {op : Operator} {ts : List Token} {chain : Chain}
    (h : Lexes text.toList ts) (hwritten : chain.WrittenAs ts) :
    Node.ofText field op text = .ok (chain.toNode field op) :=
  Node.ofText_eq_ok_iff.2 ⟨chain, (Chain.ofText_eq_ok_iff_of_lexes h).2 hwritten, rfl⟩

end QuantityQuery
