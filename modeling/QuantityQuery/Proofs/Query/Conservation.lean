import QuantityQuery.Proofs.Query.Parsing

/-!
# Conservation of conditions

Reading a query moves its clauses about: clauses beside each other are put together, a
negation comes before what stood beside the clause before it, and what is single is not
combined at all. All the same no condition is lost, none is made up, and none changes its
sides: the leaves of the tree are the conditions of the text, each of them with its field,
its value and its boost, and as many times under what must not hold as it is negated in
the text (`Node.ofText_leaves`). Each leaf is found written out among the tokens
(`Node.exists_written_of_mem_leaves`).

* `Node.leaves`: the leaves of a tree, with their depths;
* `Node.LeafWrittenAs`: the tokens that a leaf of a tree is written with;
* `Chain.conditions`: the conditions that are written in a query, with their depths;
* `Pending.leaves_add`: what a clause more changes.
-/

namespace QuantityQuery

/-! ### Conditions with their depths

The *depth* of a condition is how many negations it stands under. -/

namespace Node

mutual

/-- The leaves of a tree that stands at a depth, in the order of the tree, with their depths. -/
def leaves (depth : Nat) : Node → List (Nat × Node)
  | term q => [(depth, term q)]
  | range q => [(depth, range q)]
  | all boost => [(depth, all boost)]
  | bool must should mustNot =>
    leavesOfAll depth must ++ leavesOfAll depth should ++ leavesOfAll (depth + 1) mustNot

/-- The leaves of some trees at a depth. -/
def leavesOfAll (depth : Nat) : List Node → List (Nat × Node)
  | [] => []
  | q :: rest => q.leaves depth ++ leavesOfAll depth rest

end

theorem leavesOfAll_eq (depth : Nat) (qs : List Node) :
    leavesOfAll depth qs = qs.flatMap (leaves depth) := by
  induction qs with
  | nil => rfl
  | cons q rest ih => rw [leavesOfAll, ih, List.flatMap_cons]

@[simp] theorem leaves_bool (depth : Nat) (must should mustNot : List Node) :
    (bool must should mustNot).leaves depth = must.flatMap (leaves depth) ++
      should.flatMap (leaves depth) ++ mustNot.flatMap (leaves (depth + 1)) := by
  simp only [leaves, leavesOfAll_eq]

/-- The tokens that a leaf is written with, when `field` is the default field. -/
inductive LeafWrittenAs (field : String) : Node → List Token → Prop
  /-- `*` and a boost are all documents. -/
  | all {boost : Single} {bs : List Token} : BoostWritten boost bs →
      LeafWrittenAs field (.all boost) (.asterisk :: bs)
  /-- So are `*:*` and a boost. -/
  | allFields {boost : Single} {bs : List Token} : BoostWritten boost bs →
      LeafWrittenAs field (.all boost) (.asterisk :: .colon :: .asterisk :: bs)
  /-- A value on its own is one of the default field. -/
  | value {text : String} {t : Token} {boost : Single} {bs : List Token} : ValueWritten text t →
      BoostWritten boost bs → LeafWrittenAs field (.term ⟨field, text, boost⟩) (t :: bs)
  /-- A value after a field and a colon is one of that field. -/
  | fieldValue {own text : String} {t : Token} {boost : Single} {bs : List Token} :
      ValueWritten text t → BoostWritten boost bs →
      LeafWrittenAs field (.term ⟨own, text, boost⟩) (.term own :: .colon :: t :: bs)
  /-- After a field and a colon, `*` is any value of that field. -/
  | fieldAny {own : String} {boost : Single} {bs : List Token} : BoostWritten boost bs →
      LeafWrittenAs field
        (.range ⟨own, { gte := none, gt := none, lte := none, lt := none, boost }⟩)
        (.term own :: .colon :: .asterisk :: bs)
  /-- Both bounds belong to a range in brackets. -/
  | closed {own : String} {lower upper : Option Bound} {t u : Token} {boost : Single}
      {bs : List Token} : BoundWritten lower t → BoundWritten upper u → BoostWritten boost bs →
      LeafWrittenAs field
        (.range ⟨own, { gte := lower, gt := none, lte := upper, lt := none, boost }⟩)
        (.term own :: .colon :: .leftBracket :: t :: .upTo :: u :: .rightBracket :: bs)
  /-- The upper bound does not belong to a range that ends with a brace. -/
  | withoutUpper {own : String} {lower upper : Option Bound} {t u : Token} {boost : Single}
      {bs : List Token} : BoundWritten lower t → BoundWritten upper u → BoostWritten boost bs →
      LeafWrittenAs field
        (.range ⟨own, { gte := lower, gt := none, lte := none, lt := upper, boost }⟩)
        (.term own :: .colon :: .leftBracket :: t :: .upTo :: u :: .rightBrace :: bs)
  /-- The lower bound does not belong to a range that begins with a brace. -/
  | withoutLower {own : String} {lower upper : Option Bound} {t u : Token} {boost : Single}
      {bs : List Token} : BoundWritten lower t → BoundWritten upper u → BoostWritten boost bs →
      LeafWrittenAs field
        (.range ⟨own, { gte := none, gt := lower, lte := upper, lt := none, boost }⟩)
        (.term own :: .colon :: .leftBrace :: t :: .upTo :: u :: .rightBracket :: bs)
  /-- Neither bound belongs to a range in braces. -/
  | withoutBounds {own : String} {lower upper : Option Bound} {t u : Token} {boost : Single}
      {bs : List Token} : BoundWritten lower t → BoundWritten upper u → BoostWritten boost bs →
      LeafWrittenAs field
        (.range ⟨own, { gte := none, gt := lower, lte := none, lt := upper, boost }⟩)
        (.term own :: .colon :: .leftBrace :: t :: .upTo :: u :: .rightBrace :: bs)

end Node

/-- A condition becomes the leaf that its tokens write. -/
theorem Leaf.WrittenAs.toNode {field : String} {l : Leaf} {ts : List Token} (h : l.WrittenAs ts) :
    (l.toNode field).LeafWrittenAs field ts := by
  cases h with
  | all hboost => exact .all hboost
  | allFields hboost => exact .allFields hboost
  | value hvalue hboost => exact .value hvalue hboost
  | fieldValue hvalue hboost => exact .fieldValue hvalue hboost
  | fieldAny hboost => exact .fieldAny hboost
  | @fieldRange _ lowerIn upperIn _ _ _ _ _ _ hlower hupper hboost =>
    cases lowerIn with
    | true =>
      cases upperIn with
      | true => exact .closed hlower hupper hboost
      | false => exact .withoutUpper hlower hupper hboost
    | false =>
      cases upperIn with
      | true => exact .withoutLower hlower hupper hboost
      | false => exact .withoutBounds hlower hupper hboost

/-- How many times a sign negates. -/
def Sign.negations : Sign → Nat
  | plain | required => 0
  | excluded => 1

mutual

/-- The conditions of a clause at a depth. -/
def Clause.conditions (depth : Nat) : Clause → List (Nat × Leaf)
  | .leaf sign l => [(depth + sign.negations, l)]
  | .group sign chain => chain.conditions (depth + sign.negations)

/-- The conditions of a chain at a depth, in the order in which they are written. -/
def Chain.conditions (depth : Nat) : Chain → List (Nat × Leaf)
  | .one clause => clause.conditions depth
  | .link before _ clause => before.conditions depth ++ clause.conditions depth

end

mutual

/-- The conditions of a clause are written in it. -/
theorem Clause.exists_written_of_mem_conditions {ts : List Token} (depth : Nat) :
    ∀ clause : Clause, clause.WrittenAs ts → ∀ c ∈ clause.conditions depth,
      ∃ us, us <:+: ts ∧ c.2.WrittenAs us
  | .leaf _ _, .leaf _ hl, _, hc => by
    obtain rfl := List.mem_singleton.1 hc
    exact ⟨_, (List.suffix_append _ _).isInfix, hl⟩
  | .group _ chain, .group _ hchain, c, hc => by
    obtain ⟨us, hus, hl⟩ := chain.exists_written_of_mem_conditions _ hchain c hc
    refine ⟨us, (hus.trans (List.prefix_append _ [.rightParen]).isInfix).trans ?_, hl⟩
    exact ((List.suffix_cons _ _).trans (List.suffix_append _ _)).isInfix

/-- The conditions of a chain are written in it. -/
theorem Chain.exists_written_of_mem_conditions {ts : List Token} (depth : Nat) :
    ∀ chain : Chain, chain.WrittenAs ts → ∀ c ∈ chain.conditions depth,
      ∃ us, us <:+: ts ∧ c.2.WrittenAs us
  | .one clause, .one hclause, c, hc => clause.exists_written_of_mem_conditions depth hclause c hc
  | .link before _ clause, .link hbefore _ hclause, c, hc => by
    rcases List.mem_append.1 hc with hc | hc
    · obtain ⟨us, hus, hl⟩ := before.exists_written_of_mem_conditions depth hbefore c hc
      exact ⟨us, hus.trans (List.prefix_append _ _).isInfix, hl⟩
    · obtain ⟨us, hus, hl⟩ := clause.exists_written_of_mem_conditions depth hclause c hc
      refine ⟨us, hus.trans ?_, hl⟩
      exact ((List.suffix_append _ _).trans (List.suffix_append _ _)).isInfix

end

/-! ### Combinations keep leaves -/

variable {field : String} {op : Operator} {depth : Nat} {q : Node}

@[simp] theorem Leaf.leaves_toNode (l : Leaf) :
    (l.toNode field).leaves depth = [(depth, l.toNode field)] := by
  cases l <;> rfl

/-- Combined conditions keep their leaves, in their order. -/
@[simp] theorem Operator.leaves_combine (qs : List Node) :
    (op.combine qs).leaves depth = qs.flatMap (Node.leaves depth) := by
  match qs with
  | [] => cases op <;> simp [combine]
  | [q] => simp [combine]
  | q :: r :: rest => cases op <;> simp [combine]

@[simp] theorem Sign.leaves_apply (sign : Sign) :
    (sign.apply q).leaves depth = q.leaves (depth + sign.negations) := by
  cases sign <;> simp [apply, negations]

namespace Pending

/-- The conditions read so far. -/
def nodes (p : Pending) : List Node := p.alternatives ++ p.required ++ p.last :: p.beside

theorem leaves_finish (p : Pending) :
    (p.finish op).leaves depth = p.nodes.flatMap (Node.leaves depth) := by
  simp [finish, alternative, allRequired, nodes]

/-- A condition more adds its own leaves. Beside other conditions a negation comes before those
    that stood beside the last one, so only the order may change. -/
theorem leaves_add (p : Pending) (l : Link) (sign : Sign) :
    ((p.add op l sign q).nodes.flatMap (Node.leaves depth)).Perm
      (p.nodes.flatMap (Node.leaves depth) ++ q.leaves depth) := by
  cases l with
  | or => simp [add, nodes, alternative, allRequired]
  | and => simp [add, nodes, allRequired]
  | beside =>
    cases sign with
    | plain => simp [add, nodes]
    | required => simp [add, nodes]
    | excluded =>
      simp only [add, nodes, List.flatMap_append, List.flatMap_cons, List.flatMap_nil,
        List.nil_append, List.append_assoc]
      exact ((List.perm_append_comm.append_left _).append_left _).append_left _

end Pending

/-! ### The tree of a chain -/

mutual

theorem Clause.leaves_toNode (depth : Nat) : ∀ clause : Clause,
    ((clause.toNode field op).leaves depth).Perm
      ((clause.conditions depth).map fun (n, l) => (n, l.toNode field))
  | .leaf sign l => by simp [Clause.toNode, Clause.conditions]
  | .group sign chain => by
    rw [Clause.toNode, Sign.leaves_apply, Pending.leaves_finish, Clause.conditions]
    exact chain.leaves_pending _

theorem Chain.leaves_pending (depth : Nat) : ∀ chain : Chain,
    ((chain.pending field op).nodes.flatMap (Node.leaves depth)).Perm
      ((chain.conditions depth).map fun (n, l) => (n, l.toNode field))
  | .one clause => by
    simpa [Chain.pending, Chain.conditions, Pending.start, Pending.nodes] using
      clause.leaves_toNode depth
  | .link before l clause => by
    rw [Chain.pending, Chain.conditions, List.map_append]
    exact (Pending.leaves_add _ l clause.sign).trans
      ((before.leaves_pending depth).append (clause.leaves_toNode depth))

end

/-- A list of tokens writes one chain at most. -/
theorem Chain.WrittenAs.unique {chain other : Chain} {ts : List Token} (h : chain.WrittenAs ts)
    (hother : other.WrittenAs ts) : other = chain :=
  Except.ok.inj ((Chain.ofTokens_eq_ok_iff.2 ⟨rfl, hother⟩).symm.trans
    (Chain.ofTokens_eq_ok_iff.2 ⟨rfl, h⟩))

/-- Every leaf of the tree that a text is read as is written out in it, with its field, its value or
    its bounds, and its boost. -/
theorem Node.exists_written_of_mem_leaves {text : String} (h : Node.ofText field op text = .ok q)
    {leaf : Nat × Node} (hleaf : leaf ∈ q.leaves 0) :
    ∃ ts, ts <:+: (Reading.ofText text).tokens ∧ leaf.2.LeafWrittenAs field ts := by
  obtain ⟨chain, hchain, rfl⟩ := Node.ofText_eq_ok_iff.1 h
  have hwritten := (Chain.ofText_eq_ok_iff.1 hchain).2
  rw [Chain.toNode, Pending.leaves_finish] at hleaf
  obtain ⟨c, hc, rfl⟩ := List.mem_map.1 ((chain.leaves_pending 0).mem_iff.1 hleaf)
  obtain ⟨ts, hts, hl⟩ := chain.exists_written_of_mem_conditions 0 hwritten c hc
  exact ⟨ts, hts, hl.toNode⟩

/-- The leaves of the tree that a text is read as are the conditions that are written in it, each
    as often as it is written and under as many negations. -/
theorem Node.ofText_leaves {text : String} (h : Node.ofText field op text = .ok q) :
    ∃ chain : Chain, chain.WrittenAs (Reading.ofText text).tokens ∧
      (∀ other : Chain, other.WrittenAs (Reading.ofText text).tokens → other = chain) ∧
      (q.leaves 0).Perm ((chain.conditions 0).map fun (depth, l) => (depth, l.toNode field)) := by
  obtain ⟨chain, hchain, rfl⟩ := Node.ofText_eq_ok_iff.1 h
  have hwritten := (Chain.ofText_eq_ok_iff.1 hchain).2
  refine ⟨chain, hwritten, fun _ hother => hwritten.unique hother, ?_⟩
  rw [Chain.toNode, Pending.leaves_finish]
  exact chain.leaves_pending 0

/-- One condition is written twice here, plainly and negated twice. -/
theorem Node.ofText_leaves_twice :
    let text := "b a -(c^2 NOT b)"
    let word := fun text => Node.term ⟨"x", text, 1⟩
    let group : Node := .bool [.term ⟨"x", "c", 2⟩, .bool [] [] [word "b"]] [] []
    let q : Node := .bool [word "b", .bool [] [.bool [] [] [group], word "a"] []] [] []
    Node.ofText "x" .or text = .ok q ∧ ∃ chain : Chain,
      chain.WrittenAs (Reading.ofText text).tokens ∧
      (∀ other : Chain, other.WrittenAs (Reading.ofText text).tokens → other = chain) ∧
      (q.leaves 0).Perm ((chain.conditions 0).map fun (depth, l) => (depth, l.toNode "x")) := by
  intro text word group q
  have hword : ∀ text, isWildcard text = false → (Leaf.term none text 1).WrittenAs [.term text] :=
    fun _ h => .value (.term h) .absent
  have hboosted : (Leaf.term none "c" 2).WrittenAs [.term "c", .caret (some 2)] :=
    .value (.term (by decide)) (.caret (some 2))
  have hgroup := Chain.WrittenAs.link (.one (.leaf .plain hboosted)) .beside
    (.leaf .not (hword "b" (by decide)))
  have hchain := Chain.WrittenAs.link (.link (.one (.leaf .plain (hword "b" (by decide)))) .beside
    (.leaf .plain (hword "a" (by decide)))) .beside (.group .minus hgroup)
  let ts : List Token := [.term "b", .term "a", .minus, .leftParen, .term "c", .caret (some 2),
    .not, .term "b", .rightParen]
  have hfault : (Reading.ofText text).fault = none := by decide +kernel
  have htokens : (Reading.ofText text).tokens = ts := by decide +kernel
  have hread : ∀ {chain : Chain}, chain.WrittenAs ts → Chain.ofText text = .ok chain := fun h =>
    Chain.ofText_eq_ok_iff.2 ⟨hfault, htokens ▸ h⟩
  have h : Node.ofText "x" .or text = .ok q := Node.ofText_eq_ok_iff.2 ⟨_, hread hchain, rfl⟩
  exact ⟨h, Node.ofText_leaves h⟩

end QuantityQuery
