import QuantityQuery.Proofs.Query.Grammar

/-!
# Chains with one link

A chain whose clauses are all linked in the same way (`Chain.linked`) is written with
their tokens one after the other, each after the token of the link, and its tree combines
their conditions by the operator that the link stands for (`Chain.toNode_linked`).

* `Pending.parts`: the conditions that a link adds to;
* `Pending.Flat`: nothing was added to others.
-/

namespace QuantityQuery

variable {l : Link} {field : String} {op : Operator}

/-- The operator that a link stands for: the default operator where clauses stand beside each
    other. -/
def Link.operator (op : Operator) : Link → Operator
  | and => .and
  | or => .or
  | beside => op

namespace Pending

/-- The conditions that a link adds a further condition to. -/
def parts (op : Operator) (p : Pending) : Link → List Node
  | .or => p.alternatives ++ [p.alternative op]
  | .and => p.allRequired op
  | .beside => p.last :: p.beside

/-- All conditions read so far are among those that the link adds to. -/
def Flat (p : Pending) : Link → Prop
  | .or => True
  | .and => p.alternatives = []
  | .beside => p.alternatives = [] ∧ p.required = []

theorem parts_start (q : Node) : (start q).parts op l = [q] := by cases l <;> rfl

theorem flat_start (q : Node) : (start q).Flat l := by
  cases l with
  | or => exact trivial
  | and => rfl
  | beside => exact ⟨rfl, rfl⟩

theorem parts_add {p : Pending} {sign : Sign} {q : Node} (h : sign ≠ .excluded) :
    (p.add op l sign q).parts op l = p.parts op l ++ [q] := by
  cases l with
  | or => rfl
  | and => rfl
  | beside => cases sign <;> first | rfl | exact absurd rfl h

theorem Flat.add {p : Pending} {sign : Sign} {q : Node} (hp : p.Flat l) (h : sign ≠ .excluded) :
    (p.add op l sign q).Flat l := by
  cases l with
  | or => exact trivial
  | and => exact hp
  | beside => cases sign <;> first | exact hp | exact absurd rfl h

theorem Flat.finish_eq {p : Pending} (hp : p.Flat l) :
    p.finish op = (l.operator op).combine (p.parts op l) := by
  cases l with
  | or => rfl
  | and => rw [finish, show p.alternatives = [] from hp]; rfl
  | beside =>
    obtain ⟨halternatives, hrequired⟩ := hp
    rw [finish, alternative, allRequired, halternatives, hrequired]
    rfl

end Pending

namespace Chain

/-- The chain with further clauses, all linked to it in the same way. -/
def linked (chain : Chain) (l : Link) (clauses : List Clause) : Chain :=
  clauses.foldl (fun before clause => .link before l clause) chain

theorem linked_cons (chain : Chain) (l : Link) (clause : Clause) (clauses : List Clause) :
    chain.linked l (clause :: clauses) = (link chain l clause).linked l clauses := rfl

theorem WrittenAs.linked {α : Type} {clause : α → Clause} {tokens : α → List Token}
    {chain : Chain} {ts ls : List Token} (hchain : chain.WrittenAs ts) (hl : LinkWritten l ls)
    {as : List α} (h : ∀ a ∈ as, (clause a).WrittenAs (tokens a)) :
    (chain.linked l (as.map clause)).WrittenAs (ts ++ as.flatMap fun a => ls ++ tokens a) := by
  induction as generalizing chain ts with
  | nil => exact (List.append_nil ts).symm ▸ hchain
  | cons a as ih =>
    obtain ⟨ha, has⟩ := List.forall_mem_cons.1 h
    have hlinked := ih (.link hchain hl ha) has
    rw [List.append_assoc] at hlinked
    exact hlinked

theorem flat_linked {chain : Chain} {clauses : List Clause}
    (hchain : (chain.pending field op).Flat l) (h : ∀ clause ∈ clauses, clause.sign ≠ .excluded) :
    ((chain.linked l clauses).pending field op).Flat l ∧
      ((chain.linked l clauses).pending field op).parts op l =
        (chain.pending field op).parts op l ++ clauses.map (Clause.toNode field op) := by
  induction clauses generalizing chain with
  | nil => exact ⟨hchain, (List.append_nil _).symm⟩
  | cons clause clauses ih =>
    obtain ⟨hclause, hclauses⟩ := List.forall_mem_cons.1 h
    have hlink : (link chain l clause).pending field op =
        (chain.pending field op).add op l clause.sign (clause.toNode field op) := by rw [pending]
    have hnext : ((link chain l clause).pending field op).Flat l := hlink ▸ hchain.add hclause
    obtain ⟨hflat, hparts⟩ := ih hnext hclauses
    refine ⟨hflat, ?_⟩
    rw [linked_cons, hparts, hlink, Pending.parts_add hclause, List.append_assoc]
    rfl

/-- The conditions of clauses with one link are combined by its operator. -/
theorem toNode_linked {first : Clause} {clauses : List Clause}
    (h : ∀ clause ∈ clauses, clause.sign ≠ .excluded) :
    ((one first).linked l clauses).toNode field op =
      (l.operator op).combine ((first :: clauses).map (Clause.toNode field op)) := by
  have hone : (one first).pending field op = .start (first.toNode field op) := by rw [pending]
  have hfirst : ((one first).pending field op).Flat l := hone ▸ Pending.flat_start _
  obtain ⟨hflat, hparts⟩ := flat_linked hfirst h
  rw [toNode, hflat.finish_eq, hparts, hone, Pending.parts_start]
  rfl

end Chain

end QuantityQuery
