import Mathlib.Data.List.Basic
import QuantityQuery.Proofs.Query.Parsing
import QuantityQuery.Proofs.Query.Runs

/-!
# The layers of a query

Clauses stand beside each other in runs, runs are joined by `AND` to alternatives, and
alternatives by `OR` to a query. The chain that is read from such tokens falls into the
same runs again (`Separated.exists_chain`), so that without negation the tree of the query
has the layers of the text: nothing is lost and nothing changes its place
(`Node.ofText_layers`).

* `Separated`: the tokens of several things, with the same tokens between any two;
* `Clause.treeOf`: the tree of a clause, written out;
* `Opens`: after these tokens a clause begins a run.
-/

namespace QuantityQuery

/-- The tokens of several things, of which there is at least one: those of each of them, with
    `sep` between any two. -/
inductive Separated {α : Type} (sep : List Token) (written : α → List Token → Prop) :
    List α → List Token → Prop
  | one {a : α} {ts : List Token} : written a ts → Separated sep written [a] ts
  | concat {as : List α} {a : α} {ts us : List Token} : Separated sep written as ts →
      written a us → Separated sep written (as ++ [a]) (ts ++ (sep ++ us))

/-- After the tokens `ts` a clause begins a run, with these alternatives before it and these runs
    before it in its own alternative. -/
def Opens (ts : List Token) (alternatives : List (List Run)) (earlier : List Run) : Prop :=
  ∀ (c : Clause) (us : List Token), c.WrittenAs us → ∃ chain : Chain,
    chain.WrittenAs (ts ++ us) ∧ chain.grouped = ⟨alternatives, earlier, ⟨c, []⟩⟩

variable {ts us : List Token} {alternatives : List (List Run)} {earlier : List Run}

namespace Opens

theorem nil : Opens [] [] [] := fun _ _ hc => ⟨_, .one hc, rfl⟩

theorem and {chain : Chain} (h : chain.WrittenAs ts) :
    Opens (ts ++ [.and]) chain.grouped.alternatives chain.runs := by
  intro c us hc
  refine ⟨.link chain .and c, ?_, rfl⟩
  rw [List.append_assoc]
  exact .link h .and hc

theorem or {chain : Chain} (h : chain.WrittenAs ts) :
    Opens (ts ++ [.or]) chain.alternatives [] := by
  intro c us hc
  refine ⟨.link chain .or c, ?_, rfl⟩
  rw [List.append_assoc]
  exact .link h .or hc

end Opens

namespace Separated

section

variable {α : Type} {sep : List Token} {written : α → List Token → Prop} {as : List α}

theorem ne_nil (h : Separated sep written as ts) : as ≠ [] := by
  cases h with
  | one _ => exact List.cons_ne_nil _ _
  | concat _ _ => exact List.concat_ne_nil _ _

theorem exists_written (h : Separated sep written as ts) : ∀ a ∈ as, ∃ us, written a us := by
  induction h with
  | one ha => exact List.forall_mem_singleton.2 ⟨_, ha⟩
  | concat _ ha ih => exact List.forall_mem_append.2 ⟨ih, List.forall_mem_singleton.2 ⟨_, ha⟩⟩

end

/-- Clauses beside each other make up a run. -/
theorem exists_run (hts : Opens ts alternatives earlier) {run : List Clause}
    (h : Separated [] Clause.WrittenAs run us) :
    ∃ chain : Chain, chain.WrittenAs (ts ++ us) ∧
      ∃ r : Run, r.clauses = run ∧ chain.grouped = ⟨alternatives, earlier, r⟩ := by
  induction h with
  | one hc =>
    obtain ⟨chain, hchain, hgrouped⟩ := hts _ _ hc
    exact ⟨chain, hchain, _, rfl, hgrouped⟩
  | @concat _ c _ _ _ hc ih =>
    obtain ⟨chain, hchain, r, rfl, hgrouped⟩ := ih
    refine ⟨.link chain .beside c, ?_, r.add c, rfl, ?_⟩
    · rw [← List.append_assoc]
      exact .link hchain .beside hc
    · rw [Chain.grouped, hgrouped]
      rfl

/-- Runs with `AND` between them make up an alternative. -/
theorem exists_alternative (hts : Opens ts alternatives []) {runs : List (List Clause)}
    (h : Separated [.and] (Separated [] Clause.WrittenAs) runs us) :
    ∃ chain : Chain, chain.WrittenAs (ts ++ us) ∧
      chain.grouped.alternatives = alternatives ∧ chain.runs.map Run.clauses = runs := by
  induction h with
  | one hrun =>
    obtain ⟨chain, hchain, r, rfl, hgrouped⟩ := hrun.exists_run hts
    refine ⟨chain, hchain, by rw [hgrouped], ?_⟩
    rw [Chain.runs, hgrouped]
    rfl
  | @concat _ _ vs _ _ hrun ih =>
    obtain ⟨before, hbefore, halternatives, hruns⟩ := ih
    obtain ⟨chain, hchain, r, rfl, hgrouped⟩ := hrun.exists_run (.and hbefore)
    refine ⟨chain, ?_, ?_, ?_⟩
    · simpa only [List.append_assoc] using hchain
    · rw [hgrouped, halternatives]
    · rw [Chain.runs, hgrouped, Runs.current, List.map_append, hruns]
      rfl

/-- The chain of alternatives with `OR` between them. -/
theorem exists_chain {layers : List (List (List Clause))}
    (h : Separated [.or] (Separated [.and] (Separated [] Clause.WrittenAs)) layers us) :
    ∃ chain : Chain, chain.WrittenAs us ∧
      chain.alternatives.map (List.map Run.clauses) = layers := by
  induction h with
  | one hruns =>
    obtain ⟨chain, hchain, halternatives, rfl⟩ := hruns.exists_alternative .nil
    refine ⟨chain, hchain, ?_⟩
    rw [Chain.alternatives, halternatives]
    rfl
  | concat _ hruns ih =>
    obtain ⟨before, hbefore, rfl⟩ := ih
    obtain ⟨chain, hchain, halternatives, rfl⟩ := hruns.exists_alternative (.or hbefore)
    refine ⟨chain, by simpa only [List.append_assoc] using hchain, ?_⟩
    rw [Chain.alternatives, halternatives, List.map_append]
    rfl

end Separated

/-- The tree of a clause: that of its condition or its chain, alone under what is required after a
    plus, and alone under what is excluded after a negation. -/
def Clause.treeOf (field : String) (op : Operator) : Clause → Node
  | .leaf .plain l => l.toNode field
  | .leaf .required l => .bool [l.toNode field] [] []
  | .leaf .excluded l => .bool [] [] [l.toNode field]
  | .group .plain chain => chain.toNode field op
  | .group .required chain => .bool [chain.toNode field op] [] []
  | .group .excluded chain => .bool [] [] [chain.toNode field op]

variable {field : String} {op : Operator}

theorem Clause.toNode_eq_treeOf : Clause.toNode field op = Clause.treeOf field op := by
  funext c
  rw [toNode_eq]
  cases c with
  | leaf sign l => cases sign <;> rfl
  | group sign chain => cases sign <;> rfl

/-- A run that excludes nothing requires its clauses, combined by the default operator. -/
theorem Run.conditions_of_forall {r : Run} (h : ∀ c ∈ r.clauses, c.sign ≠ .excluded) :
    r.conditions field op = [op.treeOf (r.clauses.map (Clause.treeOf field op))] := by
  have hrest : ∀ c ∈ r.rest, c.sign ≠ .excluded := fun c hc => h c (List.mem_cons_of_mem _ hc)
  have hrequired : r.required = [] ++ [r.first] := by
    rw [required, List.filter_eq_nil_iff.2 fun c hc => by simpa using hrest c hc]
    rfl
  have hbeside : r.beside = r.rest :=
    List.filter_eq_self.2 fun c hc => by simpa using hrest c hc
  have hne : r.clauses.map (Clause.treeOf field op) ≠ [] := List.cons_ne_nil _ _
  rw [conditions_of_required hrequired, hbeside, Operator.treeOf_eq_combine hne,
    Clause.toNode_eq_treeOf]
  rfl

/-- An alternative that excludes nothing combines its runs. -/
theorem Runs.alternativeNode_of_forall {runs : List Run} (hruns : runs ≠ [])
    (h : ∀ r ∈ runs, ∀ c ∈ r.clauses, c.sign ≠ .excluded) :
    alternativeNode field op runs = Operator.and.treeOf ((runs.map Run.clauses).map fun run =>
      op.treeOf (run.map (Clause.treeOf field op))) := by
  have hconditions : runs.flatMap (Run.conditions field op) =
      runs.flatMap fun r => [op.treeOf (r.clauses.map (Clause.treeOf field op))] :=
    List.flatMap_congr fun r hr => Run.conditions_of_forall (h r hr)
  rw [alternativeNode, hconditions, ← List.map_eq_flatMap, List.map_map,
    Operator.treeOf_eq_combine (mt List.map_eq_nil_iff.1 hruns)]
  rfl

/-- The tree of a text without negation, written as alternatives with `OR` between them, each of
    them runs with `AND` between them, and each run clauses beside each other. -/
theorem Node.ofText_layers {text : String} {layers : List (List (List Clause))}
    (hfault : (Reading.ofText text).fault = none)
    (htokens : Separated [.or] (Separated [.and] (Separated [] Clause.WrittenAs)) layers
      (Reading.ofText text).tokens)
    (hsign : ∀ runs ∈ layers, ∀ run ∈ runs, ∀ c ∈ run, c.sign ≠ .excluded) :
    Node.ofText field op text = .ok (Operator.or.treeOf (layers.map fun runs =>
      Operator.and.treeOf (runs.map fun run =>
        op.treeOf (run.map (Clause.treeOf field op))))) := by
  have hlayers : layers ≠ [] := htokens.ne_nil
  have hruns : ∀ runs ∈ layers, runs ≠ [] := fun runs h =>
    have ⟨_, hwritten⟩ := htokens.exists_written runs h
    hwritten.ne_nil
  obtain ⟨chain, hchain, rfl⟩ := htokens.exists_chain
  refine Node.ofText_eq_ok_iff.2 ⟨chain, Chain.ofText_eq_ok_iff.2 ⟨hfault, hchain⟩, ?_⟩
  rw [Operator.treeOf_eq_combine (mt List.map_eq_nil_iff.1 hlayers), Chain.toNode_eq, List.map_map]
  refine congrArg _ (List.map_congr_left fun runs h => ?_)
  have hmem := List.mem_map_of_mem (f := List.map Run.clauses) h
  exact Runs.alternativeNode_of_forall (mt List.map_eq_nil_iff.2 (hruns _ hmem)) fun r hr =>
    hsign _ hmem _ (List.mem_map_of_mem hr)

theorem Node.ofText_layers_words :
    let text := "a +b AND (c d) OR e"
    let word := fun text => Leaf.term none text 1
    let chain : Chain := .link (.one (.leaf .plain (word "c"))) .beside (.leaf .plain (word "d"))
    let layers : List (List (List Clause)) :=
      [[[.leaf .plain (word "a"), .leaf .required (word "b")], [.group .plain chain]],
        [[.leaf .plain (word "e")]]]
    (Reading.ofText text).fault = none ∧
      Separated [.or] (Separated [.and] (Separated [] Clause.WrittenAs)) layers
        (Reading.ofText text).tokens ∧
      (∀ runs ∈ layers, ∀ run ∈ runs, ∀ c ∈ run, c.sign ≠ .excluded) ∧
      Node.ofText "x" .or text = .ok (.bool []
        [.bool [.bool [] [.term ⟨"x", "a", 1⟩, .bool [.term ⟨"x", "b", 1⟩] [] []] [],
          .bool [] [.term ⟨"x", "c", 1⟩, .term ⟨"x", "d", 1⟩] []] [] [],
        .term ⟨"x", "e", 1⟩] []) := by
  intro text word chain layers
  have hword : ∀ {text}, isWildcard text = false →
      Clause.WrittenAs (.leaf .plain (word text)) [.term text] :=
    fun h => .leaf .plain (.value (.term h) .absent)
  have ha := hword (show isWildcard "a" = false by decide)
  have hb : Clause.WrittenAs (.leaf .required (word "b")) [.plus, .term "b"] :=
    .leaf .plus (.value (.term (by decide)) .absent)
  have hchain : chain.WrittenAs [.term "c", .term "d"] :=
    .link (.one (hword (by decide))) .beside (hword (by decide))
  have hgroup : Clause.WrittenAs (.group .plain chain)
      [.leftParen, .term "c", .term "d", .rightParen] := .group .plain hchain
  have he := hword (show isWildcard "e" = false by decide)
  have hfault : (Reading.ofText text).fault = none := by decide +kernel
  have htokens : (Reading.ofText text).tokens = [.term "a", .plus, .term "b", .and, .leftParen,
      .term "c", .term "d", .rightParen, .or, .term "e"] := by decide +kernel
  have hrun : Separated [] Clause.WrittenAs _ _ := .concat (.one ha) hb
  have hruns : Separated [.and] (Separated [] Clause.WrittenAs) _ _ :=
    .concat (.one hrun) (.one hgroup)
  have hlayers : Separated [.or] (Separated [.and] (Separated [] Clause.WrittenAs)) layers
      (Reading.ofText text).tokens := by
    rw [htokens]
    exact Separated.concat (.one hruns) (.one (.one he))
  have hsign : ∀ runs ∈ layers, ∀ run ∈ runs, ∀ c ∈ run, c.sign ≠ .excluded := by
    simp [layers, Clause.sign]
  exact ⟨hfault, hlayers, hsign, Node.ofText_layers hfault hlayers hsign⟩

end QuantityQuery
