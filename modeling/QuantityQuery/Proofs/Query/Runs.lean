import QuantityQuery.Query.Syntax

/-!
# Runs of clauses

A chain falls into alternatives, which `OR` separates; an alternative falls into
*runs*, which `AND` separates; the clauses of a run stand beside each other. The tree
of a chain is found from its runs alone (`Chain.toNode_eq`): every run requires some
conditions, an alternative combines what its runs require, and the chain combines its
alternatives.

* `Operator.treeOf`: the tree of some conditions, written out;
* `Run.required`, `Run.beside`: the clauses of a run that are conditions of their own,
  and the others, which join the last one of these;
* `Chain.runs`: the runs of a chain in its last alternative, of all the chain if there
  is no `OR`.
-/

namespace QuantityQuery

/-- The tree of some conditions: all documents for none, a single condition as it is, and several
    as the alternatives of one node or as all that it requires, in their order. -/
def Operator.treeOf : Operator → List Node → Node
  | _, [] => .all 1
  | _, [q] => q
  | .or, qs => .bool [] qs []
  | .and, qs => .bool qs [] []

theorem Operator.treeOf_eq_combine {op : Operator} {qs : List Node} (h : qs ≠ []) :
    op.treeOf qs = op.combine qs := by
  match op, qs with
  | _, [] => exact absurd rfl h
  | _, [_] => rfl
  | .or, _ :: _ :: _ => rfl
  | .and, _ :: _ :: _ => rfl

/-- The condition of a clause without its sign. -/
def Clause.primary (field : String) (op : Operator) : Clause → Node
  | .leaf _ l => l.toNode field
  | .group _ chain => chain.toNode field op

/-- Induction along a chain, from its first clause on. -/
@[elab_as_elim, induction_eliminator]
theorem Chain.induct {motive : Chain → Prop} (one : ∀ c, motive (.one c))
    (link : ∀ before l c, motive before → motive (.link before l c)) : ∀ chain, motive chain
  | .one c => one c
  | .link before l c => link before l c (induct one link before)

theorem Clause.toNode_eq (field : String) (op : Operator) (c : Clause) :
    c.toNode field op = c.sign.apply (c.primary field op) := by
  cases c <;> simp only [toNode, sign, primary, Chain.toNode]

/-- Clauses that stand beside each other. -/
structure Run where
  first : Clause
  rest : List Clause

namespace Run

variable (field : String) (op : Operator) (r : Run)

/-- The clauses of a run. -/
def clauses : List Clause := r.first :: r.rest

/-- The run with a clause more. -/
def add (c : Clause) : Run := ⟨r.first, r.rest ++ [c]⟩

/-- The clauses that are required: the first one, and those excluded after it. -/
def required : List Clause := r.first :: r.rest.filter (·.sign = .excluded)

/-- The other clauses, which join the last required one. -/
def beside : List Clause := r.rest.filter (·.sign ≠ .excluded)

/-- The conditions that a run requires. -/
def conditions : List Node :=
  (r.required.dropLast.map (Clause.toNode field op)) ++
    [op.combine ((r.required.getLast (List.cons_ne_nil _ _) :: r.beside).map
      (Clause.toNode field op))]

variable {r}

@[simp] theorem clauses_add {c : Clause} : (r.add c).clauses = r.clauses ++ [c] := rfl

theorem required_add_excluded {c : Clause} (h : c.sign = .excluded) :
    (r.add c).required = r.required ++ [c] := by
  simp [required, add, h]

theorem beside_add_excluded {c : Clause} (h : c.sign = .excluded) :
    (r.add c).beside = r.beside := by
  simp [beside, add, h]

theorem required_add_beside {c : Clause} (h : c.sign ≠ .excluded) :
    (r.add c).required = r.required := by
  simp [required, add, h]

theorem beside_add_beside {c : Clause} (h : c.sign ≠ .excluded) :
    (r.add c).beside = r.beside ++ [c] := by
  simp [beside, add, h]

variable {field op}

/-- Something is required in every run. -/
theorem exists_required_eq (r : Run) : ∃ earlier last, r.required = earlier ++ [last] :=
  ⟨_, _, (List.dropLast_concat_getLast (List.cons_ne_nil _ _)).symm⟩

theorem conditions_of_required {earlier : List Clause} {last : Clause}
    (h : r.required = earlier ++ [last]) :
    r.conditions field op = earlier.map (Clause.toNode field op) ++
      [op.combine ((last :: r.beside).map (Clause.toNode field op))] := by
  simp only [conditions, h, List.dropLast_concat, List.getLast_concat]

theorem mem_required_of_excluded {c : Clause} (hc : c ∈ r.clauses) (h : c.sign = .excluded) :
    c ∈ r.required := by
  rcases List.mem_cons.1 hc with rfl | hc
  · exact List.mem_cons_self
  · exact List.mem_cons_of_mem _ (List.mem_filter.2 ⟨hc, by simpa using h⟩)

end Run

/-- The runs of the chain read so far. -/
structure Runs where
  /-- The alternatives before the last `OR`. -/
  alternatives : List (List Run)
  /-- The runs after it, except the last one. -/
  earlier : List Run
  last : Run

namespace Runs

/-- The runs after the last `OR`. -/
def current (g : Runs) : List Run := g.earlier ++ [g.last]

/-- Adds a clause with the given link. -/
def add (g : Runs) (link : Link) (c : Clause) : Runs :=
  match link with
  | .or => ⟨g.alternatives ++ [g.current], [], ⟨c, []⟩⟩
  | .and => ⟨g.alternatives, g.current, ⟨c, []⟩⟩
  | .beside => { g with last := g.last.add c }

/-- The condition of an alternative. -/
def alternativeNode (field : String) (op : Operator) (runs : List Run) : Node :=
  Operator.and.combine (runs.flatMap (Run.conditions field op))

end Runs

namespace Chain

/-- The runs of a chain, in their alternatives. -/
def grouped : Chain → Runs
  | one c => ⟨[], [], ⟨c, []⟩⟩
  | link before l c => before.grouped.add l c

/-- The runs of a chain after its last `OR`. -/
def runs (chain : Chain) : List Run := chain.grouped.current

/-- The alternatives of a chain. -/
def alternatives (chain : Chain) : List (List Run) :=
  chain.grouped.alternatives ++ [chain.runs]

/-- The clauses of a chain. -/
def clauses : Chain → List Clause
  | one c => [c]
  | link before _ c => before.clauses ++ [c]

/-- No clauses are linked by `OR`. -/
def OrFree : Chain → Prop
  | one _ => True
  | link before l _ => before.OrFree ∧ l ≠ .or

end Chain

/-- What is pending is what the runs require. -/
structure Pending.Matches (field : String) (op : Operator) (p : Pending) (g : Runs) : Prop where
  alternatives : p.alternatives = g.alternatives.map (Runs.alternativeNode field op)
  required : ∃ earlier last, g.last.required = earlier ++ [last] ∧
    p.required = g.earlier.flatMap (Run.conditions field op) ++
      earlier.map (Clause.toNode field op) ∧
    p.last = last.toNode field op
  beside : p.beside = g.last.beside.map (Clause.toNode field op)

namespace Pending

variable {field : String} {op : Operator} {p : Pending} {g : Runs}

theorem matches_start (c : Clause) :
    (start (c.toNode field op)).Matches field op ⟨[], [], ⟨c, []⟩⟩ :=
  ⟨rfl, ⟨[], c, rfl, rfl, rfl⟩, rfl⟩

theorem Matches.allRequired_eq (h : p.Matches field op g) :
    p.allRequired op = g.current.flatMap (Run.conditions field op) := by
  obtain ⟨earlier, last, hrequired, hp, hlast⟩ := h.required
  rw [allRequired, hp, hlast, h.beside, Runs.current, List.flatMap_append,
    List.flatMap_singleton, Run.conditions_of_required hrequired, List.append_assoc,
    List.map_cons]

theorem Matches.add (h : p.Matches field op g) (l : Link) (c : Clause) :
    (p.add op l c.sign (c.toNode field op)).Matches field op (g.add l c) := by
  obtain ⟨earlier, last, hrequired, hp, hlast⟩ := h.required
  cases l with
  | or =>
    -- All that is pending becomes an alternative.
    refine ⟨?_, ⟨[], c, rfl, rfl, rfl⟩, rfl⟩
    simp only [Pending.add, Runs.add, List.map_append, List.map_singleton, h.alternatives,
      Runs.alternativeNode, ← h.allRequired_eq, Pending.alternative]
  | and =>
    -- The run is over: its last required clause is combined with those beside it.
    refine ⟨h.alternatives, ⟨[], c, rfl, ?_, rfl⟩, rfl⟩
    simp [Pending.add, Runs.add, h.allRequired_eq]
  | beside =>
    -- An excluded clause becomes the last required one, and the one before it is settled.
    by_cases hc : c.sign = .excluded
    · refine ⟨by simpa [Pending.add, Runs.add, hc] using h.alternatives,
        ⟨earlier ++ [last], c, ?_, ?_, ?_⟩, ?_⟩
      · rw [Runs.add, Run.required_add_excluded hc, hrequired]
      · simp [Pending.add, Runs.add, hc, hp, hlast]
      · simp [Pending.add, hc]
      · simp [Pending.add, Runs.add, hc, h.beside, Run.beside_add_excluded hc]
    · have hadd : p.add op .beside c.sign (c.toNode field op) =
          { p with beside := p.beside ++ [c.toNode field op] } := by
        cases hsign : c.sign <;> simp_all [Pending.add]
      rw [hadd]
      refine ⟨h.alternatives, ⟨earlier, last, ?_, hp, hlast⟩, ?_⟩
      · rw [Runs.add, Run.required_add_beside hc, hrequired]
      · simp [Runs.add, h.beside, Run.beside_add_beside hc]

end Pending

namespace Chain

variable {field : String} {op : Operator}

theorem matches_pending (field : String) (op : Operator) (chain : Chain) :
    (chain.pending field op).Matches field op chain.grouped := by
  induction chain with
  | one c =>
    rw [pending]
    exact Pending.matches_start c
  | link before l c ih =>
    rw [pending]
    exact ih.add l c

/-- The tree of a chain: its alternatives by `OR`, each of them what its runs require by `AND`. -/
theorem toNode_eq (chain : Chain) :
    chain.toNode field op =
      Operator.or.combine (chain.alternatives.map (Runs.alternativeNode field op)) := by
  have h := matches_pending field op chain
  rw [toNode, Pending.finish, h.alternatives, Pending.alternative, h.allRequired_eq, alternatives,
    List.map_append]
  rfl

theorem OrFree.alternatives_eq {chain : Chain} (h : chain.OrFree) :
    chain.alternatives = [chain.runs] := by
  have hnil : chain.grouped.alternatives = [] := by
    induction chain with
    | one c => rfl
    | link before l c ih =>
      cases l with
      | or => exact absurd rfl h.2
      | and => exact ih h.1
      | beside => exact ih h.1
  rw [alternatives, hnil, List.nil_append]

/-- The tree of a chain without `OR`. -/
theorem OrFree.toNode_eq {chain : Chain} (h : chain.OrFree) :
    chain.toNode field op =
      Operator.and.combine (chain.runs.flatMap (Run.conditions field op)) := by
  rw [Chain.toNode_eq, h.alternatives_eq]
  rfl

/-- The clauses of a chain without `OR` are those of its runs. -/
theorem OrFree.clauses_eq {chain : Chain} (h : chain.OrFree) :
    chain.clauses = chain.runs.flatMap Run.clauses := by
  induction chain with
  | one c => rfl
  | link before l c ih =>
    rw [clauses, ih h.1]
    cases l with
    | or => exact absurd rfl h.2
    | and => simp [runs, grouped, Runs.add, Runs.current, Run.clauses]
    | beside => simp [runs, grouped, Runs.add, Runs.current, ← List.append_assoc]

/-! ### Chains of given runs -/

/-- The chain with further clauses beside its last one. -/
def extend (chain : Chain) (clauses : List Clause) : Chain :=
  clauses.foldl (fun chain c => .link chain .beside c) chain

theorem OrFree.extend {chain : Chain} (h : chain.OrFree) (clauses : List Clause) :
    (chain.extend clauses).OrFree := by
  induction clauses generalizing chain with
  | nil => exact h
  | cons c rest ih =>
    have hnext : (Chain.link chain .beside c).OrFree := ⟨h, nofun⟩
    exact ih hnext

theorem grouped_extend (chain : Chain) (clauses : List Clause) :
    (chain.extend clauses).grouped = { chain.grouped with
      last := ⟨chain.grouped.last.first, chain.grouped.last.rest ++ clauses⟩ } := by
  induction clauses generalizing chain with
  | nil => simp [Chain.extend]
  | cons c rest ih =>
    have hstep : chain.extend (c :: rest) = (link chain .beside c).extend rest := rfl
    rw [hstep, ih]
    simp [grouped, Runs.add, Run.add]

theorem OrFree.exists_runs_append {chain : Chain} (h : chain.OrFree) (runs : List Run) :
    ∃ other : Chain, other.OrFree ∧ other.runs = chain.runs ++ runs := by
  induction runs generalizing chain with
  | nil => exact ⟨chain, h, (List.append_nil _).symm⟩
  | cons r rest ih =>
    -- The run is linked to the chain by its first clause, and its other clauses stand beside that.
    have hnext : ((link chain .and r.first).extend r.rest).runs = chain.runs ++ [r] := by
      rw [Chain.runs, grouped_extend]
      rfl
    have hlink : (link chain .and r.first).OrFree := ⟨h, nofun⟩
    obtain ⟨other, hother, hruns⟩ := ih (hlink.extend r.rest)
    exact ⟨other, hother, by rw [hruns, hnext, List.append_assoc, List.singleton_append]⟩

/-- Any runs, of which there is at least one, are the runs of a chain without `OR`. -/
theorem exists_runs_eq (r : Run) (rest : List Run) :
    ∃ chain : Chain, chain.OrFree ∧ chain.runs = r :: rest := by
  have hone : (one r.first).OrFree := trivial
  obtain ⟨chain, hchain, hruns⟩ := (hone.extend r.rest).exists_runs_append rest
  refine ⟨chain, hchain, ?_⟩
  rw [hruns, Chain.runs, grouped_extend]
  rfl

end Chain

end QuantityQuery
