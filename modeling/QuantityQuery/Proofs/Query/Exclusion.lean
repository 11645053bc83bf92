import QuantityQuery.Proofs.Query.Runs
import QuantityQuery.Proofs.Search.Combination
import QuantityQuery.Proofs.Search.Execution
import QuantityQuery.Query.Grammar

/-!
# What excluded clauses exclude

An excluded clause is a condition of its own, unless it is the last one that its run
requires: that one is combined by the default operator with the clauses beside it.
With `OR` as the default, a document then need not keep to the exclusion, it only has
to meet one of the clauses beside it.

* `Chain.excludes_iff`: the links and signs for which all that is excluded stays out,
  whatever the clauses are;
* `Chain.excluded_found`: a query that finds what it excludes.

For links and signs of the other kind, clauses are chosen one by one along the chain
so that a document is found although it is excluded. As long as the clauses are
`quiet`, all pending conditions hold (`Pending.AllHold`); after a clause that
`excludesAll` they hold but for the last required one (`Pending.OthersHold`).
-/

namespace QuantityQuery

variable {ix : Index} {n : Nat} {field : String} {op : Operator}

/-! ### Runs that exclude -/

namespace Run

/-- The signs of the clauses of a run. -/
def signs (r : Run) : List Sign := r.clauses.map Clause.sign

/-- Where a clause is excluded, all clauses after the first one are. -/
def Settled (signs : List Sign) : Prop :=
  .excluded ∈ signs → ∀ sign ∈ signs.tail, sign = .excluded

instance (signs : List Sign) : Decidable (Settled signs) :=
  inferInstanceAs (Decidable (_ → _))

@[simp] theorem signs_add {r : Run} {c : Clause} : (r.add c).signs = r.signs ++ [c.sign] := by
  simp [signs]

theorem excluded_mem_signs {r : Run} :
    .excluded ∈ r.signs ↔ ∃ c ∈ r.clauses, c.sign = .excluded := List.mem_map

theorem beside_eq_nil_iff {r : Run} :
    r.beside = [] ↔ ∀ sign ∈ r.signs.tail, sign = .excluded := by
  simp [beside, signs, clauses, List.filter_eq_nil_iff]

/-- What a run excludes is a condition that it requires, if nothing is combined with it. -/
theorem holds_of_conditions {r : Run} (hop : op = .and ∨ Settled r.signs)
    (h : ∀ q ∈ r.conditions field op, q.Holds ix n) {c : Clause} (hc : c ∈ r.clauses)
    (hsign : c.sign = .excluded) : (c.toNode field op).Holds ix n := by
  obtain ⟨earlier, last, hrequired⟩ := r.exists_required_eq
  rw [conditions_of_required hrequired, List.forall_mem_append] at h
  obtain ⟨hearlier, hlast⟩ := h
  rw [List.forall_mem_singleton, List.map_cons] at hlast
  -- The clause is required; only the last required one is combined with others.
  have hmem := mem_required_of_excluded hc hsign
  rw [hrequired, List.mem_append, List.mem_singleton] at hmem
  rcases hmem with hmem | rfl
  · exact hearlier _ (List.mem_map_of_mem hmem)
  · rcases hop with rfl | hsettled
    · exact Node.holds_combine_and.1 hlast _ List.mem_cons_self
    · rw [beside_eq_nil_iff.2 (hsettled (excluded_mem_signs.2 ⟨c, hc, hsign⟩))] at hlast
      exact hlast

end Run

/-- The signs of the clauses of a chain, run by run. -/
def Chain.signs (chain : Chain) : List (List Sign) := chain.runs.map Run.signs

/-- A chain without `OR` finds nothing that it excludes, if the default operator is `AND` or
    nothing is combined with its exclusions. -/
theorem Chain.OrFree.excludes {chain : Chain} (h : chain.OrFree)
    (hop : op = .and ∨ ∀ signs ∈ chain.signs, Run.Settled signs)
    (hn : n ∈ (chain.toNode field op).find ix) {c : Clause} (hc : c ∈ chain.clauses)
    (hsign : c.sign = .excluded) : n ∉ (c.primary field op).find ix := by
  have hholds := (Node.mem_find.1 hn).2
  rw [h.toNode_eq, Node.holds_combine_and] at hholds
  rw [h.clauses_eq] at hc
  obtain ⟨r, hr, hc⟩ := List.mem_flatMap.1 hc
  have hcond : ∀ q ∈ r.conditions field op, q.Holds ix n := fun q hq =>
    hholds q (List.mem_flatMap.2 ⟨r, hr, hq⟩)
  have hsettled := hop.imp_right fun h => h _ (List.mem_map_of_mem hr)
  have hexcluded := Run.holds_of_conditions hsettled hcond hc hsign
  rw [Clause.toNode_eq, hsign, Node.holds_excluded] at hexcluded
  exact fun hfind => hexcluded (Node.mem_find.1 hfind).2

/-! ### Clauses that are found although they are excluded -/

namespace Clause

/-- A clause with the given sign whose condition holds of every document. -/
def quiet (sign : Sign) : Clause :=
  .leaf sign (if sign = .excluded then .term none "" 1 else .all 1)

/-- The clause that excludes every document. -/
def excludesAll : Clause := .leaf .excluded (.all 1)

@[simp] theorem sign_quiet (sign : Sign) : (quiet sign).sign = sign := rfl

theorem holds_quiet (op : Operator) (sign : Sign) :
    ((quiet sign).toNode field op).Holds ix n := by
  rw [toNode_eq, sign_quiet]
  cases sign with
  | plain => exact Node.holds_all
  | required => simp [Sign.apply, quiet, primary, Leaf.toNode, Node.holds_bool]
  | excluded =>
    have hvalue : TermQuery.value? ⟨field, "", 1⟩ = none := rfl
    rw [Node.holds_excluded]
    simp [quiet, primary, Leaf.toNode, Node.Holds, hvalue]

end Clause

namespace Pending

/-- All the conditions since the last `OR` hold but the last required one. -/
structure OthersHold (ix : Index) (n : Nat) (p : Pending) : Prop where
  required : ∀ q ∈ p.required, q.Holds ix n
  beside : ∀ q ∈ p.beside, q.Holds ix n

/-- All the conditions since the last `OR` hold. -/
structure AllHold (ix : Index) (n : Nat) (p : Pending) : Prop extends p.OthersHold ix n where
  last : p.last.Holds ix n

variable {p : Pending} {l : Link} {sign : Sign} {q : Node}

theorem othersHold_start (q : Node) : (start q).OthersHold ix n :=
  ⟨fun _ hq => absurd hq List.not_mem_nil, fun _ hq => absurd hq List.not_mem_nil⟩

theorem AllHold.holds_allRequired (h : p.AllHold ix n) :
    ∀ q ∈ p.allRequired op, q.Holds ix n := by
  rw [allRequired, List.forall_mem_append, List.forall_mem_singleton]
  exact ⟨h.required, Node.holds_combine_of_all (List.forall_mem_cons.2 ⟨h.last, h.beside⟩)⟩

/-- A condition beside the last required one stands in for it. -/
theorem OthersHold.holds_allRequired (h : p.OthersHold ix n) (hbeside : p.beside ≠ []) :
    ∀ q ∈ p.allRequired .or, q.Holds ix n := by
  obtain ⟨q, hq⟩ := List.exists_mem_of_ne_nil _ hbeside
  rw [allRequired, List.forall_mem_append, List.forall_mem_singleton]
  exact ⟨h.required,
    Node.holds_combine_or.2 ⟨q, List.mem_cons_of_mem _ hq, h.beside q hq⟩⟩

/-- After an `AND` the conditions before it are all required. -/
theorem othersHold_add_and (h : ∀ r ∈ p.allRequired op, r.Holds ix n) :
    (p.add op .and sign q).OthersHold ix n :=
  ⟨h, fun _ hq => absurd hq List.not_mem_nil⟩

/-- A clause that is excluded becomes the last required condition. -/
theorem AllHold.others_add (h : p.AllHold ix n) (hl : l ≠ .or) :
    (p.add op l .excluded q).OthersHold ix n := by
  cases l with
  | or => exact absurd rfl hl
  | and => exact othersHold_add_and h.holds_allRequired
  | beside =>
    have hlast := List.forall_mem_singleton.2 h.last
    exact ⟨List.forall_mem_append.2 ⟨h.required, hlast⟩, h.beside⟩

theorem OthersHold.add_beside (h : p.OthersHold ix n) (hsign : sign ≠ .excluded)
    (hq : q.Holds ix n) : (p.add op .beside sign q).OthersHold ix n := by
  have hbeside := List.forall_mem_append.2 ⟨h.beside, List.forall_mem_singleton.2 hq⟩
  cases sign with
  | excluded => exact absurd rfl hsign
  | plain => exact ⟨h.required, hbeside⟩
  | required => exact ⟨h.required, hbeside⟩

theorem AllHold.add (h : p.AllHold ix n) (hl : l ≠ .or) (hq : q.Holds ix n) :
    (p.add op l sign q).AllHold ix n := by
  cases l with
  | or => exact absurd rfl hl
  | and => exact ⟨othersHold_add_and h.holds_allRequired, hq⟩
  | beside =>
    cases sign with
    | excluded => exact ⟨h.others_add hl, hq⟩
    | plain => exact ⟨h.toOthersHold.add_beside nofun hq, h.last⟩
    | required => exact ⟨h.toOthersHold.add_beside nofun hq, h.last⟩

end Pending

namespace Chain

/-- Two chains without `OR` are alike when their runs have the same signs. -/
structure Alike (a b : Chain) : Prop where
  orFree : a.OrFree
  earlier : a.grouped.earlier.map Run.signs = b.grouped.earlier.map Run.signs
  last : a.grouped.last.signs = b.grouped.last.signs

namespace Alike

variable {a b : Chain} {c d : Clause}

theorem one (h : c.sign = d.sign) : Alike (.one c) (.one d) :=
  ⟨trivial, rfl, by simp [grouped, Run.signs, Run.clauses, h]⟩

theorem link {l : Link} (hab : Alike a b) (hl : l ≠ .or) (h : c.sign = d.sign) :
    Alike (.link a l c) (.link b l d) := by
  cases l with
  | or => exact absurd rfl hl
  | and =>
    refine ⟨⟨hab.orFree, hl⟩, ?_, by simp [grouped, Runs.add, Run.signs, Run.clauses, h]⟩
    simp [grouped, Runs.add, Runs.current, hab.earlier, hab.last]
  | beside => exact ⟨⟨hab.orFree, hl⟩, hab.earlier, by simp [grouped, Runs.add, hab.last, h]⟩

theorem signs_eq (h : Alike a b) : a.signs = b.signs := by
  simp [signs, runs, Runs.current, h.earlier, h.last]

end Alike

/-- A clause of the chain is excluded, and the document meets its condition. -/
def Breaks (ix : Index) (n : Nat) (field : String) (op : Operator) (chain : Chain) : Prop :=
  ∃ c ∈ chain.clauses, c.sign = .excluded ∧ (c.primary field op).Holds ix n

theorem Breaks.link {chain : Chain} (h : chain.Breaks ix n field op) (l : Link) (c : Clause) :
    (Chain.link chain l c).Breaks ix n field op := by
  obtain ⟨d, hd, hsign, hholds⟩ := h
  exact ⟨d, List.mem_append_left _ hd, hsign, hholds⟩

theorem breaks_excludesAll (chain : Chain) (l : Link) :
    (Chain.link chain l .excludesAll).Breaks ix n field op :=
  ⟨.excludesAll, List.mem_append_right _ List.mem_cons_self, rfl, Node.holds_all⟩

variable {chain : Chain}

theorem Alike.beside_ne_nil {other : Chain} (h : Alike other chain)
    (hlast : ¬ Run.Settled chain.grouped.last.signs) :
    (other.pending field op).beside ≠ [] := by
  rw [(matches_pending field op other).beside, ne_eq, List.map_eq_nil_iff, Run.beside_eq_nil_iff,
    h.last]
  exact fun hall => hlast fun _ => hall

/-- The conditions since the last `OR` are all conditions of a chain without `OR`. -/
theorem OrFree.holds_toNode (h : chain.OrFree)
    (hrequired : ∀ q ∈ (chain.pending field op).allRequired op, q.Holds ix n) :
    (chain.toNode field op).Holds ix n := by
  rw [h.toNode_eq, Node.holds_combine_and]
  rwa [(matches_pending field op chain).allRequired_eq] at hrequired

variable (ix n field)

/-- Quiet clauses exclude nothing. -/
theorem exists_alike_allHold (op : Operator) (h : chain.OrFree) :
    ∃ other : Chain, Alike other chain ∧ (other.pending field op).AllHold ix n := by
  induction chain with
  | one c =>
    refine ⟨.one (.quiet c.sign), .one rfl, ?_⟩
    rw [pending]
    exact ⟨Pending.othersHold_start _, Clause.holds_quiet op c.sign⟩
  | link before l c ih =>
    obtain ⟨other, halike, hall⟩ := ih h.1
    refine ⟨.link other l (.quiet c.sign), halike.link h.2 rfl, ?_⟩
    rw [pending]
    exact hall.add h.2 (Clause.holds_quiet _ c.sign)

/-- In a run with an exclusion, the last exclusion can be made to break. -/
theorem exists_alike_othersHold (op : Operator) (h : chain.OrFree)
    (hlast : .excluded ∈ chain.grouped.last.signs) :
    ∃ other : Chain, Alike other chain ∧ other.Breaks ix n field op ∧
      (other.pending field op).OthersHold ix n := by
  induction chain with
  | one c =>
    have hc : c.sign = .excluded := by
      simpa [grouped, Run.signs, Run.clauses, eq_comm] using hlast
    refine ⟨.one .excludesAll, .one hc.symm,
      ⟨.excludesAll, List.mem_cons_self, rfl, Node.holds_all⟩, ?_⟩
    rw [pending]
    exact Pending.othersHold_start _
  | link before l c ih =>
    by_cases hc : c.sign = .excluded
    · -- The clause is the last excluded one: before it, all is quiet.
      obtain ⟨other, halike, hall⟩ := exists_alike_allHold ix n field op h.1
      refine ⟨.link other l .excludesAll, halike.link h.2 hc.symm, breaks_excludesAll other l, ?_⟩
      rw [pending]
      exact hall.others_add h.2
    · cases l with
      | or => exact absurd rfl h.2
      | and => simp_all [grouped, Runs.add, Run.signs, Run.clauses, eq_comm]
      | beside =>
        -- The excluded clause stands before in the same run, and a quiet clause joins it.
        have hbefore : .excluded ∈ before.grouped.last.signs := by
          simpa [grouped, Runs.add, Ne.symm hc] using hlast
        obtain ⟨other, halike, hbreaks, hothers⟩ := ih h.1 hbefore
        refine ⟨.link other .beside (.quiet c.sign), halike.link h.2 rfl, hbreaks.link _ _, ?_⟩
        rw [pending]
        exact hothers.add_beside hc (Clause.holds_quiet _ c.sign)

/-- An unsettled run before the last one can be made to break, with all that follows it quiet. -/
theorem exists_alike_allHold_breaks (h : chain.OrFree)
    (hearlier : ∃ r ∈ chain.grouped.earlier, ¬ Run.Settled r.signs) :
    ∃ other : Chain, Alike other chain ∧ other.Breaks ix n field .or ∧
      (other.pending field .or).AllHold ix n := by
  induction chain with
  | one c => simp [grouped] at hearlier
  | link before l c ih =>
    have step : (∃ r ∈ before.grouped.earlier, ¬ Run.Settled r.signs) →
        ∃ other : Chain, Alike other (.link before l c) ∧ other.Breaks ix n field .or ∧
          (other.pending field .or).AllHold ix n := by
      intro hbefore
      obtain ⟨other, halike, hbreaks, hall⟩ := ih h.1 hbefore
      refine ⟨.link other l (.quiet c.sign), halike.link h.2 rfl, hbreaks.link _ _, ?_⟩
      rw [pending]
      exact hall.add h.2 (Clause.holds_quiet _ c.sign)
    cases l with
    | or => exact absurd rfl h.2
    | beside => exact step hearlier
    | and =>
      obtain ⟨r, hr, hunsettled⟩ := hearlier
      rcases List.mem_append.1 hr with hr | hr
      · exact step ⟨r, hr, hunsettled⟩
      · -- The run that the `AND` ends is the unsettled one.
        obtain rfl := List.mem_singleton.1 hr
        obtain ⟨other, halike, hbreaks, hothers⟩ :=
          exists_alike_othersHold ix n field .or h.1 (Classical.not_imp.1 hunsettled).1
        refine ⟨.link other .and (.quiet c.sign), halike.link h.2 rfl, hbreaks.link _ _, ?_⟩
        rw [pending]
        have hrequired := hothers.holds_allRequired (halike.beside_ne_nil hunsettled)
        exact ⟨Pending.othersHold_add_and hrequired, Clause.holds_quiet .or c.sign⟩

theorem exists_alike_found (h : chain.OrFree)
    (hunsettled : ∃ r ∈ chain.runs, ¬ Run.Settled r.signs) :
    ∃ other : Chain, Alike other chain ∧ other.Breaks ix n field .or ∧
      (other.toNode field .or).Holds ix n := by
  obtain ⟨r, hr, hunsettled⟩ := hunsettled
  -- In the last run, what breaks is still to be combined with the clauses beside it.
  rcases List.mem_append.1 hr with hr | hr
  · obtain ⟨other, halike, hbreaks, hall⟩ :=
      exists_alike_allHold_breaks ix n field h ⟨r, hr, hunsettled⟩
    exact ⟨other, halike, hbreaks, halike.orFree.holds_toNode hall.holds_allRequired⟩
  · obtain rfl := List.mem_singleton.1 hr
    obtain ⟨other, halike, hbreaks, hothers⟩ :=
      exists_alike_othersHold ix n field .or h (Classical.not_imp.1 hunsettled).1
    exact ⟨other, halike, hbreaks, halike.orFree.holds_toNode
      (hothers.holds_allRequired (halike.beside_ne_nil hunsettled))⟩

/-- For links other than `OR`, run by run, and signs: whatever the clauses are, no document is
    found that one of the excluded clauses would find, exactly if the default operator is `AND`
    or every run with an excluded clause has only such clauses after its first one. -/
theorem excludes_iff (field : String) (op : Operator) (chain : Chain) (h : chain.OrFree) :
    (∀ other : Chain, other.OrFree → other.signs = chain.signs →
      ∀ (ix : Index) (n : Nat), n ∈ (other.toNode field op).find ix →
        ∀ c ∈ other.clauses, c.sign = .excluded → n ∉ (c.primary field op).find ix) ↔
      op = .and ∨ ∀ signs ∈ chain.signs, Run.Settled signs := by
  constructor
  · intro hexcludes
    cases op with
    | and => exact .inl rfl
    | or =>
      right
      by_contra hunsettled
      simp only [signs, List.forall_mem_map, not_forall] at hunsettled
      obtain ⟨r, hr, hunsettled⟩ := hunsettled
      obtain ⟨other, halike, ⟨c, hc, hsign, hholds⟩, hfound⟩ :=
        exists_alike_found (.single []) 0 field h ⟨r, hr, hunsettled⟩
      have hlive := Index.mem_live_single []
      exact hexcludes other halike.orFree halike.signs_eq (.single []) 0
        (Node.mem_find.2 ⟨hlive, hfound⟩) c hc hsign (Node.mem_find.2 ⟨hlive, hholds⟩)
  · intro hop other hother hsigns ix n hn c hc hsign
    exact hother.excludes (hsigns ▸ hop) hn hc hsign

theorem excludes_iff_pair :
    let chain : Chain := .link (.one (.leaf .excluded (.term (some "size") "42" 1))) .beside
      (.leaf .plain (.term (some "capacity") "100" 1))
    chain.OrFree ∧
      ((∀ other : Chain, other.OrFree → other.signs = chain.signs →
        ∀ (ix : Index) (n : Nat), n ∈ (other.toNode "content" .or).find ix →
          ∀ c ∈ other.clauses, c.sign = .excluded → n ∉ (c.primary "content" .or).find ix) ↔
        Operator.or = .and ∨ ∀ signs ∈ chain.signs, Run.Settled signs) :=
  ⟨⟨trivial, nofun⟩, excludes_iff "content" .or _ ⟨trivial, nofun⟩⟩

/-- The one document is found by a query that excludes its size. -/
theorem excluded_found :
    let finds := fun text => (Node.ofText "content" .or text).toOption.any fun q =>
      0 ∈ q.find (.single [("size", 42), ("capacity", 100)])
    finds "-size:42 capacity:100" ∧ finds "size:42" := by
  decide +kernel

end Chain

end QuantityQuery
