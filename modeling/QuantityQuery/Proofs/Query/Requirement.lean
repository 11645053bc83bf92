import QuantityQuery.Proofs.Query.Exclusion

/-!
# What required clauses require

A plus before a clause is a condition of one part (`Node.holds_required`) and says
nothing on how the clause is combined. After the first clause of a run it stands
beside the others, and the first one is combined with those beside it unless an excluded
clause comes after it. With `OR` as the default, a document then need not meet the
required clause.

* `Chain.requires_iff`: the links and signs for which all that is required is met,
  whatever the clauses are;
* `Chain.found_without_required`: a query that finds a document without what it requires.

For signs of the other kind, every run gets clauses that a document meets, but for a
required one (`Run.exists_relaxed`); a chain is then made of the runs.
-/

namespace QuantityQuery

variable {ix : Index} {n : Nat} {field : String} {op : Operator}

namespace Run

/-- Only the first clause is a required one, and if it is, it is alone or an excluded clause
    comes after it. -/
def Binding (signs : List Sign) : Prop :=
  .required ∉ signs.tail ∧
    (.required ∈ signs → signs.length = 1 ∨ .excluded ∈ signs)

instance (signs : List Sign) : Decidable (Binding signs) := inferInstanceAs (Decidable (_ ∧ _))

variable {r : Run} {c : Clause}

theorem mem_required_or_mem_beside (hc : c ∈ r.clauses) : c ∈ r.required ∨ c ∈ r.beside := by
  by_cases hsign : c.sign = .excluded
  · exact .inl (mem_required_of_excluded hc hsign)
  · rcases List.mem_cons.1 hc with rfl | hc
    · exact .inl List.mem_cons_self
    · exact .inr (List.mem_filter.2 ⟨hc, by simpa using hsign⟩)

/-- With `AND` as the default, all clauses of a run are met. -/
theorem holds_of_conditions_and (h : ∀ q ∈ r.conditions field .and, q.Holds ix n)
    (hc : c ∈ r.clauses) : (c.toNode field .and).Holds ix n := by
  obtain ⟨earlier, last, hrequired⟩ := r.exists_required_eq
  rw [conditions_of_required hrequired, List.forall_mem_append, List.forall_mem_singleton,
    Node.holds_combine_and, List.forall_mem_map, List.forall_mem_map,
    List.forall_mem_cons] at h
  obtain ⟨hearlier, hlast, hbeside⟩ := h
  rcases mem_required_or_mem_beside hc with hc | hc
  · rw [hrequired, List.mem_append, List.mem_singleton] at hc
    rcases hc with hc | rfl
    · exact hearlier c hc
    · exact hlast
  · exact hbeside c hc

/-- A required clause that is bound is a condition of its own. -/
theorem toNode_mem_conditions (hbinding : Binding r.signs) (hc : c ∈ r.clauses)
    (hsign : c.sign = .required) : c.toNode field op ∈ r.conditions field op := by
  have hmem : .required ∈ r.signs := hsign ▸ List.mem_map_of_mem hc
  -- The clause is the first one, as no other is required.
  have hfirst : c = r.first := by
    refine (List.mem_cons.1 hc).resolve_right fun hrest => hbinding.1 ?_
    exact hsign ▸ List.mem_map_of_mem hrest
  subst hfirst
  rcases hbinding.2 hmem with hone | hexcluded
  · have hrest : r.rest = [] := by simpa [signs, clauses] using hone
    simp [conditions, required, beside, hrest, Operator.combine]
  · -- Some excluded clause comes after it, so it is not the last required one.
    have hne : r.rest.filter (·.sign = .excluded) ≠ [] := by
      simpa [signs, clauses, hsign, List.filter_eq_nil_iff] using hexcluded
    refine List.mem_append_left _ (List.mem_map_of_mem ?_)
    rw [required, List.dropLast_cons_of_ne_nil hne]
    exact List.mem_cons_self

/-- What a run requires is met, if nothing stands in for it. -/
theorem holds_required_clause (hop : op = .and ∨ Binding r.signs)
    (h : ∀ q ∈ r.conditions field op, q.Holds ix n) (hc : c ∈ r.clauses)
    (hsign : c.sign = .required) : (c.primary field op).Holds ix n := by
  have hholds : (c.toNode field op).Holds ix n := by
    rcases hop with rfl | hbinding
    · exact holds_of_conditions_and h hc
    · exact h _ (toNode_mem_conditions hbinding hc hsign)
  rwa [Clause.toNode_eq, hsign, Node.holds_required] at hholds

end Run

/-- A chain without `OR` finds only what meets the clauses that it requires, if the default operator
    is `AND` or nothing stands in for them. -/
theorem Chain.OrFree.requires {chain : Chain} (h : chain.OrFree)
    (hop : op = .and ∨ ∀ signs ∈ chain.signs, Run.Binding signs)
    (hn : n ∈ (chain.toNode field op).find ix) {c : Clause} (hc : c ∈ chain.clauses)
    (hsign : c.sign = .required) : n ∈ (c.primary field op).find ix := by
  obtain ⟨hlive, hholds⟩ := Node.mem_find.1 hn
  rw [h.toNode_eq, Node.holds_combine_and] at hholds
  rw [h.clauses_eq] at hc
  obtain ⟨r, hr, hc⟩ := List.mem_flatMap.1 hc
  have hcond : ∀ q ∈ r.conditions field op, q.Holds ix n := fun q hq =>
    hholds q (List.mem_flatMap.2 ⟨r, hr, hq⟩)
  have hbinding := hop.imp_right fun h => h _ (List.mem_map_of_mem hr)
  exact Node.mem_find.2 ⟨hlive, Run.holds_required_clause hbinding hcond hc hsign⟩

/-! ### Clauses that are required and not met -/

namespace Clause

/-- A clause with the given sign. A required one is met by no document, others by every one. -/
def relaxed (sign : Sign) : Clause :=
  if sign = .required then .leaf .required (.term none "" 1) else quiet sign

@[simp] theorem sign_relaxed (sign : Sign) : (relaxed sign).sign = sign := by
  cases sign <;> rfl

theorem holds_relaxed {sign : Sign} (h : sign ≠ .required) :
    ((relaxed sign).toNode field op).Holds ix n := by
  rw [relaxed, if_neg h]
  exact holds_quiet op sign

theorem not_holds_relaxed_required : ¬ ((relaxed .required).primary field op).Holds ix n := by
  have hvalue : TermQuery.value? ⟨field, "", 1⟩ = none := rfl
  simp [relaxed, primary, Leaf.toNode, Node.Holds, hvalue]

end Clause

namespace Run

variable {r : Run}

/-- With `OR` as the default, a run is met if all that it requires is: of the combined clauses the
    last required one is met. -/
theorem holds_conditions_of_required (h : ∀ c ∈ r.required, (c.toNode field .or).Holds ix n) :
    ∀ q ∈ r.conditions field .or, q.Holds ix n := by
  obtain ⟨earlier, last, hrequired⟩ := r.exists_required_eq
  rw [hrequired, List.forall_mem_append, List.forall_mem_singleton] at h
  rw [conditions_of_required hrequired, List.forall_mem_append, List.forall_mem_map,
    List.forall_mem_singleton, List.map_cons]
  exact ⟨h.1, Node.holds_combine_or.2 ⟨_, List.mem_cons_self, h.2⟩⟩

/-- With `OR` as the default and nothing excluded after the first clause, a run is met if one of its
    clauses is. -/
theorem holds_conditions_of_mem (hrest : ∀ c ∈ r.rest, c.sign ≠ .excluded) {c : Clause}
    (hc : c ∈ r.clauses) (h : (c.toNode field .or).Holds ix n) :
    ∀ q ∈ r.conditions field .or, q.Holds ix n := by
  have hrequired : r.required = [] ++ [r.first] := by
    simpa [required, List.filter_eq_nil_iff] using hrest
  have hbeside : r.beside = r.rest := by
    simpa [beside, List.filter_eq_self] using hrest
  rw [conditions_of_required hrequired, hbeside]
  refine List.forall_mem_singleton.2 (Node.holds_combine_or.2 ⟨_, ?_, h⟩)
  exact List.mem_map_of_mem hc

/-- The run of other clauses with the same signs. -/
def refill (r : Run) (first rest : Sign → Clause) : Run :=
  ⟨first r.first.sign, r.rest.map fun c => rest c.sign⟩

theorem signs_refill {first rest : Sign → Clause} (hfirst : ∀ sign, (first sign).sign = sign)
    (hrest : ∀ sign, (rest sign).sign = sign) : (r.refill first rest).signs = r.signs := by
  simp [refill, signs, clauses, hfirst, hrest]

variable (ix n field)

/-- Quiet clauses before relaxed ones are met, as the relaxed ones that are required are not
    conditions of their own. -/
theorem holds_conditions_quiet_relaxed (r : Run) :
    ∀ q ∈ (r.refill .quiet .relaxed).conditions field .or, q.Holds ix n := by
  refine holds_conditions_of_required fun c hc => ?_
  rcases List.mem_cons.1 hc with rfl | hc
  · exact Clause.holds_quiet .or _
  · obtain ⟨hc, hexcluded⟩ := List.mem_filter.1 hc
    obtain ⟨d, _, rfl⟩ := List.mem_map.1 hc
    rw [Clause.sign_relaxed, decide_eq_true_eq] at hexcluded
    exact Clause.holds_relaxed (hexcluded ▸ nofun)

/-- A run with the same signs that a document meets, without a required clause of it if something
    can stand in for one. -/
theorem exists_relaxed (r : Run) : ∃ s : Run, s.signs = r.signs ∧
    (∀ q ∈ s.conditions field .or, q.Holds ix n) ∧
      (¬ Binding r.signs →
        ∃ c ∈ s.clauses, c.sign = .required ∧ ¬ (c.primary field .or).Holds ix n) := by
  by_cases hfirst : r.first.sign = .required ∧ r.rest ≠ [] ∧ ∀ c ∈ r.rest, c.sign ≠ .excluded
  · -- The first clause is required, and the others are combined with it.
    obtain ⟨hsign, hne, hrest⟩ := hfirst
    obtain ⟨d, hd⟩ := List.exists_mem_of_ne_nil _ hne
    refine ⟨r.refill .relaxed .quiet, signs_refill Clause.sign_relaxed Clause.sign_quiet, ?_,
      fun _ => ⟨.relaxed r.first.sign, List.mem_cons_self, ?_, ?_⟩⟩
    · refine holds_conditions_of_mem ?_
        (List.mem_cons_of_mem _ (List.mem_map_of_mem hd)) (Clause.holds_quiet .or _)
      exact List.forall_mem_map.2 hrest
    · rw [Clause.sign_relaxed, hsign]
    · rw [hsign]
      exact Clause.not_holds_relaxed_required
  · -- If a required clause is not bound, it stands after the first one.
    refine ⟨r.refill .quiet .relaxed, signs_refill Clause.sign_quiet Clause.sign_relaxed,
      holds_conditions_quiet_relaxed ix n field r, fun hbinding => ?_⟩
    have htail : .required ∈ r.signs.tail := by
      by_contra htail
      refine hbinding ⟨htail, fun hmem => ?_⟩
      have hsign : r.first.sign = .required := by
        rcases List.mem_cons.1 hmem with h | h
        · exact h.symm
        · exact absurd h htail
      by_contra hnone
      rw [not_or] at hnone
      refine hfirst ⟨hsign, fun hnil => hnone.1 (by simp [signs, clauses, hnil]), fun c hc h => ?_⟩
      exact hnone.2 (h ▸ List.mem_map_of_mem (List.mem_cons_of_mem _ hc))
    obtain ⟨c, hc, hsign⟩ := List.mem_map.1 htail
    refine ⟨.relaxed c.sign, List.mem_cons_of_mem _ (List.mem_map_of_mem hc), ?_, ?_⟩
    · rw [Clause.sign_relaxed, hsign]
    · rw [hsign]
      exact Clause.not_holds_relaxed_required

end Run

namespace Chain

variable (ix n field)

/-- A chain that a document meets without a clause that is required, if something can stand in for
    one. -/
theorem exists_found_without_required {chain : Chain}
    (h : ∃ signs ∈ chain.signs, ¬ Run.Binding signs) :
    ∃ other : Chain, other.OrFree ∧ other.signs = chain.signs ∧
      (other.toNode field .or).Holds ix n ∧
        ∃ c ∈ other.clauses, c.sign = .required ∧ ¬ (c.primary field .or).Holds ix n := by
  choose relax hsigns hholds hmissing using Run.exists_relaxed ix n field
  obtain ⟨r, rest, hcons⟩ : ∃ r rest, chain.runs = r :: rest :=
    List.exists_cons_of_ne_nil (by simp [runs, Runs.current])
  obtain ⟨other, hfree, hruns⟩ := exists_runs_eq (relax r) (rest.map relax)
  rw [← List.map_cons, ← hcons] at hruns
  refine ⟨other, hfree, ?_, ?_, ?_⟩
  · rw [signs, signs, hruns, List.map_map]
    exact List.map_congr_left fun r _ => hsigns r
  · rw [hfree.toNode_eq, Node.holds_combine_and, hruns]
    intro q hq
    obtain ⟨s, hs, hq⟩ := List.mem_flatMap.1 hq
    obtain ⟨r, _, rfl⟩ := List.mem_map.1 hs
    exact hholds r q hq
  · obtain ⟨signs, hmem, hbinding⟩ := h
    obtain ⟨r, hr, rfl⟩ := List.mem_map.1 hmem
    obtain ⟨c, hc, hmissing⟩ := hmissing r hbinding
    refine ⟨c, ?_, hmissing⟩
    rw [hfree.clauses_eq, hruns]
    exact List.mem_flatMap.2 ⟨relax r, List.mem_map_of_mem hr, hc⟩

/-- For links other than `OR`, run by run, and signs: whatever the clauses are, every document that
    is found is one that each of the required clauses would find, exactly if the default operator is
    `AND` or in every run only the first clause is a required one and nothing stands in for it. -/
theorem requires_iff (field : String) (op : Operator) (chain : Chain) :
    (∀ other : Chain, other.OrFree → other.signs = chain.signs →
      ∀ (ix : Index) (n : Nat), n ∈ (other.toNode field op).find ix →
        ∀ c ∈ other.clauses, c.sign = .required → n ∈ (c.primary field op).find ix) ↔
      op = .and ∨ ∀ signs ∈ chain.signs, Run.Binding signs := by
  constructor
  · intro hrequires
    cases op with
    | and => exact .inl rfl
    | or =>
      right
      by_contra hbinding
      push Not at hbinding
      obtain ⟨other, hfree, hsigns, hholds, c, hc, hsign, hnot⟩ :=
        exists_found_without_required (.single []) 0 field hbinding
      have hfound := Node.mem_find.2 ⟨Index.mem_live_single [], hholds⟩
      exact hnot (Node.mem_find.1 (hrequires other hfree hsigns _ _ hfound c hc hsign)).2
  · intro hop other hother hsigns ix n hn c hc hsign
    exact hother.requires (hsigns ▸ hop) hn hc hsign

/-- The one document is found by a query that requires another size. -/
theorem found_without_required :
    let ix := Index.single [("size", 43), ("capacity", 100)]
    let finds := fun text => (Node.ofText "content" .or text).toOption.any fun q => 0 ∈ q.find ix
    finds "+size:42 capacity:100" ∧ ¬ finds "size:42" := by
  decide +kernel

end Chain

end QuantityQuery
