import QuantityQuery.Search.DocSet

/-!
# Members of sets of documents

Which documents are in the sets that the operations build.
-/

namespace QuantityQuery.DocSet

variable {n : Nat} {s t : DocSet}

theorem mem_def : n ∈ s ↔ n ∈ s.docs := Iff.rfl

/-- A set is determined by its members, as they are in order. -/
@[ext] theorem ext (h : ∀ n, n ∈ s ↔ n ∈ t) : s = t := by
  obtain ⟨s, hs⟩ := s
  obtain ⟨t, ht⟩ := t
  have hperm : s.Perm t := (List.perm_ext_iff_of_nodup (hs.imp Nat.ne_of_lt)
    (ht.imp Nat.ne_of_lt)).2 h
  obtain rfl : s = t := hperm.eq_of_pairwise (fun _ _ _ _ hab hba => by omega) hs ht
  rfl

@[simp] theorem not_mem_empty : n ∉ empty := List.not_mem_nil

@[simp] theorem mem_below {count : Nat} {test : Nat → Bool} :
    n ∈ below count test ↔ n < count ∧ test n = true := by
  simp [mem_def, below]

@[simp] theorem mem_inter : n ∈ s.inter t ↔ n ∈ s ∧ n ∈ t := by
  rw [mem_def, inter, List.mem_filter, decide_eq_true_iff]
  rfl

@[simp] theorem mem_diff : n ∈ s.diff t ↔ n ∈ s ∧ n ∉ t := by
  rw [mem_def, diff, List.mem_filter, decide_eq_true_iff]
  rfl

@[simp] theorem mem_insert {k : Nat} : k ∈ s.insert n ↔ k = n ∨ k ∈ s := mem_insertSorted

theorem mem_foldl_insert (docs : List Nat) : n ∈ docs.foldl insert s ↔ n ∈ s ∨ n ∈ docs := by
  induction docs generalizing s with
  | nil => simp
  | cons d rest ih => rw [List.foldl_cons, ih, mem_insert, List.mem_cons, or_left_comm, or_assoc]

@[simp] theorem mem_union : n ∈ s.union t ↔ n ∈ s ∨ n ∈ t := mem_foldl_insert t.docs

theorem isEmpty_iff : s.isEmpty ↔ ∀ n, n ∉ s := by
  rw [isEmpty, List.isEmpty_iff, List.eq_nil_iff_forall_not_mem]
  rfl

end QuantityQuery.DocSet
