/-!
# Sets of documents

Documents are numbered in the order of their addition. A set of documents is the
strictly ascending list of their numbers.
-/

namespace QuantityQuery

/-- A set of document numbers, in ascending order. -/
structure DocSet where
  docs : List Nat
  ascending : docs.Pairwise (· < ·)
  deriving DecidableEq

namespace DocSet

/-- Puts a number at its place. -/
def insertSorted (n : Nat) : List Nat → List Nat
  | [] => [n]
  | m :: rest =>
    if n < m then n :: m :: rest
    else if n = m then m :: rest
    else m :: insertSorted n rest

@[simp] theorem mem_insertSorted {k n : Nat} :
    ∀ {l : List Nat}, k ∈ insertSorted n l ↔ k = n ∨ k ∈ l
  | [] => by simp [insertSorted]
  | m :: rest => by
    unfold insertSorted
    split
    · simp
    · split
      · simp_all
      · simp only [List.mem_cons, mem_insertSorted]
        exact or_left_comm

theorem pairwise_insertSorted (n : Nat) :
    ∀ {l : List Nat}, l.Pairwise (· < ·) → (insertSorted n l).Pairwise (· < ·)
  | [], _ => List.pairwise_singleton _ _
  | m :: rest, h => by
    obtain ⟨hm, hrest⟩ := List.pairwise_cons.1 h
    unfold insertSorted
    split
    case isTrue hlt =>
      refine List.pairwise_cons.2 ⟨fun k hk => ?_, h⟩
      rcases List.mem_cons.1 hk with rfl | hk
      · exact hlt
      · exact Nat.lt_trans hlt (hm k hk)
    case isFalse hge =>
      split
      case isTrue => exact h
      case isFalse hne =>
        refine List.pairwise_cons.2 ⟨fun k hk => ?_, pairwise_insertSorted n hrest⟩
        rcases mem_insertSorted.1 hk with rfl | hk
        · omega
        · exact hm k hk

instance : Membership Nat DocSet := ⟨fun s n => n ∈ s.docs⟩

instance (n : Nat) (s : DocSet) : Decidable (n ∈ s) := inferInstanceAs (Decidable (n ∈ s.docs))

/-- The set without documents. -/
def empty : DocSet := ⟨[], .nil⟩

/-- The documents before `count` that pass a test. -/
def below (count : Nat) (test : Nat → Bool) : DocSet :=
  ⟨(List.range count).filter test, List.pairwise_lt_range.filter _⟩

/-- A set with a document more. -/
def insert (s : DocSet) (n : Nat) : DocSet :=
  ⟨insertSorted n s.docs, pairwise_insertSorted n s.ascending⟩

/-- The set of the listed documents. -/
def ofList (docs : List Nat) : DocSet := docs.foldl insert empty

/-- The documents of one of two sets. -/
def union (s t : DocSet) : DocSet := t.docs.foldl insert s

/-- The documents of both sets. -/
def inter (s t : DocSet) : DocSet := ⟨s.docs.filter (· ∈ t), s.ascending.filter _⟩

/-- The documents of the first set that are not in the second. -/
def diff (s t : DocSet) : DocSet := ⟨s.docs.filter (· ∉ t), s.ascending.filter _⟩

/-- There is no document in the set. -/
def isEmpty (s : DocSet) : Bool := s.docs.isEmpty

/-- How many documents are in the set. -/
def size (s : DocSet) : Nat := s.docs.length

end DocSet

end QuantityQuery
