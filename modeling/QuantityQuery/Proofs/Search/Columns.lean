import Mathlib.Data.List.Induction
import QuantityQuery.Proofs.Search.Index
import QuantityQuery.Search.Columns

/-!
# What a store tells of its history

Two stores keep the documents of a history: an index keeps them one by one, columns keep
them field by field. Both answer every question as the history says (`Answers.Tell`), so
they are the same to ask (`ofChanges_tell`): a document has the last value that its own
addition gave for a field, whatever is added or deleted later, and whatever the other
fields have.

* `additions`: the documents as they were added;
* `valuesOf`: the values that an addition gives for a field, in their order;
* `DeletedIn`: a deletion of the history meets a document;
* `Columns.Keeps`: the columns after a history, which reach no further than the documents.

A deletion looks for the first document with its identity, so it meets only documents that
were added before it.
-/

namespace QuantityQuery

variable {changes : List Change} {n : Nat}

/-! ### Histories -/

/-- The identity and the values of the document that a change adds. -/
def Change.addition? : Change → Option (Nat × List (String × Double))
  | .add id values => some (id, values)
  | .delete _ => none

/-- The documents as they were added. -/
def additions (changes : List Change) : List (Nat × List (String × Double)) :=
  changes.filterMap Change.addition?

/-- The values that are given for a field. -/
def valuesOf (field : String) (values : List (String × Double)) : List Double :=
  (values.filter (·.1 = field)).map (·.2)

/-- The identity is at place `n`, and not before. -/
def IsFirst (id : Nat) (ids : List Nat) (n : Nat) : Prop :=
  ids[n]? = some id ∧ ∀ m < n, ids[m]? ≠ some id

/-- A deletion names the identity of document `n`, which is the first of those added before the
    deletion that have it. -/
def DeletedIn (changes : List Change) (n : Nat) : Prop :=
  ∃ earlier id later, changes = earlier ++ .delete id :: later ∧
    IsFirst id ((additions earlier).map (·.1)) n

theorem isFirst_zero {id k : Nat} {ids : List Nat} : IsFirst id (k :: ids) 0 ↔ k = id := by
  simp [IsFirst]

theorem isFirst_succ {id k : Nat} {ids : List Nat} :
    IsFirst id (k :: ids) (n + 1) ↔ k ≠ id ∧ IsFirst id ids n := by
  constructor
  · rintro ⟨hn, hbefore⟩
    refine ⟨fun h => hbefore 0 (Nat.succ_pos n) (by simp [h]), by simpa using hn, fun m hm => ?_⟩
    simpa using hbefore (m + 1) (Nat.succ_lt_succ hm)
  · rintro ⟨hk, hn, hbefore⟩
    refine ⟨by simpa using hn, fun m hm => ?_⟩
    cases m with
    | zero => simpa using hk
    | succ m => simpa using hbefore m (Nat.lt_of_succ_lt_succ hm)

theorem findIdx?_eq_some_iff_isFirst {id : Nat} {ids : List Nat} :
    ids.findIdx? (· = id) = some n ↔ IsFirst id ids n := by
  induction ids generalizing n with
  | nil => simp [IsFirst]
  | cons k ids ih =>
    rw [List.findIdx?_cons]
    cases n with
    | zero => by_cases h : k = id <;> simp [isFirst_zero, h]
    | succ n => by_cases h : k = id <;> simp [isFirst_succ, ih, h]

theorem additions_append (changes later : List Change) :
    additions (changes ++ later) = additions changes ++ additions later :=
  List.filterMap_append

/-- A further change deletes a document only if it names its identity. -/
theorem deletedIn_concat {ch : Change} :
    DeletedIn (changes ++ [ch]) n ↔ DeletedIn changes n ∨
      ∃ id, ch = .delete id ∧ IsFirst id ((additions changes).map (·.1)) n := by
  constructor
  · rintro ⟨earlier, id, later, heq, hfirst⟩
    rcases List.eq_nil_or_concat later with rfl | ⟨later, ch', rfl⟩
    · obtain ⟨rfl, hch⟩ := List.append_inj' heq rfl
      exact .inr ⟨id, List.head_eq_of_cons_eq hch, hfirst⟩
    · rw [List.concat_eq_append, ← List.cons_append, ← List.append_assoc] at heq
      exact .inl ⟨earlier, id, later, (List.append_inj' heq rfl).1, hfirst⟩
  · rintro (⟨earlier, id, later, rfl, hfirst⟩ | ⟨id, rfl, hfirst⟩)
    · exact ⟨earlier, id, later ++ [ch], by simp, hfirst⟩
    · exact ⟨changes, id, [], rfl, hfirst⟩

/-! ### Answers -/

/-- What a store of documents is asked for. -/
structure Answers where
  size : Nat
  id? : Nat → Option Nat
  value? : String → Nat → Option Double
  isDeleted : Nat → Bool
  live : DocSet
  matching : String → (Double → Bool) → DocSet

/-- The answers are those that a history gives. -/
structure Answers.Tell (a : Answers) (changes : List Change) : Prop where
  size_eq : a.size = (additions changes).length
  id?_eq : ∀ n, a.id? n = (additions changes)[n]?.map (·.1)
  /-- The value is the last one that the addition of the document gives for the field. -/
  value?_eq : ∀ field n,
    a.value? field n = (additions changes)[n]?.bind fun d => (valuesOf field d.2).getLast?
  isDeleted_iff : ∀ n, a.isDeleted n ↔ DeletedIn changes n
  mem_live : ∀ n, n ∈ a.live ↔ n < a.size ∧ a.isDeleted n = false
  mem_matching : ∀ field test n, n ∈ a.matching field test ↔
    a.isDeleted n = false ∧ ∃ v ∈ a.value? field n, test v

/-- A history settles all answers. -/
theorem Answers.Tell.unique {a b : Answers} (ha : a.Tell changes) (hb : b.Tell changes) :
    a = b := by
  have hsize : a.size = b.size := ha.size_eq.trans hb.size_eq.symm
  have hvalue : a.value? = b.value? :=
    funext fun field => funext fun n => (ha.value?_eq field n).trans (hb.value?_eq field n).symm
  have hdeleted : a.isDeleted = b.isDeleted :=
    funext fun n => Bool.eq_iff_iff.2 ((ha.isDeleted_iff n).trans (hb.isDeleted_iff n).symm)
  have hid : a.id? = b.id? := funext fun n => (ha.id?_eq n).trans (hb.id?_eq n).symm
  have hlive : a.live = b.live := DocSet.ext fun n => by
    rw [ha.mem_live, hb.mem_live, hsize, hdeleted]
  have hmatching : a.matching = b.matching := funext fun field => funext fun test =>
    DocSet.ext fun n => by rw [ha.mem_matching, hb.mem_matching, hdeleted, hvalue]
  cases a
  cases b
  cases hsize
  cases hid
  cases hvalue
  cases hdeleted
  cases hlive
  cases hmatching
  rfl

/-! ### The index -/

namespace Index

/-- The answers of an index. -/
def answers (ix : Index) : Answers where
  size := ix.size
  id? := ix.id?
  value? := ix.value?
  isDeleted := ix.isDeleted
  live := ix.live
  matching := ix.matching

/-- A deletion changes nothing of the documents but that one of them is deleted. -/
theorem map_deleteFirst {α : Type} {f : Document → α} (hf : ∀ d, f { d with deleted := true } = f d)
    (id : Nat) (docs : List Document) : (deleteFirst id docs).map f = docs.map f := by
  induction docs with
  | nil => rfl
  | cons d rest ih =>
    rw [deleteFirst]
    split
    · rw [List.map_cons, List.map_cons, hf]
    · rw [List.map_cons, List.map_cons, ih]

/-- A deletion marks the first document with the identity. -/
theorem any_deleted_deleteFirst (id : Nat) (docs : List Document) :
    (deleteFirst id docs)[n]?.any (·.deleted) ↔
      docs[n]?.any (·.deleted) ∨ IsFirst id (docs.map (·.id)) n := by
  induction docs generalizing n with
  | nil => simp [deleteFirst, IsFirst]
  | cons d rest ih =>
    rw [deleteFirst, List.map_cons]
    by_cases h : d.id = id
    · rw [if_pos h]
      cases n with
      | zero => simp [isFirst_zero, h]
      | succ n => simp [isFirst_succ, h]
    · rw [if_neg h]
      cases n with
      | zero => simp [isFirst_zero, h]
      | succ n => simpa [isFirst_succ, h] using ih

/-- The documents are those that were added, each with its own values. -/
theorem map_documents_ofChanges (changes : List Change) :
    (ofChanges changes).documents.map (fun d => (d.id, d.values)) =
      (additions changes).map fun d => (d.1, Table.ofList d.2) := by
  induction changes using List.reverseRecOn with
  | nil => rfl
  | append_singleton changes ch ih =>
    rw [ofChanges_concat, additions_append]
    cases ch with
    | add id values =>
      rw [change, List.map_append, ih, List.map_append]
      rfl
    | delete id =>
      rw [change, map_deleteFirst fun _ => rfl, ih]
      exact congrArg _ (List.append_nil _).symm

theorem map_id_ofChanges (changes : List Change) :
    (ofChanges changes).documents.map (·.id) = (additions changes).map (·.1) := by
  have h := congrArg (List.map Prod.fst) (map_documents_ofChanges changes)
  rwa [List.map_map, List.map_map] at h

theorem isDeleted_ofChanges (changes : List Change) :
    (ofChanges changes).isDeleted n ↔ DeletedIn changes n := by
  induction changes using List.reverseRecOn with
  | nil => simp [ofChanges, empty, isDeleted, DeletedIn]
  | append_singleton changes ch ih =>
    rw [ofChanges_concat, deletedIn_concat, ← ih]
    cases ch with
    | add id values =>
      -- The new document is not deleted, and the others are as before.
      simp only [change, isDeleted, reduceCtorEq, false_and, exists_false, or_false]
      rcases Nat.lt_trichotomy n (ofChanges changes).documents.length with h | rfl | h
      · rw [List.getElem?_append_left h]
      · simp
      · rw [List.getElem?_eq_none (by simp; omega), List.getElem?_eq_none (Nat.le_of_lt h)]
    | delete id =>
      simp only [change, isDeleted, any_deleted_deleteFirst, map_id_ofChanges,
        Change.delete.injEq, exists_eq_left']

theorem tell_ofChanges (changes : List Change) : (ofChanges changes).answers.Tell changes where
  size_eq := by simpa [answers, size] using congrArg List.length (map_documents_ofChanges changes)
  id?_eq n := by
    have h := congrArg (·[n]?.map Prod.fst) (map_documents_ofChanges changes)
    simpa [answers, id?, Function.comp_def] using h
  value?_eq field n := by
    have h := congrArg (·[n]?.bind (·.2.get? field)) (map_documents_ofChanges changes)
    simpa [answers, value?, Option.bind_map, Function.comp_def, Table.get?_ofList, valuesOf] using h
  isDeleted_iff _ := isDeleted_ofChanges changes
  mem_live _ := Index.mem_live
  mem_matching field test n := by
    have hlt : ∀ v ∈ (ofChanges changes).value? field n, n < (ofChanges changes).size := by
      intro v hv
      obtain ⟨d, hd, -⟩ := Option.bind_eq_some_iff.1 hv
      exact (List.getElem?_eq_some_iff.1 hd).1
    refine Index.mem_matching.trans (and_congr_left fun ⟨v, hv, _⟩ => ?_)
    exact Index.mem_live.trans (and_iff_right (hlt v hv))

end Index

/-! ### Columns -/

namespace Column

variable {column : Column} {count : Nat}

@[simp] theorem length_resize (count : Nat) (column : Column) :
    (column.resize count).length = count := by
  rw [resize, List.length_append, List.length_take, List.length_replicate]
  omega

/-- Places that are filled up have no value. -/
theorem value?_resize (h : column.length ≤ count) (n : Nat) :
    (column.resize count).value? n = column.value? n := by
  rw [resize, value?, value?, List.take_of_length_le h]
  rcases Nat.lt_or_ge n column.length with hn | hn
  · rw [List.getElem?_append_left hn]
  · rw [List.getElem?_append_right hn, List.getElem?_eq_none hn, List.getElem?_replicate]
    split <;> rfl

theorem value?_set {v : Double} (h : n < column.length) (k : Nat) :
    value? (column.set n (some v)) k = if k = n then some v else column.value? k := by
  rw [value?, value?]
  split
  case isTrue hk => rw [hk, List.getElem?_set_self h]; rfl
  case isFalse hk => rw [List.getElem?_set_ne (Ne.symm hk)]

theorem lt_length_of_value? {v : Double} (h : v ∈ column.value? n) : n < column.length := by
  rcases Nat.lt_or_ge n column.length with hn | hn
  · exact hn
  · rw [value?, List.getElem?_eq_none hn] at h
    cases h

end Column

namespace Columns

variable {s : Columns} {field : String}

/-- The answers of columns. -/
def answers (s : Columns) : Answers where
  size := s.size
  id? := s.id?
  value? := s.value?
  isDeleted := s.isDeleted
  live := s.live
  matching := s.matching

/-- No column has more than `count` places. -/
def FitsIn (s : Columns) (count : Nat) : Prop :=
  ∀ field, ∀ column ∈ s.columns.get? field, column.length ≤ count

/-! ### One document -/

theorem ids_foldl_put (values : List (String × Double)) :
    (values.foldl (put n) s).ids = s.ids := by
  induction values generalizing s with
  | nil => rfl
  | cons e rest ih => exact ih

theorem deleted_foldl_put (values : List (String × Double)) :
    (values.foldl (put n) s).deleted = s.deleted := by
  induction values generalizing s with
  | nil => rfl
  | cons e rest ih => exact ih

theorem fitsIn_put (h : s.FitsIn (n + 1)) (e : String × Double) : (put n s e).FitsIn (n + 1) := by
  intro field column hcolumn
  rw [put, Table.get?_insert] at hcolumn
  split at hcolumn
  case isTrue =>
    obtain rfl := Option.some.inj hcolumn
    exact Nat.le_of_eq ((List.length_set ..).trans (Column.length_resize ..))
  case isFalse => exact h field column hcolumn

theorem fitsIn_foldl_put (h : s.FitsIn (n + 1)) (values : List (String × Double)) :
    (values.foldl (put n) s).FitsIn (n + 1) := by
  induction values generalizing s with
  | nil => exact h
  | cons e rest ih => exact ih (fitsIn_put h e)

theorem value?_put (h : s.FitsIn (n + 1)) (e : String × Double) (k : Nat) :
    (put n s e).value? field k = if e.1 = field ∧ k = n then some e.2 else s.value? field k := by
  rw [value?, put, Table.get?_insert]
  by_cases hfield : field = e.1
  · subst hfield
    have hlength : ((s.columns.get? e.1).getD []).length ≤ n + 1 := by
      cases hcolumn : s.columns.get? e.1 with
      | none => exact Nat.zero_le _
      | some column => exact h e.1 column hcolumn
    have hvalue : ((s.columns.get? e.1).getD []).value? k = s.value? e.1 k := by
      rw [value?]
      cases s.columns.get? e.1 <;> rfl
    rw [if_pos rfl, Option.bind_some, Column.value?_set (by simp), Column.value?_resize hlength,
      hvalue]
    simp
  · rw [if_neg hfield, if_neg fun h => hfield h.1.symm, value?]

/-- Of the values that are put for one document the last one of a field stays, and nothing else is
    changed. -/
theorem value?_foldl_put (h : s.FitsIn (n + 1)) (values : List (String × Double)) (k : Nat) :
    (values.foldl (put n) s).value? field k =
      if k = n then (valuesOf field values).getLast?.or (s.value? field n)
      else s.value? field k := by
  induction values using List.reverseRecOn with
  | nil => split <;> simp [valuesOf, *]
  | append_singleton values e ih =>
    rw [List.foldl_concat, value?_put (fitsIn_foldl_put h values), ih]
    by_cases hk : k = n <;> by_cases he : e.1 = field <;> simp [valuesOf, hk, he]

/-! ### Histories of columns -/

/-- The columns hold what the documents of a history are, as far as they reach. -/
structure Keeps (s : Columns) (changes : List Change) : Prop where
  ids_eq : s.ids = (additions changes).map (·.1)
  fitsIn : s.FitsIn s.ids.length
  value?_eq : ∀ field n,
    s.value? field n = (additions changes)[n]?.bind fun d => (valuesOf field d.2).getLast?
  mem_deleted : ∀ n, n ∈ s.deleted ↔ DeletedIn changes n

theorem keeps_empty : empty.Keeps [] where
  ids_eq := rfl
  fitsIn _ _ h := nomatch h
  value?_eq _ _ := rfl
  mem_deleted _ := by simp [empty, DeletedIn]

/-- An addition writes the places of its own document only. -/
theorem Keeps.add (h : s.Keeps changes) (id : Nat) (values : List (String × Double)) :
    (s.change (.add id values)).Keeps (changes ++ [.add id values]) := by
  have hlength : s.ids.length = (additions changes).length := by
    rw [h.ids_eq, List.length_map]
  have hopen : ({ s with ids := s.ids ++ [id] } : Columns).FitsIn (s.ids.length + 1) :=
    fun field column hcolumn => Nat.le_succ_of_le (h.fitsIn field column hcolumn)
  have hids : (s.change (.add id values)).ids = s.ids ++ [id] := ids_foldl_put values
  have hdeleted : (s.change (.add id values)).deleted = s.deleted := deleted_foldl_put values
  refine ⟨?_, ?_, fun field n => ?_, fun n => ?_⟩
  · rw [hids, h.ids_eq, additions_append, List.map_append]
    rfl
  · rw [hids, List.length_append]
    exact fitsIn_foldl_put hopen values
  · have hvalue : (s.change (.add id values)).value? field n =
        if n = s.ids.length then (valuesOf field values).getLast?.or (s.value? field s.ids.length)
        else s.value? field n := value?_foldl_put hopen values n
    rw [hvalue, h.value?_eq, h.value?_eq, hlength, additions_append]
    split
    case isTrue hn => simp [hn, additions, Change.addition?]
    case isFalse hn =>
      rcases Nat.lt_or_gt_of_ne hn with hn | hn
      · rw [List.getElem?_append_left hn]
      · have hlast : (additions changes ++ additions [.add id values]).length ≤ n := by
          rw [List.length_append]
          exact hn
        rw [List.getElem?_eq_none (Nat.le_of_lt hn), List.getElem?_eq_none hlast]
  · rw [hdeleted, h.mem_deleted, deletedIn_concat]
    simp

/-- A deletion writes no place. -/
theorem Keeps.delete (h : s.Keeps changes) (id : Nat) :
    (s.change (.delete id)).Keeps (changes ++ [.delete id]) := by
  have hadditions : additions (changes ++ [.delete id]) = additions changes := by
    rw [additions_append]
    exact List.append_nil _
  have hsame : (s.change (.delete id)).ids = s.ids ∧
      (s.change (.delete id)).columns = s.columns ∧
      ∀ n, n ∈ (s.change (.delete id)).deleted ↔ n ∈ s.deleted ∨ IsFirst id s.ids n := by
    rw [change]
    cases hfirst : s.ids.findIdx? (· = id) with
    | none =>
      refine ⟨rfl, rfl, fun n => (or_iff_left fun hn => ?_).symm⟩
      rw [findIdx?_eq_some_iff_isFirst.2 hn] at hfirst
      cases hfirst
    | some k =>
      refine ⟨rfl, rfl, fun n => ?_⟩
      rw [DocSet.mem_insert, ← findIdx?_eq_some_iff_isFirst, hfirst, Option.some.injEq, or_comm,
        eq_comm]
  obtain ⟨hids, hcolumns, hdeleted⟩ := hsame
  refine ⟨?_, ?_, fun field n => ?_, fun n => ?_⟩
  · rw [hids, hadditions, h.ids_eq]
  · rw [FitsIn, hids, hcolumns]
    exact h.fitsIn
  · rw [value?, hcolumns, hadditions]
    exact h.value?_eq field n
  · rw [hdeleted, h.mem_deleted, deletedIn_concat, h.ids_eq]
    simp

theorem keeps_foldl (changes : List Change) : (changes.foldl change empty).Keeps changes := by
  induction changes using List.reverseRecOn with
  | nil => exact keeps_empty
  | append_singleton changes ch ih =>
    rw [List.foldl_concat]
    cases ch with
    | add id values => exact ih.add id values
    | delete id => exact ih.delete id

/-- Filling up the columns changes no value. -/
theorem Keeps.close (h : s.Keeps changes) : s.close.Keeps changes where
  ids_eq := h.ids_eq
  fitsIn field column hcolumn := by
    rw [Columns.close, Table.get?_map] at hcolumn
    obtain ⟨column, -, rfl⟩ := Option.map_eq_some_iff.1 hcolumn
    exact Nat.le_of_eq (Column.length_resize ..)
  value?_eq field n := by
    rw [← h.value?_eq, value?, value?, Columns.close, Table.get?_map]
    cases hcolumn : s.columns.get? field with
    | none => rfl
    | some column => exact Column.value?_resize (h.fitsIn field column hcolumn) n
  mem_deleted := h.mem_deleted

theorem mem_live : n ∈ s.live ↔ n < s.size ∧ s.isDeleted n = false := by
  simp [live, isDeleted]

theorem mem_matching {test : Double → Bool} :
    n ∈ s.matching field test ↔ s.isDeleted n = false ∧ ∃ v ∈ s.value? field n, test v := by
  rw [matching, value?, isDeleted, decide_eq_false_iff_not]
  cases s.columns.get? field with
  | none => simp
  | some column =>
    have hlt : ∀ v ∈ column.value? n, n < column.length := fun v => Column.lt_length_of_value?
    simp only [DocSet.mem_diff, DocSet.mem_below, Option.any_eq_true, Option.bind_some]
    constructor
    · rintro ⟨⟨-, hv⟩, hn⟩
      exact ⟨hn, hv⟩
    · rintro ⟨hn, v, hv, htest⟩
      exact ⟨⟨hlt v hv, v, hv, htest⟩, hn⟩

theorem tell_ofChanges (changes : List Change) : (ofChanges changes).answers.Tell changes := by
  have h := (keeps_foldl changes).close
  refine ⟨?_, fun n => ?_, h.value?_eq, fun n => ?_, fun n => mem_live, fun _ _ _ => mem_matching⟩
  · exact (congrArg List.length h.ids_eq).trans (List.length_map _)
  · exact (congrArg (·[n]?) h.ids_eq).trans (List.getElem?_map ..)
  · exact decide_eq_true_iff.trans (h.mem_deleted n)

end Columns

/-! ### Both stores -/

/-- Columns and the index give the same answers, those of the history. Each column has a place for
    every document. Later changes do not alter the values of a document, and for one field only the
    values count that the additions give for it: other fields, the order among different fields and
    deletions have no part in it. -/
theorem ofChanges_tell (changes : List Change) :
    let ix := Index.ofChanges changes
    let s := Columns.ofChanges changes
    ix.answers.Tell changes ∧ s.answers = ix.answers ∧
      (∀ field, ∀ column ∈ s.columns.get? field, column.length = s.size) ∧
      (∀ later n, n < ix.size → ∀ field,
        (Index.ofChanges (changes ++ later)).value? field n = ix.value? field n) ∧
      ∀ changes' field,
        (additions changes').map (valuesOf field ·.2) =
          (additions changes).map (valuesOf field ·.2) →
        (Index.ofChanges changes').value? field = ix.value? field := by
  intro ix s
  have hix := Index.tell_ofChanges changes
  refine ⟨hix, (Columns.tell_ofChanges changes).unique hix, ?_, ?_, ?_⟩
  · intro field column hcolumn
    obtain ⟨column, -, rfl⟩ := Option.map_eq_some_iff.1 ((Table.get?_map ..).symm.trans hcolumn)
    exact Column.length_resize ..
  · intro later n hn field
    have hn : n < (additions changes).length := hix.size_eq ▸ hn
    refine ((Index.tell_ofChanges (changes ++ later)).value?_eq field n).trans ?_
    rw [additions_append, List.getElem?_append_left hn]
    exact (hix.value?_eq field n).symm
  · intro changes' field hvalues
    funext n
    have h := congrArg (·[n]?.bind List.getLast?) hvalues
    simp only [List.getElem?_map, Option.bind_map] at h
    exact ((Index.tell_ofChanges changes').value?_eq field n).trans
      (h.trans (hix.value?_eq field n).symm)

end QuantityQuery
