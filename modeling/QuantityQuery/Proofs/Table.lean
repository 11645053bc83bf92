import Mathlib.Data.List.Induction
import QuantityQuery.Table

/-!
# Looking up in tables

What stands under a name after an insertion (`Table.get?_insert`). Names are unique
and in order, so a value is put over the one value that stands under its name and
moves no other.
-/

namespace QuantityQuery.Table

variable {α : Type} {name k : String} {value : α}

theorem lookup_cons (entry : String × α) (rest : List (String × α)) :
    (entry :: rest).lookup k = if k = entry.1 then some entry.2 else rest.lookup k := by
  rw [List.lookup_cons]
  by_cases h : k = entry.1
  · rw [beq_iff_eq.2 h, if_pos h]
  · rw [beq_eq_false_iff_ne.2 h, if_neg h]

theorem lookup_insertEntry (entries : List (String × α)) :
    (insertEntry name value entries).lookup k =
      if k = name then some value else entries.lookup k := by
  induction entries with
  | nil => exact lookup_cons (name, value) []
  | cons entry rest ih =>
    rw [insertEntry]
    split
    case isTrue => exact lookup_cons (name, value) (entry :: rest)
    case isFalse hge =>
      split
      case isTrue hgt =>
        -- The name stands later, so this entry is not its own.
        have hne : entry.1 ≠ name := fun h => String.lt_irrefl _ (h ▸ hgt)
        rw [lookup_cons, ih, lookup_cons]
        by_cases h : k = entry.1
        · rw [if_pos h, if_pos h, if_neg (h ▸ hne)]
        · rw [if_neg h, if_neg h]
      case isFalse hle =>
        have heq : entry.1 = name := String.le_antisymm hge hle
        rw [lookup_cons, lookup_cons, heq]
        by_cases h : k = name
        · rw [if_pos h, if_pos h]
        · simp only [if_neg h]

@[simp] theorem get?_empty : (empty : Table α).get? k = none := rfl

theorem get?_insert (t : Table α) :
    (t.insert name value).get? k = if k = name then some value else t.get? k :=
  lookup_insertEntry t.entries

theorem get?_map {β : Type} (f : α → β) (t : Table α) : (t.map f).get? k = (t.get? k).map f := by
  change (t.entries.map _).lookup k = (t.entries.lookup k).map f
  induction t.entries with
  | nil => rfl
  | cons entry rest ih =>
    rw [List.map_cons, lookup_cons, lookup_cons, ih]
    split <;> rfl

/-- Of several entries with one name the last one counts. -/
theorem get?_ofList (entries : List (String × α)) :
    (ofList entries).get? k = (entries.filter (·.1 = k)).getLast?.map (·.2) := by
  induction entries using List.reverseRecOn with
  | nil => rfl
  | append_singleton entries e ih =>
    have hconcat : ofList (entries ++ [e]) = (ofList entries).insert e.1 e.2 := by
      rw [ofList, List.foldl_append, ofList]
      rfl
    rw [hconcat, get?_insert, ih, List.filter_append]
    by_cases h : e.1 = k
    · simp [h]
    · simp [h, Ne.symm h]

/-- The names are those that values stand under. -/
theorem mem_names_iff {t : Table α} : k ∈ t.names ↔ (t.get? k).isSome := by
  rw [names, get?]
  induction t.entries with
  | nil => simp
  | cons entry rest ih =>
    rw [lookup_cons, List.map_cons, List.mem_cons, ih]
    split <;> simp [*]

theorem pairwise_names (t : Table α) : t.names.Pairwise (· < ·) := List.pairwise_map.2 t.ascending

end QuantityQuery.Table
