/-!
# Tables

A table holds values under names, each name once, in ascending order of the
names.

* `Table.insert`: the value under a name is the last one inserted;
* `Table.names`: the names, strictly increasing.
-/

namespace QuantityQuery

/-- The names of the entries are strictly increasing. -/
def Ascending {α : Type} (entries : List (String × α)) : Prop :=
  entries.Pairwise fun a b => a.1 < b.1

/-- Values under names, in ascending order of the names. -/
structure Table (α : Type) where
  entries : List (String × α)
  ascending : Ascending entries

namespace Table

variable {α : Type}

/-- The table without entries. -/
def empty : Table α := ⟨[], .nil⟩

/-- Puts a value at the place of its name, over the value that stands there. -/
def insertEntry (name : String) (value : α) : List (String × α) → List (String × α)
  | [] => [(name, value)]
  | entry :: rest =>
    if name < entry.1 then (name, value) :: entry :: rest
    else if entry.1 < name then entry :: insertEntry name value rest
    else (name, value) :: rest

theorem mem_insertEntry {name : String} {value : α} {e : String × α} :
    ∀ {entries : List (String × α)}, e ∈ insertEntry name value entries →
      e = (name, value) ∨ e ∈ entries
  | [], h => .inl (List.mem_singleton.1 h)
  | entry :: rest, h => by
    unfold insertEntry at h
    split at h
    · exact List.mem_cons.1 h
    · split at h
      · rcases List.mem_cons.1 h with rfl | h
        · exact .inr List.mem_cons_self
        · exact (mem_insertEntry h).imp_right (List.mem_cons_of_mem _)
      · exact (List.mem_cons.1 h).imp_right (List.mem_cons_of_mem _)

theorem ascending_insertEntry (name : String) (value : α) :
    ∀ {entries : List (String × α)}, Ascending entries → Ascending (insertEntry name value entries)
  | [], _ => List.pairwise_singleton _ _
  | entry :: rest, h => by
    obtain ⟨hrest, h⟩ := List.pairwise_cons.1 h
    unfold insertEntry
    split
    case isTrue hlt =>
      refine List.pairwise_cons.2 ⟨fun e he => ?_, List.pairwise_cons.2 ⟨hrest, h⟩⟩
      rcases List.mem_cons.1 he with rfl | he
      · exact hlt
      · exact String.lt_trans hlt (hrest e he)
    case isFalse hge =>
      split
      case isTrue hgt =>
        refine List.pairwise_cons.2 ⟨fun e he => ?_, ascending_insertEntry name value h⟩
        rcases mem_insertEntry he with rfl | he
        · exact hgt
        · exact hrest e he
      case isFalse hle =>
        have heq : entry.1 = name := String.le_antisymm hge hle
        exact List.pairwise_cons.2 ⟨fun e he => heq ▸ hrest e he, h⟩

/-- The table with `value` under `name`. -/
def insert (t : Table α) (name : String) (value : α) : Table α :=
  ⟨insertEntry name value t.entries, ascending_insertEntry name value t.ascending⟩

/-- The table of a list of entries; of entries with one name the last one counts. -/
def ofList (entries : List (String × α)) : Table α :=
  entries.foldl (fun t e => t.insert e.1 e.2) empty

/-- The table with every value changed by a function. -/
def map {β : Type} (f : α → β) (t : Table α) : Table β :=
  ⟨t.entries.map fun e => (e.1, f e.2), by
    rw [Ascending, List.pairwise_map]
    exact t.ascending⟩

/-- The value under a name. -/
def get? (t : Table α) (name : String) : Option α := t.entries.lookup name

/-- The names in the table. -/
def names (t : Table α) : List String := t.entries.map (·.1)

instance : Inhabited (Table α) := ⟨empty⟩

end Table

end QuantityQuery
