import Mathlib.Data.List.Nodup
import QuantityQuery.Json.Record
import QuantityQuery.Proofs.Json.Tree
import QuantityQuery.Proofs.Table

/-!
# Records in JSON

A record is read from an object that has some of its members, in the order of the record:
every member is found again under its name, if each passes its check
(`Json.readRecord_ofMembers`). A member that is left out where there is no value is read as no
value (`Json.lookup_optionMember`).

* `Json.Checked`: the members that a record has pass their checks;
* `Json.Recovered`: a value is read as it was written.
-/

namespace QuantityQuery

namespace Json

variable {α : Type} {record : List Member} {members : List (String × Json)} {found : Members}

/-! ### Checks -/

namespace Member

variable {name : String} {read : Decoder α} {json : Json}

@[simp] theorem name_value : (value name read).name = name := rfl

@[simp] theorem name_omissibleValue : (omissibleValue name read).name = name := rfl

/-- A member passes its check if its value can be read. -/
@[simp] theorem check_value : (value name read).check json = .ok () ↔ ∃ a, read json = .ok a := by
  change (read json).map (fun _ => ()) = .ok () ↔ _
  cases read json <;> simp [Except.map]

@[simp] theorem check_omissibleValue :
    (omissibleValue name read).check json = .ok () ↔ ∃ a, read json = .ok a :=
  @check_value _ name read json

end Member

/-- The members that a record has pass their checks. -/
def Checked (record : List Member) (members : List (String × Json)) : Prop :=
  ∀ m ∈ record, ∀ json ∈ members.lookup m.name, m.check json = .ok ()

/-! ### Members under their names -/

/-- Where names are different, a member is found under its name. -/
theorem lookup_eq_some_iff (hkeys : (members.map Prod.fst).Nodup) {name : String} {json : Json} :
    members.lookup name = some json ↔ (name, json) ∈ members := by
  induction members with
  | nil => simp
  | cons member members ih =>
    obtain ⟨hkey, hkeys⟩ := List.nodup_cons.1 hkeys
    rw [Table.lookup_cons, List.mem_cons]
    by_cases hname : name = member.1
    · have hnot : (name, json) ∉ members := fun h => hkey (hname ▸ List.mem_map_of_mem h)
      rw [if_pos hname, or_iff_left hnot, Option.some.injEq, Prod.ext_iff]
      exact ⟨fun h => ⟨hname, h.symm⟩, fun h => h.2.symm⟩
    · rw [if_neg hname, ih hkeys, or_iff_right fun h => hname (congrArg Prod.fst h)]

theorem lookup_reverse (hkeys : (members.map Prod.fst).Nodup) (name : String) :
    members.reverse.lookup name = members.lookup name := by
  have hreverse : (members.reverse.map Prod.fst).Nodup := by
    rwa [List.map_reverse, List.nodup_reverse]
  ext json
  rw [lookup_eq_some_iff hreverse, lookup_eq_some_iff hkeys, List.mem_reverse]

theorem find?_member (hnames : (record.map (·.name)).Nodup) {m : Member} (hm : m ∈ record) :
    record.find? (·.name = m.name) = some m := by
  obtain ⟨m', hm'⟩ := Option.isSome_iff_exists.1
    (List.find?_isSome (p := (·.name = m.name)).2 ⟨m, hm, decide_eq_true rfl⟩)
  have hname : m'.name = m.name := by simpa using List.find?_some hm'
  rw [hm', List.inj_on_of_nodup_map hnames (List.mem_of_find?_eq_some hm') hm hname]

/-- After a member is found, none of another name is. -/
theorem lookup_cons_eq_none {key : String} (value : Json) (hkey : key ∉ members.map Prod.fst)
    (hfree : ∀ member ∈ members, found.lookup member.1 = none) :
    ∀ member ∈ members, ((key, value) :: found).lookup member.1 = none := by
  intro member hmember
  have hmemkey : member.1 ∈ members.map Prod.fst := List.mem_map_of_mem hmember
  have hne : member.1 ≠ key := fun h => hkey (h ▸ hmemkey)
  rw [Table.lookup_cons, if_neg hne, hfree member hmember]

/-- The members of an object are read one after the other, each with its own check. -/
theorem readObject_eq_ok_iff {found' : Members} (hnames : (record.map (·.name)).Nodup)
    (hsub : members.map Prod.fst ⊆ record.map (·.name)) (hkeys : (members.map Prod.fst).Nodup)
    (hfree : ∀ member ∈ members, found.lookup member.1 = none) :
    readObject record found (members.map fun (key, value) => (some key, value)) = .ok found' ↔
      (∀ member ∈ members, ∀ m ∈ record, m.name = member.1 → m.check member.2 = .ok ()) ∧
        found' = members.reverse ++ found := by
  induction members generalizing found with
  | nil => simp [readObject, eq_comm]
  | cons member members ih =>
    obtain ⟨key, value⟩ := member
    obtain ⟨hkey, hkeys⟩ := List.nodup_cons.1 hkeys
    obtain ⟨hmem, hsub⟩ := List.cons_subset.1 hsub
    obtain ⟨hfree, hfrees⟩ := List.forall_mem_cons.1 hfree
    obtain ⟨m, hm, hname : m.name = key⟩ := List.mem_map.1 hmem
    have hfind : record.find? (·.name = key) = some m := hname ▸ find?_member hnames hm
    have hnext := lookup_cons_eq_none value hkey hfrees
    -- The member with this name is the only one.
    have hcheck : m.check value = .ok () ↔
        ∀ m' ∈ record, m'.name = key → m'.check value = .ok () := by
      refine ⟨fun h m' hm' hname' => ?_, fun h => h m hm hname⟩
      rwa [List.inj_on_of_nodup_map hnames hm' hm (hname'.trans hname.symm)]
    rw [List.map_cons, readObject, hfind, List.forall_mem_cons, ← hcheck, List.reverse_cons,
      List.append_assoc, List.singleton_append]
    simp only [hfree, Option.isSome_none, Bool.false_eq_true, if_false, bind_eq_ok,
      ih hsub hkeys hnext]
    exact ⟨fun ⟨_, h, hchecks, heq⟩ => ⟨⟨h, hchecks⟩, heq⟩,
      fun ⟨⟨h, hchecks⟩, heq⟩ => ⟨(), h, hchecks, heq⟩⟩

/-- A record is read from an object with some of its members, in the order of the record, if they
    pass their checks. They are all found. -/
theorem readRecord_ofMembers (hnames : (record.map (·.name)).Nodup)
    (hsub : (members.map Prod.fst).Sublist (record.map (·.name))) :
    readRecord record (ofMembers members) = .ok found ↔
      Checked record members ∧ found = members.reverse := by
  have hkeys := hsub.nodup hnames
  rw [ofMembers, readRecord, readObject_eq_ok_iff hnames hsub.subset hkeys fun _ _ => rfl,
    List.append_nil]
  refine and_congr_left fun _ =>
    ⟨fun h m hm json hjson => ?_, fun h member hmember m hm hname => ?_⟩
  · exact h _ ((lookup_eq_some_iff hkeys).1 hjson) m hm rfl
  · refine h m hm _ ((lookup_eq_some_iff hkeys).2 ?_)
    rwa [hname]

/-- What is made of the members of a record depends on the members alone that are found under the
    names, if they pass their checks. -/
theorem readRecord_bind_iff {f : Members → Except Refusal α} {a : α} {p : Prop}
    (hnames : (record.map (·.name)).Nodup)
    (hsub : (members.map Prod.fst).Sublist (record.map (·.name)))
    (hchecked : p → Checked record members)
    (hf : ∀ found : Members, (∀ name, found.lookup name = members.lookup name) →
      (f found = .ok a ↔ p)) :
    readRecord record (ofMembers members) >>= f = .ok a ↔ p := by
  have hp := hf _ (lookup_reverse (hsub.nodup hnames))
  rw [bind_eq_ok]
  constructor
  · rintro ⟨found, hfound, h⟩
    obtain ⟨-, rfl⟩ := (readRecord_ofMembers hnames hsub).1 hfound
    exact hp.1 h
  · exact fun h => ⟨_, (readRecord_ofMembers hnames hsub).2 ⟨hchecked h, rfl⟩, hp.2 h⟩

theorem readRecord_bind_eq_ok {f : Members → Except Refusal α} {a : α}
    (hnames : (record.map (·.name)).Nodup)
    (hsub : (members.map Prod.fst).Sublist (record.map (·.name))) (h : Checked record members)
    (hf : ∀ found : Members, (∀ name, found.lookup name = members.lookup name) → f found = .ok a) :
    readRecord record (ofMembers members) >>= f = .ok a :=
  (readRecord_bind_iff hnames hsub (fun _ => h) fun found hfound =>
    iff_of_true (hf found hfound) trivial).2 trivial

/-! ### Members that can be left out -/

@[simp] theorem lookup_optionMember {key name : String} {write : α → Json} {value : Option α} :
    (optionMember key write value).lookup name = if name = key then value.map write else none := by
  cases value with
  | none => simp [optionMember]
  | some a => rw [optionMember, Option.toList_some, List.map_singleton, Table.lookup_cons]; rfl

theorem map_fst_optionMember {key : String} {write : α → Json} {value : Option α} :
    ((optionMember key write value).map Prod.fst).Sublist [key] := by
  cases value with
  | none => exact List.nil_sublist _
  | some a => exact List.Sublist.refl _

theorem isProper_optionMember {key : String} {write : α → Json} {value : Option α}
    (h : ∀ a, (write a).IsProper) :
    ∀ member ∈ optionMember key write value, member.2.IsProper := by
  intro member hmember
  obtain ⟨a, -, rfl⟩ := List.mem_map.1 hmember
  exact h a

/-! ### Values of members -/

@[simp] theorem readText_ofString (text : String) : (ofString text).readText = .ok text := rfl

/-- A value is read as it was written, and it is not written as a null. -/
def Recovered (read : Decoder α) (write : α → Json) (a : α) : Prop :=
  write a ≠ null ∧ read (write a) = .ok a

theorem readOption_of_ne_null {read : Decoder α} {json : Json} (h : json ≠ null) :
    readOption read json = some <$> read json := by
  cases json <;> first | rfl | exact absurd rfl h

theorem Recovered.readOption {read : Decoder α} {write : α → Json} {a : α}
    (h : Recovered read write a) : Json.readOption read (write a) = .ok (some a) := by
  rw [readOption_of_ne_null h.1, h.2]
  rfl

namespace Members

variable {name : String} {read : Decoder α} {json : Json}

theorem required_of_lookup (h : found.lookup name = some json) :
    found.required name read = read json := by
  rw [required, h]

theorem exists_of_required {a : α} (h : found.required name read = .ok a) :
    ∃ json, read json = .ok a := by
  rw [required] at h
  split at h
  case h_1 json _ => exact ⟨json, h⟩
  case h_2 => cases h

theorem withDefault_of_lookup (h : found.lookup name = some json) (other : α) :
    found.withDefault name read other = read json := by
  rw [withDefault, h]

/-- A member that can be left out is read as it was written, also where it was left out. -/
theorem optional_of_lookup {write : α → Json} {value : Option α}
    (h : found.lookup name = value.map write) (hread : ∀ a ∈ value, Recovered read write a) :
    found.optional name read = .ok value := by
  rw [optional, h]
  cases value with
  | none => rfl
  | some a => exact (hread a rfl).readOption

/-- What can be left out is read from some tree, where it is not. -/
theorem exists_of_optional {value : Option α} (h : found.optional name read = .ok value) :
    ∀ a ∈ value, ∃ json, read json = .ok a := by
  rintro a rfl
  rw [optional] at h
  split at h
  case h_1 json _ =>
    by_cases hnull : json = null
    · rw [hnull] at h
      cases h
    · rw [readOption_of_ne_null hnull] at h
      cases hread : read json with
      | error e =>
        rw [hread] at h
        cases h
      | ok b =>
        rw [hread] at h
        cases h
        exact ⟨json, hread⟩
  case h_2 => cases h

end Members

/-- The check of a member that can be left out. -/
theorem exists_readOption {read : Decoder α} {write : α → Json} {value : Option α}
    (hread : ∀ a ∈ value, Recovered read write a) :
    ∀ json ∈ value.map write, ∃ a, readOption read json = .ok a := by
  intro json hjson
  obtain ⟨a, ha, rfl⟩ := Option.map_eq_some_iff.1 hjson
  exact ⟨some a, (hread a ha).readOption⟩

/-- Items are read as they were written. -/
theorem readList_map {read : Decoder α} {write : α → Json} {items : List α}
    (h : ∀ a ∈ items, read (write a) = .ok a) :
    readList read (array (items.map write)) = .ok items := by
  rw [readList]
  induction items with
  | nil => rfl
  | cons a items ih =>
    obtain ⟨ha, hitems⟩ := List.forall_mem_cons.1 h
    rw [List.map_cons, readEach, ha, ih hitems]
    rfl

end Json

end QuantityQuery
