import QuantityQuery.Proofs.Json.Number
import QuantityQuery.Proofs.Json.Record
import QuantityQuery.Query.Json

/-!
# Conditions read back

A bound that is read is in range (`Bound.inRange_of_ofJson`), and in range it is read as it was
written, if its number is. The boost of a condition is not in range: a number that is finite as a
double can be infinite as a single, and then no number is written. So the conditions are read back
whose boost is finite (`Bounds.ofJson_toJson_iff`, `RangeQuery.ofJson_toJson_iff`,
`TermQuery.ofJson_toJson_iff`).

The members of a range are kept until its field is read (`RangeQuery.readMembers_eq_ok_iff`), and
what a bound is read from can be kept (`Bound.isKeepable_of_ofJson`).
-/

namespace QuantityQuery

namespace Bound

variable {b : Bound}

/-- A whole bound has 64 bits with a sign, and another number is finite. -/
def InRange : Bound → Prop
  | whole i => minWhole ≤ i ∧ i ≤ maxWhole
  | real x => x.isFinite
  | text _ => True

/-- The number of a bound that is no whole one. -/
def double? : Bound → Option Double
  | real x => some x
  | _ => none

theorem inRange_ofJsonNumber {n : JsonNumber} (h : n.InRange) : (ofJsonNumber n).InRange := by
  cases n with
  | natural n =>
    rw [ofJsonNumber]
    split
    case isTrue hle => exact ⟨by rw [minWhole]; omega, hle⟩
    case isFalse => exact JsonNumber.isFinite_ofInt h
  | negative i => exact ⟨h.1, by rw [maxWhole]; have := h.2; omega⟩
  | real x => exact h

theorem ofJson_of_readNumber {json : Json} {n : JsonNumber} (h : json.readNumber = .ok n) :
    ofJson json = .ok (ofJsonNumber n) := by
  obtain ⟨literal, rfl, -⟩ := Json.readNumber_eq_ok_iff.1 h
  exact map_eq_ok.2 ⟨n, h, rfl⟩

/-- A bound is read from a text or from a number. -/
theorem cases_of_ofJson {json : Json} (h : ofJson json = .ok b) :
    (∃ s, json = .string (some s)) ∨ ∃ n, json.readNumber = .ok n ∧ ofJsonNumber n = b := by
  cases json with
  | number literal => exact .inr (map_eq_ok.1 h)
  | string s =>
    cases s with
    | none => cases h
    | some s => exact .inl ⟨s, rfl⟩
  | _ => cases h

/-- Bounds that are read are in range. -/
theorem inRange_of_ofJson {json : Json} (h : ofJson json = .ok b) : b.InRange := by
  obtain ⟨s, rfl⟩ | ⟨n, hn, rfl⟩ := cases_of_ofJson h
  · obtain rfl := Except.ok.inj h
    trivial
  · exact inRange_ofJsonNumber (Json.inRange_of_readNumber hn)

/-- What a bound is read from can be kept for later. -/
theorem isKeepable_of_ofJson {json : Json} (h : ofJson json = .ok b) (depth : Nat) :
    json.isKeepable depth := by
  obtain ⟨s, rfl⟩ | ⟨n, hn, -⟩ := cases_of_ofJson h
  · rfl
  · exact Json.isKeepable_of_readNumber hn depth

theorem isProper_toJson (b : Bound) : b.toJson.IsProper := by
  cases b with
  | whole i => exact Json.isProper_ofInt i
  | real x => exact Json.isProper_ofDouble x
  | text s => exact .string s

theorem toJson_ne_null (h : b.InRange) : b.toJson ≠ .null := by
  cases b with
  | whole => exact fun h => nomatch h
  | real => exact Json.ofBinary_ne_null h
  | text => exact fun h => nomatch h

/-- A bound is read as it was written, if its number is. -/
theorem ofJson_toJson (h : b.InRange)
    (hdouble : ∀ x ∈ b.double?, Json.Survives JsonNumber.doubleLayout x) :
    ofJson b.toJson = .ok b := by
  cases b with
  | whole i =>
    obtain ⟨hmin, hmax⟩ : minWhole ≤ i ∧ i ≤ maxWhole := h
    rcases Int.lt_or_le i 0 with hneg | hnonneg
    · exact ofJson_of_readNumber (Json.readNumber_ofInt_of_neg hneg hmin)
    · obtain ⟨n, rfl⟩ := Int.eq_ofNat_of_zero_le hnonneg
      have hread := Json.readNumber_ofNat (n := n) (by
        rw [maxWhole] at hmax
        rw [JsonNumber.maxNatural]
        omega)
      rw [toJson, ofJson_of_readNumber hread, ofJsonNumber, if_pos hmax]
  | real x => exact ofJson_of_readNumber (Json.readNumber_ofDouble (hdouble x rfl h))
  | text s => rfl

theorem recovered (h : b.InRange)
    (hdouble : ∀ x ∈ b.double?, Json.Survives JsonNumber.doubleLayout x) :
    Json.Recovered ofJson toJson b :=
  ⟨toJson_ne_null h, ofJson_toJson h hdouble⟩

end Bound

namespace Bounds

variable {b : Bounds} {found : Json.Members}

/-- The bounds that there are. -/
def limits (b : Bounds) : List Bound :=
  b.gte.toList ++ b.gt.toList ++ b.lte.toList ++ b.lt.toList

theorem forall_mem_limits {p : Bound → Prop} :
    (∀ e ∈ b.limits, p e) ↔
      (∀ e ∈ b.gte, p e) ∧ (∀ e ∈ b.gt, p e) ∧ (∀ e ∈ b.lte, p e) ∧ ∀ e ∈ b.lt, p e := by
  simp only [limits, List.forall_mem_append, Option.mem_toList, Option.mem_def, and_assoc]

/-- The members of the bounds `b` are under their names. -/
structure WrittenIn (b : Bounds) (found : Json.Members) : Prop where
  gte : found.lookup "gte" = b.gte.map Bound.toJson
  gt : found.lookup "gt" = b.gt.map Bound.toJson
  lte : found.lookup "lte" = b.lte.map Bound.toJson
  lt : found.lookup "lt" = b.lt.map Bound.toJson
  boost : found.lookup "boost" = some (.ofSingle b.boost)

theorem writtenIn_of_lookup
    (h : ∀ name, name ≠ "field" → found.lookup name = b.toMembers.lookup name) :
    b.WrittenIn found where
  gte := by rw [h _ (by decide)]; simp [toMembers, List.lookup_append, Table.lookup_cons]
  gt := by rw [h _ (by decide)]; simp [toMembers, List.lookup_append, Table.lookup_cons]
  lte := by rw [h _ (by decide)]; simp [toMembers, List.lookup_append, Table.lookup_cons]
  lt := by rw [h _ (by decide)]; simp [toMembers, List.lookup_append, Table.lookup_cons]
  boost := by rw [h _ (by decide)]; simp [toMembers, List.lookup_append]

/-- Bounds have some of their members, in their order. -/
theorem map_fst_toMembers (b : Bounds) :
    (b.toMembers.map Prod.fst).Sublist (members.map (·.name)) := by
  simp only [toMembers, List.map_append]
  exact (((Json.map_fst_optionMember.append Json.map_fst_optionMember).append
    Json.map_fst_optionMember).append Json.map_fst_optionMember).append (List.Sublist.refl _)

theorem isProper_of_mem_toMembers : ∀ member ∈ b.toMembers, member.2.IsProper := by
  simp only [toMembers, List.forall_mem_append, List.forall_mem_singleton]
  exact ⟨⟨⟨⟨Json.isProper_optionMember Bound.isProper_toJson,
    Json.isProper_optionMember Bound.isProper_toJson⟩,
    Json.isProper_optionMember Bound.isProper_toJson⟩,
    Json.isProper_optionMember Bound.isProper_toJson⟩, Json.isProper_ofSingle _⟩

theorem isProper_toJson (b : Bounds) : b.toJson.IsProper := .object isProper_of_mem_toMembers

/-- Bounds that are read are in range. -/
theorem inRange_of_ofMembers (h : ofMembers found = .ok b) : ∀ e ∈ b.limits, e.InRange := by
  have hread : ∀ {name : String} {value : Option Bound},
      found.optional name Bound.ofJson = .ok value → ∀ e ∈ value, e.InRange := by
    intro name value hvalue e he
    obtain ⟨json, hjson⟩ := Json.Members.exists_of_optional hvalue e he
    exact Bound.inRange_of_ofJson hjson
  rw [ofMembers] at h
  obtain ⟨gte, hgte, h⟩ := bind_eq_ok.1 h
  obtain ⟨gt, hgt, h⟩ := bind_eq_ok.1 h
  obtain ⟨lte, hlte, h⟩ := bind_eq_ok.1 h
  obtain ⟨lt, hlt, h⟩ := bind_eq_ok.1 h
  obtain ⟨boost, -, h⟩ := bind_eq_ok.1 h
  obtain rfl := Except.ok.inj h
  exact forall_mem_limits.2 ⟨hread hgte, hread hgt, hread hlte, hread hlt⟩

theorem inRange_of_ofJson {json : Json} (h : ofJson json = .ok b) :
    ∀ e ∈ b.limits, e.InRange := by
  obtain ⟨found, -, h⟩ := bind_eq_ok.1 h
  exact inRange_of_ofMembers h

/-- Bounds that are read back one by one are read from their members, if the boost is finite. -/
theorem ofMembers_iff (hfound : b.WrittenIn found)
    (hlimits : ∀ e ∈ b.limits, Json.Recovered Bound.ofJson Bound.toJson e)
    (hboost : Json.Survives JsonNumber.singleLayout b.boost) :
    ofMembers found = .ok b ↔ b.boost.isFinite := by
  obtain ⟨hgte, hgt, hlte, hlt⟩ := forall_mem_limits.1 hlimits
  rw [ofMembers, Json.Members.optional_of_lookup hfound.gte hgte,
    Json.Members.optional_of_lookup hfound.gt hgt,
    Json.Members.optional_of_lookup hfound.lte hlte,
    Json.Members.optional_of_lookup hfound.lt hlt,
    Json.Members.withDefault_of_lookup hfound.boost]
  exact hboost.bind_iff (f := fun boost => .ok { b with boost }) rfl

/-- The bounds that can be read back are those with a finite boost. -/
theorem ofJson_toJson_iff (hlimits : ∀ e ∈ b.limits, Json.Recovered Bound.ofJson Bound.toJson e)
    (hboost : Json.Survives JsonNumber.singleLayout b.boost) :
    ofJson b.toJson = .ok b ↔ b.boost.isFinite := by
  refine Json.readRecord_bind_iff (by decide) b.map_fst_toMembers (fun h => ?_) fun found hfound =>
    ofMembers_iff (writtenIn_of_lookup fun name _ => hfound name) hlimits hboost
  obtain ⟨hgte, hgt, hlte, hlt⟩ := forall_mem_limits.1 hlimits
  have hwritten : b.WrittenIn b.toMembers := writtenIn_of_lookup fun _ _ => rfl
  have hread : ∀ json ∈ some (Json.ofSingle b.boost), ∃ x : Single, json.readBinary = .ok x := by
    rintro json ⟨⟩
    exact ⟨_, hboost h⟩
  simp only [Json.Checked, members, List.forall_mem_cons, List.not_mem_nil, false_imp_iff,
    imp_true_iff, and_true, Json.Member.name_value, Json.Member.name_omissibleValue,
    Json.Member.check_value, Json.Member.check_omissibleValue, hwritten.gte, hwritten.gt,
    hwritten.lte, hwritten.lt, hwritten.boost]
  exact ⟨Json.exists_readOption hgte, Json.exists_readOption hgt, Json.exists_readOption hlte,
    Json.exists_readOption hlt, hread⟩

end Bounds

namespace RangeQuery

variable {q : RangeQuery} {members : List (String × Json)} {found found' : Json.Members}

/-- A member of a range: the field is a text, and another member can be kept. -/
def Admits (key : String) (value : Json) : Prop :=
  if key = "field" then ∃ text, value.readText = .ok text else value.isKeepable 1

theorem readMembers_cons {key : String} {value : Json} {rest : List (Option String × Json)}
    (hfree : found.lookup key = none) :
    readMembers found ((some key, value) :: rest) = .ok found' ↔
      Admits key value ∧ readMembers ((key, value) :: found) rest = .ok found' := by
  rw [readMembers, Admits]
  simp only [hfree, Option.isSome_none, Bool.false_and, Bool.false_eq_true, if_false]
  split
  case isTrue =>
    have hread : (discard value.readText : Except Refusal PUnit) = .ok ⟨⟩ ↔
        ∃ text, value.readText = .ok text := by
      cases value.readText <;> simp [discard, Functor.discard, Functor.mapConst, Except.map]
    rw [bind_eq_ok, ← hread]
    exact ⟨fun ⟨_, h⟩ => h, fun h => ⟨_, h⟩⟩
  case isFalse =>
    have hkeep : value.keep = .ok () ↔ value.isKeepable 1 := by
      by_cases hvalue : value.isKeepable 1 <;> simp [Json.keep, hvalue]
    rw [bind_eq_ok, ← hkeep]
    exact ⟨fun ⟨_, h⟩ => h, fun h => ⟨_, h⟩⟩

/-- The members of a range are passed over one after the other. -/
theorem readMembers_eq_ok_iff (hkeys : (members.map Prod.fst).Nodup)
    (hfree : ∀ member ∈ members, found.lookup member.1 = none) :
    readMembers found (members.map fun (key, value) => (some key, value)) = .ok found' ↔
      (∀ member ∈ members, Admits member.1 member.2) ∧ found' = members.reverse ++ found := by
  induction members generalizing found with
  | nil =>
    rw [List.map_nil, readMembers]
    simp [eq_comm]
  | cons member members ih =>
    obtain ⟨key, value⟩ := member
    obtain ⟨hkey, hkeys⟩ := List.nodup_cons.1 hkeys
    obtain ⟨hfree, hfrees⟩ := List.forall_mem_cons.1 hfree
    have hnext := Json.lookup_cons_eq_none value hkey hfrees
    rw [List.map_cons, readMembers_cons hfree, ih hkeys hnext, List.forall_mem_cons, and_assoc,
      List.reverse_cons, List.append_assoc, List.singleton_append]

theorem admits_of_ne {key : String} {value : Json} (hkey : key ≠ "field")
    (h : value.isKeepable 1) : Admits key value := by
  rw [Admits, if_neg hkey]
  exact h

theorem admits_optionMember {key : String} {value : Option Bound} (hkey : key ≠ "field")
    (h : ∀ e ∈ value, Json.Recovered Bound.ofJson Bound.toJson e) :
    ∀ member ∈ Json.optionMember key Bound.toJson value, Admits member.1 member.2 := by
  intro member hmember
  obtain ⟨e, he, rfl⟩ := List.mem_map.1 hmember
  exact admits_of_ne hkey (Bound.isKeepable_of_ofJson (h e (Option.mem_toList.1 he)).2 1)

/-- Bounds that can be read back are kept for later. -/
theorem admits_toMembers {b : Bounds}
    (hlimits : ∀ e ∈ b.limits, Json.Recovered Bound.ofJson Bound.toJson e)
    (hboost : (Json.ofSingle b.boost).readBinary = .ok b.boost) :
    ∀ member ∈ b.toMembers, Admits member.1 member.2 := by
  obtain ⟨hgte, hgt, hlte, hlt⟩ := Bounds.forall_mem_limits.1 hlimits
  obtain ⟨n, hnumber, -⟩ := Json.exists_of_readBinary hboost
  simp only [Bounds.toMembers, List.forall_mem_append, List.forall_mem_singleton]
  exact ⟨⟨⟨⟨admits_optionMember (by decide) hgte, admits_optionMember (by decide) hgt⟩,
    admits_optionMember (by decide) hlte⟩, admits_optionMember (by decide) hlt⟩,
    admits_of_ne (by decide) (Json.isKeepable_of_readNumber hnumber 1)⟩

theorem inRange_of_ofJson {json : Json} (h : ofJson json = .ok q) :
    ∀ e ∈ q.bounds.limits, e.InRange := by
  cases json with
  | object members =>
    obtain ⟨found, -, h⟩ := bind_eq_ok.1 h
    obtain ⟨field, -, h⟩ := bind_eq_ok.1 h
    obtain ⟨bounds, hbounds, h⟩ := bind_eq_ok.1 h
    obtain rfl := Except.ok.inj h
    exact Bounds.inRange_of_ofMembers hbounds
  | _ => cases h

theorem isProper_toJson (q : RangeQuery) : q.toJson.IsProper :=
  .object (List.forall_mem_cons.2 ⟨.string _, Bounds.isProper_of_mem_toMembers⟩)

/-- The range conditions that can be read back are those with a finite boost. -/
theorem ofJson_toJson_iff
    (hlimits : ∀ e ∈ q.bounds.limits, Json.Recovered Bound.ofJson Bound.toJson e)
    (hboost : Json.Survives JsonNumber.singleLayout q.bounds.boost) :
    ofJson q.toJson = .ok q ↔ q.bounds.boost.isFinite := by
  let written := ("field", Json.ofString q.field) :: q.bounds.toMembers
  have hkeys : (written.map Prod.fst).Nodup :=
    (q.bounds.map_fst_toMembers.cons_cons "field").nodup (by decide)
  have hwritten : q.bounds.WrittenIn written.reverse :=
    Bounds.writtenIn_of_lookup fun name hne => by
      rw [Json.lookup_reverse hkeys, Table.lookup_cons, if_neg hne]
  have hfield : written.reverse.lookup "field" = some (.ofString q.field) := by
    rw [Json.lookup_reverse hkeys, Table.lookup_cons, if_pos rfl]
  have hbounds := Bounds.ofMembers_iff hwritten hlimits hboost
  -- What is read of the members depends on their bounds alone.
  have hread : ofJson q.toJson = .ok q ↔
      (∀ member ∈ written, Admits member.1 member.2) ∧
        Bounds.ofMembers written.reverse = .ok q.bounds := by
    rw [toJson, Json.ofMembers, ofJson, bind_eq_ok]
    constructor
    · rintro ⟨found, hfound, h⟩
      obtain ⟨hadmits, rfl⟩ := (readMembers_eq_ok_iff hkeys fun _ _ => rfl).1 hfound
      rw [List.append_nil, Json.Members.required_of_lookup hfield] at h
      obtain ⟨_, -, h⟩ := bind_eq_ok.1 h
      obtain ⟨bounds, hbounds, heq⟩ := bind_eq_ok.1 h
      obtain rfl : bounds = q.bounds := congrArg RangeQuery.bounds (Except.ok.inj heq)
      exact ⟨hadmits, hbounds⟩
    · rintro ⟨hadmits, h⟩
      refine ⟨_, (readMembers_eq_ok_iff hkeys fun _ _ => rfl).2 ⟨hadmits, rfl⟩, ?_⟩
      rw [List.append_nil, Json.Members.required_of_lookup hfield, h]
      rfl
  rw [hread, hbounds]
  refine and_iff_right_of_imp fun h => List.forall_mem_cons.2
    ⟨⟨q.field, rfl⟩, admits_toMembers hlimits (hboost h)⟩

end RangeQuery

namespace TermQuery

variable {q : TermQuery}

theorem isProper_toJson (q : TermQuery) : q.toJson.IsProper := by
  refine .object (List.forall_mem_cons.2 ⟨.string _, List.forall_mem_cons.2 ⟨.string _, ?_⟩⟩)
  exact List.forall_mem_singleton.2 (Json.isProper_ofSingle _)

/-- The term conditions that can be read back are those with a finite boost. -/
theorem ofJson_toJson_iff (hboost : Json.Survives JsonNumber.singleLayout q.boost) :
    ofJson q.toJson = .ok q ↔ q.boost.isFinite := by
  rw [ofJson, toJson]
  refine Json.readRecord_bind_iff (by decide) (List.Sublist.refl _) (fun h => ?_)
    fun found hfound => ?_
  · have hread : ∃ x : Single, (Json.ofSingle q.boost).readBinary = .ok x := ⟨_, hboost h⟩
    simpa [Json.Checked, Table.lookup_cons] using hread
  · have hfield : found.lookup "field" = some (.ofString q.field) := by
      simp [hfound]
    have hterm : found.lookup "term" = some (.ofString q.term) := by
      simp [hfound, Table.lookup_cons]
    have hmember : found.lookup "boost" = some (.ofSingle q.boost) := by
      simp [hfound, Table.lookup_cons]
    rw [Json.Members.required_of_lookup hfield, Json.Members.required_of_lookup hterm,
      Json.Members.withDefault_of_lookup hmember]
    exact hboost.bind_iff (f := fun boost => .ok { q with boost }) rfl

end TermQuery

end QuantityQuery
