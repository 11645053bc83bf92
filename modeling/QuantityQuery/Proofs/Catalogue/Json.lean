import QuantityQuery.Catalogue.Json
import QuantityQuery.Proofs.Json.Number
import QuantityQuery.Proofs.Json.Record
import QuantityQuery.Proofs.Text.Character

/-!
# Catalogues read back

Boosts, gaps, units and fields are read as they were written. Boosts are written as texts, so
only the gaps are numbers; they are finite, and it is enough that the number written of each gap is
read as this gap.
-/

namespace QuantityQuery

/-- A text without blanks stays as it is. -/
theorem trim_eq_self {text : List Char} (h : ∀ c ∈ text, isBlank c = false) : trim text = text := by
  have hstops : ∀ {l : List Char}, (∀ c ∈ l, isBlank c = false) → Stops isBlank l :=
    fun hl c hc => hl c (List.mem_of_mem_head? hc)
  rw [trim, (hstops h).dropWhile_eq_self,
    (hstops fun c hc => h c (List.mem_reverse.1 hc)).dropWhile_eq_self, List.reverse_reverse]

namespace Boost

/-- The text of a boost has no blanks. -/
theorem isBlank_of_mem_text (b : Boost) : ∀ c ∈ b.text.toList, isBlank c = false := by
  intro c hc
  have hdecimal := b.isBoost.1
  simp only [isPlainDecimal, Bool.and_eq_true] at hdecimal
  have hall := List.all_eq_true.1 hdecimal.1.1.1.2 c hc
  rcases Bool.or_eq_true_iff.1 hall with hdigit | hpoint
  · exact isBlank_of_isDigit hdigit
  · rw [of_decide_eq_true hpoint]
    rfl

theorem ofJson_toJson (b : Boost) : ofJson b.toJson = .ok b := by
  have htext : String.ofList (trim b.text.toList) = b.text := by
    rw [trim_eq_self b.isBlank_of_mem_text, String.ofList_toList]
  have hdecimal : isPlainDecimal b.text.toList = true := b.isBoost.1
  rw [toJson, Json.ofString, ofJson, ofText]
  simp only [htext, hdecimal, b.isBoost]
  rfl

theorem toJson_ne_null (b : Boost) : b.toJson ≠ .null := fun h => nomatch h

theorem isProper_toJson (b : Boost) : b.toJson.IsProper := .string _

end Boost

namespace Gap

variable {g : Gap}

theorem toJson_ne_null (g : Gap) : g.toJson ≠ .null := Json.ofBinary_ne_null g.isGap.1

theorem isProper_toJson (g : Gap) : g.toJson.IsProper := Json.isProper_ofDouble _

/-- A gap is read as it was written, if the number is. -/
theorem ofJson_toJson (h : Json.Survives JsonNumber.doubleLayout g.value) :
    ofJson g.toJson = .ok g := by
  have hread : g.toJson.readBinary = .ok g.value := h g.isGap.1
  rw [ofJson, hread]
  change (ofValue g.value).mapError some = .ok g
  rw [ofValue, dif_pos g.isGap]
  rfl

end Gap

namespace MeasureUnit

variable {u : MeasureUnit}

theorem isProper_toJson (u : MeasureUnit) : u.toJson.IsProper := by
  refine .object (List.forall_mem_append.2 ⟨List.forall_mem_append.2 ⟨?_, ?_⟩, ?_⟩)
  · exact List.forall_mem_cons.2 ⟨.string _, List.forall_mem_singleton.2
      (.array (List.forall_mem_map.2 fun _ _ => .string _))⟩
  · exact Json.isProper_optionMember Boost.isProper_toJson
  · exact Json.isProper_optionMember Gap.isProper_toJson

/-- A unit is read as it was written, if the number of its gap is. -/
theorem ofJson_toJson (h : ∀ g ∈ u.gap, Json.Survives JsonNumber.doubleLayout g.value) :
    ofJson u.toJson = .ok u := by
  have hboost : ∀ b ∈ u.boost, Json.Recovered Boost.ofJson Boost.toJson b :=
    fun b _ => ⟨b.toJson_ne_null, b.ofJson_toJson⟩
  have hgap : ∀ g ∈ u.gap, Json.Recovered Gap.ofJson Gap.toJson g :=
    fun g hg => ⟨g.toJson_ne_null, Gap.ofJson_toJson (h g hg)⟩
  have hvariants : Json.readList Json.readText (.array (u.variants.map .ofString)) =
      .ok u.variants :=
    Json.readList_map fun _ _ => rfl
  rw [ofJson, toJson]
  refine Json.readRecord_bind_eq_ok (by simp) ?_ ?_ fun found hfound => ?_
  · rw [List.map_append, List.map_append]
    exact ((List.Sublist.refl _).append Json.map_fst_optionMember).append
      Json.map_fst_optionMember
  · have hchecks := And.intro (Json.exists_readOption hboost) (Json.exists_readOption hgap)
    simpa [Json.Checked, List.lookup_append, Table.lookup_cons, hvariants] using hchecks
  · have hname : found.lookup "name" = some (.ofString u.name) := by
      simp [hfound]
    have hmember : found.lookup "variants" = some (.array (u.variants.map .ofString)) := by
      simp [hfound, Table.lookup_cons]
    have hboostMember : found.lookup "boost" = u.boost.map Boost.toJson := by
      simp [hfound, List.lookup_append, Table.lookup_cons]
    have hgapMember : found.lookup "gap" = u.gap.map Gap.toJson := by
      simp [hfound, List.lookup_append, Table.lookup_cons]
    rw [Json.Members.required_of_lookup hname, Json.Members.required_of_lookup hmember,
      Json.Members.optional_of_lookup hboostMember hboost,
      Json.Members.optional_of_lookup hgapMember hgap, hvariants]
    rfl

end MeasureUnit

namespace Field

variable {f : Field}

theorem isProper_toJson (f : Field) : f.toJson.IsProper := by
  refine .object (List.forall_mem_append.2 ⟨List.forall_mem_append.2 ⟨?_, ?_⟩, ?_⟩)
  · exact List.forall_mem_singleton.2 (.string _)
  · exact Json.isProper_optionMember Gap.isProper_toJson
  · exact List.forall_mem_singleton.2
      (.array (List.forall_mem_map.2 fun u _ => u.isProper_toJson))

/-- A field is read as it was written, if the numbers of its gap and its units' gaps are. -/
theorem ofJson_toJson (h : ∀ g ∈ f.gap, Json.Survives JsonNumber.doubleLayout g.value)
    (hunits : ∀ u ∈ f.units, ∀ g ∈ u.gap, Json.Survives JsonNumber.doubleLayout g.value) :
    ofJson f.toJson = .ok f := by
  have hgap : ∀ g ∈ f.gap, Json.Recovered Gap.ofJson Gap.toJson g :=
    fun g hg => ⟨g.toJson_ne_null, Gap.ofJson_toJson (h g hg)⟩
  have hread : Json.readList MeasureUnit.ofJson (.array (f.units.map MeasureUnit.toJson)) =
      .ok f.units :=
    Json.readList_map fun u hu => MeasureUnit.ofJson_toJson (hunits u hu)
  rw [ofJson, toJson]
  refine Json.readRecord_bind_eq_ok (by simp) ?_ ?_ fun found hfound => ?_
  · rw [List.map_append, List.map_append]
    exact ((List.Sublist.refl _).append Json.map_fst_optionMember).append (List.Sublist.refl _)
  · have hchecks := Json.exists_readOption hgap
    simpa [Json.Checked, List.lookup_append, Table.lookup_cons, hread] using hchecks
  · have hname : found.lookup "name" = some (.ofString f.name) := by
      simp [hfound]
    have hgapMember : found.lookup "gap" = f.gap.map Gap.toJson := by
      simp [hfound, List.lookup_append, Table.lookup_cons]
    have hmember : found.lookup "units" = some (.array (f.units.map MeasureUnit.toJson)) := by
      simp [hfound, List.lookup_append, Table.lookup_cons]
    rw [Json.Members.required_of_lookup hname, Json.Members.optional_of_lookup hgapMember hgap,
      Json.Members.required_of_lookup hmember, hread]
    rfl

end Field

end QuantityQuery
