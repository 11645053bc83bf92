import QuantityQuery.Detection.Occurrence
import QuantityQuery.Proofs.Catalogue.Basic

/-!
# What is found in texts

Every quantity of a scan was read at some place of the text
(`Catalogue.exists_readQuantity`), so it is an amount of a unit of the catalogue, meant
for the field of that unit (`Catalogue.mem_scan`).
-/

namespace QuantityQuery

theorem readNat?_le {high n : Nat} {digits : List Char} (h : readNat? high digits = some n) :
    n ≤ high := by
  obtain ⟨m, _, hm⟩ := Option.bind_eq_some_iff.1 h
  split at hm
  · next hle => exact Option.some.inj hm ▸ hle
  · cases hm

/-- The amount of a literal is not too large. -/
theorem Literal.amount_le {text : List Char} {n : Nat} (h : (read text).amount = some n) :
    n ≤ maxAmount := by
  rw [read] at h
  rcases spanDigits text with ⟨digits, rest⟩
  dsimp only at h
  split at h
  · split at h
    · cases h
    · exact readNat?_le h
  · exact readNat?_le h

namespace Catalogue

variable {c : Catalogue} {before : Before} {text : List Char} {o : Occurrence}

theorem exists_readQuantity (h : o ∈ c.scanFrom before text) :
    ∃ before' text', (c.readQuantity before' text').1 = some o := by
  fun_induction scanFrom c before text with
  | case1 => cases h
  | case2 before ch rest hstart found size hread ih =>
    rcases List.mem_append.1 h with h | h
    · exact ⟨before, ch :: rest, by rw [hread]; simpa using h⟩
    · exact ih h
  | case3 before ch rest hstart ih => exact ih h

/-- A quantity that is read has an amount in range and a unit of the catalogue. -/
theorem readQuantity_eq_some (h : (c.readQuantity before text).1 = some o) :
    o.amount ≤ maxAmount ∧ ∃ s ∈ c.spellings, o.field = s.field.name ∧ o.unit = s.unit := by
  unfold readQuantity at h
  dsimp only at h
  split at h
  · cases h
  · next amount hamount =>
    split at h
    · cases h
    · split at h
      · cases h
      · next s skipped hunit =>
        cases h
        obtain ⟨s', hs', heq⟩ := Option.map_eq_some_iff.1 hunit
        cases heq
        exact ⟨Literal.amount_le hamount, s, List.mem_of_find?_eq_some hs', rfl, rfl⟩

/-- What a scan finds is an amount of a unit of the catalogue, for the field of the unit. -/
theorem mem_scan {query : String} (h : o ∈ c.scan query) :
    o.amount ≤ maxAmount ∧ ∃ f ∈ c.fields, o.field = f.name ∧ o.unit ∈ f.units := by
  obtain ⟨before, text, hread⟩ := exists_readQuantity h
  obtain ⟨hamount, s, hs, hfield, hunit⟩ := readQuantity_eq_some hread
  obtain ⟨f, hf, u, hu, _, _, rfl⟩ := mem_spellings.1 hs
  exact ⟨hamount, f, hf, hfield, hunit ▸ hu⟩

end Catalogue

end QuantityQuery
