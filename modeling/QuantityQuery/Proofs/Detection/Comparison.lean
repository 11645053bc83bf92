import Mathlib.Data.List.Forall2
import QuantityQuery.Proofs.Detection.Scan

/-!
# Scans of two catalogues

All that a scan asks of a catalogue is which spelling is taken at a place. Where two
catalogues take spellings with the same letters at every place of a text, their scans stop at
the same places, and what they find there is related as the spellings are
(`Catalogue.TakesAlike.scanFrom`).

* `Catalogue.TakesAlike`: two catalogues take related spellings in a text.
-/

namespace QuantityQuery

namespace Catalogue

variable {R : Spelling → Spelling → Prop} {S : Occurrence → Occurrence → Prop} {c c' : Catalogue}

/-- Wherever a spelling is taken in a text, two catalogues take spellings with the same letters,
    which are related by `R`, and quantities of related spellings are related by `S`. -/
structure TakesAlike (R : Spelling → Spelling → Prop) (S : Occurrence → Occurrence → Prop)
    (c c' : Catalogue) (text : List Char) : Prop where
  spellingAt? : ∀ rest, rest <:+ text → Option.Rel R (c.spellingAt? rest) (c'.spellingAt? rest)
  letters : ∀ s s', R s s' → s.letters = s'.letters
  found : ∀ s s', R s s' → ∀ amount,
    S ⟨s.field.name, amount, s.unit⟩ ⟨s'.field.name, amount, s'.unit⟩

namespace TakesAlike

variable {text rest : List Char}

theorem of_suffix (h : TakesAlike R S c c' text) (hrest : rest <:+ text) :
    TakesAlike R S c c' rest :=
  ⟨fun later hlater => h.spellingAt? later (hlater.trans hrest), h.letters, h.found⟩

theorem unitAfter? (h : TakesAlike R S c c' text) :
    Option.Rel (fun p p' => R p.1 p'.1 ∧ p.2 = p'.2) (c.unitAfter? text) (c'.unitAfter? text) := by
  have hspelling := h.spellingAt? _ (List.dropWhile_suffix isBlank)
  rw [Catalogue.unitAfter?, Catalogue.unitAfter?]
  generalize c.spellingAt? _ = s, c'.spellingAt? _ = s' at hspelling ⊢
  cases hspelling with
  | none => exact .none
  | some hR => exact .some ⟨hR, congrArg (text.takeWhile isBlank ++ ·) (h.letters _ _ hR)⟩

/-- A number is read with related quantities or none, and up to the same place. -/
theorem readQuantity (h : TakesAlike R S c c' text) (before : Before) :
    Option.Rel S (c.readQuantity before text).1 (c'.readQuantity before text).1 ∧
      (c.readQuantity before text).2 = (c'.readQuantity before text).2 := by
  have hunit := (h.of_suffix (text.drop_suffix (Literal.read text).text.length)).unitAfter?
  rw [Catalogue.readQuantity, Catalogue.readQuantity]
  generalize c.unitAfter? _ = u, c'.unitAfter? _ = u' at hunit ⊢
  split
  · exact ⟨.none, rfl⟩
  · split
    · exact ⟨.none, rfl⟩
    · cases hunit with
      | none => exact ⟨.none, rfl⟩
      | @some p p' hp =>
        obtain ⟨s, skipped⟩ := p
        obtain ⟨s', skipped'⟩ := p'
        obtain ⟨hR, rfl⟩ : R s s' ∧ skipped = skipped' := hp
        exact ⟨.some (h.found _ _ hR _), rfl⟩

/-- Two scans find related quantities, place by place. -/
theorem scanFrom (h : TakesAlike R S c c' text) (before : Before) :
    List.Forall₂ S (c.scanFrom before text) (c'.scanFrom before text) := by
  fun_induction Catalogue.scanFrom c before text with
  | case1 before =>
    rw [Catalogue.scanFrom]
    exact .nil
  | case2 before ch rest hstart found size hread ih =>
    obtain ⟨hfound, hsize⟩ := h.readQuantity before
    have hrest : rest.drop (size - 1) <:+ ch :: rest :=
      (rest.drop_suffix (size - 1)).trans (List.suffix_cons ch rest)
    have hscan := ih (h.of_suffix hrest)
    rw [hread] at hfound hsize
    rw [Catalogue.scanFrom, if_pos hstart]
    generalize c'.readQuantity before (ch :: rest) = read' at hfound hsize ⊢
    obtain ⟨found', size'⟩ := read'
    obtain rfl : size = size' := hsize
    cases hfound with
    | none => exact hscan
    | some hS => exact .cons hS hscan
  | case3 before ch rest hstart ih =>
    rw [Catalogue.scanFrom, if_neg hstart]
    exact ih (h.of_suffix (List.suffix_cons ch rest))

theorem scan {query : String} (h : TakesAlike R S c c' (lowercase query.toList)) :
    List.Forall₂ S (c.scan query) (c'.scan query) := h.scanFrom .start

end TakesAlike

/-- Catalogues that take the same spellings in a text find the same in it. -/
theorem scan_eq_of_spellingAt? {query : String}
    (h : ∀ rest, rest <:+ lowercase query.toList → c.spellingAt? rest = c'.spellingAt? rest) :
    c.scan query = c'.scan query := by
  have halike : TakesAlike Eq Eq c c' (lowercase query.toList) :=
    { spellingAt? := fun rest hrest => by
        rw [h rest hrest]
        cases c'.spellingAt? rest with
        | none => exact .none
        | some s => exact .some rfl
      letters := fun _ _ heq => congrArg Spelling.letters heq
      found := fun _ _ heq _ => by rw [heq] }
  exact List.forall₂_eq_eq_eq ▸ halike.scan

end Catalogue

end QuantityQuery
