import Mathlib.Data.Multiset.Bind
import QuantityQuery.Proofs.Catalogue.Basic

/-!
# Reordered fields

The same fields declared in another order, with the units of a field and the variants of a
unit in another order, too. Faults are looked for one after the other, and a field takes
the first gap it meets, but what is accepted does not depend on the order
(`Catalogue.Reordered.exists_ofFields`): to be well-formed is said of all fields, units and
variants at once. Catalogues of reordered fields are reordered again
(`Catalogue.Reordered.ofFields`), where a field can have another gap, of the same distance.

* `Catalogue.Reordered`: the same fields in another order.
-/

namespace QuantityQuery

section

variable {α β : Type} {R : α → α → Prop} {l l' : List α}

/-- What related members have in common is in both lists, in some order. -/
theorem perm_map_of_rel (h : Multiset.Rel R l l') {key : α → β}
    (hkey : ∀ a b, R a b → key a = key b) : (l.map key).Perm (l'.map key) := by
  have hmap : Multiset.map key (l : Multiset α) = Multiset.map key (l' : Multiset α) :=
    Multiset.rel_eq.1 (Multiset.rel_map.2 (h.mono fun a _ b _ => hkey a b))
  exact Multiset.coe_eq_coe.1 hmap

theorem exists_mem_of_rel (h : Multiset.Rel R l l') {a : α} (ha : a ∈ l) : ∃ b ∈ l', R a b :=
  Multiset.exists_mem_of_rel_of_mem h ha

theorem rel_map_of_rel (h : Multiset.Rel R l l') {S : β → β → Prop} {f : α → β}
    (hf : ∀ a ∈ l, ∀ b, R a b → S (f a) (f b)) : Multiset.Rel S (l.map f) (l'.map f) := by
  rw [← Multiset.map_coe, ← Multiset.map_coe]
  exact Multiset.rel_map.2 (h.mono fun a ha b _ => hf a ha b)

/-- Related are lists that become so, place by place, after a permutation of one of them. -/
theorem rel_of_perm {m : List α} (hperm : l.Perm m) (h : List.Forall₂ R m l') :
    Multiset.Rel R l l' := by
  rw [Multiset.coe_eq_coe.2 hperm]
  clear hperm
  induction h with
  | nil => exact .zero
  | cons hhead _ ih => exact .cons hhead ih

theorem rel_symm (hsymm : ∀ a b, R a b → R b a) (h : Multiset.Rel R l l') :
    Multiset.Rel R l' l :=
  Multiset.rel_flip.1 (h.mono fun a _ b _ => hsymm a b)

end

/-! ### Units -/

/-- The same unit with its variants in another order. Of its gap only the distance counts. -/
structure MeasureUnit.Reordered (u u' : MeasureUnit) : Prop where
  name : u.name = u'.name
  boost : u.boost = u'.boost
  gap : u.gap.map Gap.distance = u'.gap.map Gap.distance
  variants : u.variants.Perm u'.variants

namespace MeasureUnit.Reordered

variable {u u' : MeasureUnit}

theorem refl (u : MeasureUnit) : u.Reordered u := ⟨rfl, rfl, rfl, .refl _⟩

theorem symm (h : u.Reordered u') : u'.Reordered u :=
  ⟨h.name.symm, h.boost.symm, h.gap.symm, h.variants.symm⟩

theorem wellFormed (h : u.Reordered u') (hu : u.WellFormed) : u'.WellFormed where
  name := h.name ▸ hu.name
  variants_ne_nil := fun hnil => hu.variants_ne_nil (hnil ▸ h.variants).eq_nil
  variants := fun v hv => hu.variants v (h.variants.mem_iff.2 hv)

theorem normalise (h : u.Reordered u') : u.normalise.Reordered u'.normalise :=
  ⟨h.name, h.boost, h.gap, h.variants.map trimmed⟩

end MeasureUnit.Reordered

/-! ### Fields -/

/-- The same field with its units in another order, and reordered themselves. Of its gap only the
    distance counts. -/
structure Field.Reordered (f f' : Field) : Prop where
  name : f.name = f'.name
  gap : f.gap.map Gap.distance = f'.gap.map Gap.distance
  units : Multiset.Rel MeasureUnit.Reordered f.units f'.units

namespace Field.Reordered

variable {f f' : Field}

theorem refl (f : Field) : f.Reordered f :=
  ⟨rfl, rfl, Multiset.rel_refl_of_refl_on fun u _ => .refl u⟩

theorem symm (h : f.Reordered f') : f'.Reordered f :=
  ⟨h.name.symm, h.gap.symm, rel_symm (fun _ _ h => h.symm) h.units⟩

/-- Where one of two values is there, so is the other, with the same distance. -/
theorem exists_gap {gap gap' : Option Gap} (h : gap.map Gap.distance = gap'.map Gap.distance)
    {g : Gap} (hg : g ∈ gap) : ∃ g' ∈ gap', g.distance = g'.distance := by
  rw [Option.mem_def.1 hg] at h
  obtain ⟨g', hg', heq⟩ := Option.map_eq_some_iff.1 h.symm
  exact ⟨g', hg', heq.symm⟩

theorem exists_mem_gaps (h : f.Reordered f') {g : Gap} (hg : g ∈ f.gaps) :
    ∃ g' ∈ f'.gaps, g.distance = g'.distance := by
  rcases List.mem_append.1 hg with hg | hg
  · obtain ⟨g', hg', heq⟩ := exists_gap h.gap (Option.mem_toList.1 hg)
    exact ⟨g', List.mem_append_left _ (Option.mem_toList.2 hg'), heq⟩
  · obtain ⟨u, hu, hg⟩ := List.mem_filterMap.1 hg
    obtain ⟨u', hu', hre⟩ := exists_mem_of_rel h.units hu
    obtain ⟨g', hg', heq⟩ := exists_gap hre.gap hg
    exact ⟨g', List.mem_append_right _ (List.mem_filterMap.2 ⟨u', hu', hg'⟩), heq⟩

theorem wellFormed (h : f.Reordered f') (hf : f.WellFormed) : f'.WellFormed where
  name := h.name ▸ hf.name
  units_ne_nil := by
    have hnames := perm_map_of_rel h.units fun _ _ h => h.name
    intro hnil
    rw [hnil] at hnames
    exact hf.units_ne_nil (List.map_eq_nil_iff.1 hnames.eq_nil)
  units := by
    intro u' hu'
    obtain ⟨u, hu, hre⟩ := exists_mem_of_rel h.symm.units hu'
    exact hre.symm.wellFormed (hf.units u hu)
  unitNames := (perm_map_of_rel h.units fun _ _ h => h.name).nodup_iff.1 hf.unitNames
  gaps := by
    intro g hg g' hg'
    obtain ⟨k, hk, heq⟩ := h.symm.exists_mem_gaps hg
    obtain ⟨k', hk', heq'⟩ := h.symm.exists_mem_gaps hg'
    rw [heq, heq', hf.gaps k hk k' hk']

/-- The first gaps have one distance, as all of them have. -/
theorem gap_normalise (h : f.Reordered f') (hf : f.WellFormed) :
    f.normalise.gap.map Gap.distance = f'.normalise.gap.map Gap.distance := by
  rw [f.gap_normalise, f'.gap_normalise]
  cases hgaps : f.gaps with
  | nil =>
    have hnone : f'.gaps = [] := by
      refine List.eq_nil_iff_forall_not_mem.2 fun g' hg' => ?_
      obtain ⟨g, hg, _⟩ := h.symm.exists_mem_gaps hg'
      rw [hgaps] at hg
      exact absurd hg List.not_mem_nil
    rw [hnone]
  | cons g rest =>
    have hg : g ∈ f.gaps := hgaps ▸ List.mem_cons_self
    obtain ⟨g', hg', heq⟩ := h.exists_mem_gaps hg
    obtain ⟨first, more, hcons⟩ := List.exists_cons_of_ne_nil (List.ne_nil_of_mem hg')
    have hfirst : first ∈ f'.gaps := hcons ▸ List.mem_cons_self
    have hagree := (h.wellFormed hf).gaps first hfirst g' hg'
    rw [hcons, List.head?_cons, List.head?_cons, Option.map_some, Option.map_some, heq, hagree]

theorem normalise (h : f.Reordered f') (hf : f.WellFormed) :
    f.normalise.Reordered f'.normalise where
  name := h.name
  gap := h.gap_normalise hf
  units := rel_map_of_rel h.units fun _ _ _ hre => hre.normalise

end Field.Reordered

/-! ### Catalogues -/

namespace Catalogue

/-- The same fields in another order, and reordered themselves. -/
def Reordered (fields fields' : List Field) : Prop := Multiset.Rel Field.Reordered fields fields'

namespace Reordered

variable {fields fields' : List Field} {c c' : Catalogue}

theorem symm (h : Reordered fields fields') : Reordered fields' fields :=
  rel_symm (fun _ _ h => h.symm) h

theorem wellFormed (h : Reordered fields fields') (hwell : WellFormed fields) :
    WellFormed fields' where
  each := by
    intro f' hf'
    obtain ⟨f, hf, hre⟩ := exists_mem_of_rel h.symm hf'
    exact hre.symm.wellFormed (hwell.each f hf)
  names := (perm_map_of_rel h fun _ _ h => h.name).nodup_iff.1 hwell.names

/-- Reordered fields are accepted if the fields are. -/
theorem exists_ofFields (h : Reordered fields fields') (hc : ofFields fields = .ok c) :
    ∃ c', ofFields fields' = .ok c' :=
  ⟨_, ofFields_eq_ok_iff.2 ⟨h.wellFormed (ofFields_eq_ok_iff.1 hc).1, rfl⟩⟩

/-- The fields of the catalogues are reordered, too. -/
theorem ofFields (h : Reordered fields fields') (hc : Catalogue.ofFields fields = .ok c)
    (hc' : Catalogue.ofFields fields' = .ok c') : Reordered c.fields c'.fields := by
  obtain ⟨hwell, rfl⟩ := ofFields_eq_ok_iff.1 hc
  obtain ⟨-, rfl⟩ := ofFields_eq_ok_iff.1 hc'
  exact rel_map_of_rel h fun f hf _ hre => hre.normalise (hwell.each f hf)

/-- What is found under a name in one catalogue is found in the other, reordered. -/
theorem field? (h : Reordered c.fields c'.fields) (hnames : (c.fields.map (·.name)).Nodup)
    (name : String) : Option.Rel Field.Reordered (c.field? name) (c'.field? name) := by
  have hnames' := (perm_map_of_rel h fun _ _ h => h.name).nodup_iff.1 hnames
  cases hf : c.field? name with
  | some f =>
    obtain ⟨hmem, hname⟩ := (field?_eq_some_iff hnames).1 hf
    obtain ⟨f', hf', hre⟩ := exists_mem_of_rel h hmem
    rw [(field?_eq_some_iff hnames').2 ⟨hf', hre.name ▸ hname⟩]
    exact .some hre
  | none =>
    cases hf' : c'.field? name with
    | none => exact .none
    | some f' =>
      obtain ⟨hmem, hname⟩ := (field?_eq_some_iff hnames').1 hf'
      obtain ⟨f, hmem, hre⟩ := exists_mem_of_rel h.symm hmem
      have hsome := (field?_eq_some_iff hnames).2 ⟨hmem, hre.name ▸ hname⟩
      rw [hf] at hsome
      cases hsome

/-- Under every name there is a gap in both catalogues, of one distance, or in neither. -/
theorem gap? (h : Reordered c.fields c'.fields) (hnames : (c.fields.map (·.name)).Nodup)
    (name : String) :
    (c.gap? name).map Gap.distance = (c'.gap? name).map Gap.distance := by
  have hfield := h.field? hnames name
  rw [Catalogue.gap?, Catalogue.gap?]
  generalize c.field? name = f, c'.field? name = f' at hfield ⊢
  cases hfield with
  | none => rfl
  | some hre => exact hre.gap

end Reordered

end Catalogue

end QuantityQuery
