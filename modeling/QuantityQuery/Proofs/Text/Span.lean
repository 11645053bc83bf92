/-!
# Spans

A reader takes characters as long as they belong to a class. What it takes of
`l ++ rest` is `l`, if all of `l` belongs to the class and `rest` does not go on
with it. From its end, a text is split at the last of its delimiters
(`append_cons_inj`), from its start at the first one (`append_cons_inj_first`).
-/

namespace QuantityQuery

variable {α : Type} {p : α → Bool} {l rest : List α}

/-- A character of a class is no character outside of it. -/
theorem ne_of_class {c d : α} (hc : p c) (hd : p d = false) : c ≠ d := by
  rintro rfl
  rw [hd] at hc
  cases hc

/-- A text does not begin with a character of the class `p`. -/
def Stops (p : α → Bool) (rest : List α) : Prop := ∀ c ∈ rest.head?, p c = false

@[simp] theorem stops_nil : Stops p [] := fun _ h => nomatch h

@[simp] theorem stops_cons {c : α} : Stops p (c :: rest) ↔ p c = false := by simp [Stops]

theorem Stops.of_append (h : Stops p (l ++ rest)) : Stops p l := by
  cases l with
  | nil => exact stops_nil
  | cons c l => exact stops_cons.2 (stops_cons.1 h)

/-- Whether a text begins with a character of a class does not change by a character outside of the
    class after the text, whatever follows it. -/
theorem stops_append_cons {d : α} (hd : p d = false) : Stops p (l ++ d :: rest) ↔ Stops p l := by
  cases l with
  | nil => simp [hd]
  | cons c l => simp

/-- What is left of a text does not go on with the class that was dropped. -/
theorem stops_dropWhile (p : α → Bool) (l : List α) : Stops p (l.dropWhile p) := by
  induction l with
  | nil => exact stops_nil
  | cons c l ih =>
    rw [List.dropWhile_cons]
    split
    case isTrue => exact ih
    case isFalse hc => exact stops_cons.2 (Bool.eq_false_iff.2 hc)

theorem Stops.takeWhile_eq_nil (h : Stops p rest) : rest.takeWhile p = [] := by
  cases rest with
  | nil => rfl
  | cons c rest => simp [stops_cons.1 h]

theorem Stops.dropWhile_eq_self (h : Stops p rest) : rest.dropWhile p = rest := by
  cases rest with
  | nil => rfl
  | cons c rest => simp [stops_cons.1 h]

theorem takeWhile_append_of_stops (hl : ∀ c ∈ l, p c) (hrest : Stops p rest) :
    (l ++ rest).takeWhile p = l := by
  rw [List.takeWhile_append_of_pos hl, hrest.takeWhile_eq_nil, List.append_nil]

theorem dropWhile_append_of_stops (hl : ∀ c ∈ l, p c) (hrest : Stops p rest) :
    (l ++ rest).dropWhile p = rest := by
  rw [List.dropWhile_append_of_pos hl, hrest.dropWhile_eq_self]

/-- What is taken from the front of a text is not changed by a character outside of the class after
    the text, whatever follows it. -/
theorem takeWhile_append_cons {d : α} (hd : p d = false) (l rest : List α) :
    (l ++ d :: rest).takeWhile p = l.takeWhile p := by
  induction l with
  | nil => exact List.takeWhile_cons_of_neg (Bool.eq_false_iff.1 hd)
  | cons c l ih => rw [List.cons_append, List.takeWhile_cons, List.takeWhile_cons, ih]

theorem dropWhile_append_cons {d : α} (hd : p d = false) (l rest : List α) :
    (l ++ d :: rest).dropWhile p = l.dropWhile p ++ d :: rest := by
  induction l with
  | nil => exact List.dropWhile_cons_of_neg (Bool.eq_false_iff.1 hd)
  | cons c l ih =>
    rw [List.cons_append, List.dropWhile_cons, List.dropWhile_cons, ih]
    split <;> rfl

/-- A text is split at its last delimiter in one way. -/
theorem append_cons_inj {d : α} {x y u v : List α} (hu : d ∉ u) (hv : d ∉ v)
    (h : x ++ d :: u = y ++ d :: v) : x = y ∧ u = v := by
  -- If one delimiter stood before the other, what follows the first would have the second in it.
  rcases List.append_eq_append_iff.1 h with ⟨z, rfl, hz⟩ | ⟨z, rfl, hz⟩
  · cases z with
    | nil => simpa using hz
    | cons c z =>
      rw [List.cons_append] at hz
      exact absurd ((List.cons.inj hz).2 ▸ List.mem_append_right _ List.mem_cons_self) hu
  · cases z with
    | nil => simpa using hz.symm
    | cons c z =>
      rw [List.cons_append] at hz
      exact absurd ((List.cons.inj hz).2 ▸ List.mem_append_right _ List.mem_cons_self) hv

/-- A text is split at its first delimiter in one way. -/
theorem append_cons_inj_first {d : α} {u v x y : List α} (hu : d ∉ u) (hv : d ∉ v)
    (h : u ++ d :: x = v ++ d :: y) : u = v ∧ x = y := by
  have hrev : x.reverse ++ d :: u.reverse = y.reverse ++ d :: v.reverse := by
    simpa using congrArg List.reverse h
  obtain ⟨hx, hu⟩ := append_cons_inj (by simpa using hu) (by simpa using hv) hrev
  exact ⟨List.reverse_inj.1 hu, List.reverse_inj.1 hx⟩

end QuantityQuery
